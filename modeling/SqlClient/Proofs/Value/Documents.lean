import SqlClient.Proofs.Json.Printable
import SqlClient.Proofs.Value.Records
import SqlClient.Value.Json
/-!
# Values as JSON documents

How far containers nest inside one another in a value, that its document nests no further and can be
read from its text, and the values that come back from their documents.
-/
namespace SqlClient

open SqlClient.Calendar SqlClient.Number

theorem Number.Double.numEq_self {x : Double} (h : x.isFinite) : x.numEq x = true := by
  unfold isFinite at h
  unfold numEq
  cases hr : x.reading with
  | finite => simp
  | _ =>
    rw [hr] at h
    cases h

namespace Value

mutual

def nesting : Value → Nat
  | .array items => itemsNesting items + 1
  | .map fields => fieldsNesting fields + 1
  | _ => 0

def itemsNesting : List Value → Nat
  | [] => 0
  | v :: vs => max v.nesting (itemsNesting vs)

def fieldsNesting : List (String × Value) → Nat
  | [] => 0
  | (_, v) :: rest => max v.nesting (fieldsNesting rest)

end

theorem itemsNesting_le_iff {items : List Value} {n : Nat} :
    itemsNesting items ≤ n ↔ ∀ v ∈ items, v.nesting ≤ n := by
  induction items with
  | nil => simp [itemsNesting]
  | cons v items ih => simp [itemsNesting, ih]

theorem fieldsNesting_le_iff {fields : List (String × Value)} {n : Nat} :
    fieldsNesting fields ≤ n ↔ ∀ f ∈ fields, f.2.nesting ≤ n := by
  induction fields with
  | nil => simp [fieldsNesting]
  | cons f fields ih =>
    obtain ⟨k, v⟩ := f
    simp [fieldsNesting, ih]

theorem itemsToJson_eq (items : List Value) : itemsToJson items = items.map toJson := by
  induction items with
  | nil => rfl
  | cons v items ih => rw [itemsToJson, ih, List.map_cons]

theorem fieldsToJson_eq (fields : List (String × Value)) :
    fieldsToJson fields = fields.map fun f => (f.1, f.2.toJson) := by
  induction fields with
  | nil => rfl
  | cons f fields ih =>
    obtain ⟨k, v⟩ := f
    rw [fieldsToJson, ih, List.map_cons]

theorem ofJsonItems_eq (items : List Json) : ofJsonItems items = items.map ofJson := by
  induction items with
  | nil => rfl
  | cons j items ih => rw [ofJsonItems, ih, List.map_cons]

theorem ofJsonMembers_eq (members : List (String × Json)) :
    ofJsonMembers members = members.map fun m => (m.1, ofJson m.2) := by
  induction members with
  | nil => rfl
  | cons m members ih =>
    obtain ⟨k, j⟩ := m
    rw [ofJsonMembers, ih, List.map_cons]

theorem map_fst_fieldsToJson (fields : List (String × Value)) :
    (fieldsToJson fields).map Prod.fst = fields.map Prod.fst := by
  rw [fieldsToJson_eq, List.map_map]
  rfl

/-- Every integer of 64 bits can be read from its text. -/
theorem int64_within (i : Int64) :
    -int64Limit ≤ i.toInt ∧ i.toInt < int64Limit ∧ i.toInt ≤ Json.significandLimit := by
  have low := i.le_toInt
  have high := i.toInt_lt
  have below : (int64Limit : Int) = 2 ^ 63 := rfl
  have above : (Json.significandLimit : Int) = 2 ^ 64 - 1 := rfl
  omega

mutual

/-- The document of a value nests no deeper than the value, and its text can be read. -/
theorem printable_toJson (v : Value) {depth : Nat} (h : v.nesting ≤ depth) :
    Json.Printable depth v.toJson := by
  cases v with
  | null => exact .null
  | bool b => exact .bool b
  | int i =>
    obtain ⟨low, -, high⟩ := int64_within i
    exact .integer low high
  | float x =>
    rw [toJson]
    split
    · exact .float x
    · exact .null
  | decimal d => exact .string _
  | text s => exact .string s
  | bytes b => exact .string _
  | timestamp t => exact .string _
  | date d => exact .string _
  | uuid u => exact .string _
  | array items =>
    rw [nesting] at h
    obtain ⟨depth, rfl⟩ := Nat.exists_eq_add_of_le' (Nat.le_of_add_left_le h)
    exact .array (printable_itemsToJson items (Nat.le_of_succ_le_succ h))
  | map fields =>
    rw [nesting] at h
    obtain ⟨depth, rfl⟩ := Nat.exists_eq_add_of_le' (Nat.le_of_add_left_le h)
    exact Json.printable_ofMembers (printable_fieldsToJson fields (Nat.le_of_succ_le_succ h))

theorem printable_itemsToJson (items : List Value) {depth : Nat} (h : itemsNesting items ≤ depth) :
    ∀ j ∈ itemsToJson items, Json.Printable depth j := by
  cases items with
  | nil => exact List.forall_mem_nil _
  | cons v items =>
    rw [itemsNesting, max_le_iff] at h
    exact List.forall_mem_cons.mpr ⟨printable_toJson v h.1, printable_itemsToJson items h.2⟩

theorem printable_fieldsToJson (fields : List (String × Value)) {depth : Nat}
    (h : fieldsNesting fields ≤ depth) :
    ∀ m ∈ fieldsToJson fields, Json.Printable depth m.2 := by
  cases fields with
  | nil => exact List.forall_mem_nil _
  | cons f fields =>
    obtain ⟨k, v⟩ := f
    rw [fieldsNesting, max_le_iff] at h
    exact List.forall_mem_cons.mpr ⟨printable_toJson v h.1, printable_fieldsToJson fields h.2⟩

end

inductive Plain : Value → Prop where
  | null : Plain .null
  | bool (b : Bool) : Plain (.bool b)
  | int (i : Int64) : Plain (.int i)
  | text (s : String) : Plain (.text s)
  | array {items : List Value} : (∀ v ∈ items, Plain v) → Plain (.array items)
  | map {fields : List (String × Value)} : (fields.map Prod.fst).Nodup →
      (∀ f ∈ fields, Plain f.2) → Plain (.map fields)

inductive FloatFree : Value → Prop where
  | null : FloatFree .null
  | bool (b : Bool) : FloatFree (.bool b)
  | int (i : Int64) : FloatFree (.int i)
  | decimal (d : Decimal) : FloatFree (.decimal d)
  | text (s : String) : FloatFree (.text s)
  | bytes (b : Bytes) : FloatFree (.bytes b)
  | timestamp (t : Instant) : FloatFree (.timestamp t)
  | date (d : Date) : FloatFree (.date d)
  | uuid (u : Uuid) : FloatFree (.uuid u)
  | array {items : List Value} : (∀ v ∈ items, FloatFree v) → FloatFree (.array items)
  | map {fields : List (String × Value)} : (∀ f ∈ fields, FloatFree f.2) → FloatFree (.map fields)

theorem Plain.floatFree {v : Value} (h : v.Plain) : v.FloatFree := by
  induction h with
  | null => exact .null
  | bool b => exact .bool b
  | int i => exact .int i
  | text s => exact .text s
  | array _ ih => exact .array ih
  | map _ _ ih => exact .map ih

/-- The text of a document without floats is read as the document. -/
theorem FloatFree.readsAs {v : Value} (h : v.FloatFree) {depth : Nat} (hd : v.nesting ≤ depth) :
    Json.ReadsAs depth v.toJson v.toJson := by
  induction h generalizing depth with
  | null => exact Json.readsAs_null
  | bool b => exact Json.readsAs_bool b
  | int i =>
    obtain ⟨low, -, high⟩ := int64_within i
    exact Json.readsAs_integer low high
  | @array items _ ih =>
    rw [nesting] at hd
    obtain ⟨depth, rfl⟩ := Nat.exists_eq_add_of_le' (Nat.le_of_add_left_le hd)
    have within := itemsNesting_le_iff.mp (Nat.le_of_succ_le_succ hd)
    rw [toJson, itemsToJson_eq]
    refine Json.readsAs_array (List.forall₂_same.mpr fun j hj => ?_)
    obtain ⟨v, hv, rfl⟩ := List.mem_map.mp hj
    exact ih v hv (within v hv)
  | @map fields _ ih =>
    rw [nesting] at hd
    obtain ⟨depth, rfl⟩ := Nat.exists_eq_add_of_le' (Nat.le_of_add_left_le hd)
    have within := fieldsNesting_le_iff.mp (Nat.le_of_succ_le_succ hd)
    rw [toJson, Json.ofMembers_eq]
    have same := Json.sorted_of_increasing (Json.increasing_sorted (fieldsToJson fields))
    have members : List.Forall₂ (Json.MemberReadsAs depth) (Json.sorted (fieldsToJson fields))
        (Json.sorted (fieldsToJson fields)) := by
      apply List.forall₂_same.mpr
      intro m hm
      have member := Json.mem_sorted hm
      rw [fieldsToJson_eq] at member
      obtain ⟨f, hf, rfl⟩ := List.mem_map.mp member
      exact ⟨rfl, ih f hf (within f hf)⟩
    have read := Json.readsAs_object members
    rwa [Json.ofMembers_eq, same] at read
  -- every other kind is shown as a string
  | _ => exact Json.readsAs_string _

theorem itemsEq_of_forall₂ {xs ys : List Value} (h : List.Forall₂ (numEq · · = true) xs ys) :
    itemsEq xs ys = true := by
  induction h with
  | nil => rfl
  | cons first _ ih =>
    rw [itemsEq, first, ih]
    rfl

theorem fieldsWithin_of {xs ys : List (String × Value)}
    (h : ∀ f ∈ xs, ∃ y, ys.lookup f.1 = some y ∧ numEq f.2 y = true) :
    fieldsWithin xs ys = true := by
  induction xs with
  | nil => rfl
  | cons f xs ih =>
    obtain ⟨k, x⟩ := f
    obtain ⟨y, found, equal⟩ := h _ List.mem_cons_self
    dsimp only at found equal
    rw [fieldsWithin, found, ih fun f hf => h f (List.mem_cons_of_mem _ hf)]
    simp [equal]

theorem ofList_eq_self {fields : List (String × Value)} (h : (fields.map Prod.fst).Nodup) :
    (Record.ofList fields).fields = fields := by
  have grows (start : Record) (hs : (start.keys ++ fields.map Prod.fst).Nodup) :
      (fields.foldl (fun r p => r.insert p.1 p.2) start).fields = start.fields ++ fields := by
    induction fields generalizing start with
    | nil => exact (List.append_nil start.fields).symm
    | cons f fields ih =>
      have fresh : f.1 ∉ start.keys := fun hk =>
        List.disjoint_of_nodup_append hs hk List.mem_cons_self
      have added : (start.insert f.1 f.2).fields = start.fields ++ [f] :=
        Fields.insert_of_not_mem fresh
      rw [List.foldl_cons, ih (List.nodup_cons.mp h).2, added, List.append_assoc,
        List.singleton_append]
      rw [Record.keys, added, Fields.keys, List.map_append, List.append_assoc]
      exact hs
  exact grows Record.empty h

/-- Built from what a document keeps: plain values and finite floats. -/
inductive Lossless : Value → Prop where
  | null : Lossless .null
  | bool (b : Bool) : Lossless (.bool b)
  | int (i : Int64) : Lossless (.int i)
  | float {x : Double} : x.isFinite → Lossless (.float x)
  | text (s : String) : Lossless (.text s)
  | array {items : List Value} : (∀ v ∈ items, Lossless v) → Lossless (.array items)
  | map {fields : List (String × Value)} : (fields.map Prod.fst).Nodup →
      (∀ f ∈ fields, Lossless f.2) → Lossless (.map fields)

theorem Plain.lossless {v : Value} (h : v.Plain) : v.Lossless := by
  induction h with
  | null => exact .null
  | bool b => exact .bool b
  | int i => exact .int i
  | text s => exact .text s
  | array _ ih => exact .array ih
  | map distinct _ ih => exact .map distinct ih

/-- What is read from the document of a map has its keys in order. -/
theorem ofJson_toJson_map (fields : List (String × Value)) : ofJson (toJson (.map fields)) =
    .map ((Json.sorted (fieldsToJson fields)).map fun m => (m.1, ofJson m.2)) := by
  rw [toJson, Json.ofMembers_eq, ofJson, ofJsonMembers_eq, ofList_eq_self]
  rw [List.map_map]
  exact ((Json.increasing_sorted (fieldsToJson fields)).imp ne_of_lt).map _ fun _ _ h => h

/-- A value comes back from its document, up to the order of keys; either may stand first. -/
theorem Lossless.numEq_ofJson {v : Value} (h : v.Lossless) :
    numEq v (ofJson v.toJson) = true ∧ numEq (ofJson v.toJson) v = true := by
  have scalar {v : Value} (back : ofJson v.toJson = v) (self : numEq v v = true) :
      numEq v (ofJson v.toJson) = true ∧ numEq (ofJson v.toJson) v = true := by
    rw [back]
    exact ⟨self, self⟩
  induction h with
  | null => exact scalar rfl rfl
  | bool b => exact scalar rfl (beq_self_eq_true b)
  | text s => exact scalar rfl (beq_self_eq_true s)
  | int i =>
    have fits : fitsInt64 i.toInt = true := by
      obtain ⟨low, high, -⟩ := int64_within i
      rw [fitsInt64, Bool.and_eq_true, decide_eq_true_eq, decide_eq_true_eq]
      exact ⟨low, high⟩
    refine scalar ?_ (beq_self_eq_true i)
    rw [toJson, ofJson, if_pos fits, Int64.ofInt_toInt]
  | float finite => exact scalar (by rw [toJson, if_pos finite, ofJson]) (Double.numEq_self finite)
  | @array items _ ih =>
    have back : ofJson (toJson (.array items)) = .array (items.map fun v => ofJson v.toJson) := by
      rw [toJson, ofJson, ofJsonItems_eq, itemsToJson_eq, List.map_map]
      rfl
    rw [back, numEq, numEq]
    constructor
    · exact itemsEq_of_forall₂ (List.forall₂_map_right_iff.mpr
        (List.forall₂_same.mpr fun v hv => (ih v hv).1))
    · exact itemsEq_of_forall₂ (List.forall₂_map_left_iff.mpr
        (List.forall₂_same.mpr fun v hv => (ih v hv).2))
  | @map fields distinct _ ih =>
    have keys : ((fieldsToJson fields).map Prod.fst).Nodup := by
      rwa [map_fst_fieldsToJson]
    have length : (Json.sorted (fieldsToJson fields)).length = fields.length := by
      rw [Json.length_sorted keys, fieldsToJson_eq, List.length_map]
    rw [ofJson_toJson_map, numEq, numEq, List.length_map, length, beq_self_eq_true, Bool.true_and,
      Bool.true_and]
    constructor
    · refine fieldsWithin_of fun f hf => ⟨ofJson f.2.toJson, ?_, (ih f hf).1⟩
      have document : (f.1, f.2.toJson) ∈ fieldsToJson fields := by
        rw [fieldsToJson_eq]
        exact List.mem_map_of_mem hf
      rw [Json.lookup_map_snd, Json.lookup_sorted keys, Json.lookup_of_mem keys document]
      rfl
    · refine fieldsWithin_of fun m hm => ?_
      obtain ⟨member, sorted, rfl⟩ := List.mem_map.mp hm
      have document := Json.mem_sorted sorted
      rw [fieldsToJson_eq] at document
      obtain ⟨f, hf, rfl⟩ := List.mem_map.mp document
      exact ⟨f.2, Json.lookup_of_mem distinct hf, (ih f hf).2⟩

end Value

end SqlClient
