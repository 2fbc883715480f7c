import SqlClient.Proofs.Value.Bindings
import SqlClient.Proofs.Value.Equality
/-!
# Two documents of one value

The document with the keys of a value in their order and the one with them sorted say the same: they
differ in the order of keys only, and a reader makes one and the same document of their texts.
-/
namespace SqlClient

open SqlClient.Number

namespace Json

/-- The same document but for the order of the keys of objects, each of which stands once. -/
inductive Reordered : Json → Json → Prop where
  | refl (j : Json) : Reordered j j
  | array {items items' : List Json} : List.Forall₂ Reordered items items' →
      Reordered (.array items) (.array items')
  | object {members members' : List (String × Json)} : (members.map Prod.fst).Nodup →
      (members.map Prod.fst).Perm (members'.map Prod.fst) →
      (∀ k j j', (k, j) ∈ members → (k, j') ∈ members' → Reordered j j') →
      Reordered (.object members) (.object members')

/-- Documents that say the same, the second a proper one, and no more than `levels` containers
inside one another. -/
structure SameDocument (levels : Nat) (j j' : Json) : Prop where
  reordered : Reordered j j'
  proper : j'.Proper
  read : ∀ depth, levels < depth →
    ∃ doc, parseWithin depth j.text = some doc ∧ parseWithin depth j'.text = some doc

end Json

namespace Value

theorem itemsToOrderedJson_eq (items : List Value) :
    itemsToOrderedJson items = items.map toOrderedJson := by
  induction items with
  | nil => rfl
  | cons v items ih => rw [itemsToOrderedJson, ih, List.map_cons]

theorem fieldsToOrderedJson_eq (fields : List (String × Value)) :
    fieldsToOrderedJson fields = fields.map fun f => (f.1, f.2.toOrderedJson) := by
  induction fields with
  | nil => rfl
  | cons f fields ih =>
    obtain ⟨k, v⟩ := f
    rw [fieldsToOrderedJson, ih, List.map_cons]

variable {v : Value}

/-- Without parts there is nothing to put in order. -/
theorem toOrderedJson_of_leaf (ha : v.asArray? = none) (hm : v.asMap? = none) :
    v.toOrderedJson = v.toJson := by
  cases v with
  | array => cases ha
  | map => cases hm
  | _ => rfl

theorem proper_toJson (v : Value) : v.toJson.Proper := by
  induction v using induction with
  | leaf v ha hm =>
    cases v with
    | array => cases ha
    | map => cases hm
    | null => exact .null
    | bool b => exact .bool b
    | int i =>
      obtain ⟨low, -, high⟩ := int64_within i
      exact .integer low high
    | float x =>
      rw [toJson]
      split
      · exact .float ‹_›
      · exact .null
    | _ => exact .string _
  | array items ih =>
    rw [toJson, itemsToJson_eq]
    exact .array (List.forall_mem_map.mpr ih)
  | map fields ih =>
    rw [toJson, Json.ofMembers_eq, fieldsToJson_eq]
    refine .object (Json.increasing_sorted _) fun m hm => ?_
    obtain ⟨f, hf, rfl⟩ := List.mem_map.mp (Json.mem_sorted hm)
    exact ih f hf

theorem reordered_toOrderedJson {keys : Set String} (h : v.KeyedBy keys) :
    Json.Reordered v.toOrderedJson v.toJson := by
  induction v using induction with
  | leaf v ha hm =>
    rw [toOrderedJson_of_leaf ha hm]
    exact .refl _
  | array items ih =>
    rw [keyedBy_array] at h
    rw [toOrderedJson, itemsToOrderedJson_eq, toJson, itemsToJson_eq]
    exact .array (List.forall₂_map_left_iff.mpr (List.forall₂_map_right_iff.mpr
      (List.forall₂_same.mpr fun v hv => ih v hv (h v hv))))
  | map fields ih =>
    obtain ⟨distinct, inner⟩ := keyedBy_map.mp h
    have ordered : (fieldsToOrderedJson fields).map Prod.fst = fields.map Prod.fst := by
      rw [fieldsToOrderedJson_eq, List.map_map]
      rfl
    have placed : (Json.sorted (fieldsToJson fields)).Perm (fieldsToJson fields) :=
      Json.perm_sorted (by rwa [map_fst_fieldsToJson])
    rw [toOrderedJson, toJson, Json.ofMembers_eq]
    refine .object (by rwa [ordered]) ?_ fun k j j' hj hj' => ?_
    · rw [ordered, ← map_fst_fieldsToJson]
      exact (placed.map Prod.fst).symm
    · -- there is one field of that key
      rw [fieldsToOrderedJson_eq] at hj
      rw [placed.mem_iff, fieldsToJson_eq] at hj'
      obtain ⟨f, hf, he⟩ := List.mem_map.mp hj
      obtain ⟨f', hf', he'⟩ := List.mem_map.mp hj'
      obtain ⟨rfl, rfl⟩ := Prod.mk.inj he
      obtain ⟨key, rfl⟩ := Prod.mk.inj he'
      obtain rfl := List.inj_on_of_nodup_map distinct hf' hf key
      exact ih f' hf (inner f' hf).2

/-- The texts of both documents are read as the same one. -/
theorem readsAs_toOrderedJson {depth : Nat} (h : v.nesting ≤ depth) :
    ∃ doc, Json.ReadsAs depth v.toOrderedJson doc ∧ Json.ReadsAs depth v.toJson doc := by
  induction v using induction generalizing depth with
  | leaf v ha hm =>
    obtain ⟨doc, read⟩ := (printable_toJson v h).readsAs
    rw [toOrderedJson_of_leaf ha hm]
    exact ⟨doc, read, read⟩
  | array items ih =>
    rw [nesting] at h
    obtain ⟨depth, rfl⟩ := Nat.exists_eq_add_of_le' (Nat.le_of_add_left_le h)
    have within := itemsNesting_le_iff.mp (Nat.le_of_succ_le_succ h)
    obtain ⟨docs, read⟩ := Json.exists_forall₂ fun v hv => ih v hv (within v hv)
    rw [toOrderedJson, itemsToOrderedJson_eq, toJson, itemsToJson_eq]
    refine ⟨.array docs, Json.readsAs_array ?_, Json.readsAs_array ?_⟩
    · exact List.forall₂_map_left_iff.mpr (read.imp fun _ _ both => both.1)
    · exact List.forall₂_map_left_iff.mpr (read.imp fun _ _ both => both.2)
  | map fields ih =>
    rw [nesting] at h
    obtain ⟨depth, rfl⟩ := Nat.exists_eq_add_of_le' (Nat.le_of_add_left_le h)
    have within := fieldsNesting_le_iff.mp (Nat.le_of_succ_le_succ h)
    have each : ∀ f ∈ fields, ∃ m, Json.MemberReadsAs depth (f.1, f.2.toOrderedJson) m ∧
        Json.MemberReadsAs depth (f.1, f.2.toJson) m := by
      intro f hf
      obtain ⟨doc, ordered, sorted⟩ := ih f hf (within f hf)
      exact ⟨(f.1, doc), ⟨rfl, ordered⟩, rfl, sorted⟩
    obtain ⟨members, read⟩ := Json.exists_forall₂ each
    have ordered :
        List.Forall₂ (Json.MemberReadsAs depth) (fieldsToOrderedJson fields) members := by
      rw [fieldsToOrderedJson_eq]
      exact List.forall₂_map_left_iff.mpr (read.imp fun _ _ both => both.1)
    have inOrder : List.Forall₂ (Json.MemberReadsAs depth) (fieldsToJson fields) members := by
      rw [fieldsToJson_eq]
      exact List.forall₂_map_left_iff.mpr (read.imp fun _ _ both => both.2)
    have sorted := Json.readsAs_object (Json.forall₂_sorted (fun same => same.1) inOrder)
    rw [Json.ofMembers_eq, Json.sorted_of_increasing (Json.increasing_sorted members)] at sorted
    exact ⟨_, Json.readsAs_object ordered, sorted⟩

theorem sameDocument_toOrderedJson {keys : Set String} (h : v.KeyedBy keys) :
    Json.SameDocument v.nesting v.toOrderedJson v.toJson := by
  refine ⟨reordered_toOrderedJson h, proper_toJson v, fun depth hd => ?_⟩
  obtain ⟨depth, rfl⟩ := Nat.exists_eq_succ_of_ne_zero (Nat.ne_zero_of_lt hd)
  obtain ⟨doc, ordered, sorted⟩ := readsAs_toOrderedJson (Nat.le_of_lt_succ hd)
  exact ⟨doc, Json.parseWithin_text ordered, Json.parseWithin_text sorted⟩

end Value

/-- The two documents of a value, and those of a record, say the same. -/
theorem renderings_agree :
    (∀ v : KeyedValue, v.value.toOrderedJson.SameDocument v.value.nesting v.value.toJson) ∧
    ∀ r : KeyedRecord, r.toOrderedJson.SameDocument (Value.map r.fields).nesting r.toJson :=
  ⟨fun v => Value.sameDocument_toOrderedJson v.keyed,
    fun r => Value.sameDocument_toOrderedJson r.toValue.keyed⟩

/-- Keys in another order on two levels, and a NaN and bytes among the values. -/
theorem renderings_agree_nested :
    let r := Record.ofList [("b", .array [.float ⟨0x7FF8000000000000⟩, .bytes [171]]),
      ("a", .map [("z", .int 1), ("y", .null)])]
    r.toOrderedJson.text = "\x7b\"b\":[null,\"\\\\xab\"],\"a\":\x7b\"z\":1,\"y\":null\x7d\x7d" ∧
      r.toJson.text = "\x7b\"a\":\x7b\"y\":null,\"z\":1\x7d,\"b\":[null,\"\\\\xab\"]\x7d" ∧
      r.toOrderedJson.SameDocument 2 r.toJson := by
  intro r
  have keyed : ∀ v ∈ r.values, v.KeyedBy Set.univ := by
    simp [r, Record.ofList, Record.values, Record.insert, Record.empty, Fields.insert,
      Value.KeyedBy, Value.ItemsKeyedBy, Value.FieldsKeyedBy]
  exact ⟨by decide +kernel, by decide +kernel, renderings_agree.2 ⟨r, keyed⟩⟩

end SqlClient
