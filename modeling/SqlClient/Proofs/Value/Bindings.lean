import SqlClient.Proofs.Value.Documents
import SqlClient.Proofs.Wire.Integers
/-!
# Documents as bound values

What is sent where a JSON document is bound: null is `NULL`, a text that is a document itself goes
out as that document, an integer too large for 64 bits as a float, and everything else as it is. A
document comes back from the value that it is read as, and a value from its document, where each
holds only what the other can.
-/
namespace SqlClient

open SqlClient.Number SqlClient.Wire

namespace Json

/-- A document as programs hold it: integers of 64 bits with or without a sign, finite floats, and
objects whose keys stand in order. -/
inductive Proper : Json → Prop where
  | null : Proper .null
  | bool (b : Bool) : Proper (.bool b)
  | integer {n : Int} : -int64Limit ≤ n → n ≤ significandLimit → Proper (.integer n)
  | float {x : Double} : x.isFinite → Proper (.float x)
  | string (s : String) : Proper (.string s)
  | array {items : List Json} : (∀ j ∈ items, Proper j) → Proper (.array items)
  | object {members : List (String × Json)} : Increasing members → (∀ m ∈ members, Proper m.2) →
      Proper (.object members)

inductive Signed : Json → Prop where
  | null : Signed .null
  | bool (b : Bool) : Signed (.bool b)
  | integer {n : Int} : fitsInt64 n → Signed (.integer n)
  | float (x : Double) : Signed (.float x)
  | string (s : String) : Signed (.string s)
  | array {items : List Json} : (∀ j ∈ items, Signed j) → Signed (.array items)
  | object {members : List (String × Json)} : (∀ m ∈ members, Signed m.2) → Signed (.object members)

mutual

/-- The document with a float in place of each integer that does not fit 64 bits with a sign. -/
def signed : Json → Json
  | .integer n => if fitsInt64 n then .integer n else .float (.ofInt n)
  | .array items => .array (signedItems items)
  | .object members => .object (signedMembers members)
  | j => j

def signedItems : List Json → List Json
  | [] => []
  | j :: js => j.signed :: signedItems js

def signedMembers : List (String × Json) → List (String × Json)
  | [] => []
  | (k, j) :: rest => (k, j.signed) :: signedMembers rest

end

def sent? : Json → Option Json
  | .null => none
  | .string s => some ((parse s).getD (.string s))
  | j => some j.signed

theorem signedItems_eq (items : List Json) : signedItems items = items.map signed := by
  induction items with
  | nil => rfl
  | cons j items ih => rw [signedItems, ih, List.map_cons]

theorem signedMembers_eq (members : List (String × Json)) :
    signedMembers members = members.map fun m => (m.1, m.2.signed) := by
  induction members with
  | nil => rfl
  | cons m members ih =>
    obtain ⟨k, j⟩ := m
    rw [signedMembers, ih, List.map_cons]

theorem Signed.signed_eq {j : Json} (h : j.Signed) : j.signed = j := by
  induction h with
  | integer fits => exact if_pos fits
  | @array items _ ih =>
    rw [signed, signedItems_eq, List.map_congr_left ih, List.map_id']
  | @object members _ ih =>
    have same : ∀ m ∈ members, (m.1, m.2.signed) = m := fun m hm => by rw [ih m hm]
    rw [signed, signedMembers_eq, List.map_congr_left same, List.map_id']
  | _ => rfl

/-- What is no text of a document goes out as it is. -/
theorem Signed.sent?_eq {j : Json} (h : j.Signed) (hn : j ≠ .null)
    (ht : ∀ s, j = .string s → parse s = none) : j.sent? = some j := by
  cases j with
  | null => exact absurd rfl hn
  | string s =>
    rw [sent?, ht s rfl]
    rfl
  | _ => exact congrArg some h.signed_eq

theorem isFinite_ofInt {n : Int} (hl : 0 < n) (hu : n ≤ significandLimit) :
    (Double.ofInt n).isFinite = true := by
  have most : (significandLimit : Int) ≤ 2 ^ 64 := by decide
  have below : (n : ℚ) ≤ 2 ^ 64 := by exact_mod_cast hu.trans most
  have power : (2 : ℚ) ^ 12 ≤ 2 ^ (971 : ℤ) := by
    rw [zpow_ofNat]
    exact pow_le_pow_right₀ (by norm_num) (by norm_num)
  have large : (2 : ℚ) ^ 64 < BinaryFormat.overflow :=
    calc (2 : ℚ) ^ 64 < (2 ^ 53 - 1 / 2) * 2 ^ 12 := by norm_num
      _ ≤ (2 ^ 53 - 1 / 2) * 2 ^ (971 : ℤ) := mul_le_mul_of_nonneg_left power (by norm_num)
  exact Double.isFinite_ofRat (Int.cast_pos.mpr hl) (below.trans_lt large)

/-- A document that was bound is sent with its large integers as floats. -/
theorem Proper.toJson_ofJson {j : Json} (h : j.Proper) : (Value.ofJson j).toJson = j.signed := by
  induction h with
  | null => rfl
  | bool b => rfl
  | string s => rfl
  | @integer n low high =>
    rw [Value.ofJson, signed]
    by_cases fits : fitsInt64 n = true
    · obtain ⟨hl, hu⟩ := fitsInt64_iff.mp fits
      rw [if_pos fits, if_pos fits, Value.toJson, toInt_ofInt hl hu]
    · have limit : (int64Limit : Int) = 2 ^ 63 := rfl
      have positive : 0 < n := by
        rw [fitsInt64_iff] at fits
        omega
      rw [if_neg fits, if_neg fits, Value.toJson, if_pos (isFinite_ofInt positive high)]
  | float finite => exact if_pos finite
  | @array items _ ih =>
    have same : (Value.ofJsonItems items).map Value.toJson = items.map signed := by
      rw [Value.ofJsonItems_eq, List.map_map]
      exact List.map_congr_left ih
    rw [Value.ofJson, Value.toJson, Value.itemsToJson_eq, same, signed, signedItems_eq]
  | @object members increasing _ ih =>
    have keys : (Value.ofJsonMembers members).map Prod.fst = members.map Prod.fst := by
      rw [Value.ofJsonMembers_eq, List.map_map]
      rfl
    have distinct : (members.map Prod.fst).Nodup := List.pairwise_map.mpr (increasing.imp ne_of_lt)
    have same : Value.fieldsToJson (Value.ofJsonMembers members) = signedMembers members := by
      rw [Value.fieldsToJson_eq, Value.ofJsonMembers_eq, List.map_map, signedMembers_eq]
      exact List.map_congr_left fun m hm => congrArg (Prod.mk m.1) (ih m hm)
    have ordered : Increasing (signedMembers members) := by
      rw [signedMembers_eq]
      exact increasing.map _ fun _ _ h => h
    rw [Value.ofJson, Value.ofList_eq_self (keys ▸ distinct), Value.toJson, same, ofMembers_eq,
      sorted_of_increasing ordered, signed]

theorem Proper.encode_ofJson {j : Json} (h : j.Proper) :
    encode .jsonb (.ofJson j) = .ok (j.sent?.map fun doc => 1 :: utf8 doc.text) := by
  have document := h.toJson_ofJson
  have sent {doc : Json} (hw : write .jsonb (.ofJson j) = writeJson .jsonb doc) :
      encode .jsonb (.ofJson j) = .ok (some (1 :: utf8 doc.text)) := by
    rw [encode, hw, writeJson_eq, result_send, if_pos rfl, bytesOf]
  cases j with
  | null => rfl
  | string s => exact sent rfl
  | integer n =>
    refine sent ?_
    rw [← document, Value.ofJson]
    split <;> rfl
  | _ =>
    refine sent ?_
    rw [← document]
    rfl

end Json

theorem Json.Proper.toJson_ofJson_of_signed {j : Json} (h : j.Proper) (signed : j.Signed) :
    (Value.ofJson j).toJson = j := by
  rw [h.toJson_ofJson, signed.signed_eq]

/-- A document that is read as a map is read as the record of its fields, and no other is. -/
theorem Record.map_fields_ofJson? (j : Json) :
    (Record.ofJson? j).map Record.fields = (Value.ofJson j).asMap? := by
  cases j with
  | object members => rfl
  | integer n =>
    rw [Value.ofJson]
    split <;> rfl
  | _ => rfl

theorem Record.ofJson?_eq_none_iff {j : Json} :
    Record.ofJson? j = none ↔ ∀ members, j ≠ .object members := by
  constructor
  · rintro none members rfl
    cases none
  · intro other
    cases j with
    | object members => exact absurd rfl (other members)
    | _ => rfl

/-- A record comes back from its document with its fields in order of their keys. -/
theorem Record.ofJson?_toJson (r : Record) : ∃ back, Record.ofJson? r.toJson = some back ∧
    back.fields = (Json.sorted (Value.fieldsToJson r.fields)).map fun m =>
      (m.1, Value.ofJson m.2) := by
  have read := Record.map_fields_ofJson? r.toJson
  rw [toJson, Value.ofJson_toJson_map] at read
  exact Option.map_eq_some_iff.mp read

/-- Nothing is lost from a document to a value, from a value to a document, or for records. -/
theorem json_lossless :
    (∀ j : Json, j.Proper → j.Signed → (Value.ofJson j).toJson = j) ∧
    (∀ v : Value, v.Lossless → (Value.ofJson v.toJson).numEq v = true) ∧
    (∀ r : Record, (Value.map r.fields).Lossless →
      ∃ back, Record.ofJson? r.toJson = some back ∧ back.numEq r = true) ∧
    ∀ j : Json, Record.ofJson? j = none ↔ ∀ members, j ≠ .object members := by
  refine ⟨fun j proper signed => proper.toJson_ofJson_of_signed signed,
    fun v lossless => lossless.numEq_ofJson.2, fun r lossless => ?_,
    fun j => Record.ofJson?_eq_none_iff⟩
  obtain ⟨back, read, fields⟩ := r.ofJson?_toJson
  have same := lossless.numEq_ofJson.2
  rw [Value.ofJson_toJson_map, ← fields] at same
  exact ⟨back, read, same⟩

/-- The keys of a map change places in its document, and those of a document do not in a map. -/
theorem json_lossless_reordered :
    let half : Double := ⟨0x3FE0000000000000⟩
    let r := Record.ofList [("b", .float half), ("a", .array [.int (-5), .null])]
    let j : Json := .object [("a", .array [.integer (-5), .null]), ("b", .float half)]
    r.toJson.text = "\x7b\"a\":[-5,null],\"b\":0.5\x7d" ∧
      (Value.ofJson j).toJson = j ∧
      (Value.ofJson (Value.map r.fields).toJson).numEq (.map r.fields) = true ∧
      (∃ back, Record.ofJson? r.toJson = some back ∧ back.numEq r = true) ∧
      Record.ofJson? (.array [j]) = none := by
  intro half r j
  obtain ⟨documents, values, records, others⟩ := json_lossless
  have finite : half.isFinite = true := by decide
  have items : ∀ i ∈ [Json.integer (-5), .null], i.Proper ∧ i.Signed :=
    List.forall_mem_cons.mpr ⟨⟨.integer (by decide) (by decide), .integer (by decide)⟩,
      List.forall_mem_singleton.mpr ⟨.null, .null⟩⟩
  have array : (Json.array [.integer (-5), .null]).Proper ∧
      (Json.array [.integer (-5), .null]).Signed :=
    ⟨.array fun i hi => (items i hi).1, .array fun i hi => (items i hi).2⟩
  have members : ∀ m ∈ [("a", Json.array [.integer (-5), .null]), ("b", .float half)],
      m.2.Proper ∧ m.2.Signed :=
    List.forall_mem_cons.mpr ⟨array, List.forall_mem_singleton.mpr ⟨.float finite, .float half⟩⟩
  have proper : j.Proper :=
    .object (List.pairwise_pair.mpr (by decide)) fun m hm => (members m hm).1
  have signed : j.Signed := .object fun m hm => (members m hm).2
  have fields : ∀ f ∈ r.fields, f.2.Lossless :=
    List.forall_mem_cons.mpr ⟨.float finite, List.forall_mem_singleton.mpr
      (.array (List.forall_mem_cons.mpr ⟨.int _, List.forall_mem_singleton.mpr .null⟩))⟩
  have lossless : (Value.map r.fields).Lossless := .map r.distinct fields
  exact ⟨by decide +kernel, documents j proper signed, values _ lossless, records r lossless,
    (others _).mpr fun _ he => Json.noConfusion he⟩

end SqlClient
