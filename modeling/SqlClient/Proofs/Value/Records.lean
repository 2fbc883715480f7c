import Mathlib.Data.List.Nodup
import SqlClient.Casing
import SqlClient.Proofs.Json.Members
/-!
# Keys of records

What the operations on fields do to their keys and to the value under each. A record that is built
from pairs has the keys of the pairs.
-/
namespace SqlClient

namespace Fields

variable {fields : Fields} {k key : String} {v : Value}

theorem get?_cons (l : String) (w : Value) (fields : Fields) (key : String) :
    get? ((l, w) :: fields) key = if key = l then some w else get? fields key :=
  Json.lookup_cons_eq key l w fields

theorem isSome_get?_iff : (get? fields k).isSome ↔ k ∈ keys fields := by
  induction fields with
  | nil => simp [get?, keys]
  | cons p fields ih =>
    obtain ⟨l, w⟩ := p
    rw [keys_cons, List.mem_cons, ← ih, get?_cons]
    by_cases h : k = l
    · simp [h]
    · simp [h]

theorem mem_of_get? (h : get? fields k = some v) : (k, v) ∈ fields := by
  obtain ⟨before, after, he, -⟩ := List.lookup_eq_some_iff.mp h
  exact he ▸ List.mem_append_right before List.mem_cons_self

theorem mem_keys_of_get? (h : get? fields k = some v) : k ∈ keys fields :=
  List.mem_map_of_mem (mem_of_get? h)

theorem exists_get?_of_mem_keys (h : k ∈ keys fields) : ∃ v, get? fields k = some v :=
  Option.isSome_iff_exists.mp (isSome_get?_iff.mpr h)

theorem mem_keys_insert : key ∈ keys (insert k v fields) ↔ key = k ∨ key ∈ keys fields := by
  rw [keys_insert]
  by_cases h : k ∈ keys fields
  · rw [if_pos h]
    exact ⟨.inr, fun hc => hc.elim (fun he => he ▸ h) id⟩
  · rw [if_neg h, List.mem_append, List.mem_singleton, or_comm]

theorem insert_of_not_mem (h : k ∉ keys fields) : insert k v fields = fields ++ [(k, v)] := by
  induction fields with
  | nil => rfl
  | cons p fields ih =>
    obtain ⟨k', v'⟩ := p
    rw [keys_cons, List.mem_cons, not_or] at h
    rw [insert, if_neg (Ne.symm h.1), ih h.2, List.cons_append]

theorem get?_insert (k : String) (v : Value) (fields : Fields) (key : String) :
    get? (insert k v fields) key = if key = k then some v else get? fields key := by
  induction fields with
  | nil => exact get?_cons k v [] key
  | cons p fields ih =>
    obtain ⟨l, w⟩ := p
    rw [insert]
    by_cases hl : l = k
    · subst hl
      rw [if_pos rfl, get?_cons, get?_cons]
      by_cases hk : key = l
      · rw [if_pos hk, if_pos hk]
      · rw [if_neg hk, if_neg hk, if_neg hk]
    · rw [if_neg hl, get?_cons, get?_cons]
      by_cases hk : key = l
      · rw [if_pos hk, if_pos hk, if_neg]
        rintro rfl
        exact hl hk.symm
      · rw [if_neg hk, if_neg hk]
        exact ih

theorem get?_erase (distinct : (keys fields).Nodup) (k key : String) :
    get? (erase k fields) key = if k = key then none else get? fields key := by
  induction fields with
  | nil => exact (ite_self none).symm
  | cons p fields ih =>
    obtain ⟨l, w⟩ := p
    obtain ⟨fresh, distinct⟩ := List.nodup_cons.mp distinct
    have ih := ih distinct
    have gone : get? fields l = none := by
      rw [← Option.not_isSome_iff_eq_none]
      exact fun held => fresh (isSome_get?_iff.mp held)
    rw [erase, get?_cons]
    by_cases h : l = k
    · subst h
      rw [if_pos rfl]
      by_cases hk : l = key
      · rw [if_pos hk, ← hk, gone]
      · rw [if_neg hk, if_neg (Ne.symm hk)]
    · rw [if_neg h, get?_cons, ih]
      by_cases hk : key = l
      · rw [if_pos hk, if_pos hk, if_neg fun he => h (hk.symm.trans he.symm)]
      · rw [if_neg hk, if_neg hk]

theorem exchange_fst (k : String) (v : Value) (fields : Fields) :
    (exchange k v fields).1 = get? fields k := by
  induction fields with
  | nil => rfl
  | cons p fields ih =>
    obtain ⟨l, w⟩ := p
    rw [exchange, get?_cons]
    by_cases h : l = k
    · rw [if_pos h, if_pos h.symm]
    · rw [if_neg h, if_neg (Ne.symm h), ← ih]

theorem withdraw_fst (k : String) (fields : Fields) : (withdraw k fields).1 = get? fields k := by
  induction fields with
  | nil => rfl
  | cons p fields ih =>
    obtain ⟨l, w⟩ := p
    rw [withdraw, get?_cons]
    by_cases h : l = k
    · rw [if_pos h, if_pos h.symm]
    · rw [if_neg h, if_neg (Ne.symm h), ← ih]

end Fields

namespace Record

variable {r : Record} {k key : String} {v : Value}

theorem nodup_keys (r : Record) : r.keys.Nodup := r.distinct

theorem isSome_get?_iff : (r.get? k).isSome ↔ k ∈ r.keys := Fields.isSome_get?_iff

theorem get?_of_mem (h : (k, v) ∈ r.fields) : r.get? k = some v := Json.lookup_of_mem r.distinct h

theorem keys_insert (k : String) (v : Value) (r : Record) :
    keys (insert k v r) = if k ∈ keys r then keys r else keys r ++ [k] :=
  Fields.keys_insert k v r.fields

theorem get?_insert (k : String) (v : Value) (r : Record) (key : String) :
    get? (insert k v r) key = if key = k then some v else get? r key :=
  Fields.get?_insert k v r.fields key

theorem get?_erase (k : String) (r : Record) (key : String) :
    get? (erase k r) key = if k = key then none else get? r key :=
  Fields.get?_erase r.distinct k key

theorem exchange_eq (k : String) (v : Value) (r : Record) :
    r.exchange k v = (r.get? k, r.insert k v) :=
  Prod.ext (Fields.exchange_fst k v r.fields) (Record.ext (Fields.exchange_snd r.fields))

theorem withdraw_eq (k : String) (r : Record) : r.withdraw k = (r.get? k, r.erase k) :=
  Prod.ext (Fields.withdraw_fst k r.fields) (Record.ext (Fields.withdraw_snd r.fields))

theorem mem_keys_ofList {pairs : List (String × Value)} {c : String} :
    c ∈ keys (ofList pairs) ↔ c ∈ pairs.map Prod.fst := by
  have grows (r : Record) : c ∈ keys (pairs.foldl (fun r p => insert p.1 p.2 r) r) ↔
      c ∈ pairs.map Prod.fst ∨ c ∈ keys r := by
    induction pairs generalizing r with
    | nil => simp
    | cons p pairs ih =>
      have added : c ∈ keys (insert p.1 p.2 r) ↔ c = p.1 ∨ c ∈ keys r := Fields.mem_keys_insert
      rw [List.foldl_cons, ih, added, List.map_cons, List.mem_cons]
      tauto
  exact (grows empty).trans (or_iff_left List.not_mem_nil)

end Record

namespace Casing

theorem map_fst_renameFields (rename : String → String) (fields : List (String × Value)) :
    (renameFields rename fields).map Prod.fst = fields.map fun p => rename p.1 := by
  induction fields with
  | nil => rfl
  | cons p fields ih =>
    obtain ⟨k, v⟩ := p
    rw [renameFields, List.map_cons, List.map_cons, ih]

/-- A row loses no key entirely: it has keys afterwards if it had some before. -/
theorem RowCasing.keys_outbound_eq_nil_iff (casing : RowCasing) {r : Record} :
    (casing.outbound r).keys = [] ↔ r.keys = [] := by
  cases casing with
  | preserve => rfl
  | camel =>
    rw [List.eq_nil_iff_forall_not_mem, List.eq_nil_iff_forall_not_mem]
    simp only [outbound, renameRecord, Record.mem_keys_ofList, map_fst_renameFields]
    constructor
    · intro h k hk
      obtain ⟨p, hp, rfl⟩ := List.mem_map.mp hk
      exact h _ (List.mem_map_of_mem hp)
    · intro h k hk
      obtain ⟨p, hp, -⟩ := List.mem_map.mp hk
      exact h _ (List.mem_map_of_mem hp)

end Casing

end SqlClient
