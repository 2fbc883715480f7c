import SqlClient.Proofs.Value.Documents
/-!
# Values under names

A record built from named values has each name once, in the order in which the names are first
seen, and under it one of the values of that name. The same holds after its keys were converted,
where names that differ may become one.
-/
namespace SqlClient

section Dedup

variable {α : Type} [DecidableEq α]

theorem eraseDups_concat (xs : List α) (x : α) :
    (xs ++ [x]).eraseDups = if x ∈ xs then xs.eraseDups else xs.eraseDups ++ [x] := by
  rw [List.eraseDups_append]
  by_cases h : x ∈ xs
  · simp [List.removeAll, h]
  · simp [List.removeAll, h, List.eraseDups_cons]

theorem sublist_eraseDups (xs : List α) : List.Sublist xs.eraseDups xs := by
  induction xs using List.reverseRecOn with
  | nil => exact List.Sublist.slnil
  | append_singleton xs x ih =>
    rw [eraseDups_concat]
    split
    · exact ih.trans (List.sublist_append_left xs [x])
    · exact ih.append (List.Sublist.refl [x])

theorem nodup_eraseDups (xs : List α) : xs.eraseDups.Nodup := by
  induction xs using List.reverseRecOn with
  | nil => exact List.nodup_nil
  | append_singleton xs x ih =>
    rw [eraseDups_concat]
    split
    · exact ih
    · rename_i fresh
      refine ih.append (List.nodup_singleton x) (List.disjoint_singleton.mpr ?_)
      rwa [List.mem_eraseDups]

/-- If nothing is left out, nothing was there twice. -/
theorem nodup_of_length_eraseDups {xs : List α} (h : xs.eraseDups.length = xs.length) :
    xs.Nodup := by
  rw [← (sublist_eraseDups xs).eq_of_length h]
  exact nodup_eraseDups xs

theorem eraseDups_map_eraseDups {β : Type} [DecidableEq β] (f : α → β) (xs : List α) :
    (xs.eraseDups.map f).eraseDups = (xs.map f).eraseDups := by
  induction xs using List.reverseRecOn with
  | nil => rfl
  | append_singleton xs x ih =>
    have same : f x ∈ xs.eraseDups.map f ↔ f x ∈ xs.map f := by
      simp only [List.mem_map, List.mem_eraseDups]
    rw [eraseDups_concat, List.map_append, List.map_singleton, eraseDups_concat, ← ih]
    by_cases h : x ∈ xs
    · rw [if_pos h, if_pos (List.mem_map_of_mem h)]
    · rw [if_neg h, List.map_append, List.map_singleton, eraseDups_concat]
      simp only [same]

end Dedup

namespace Record

variable {row : Record} {names : List String} {values : List Value}

/-- A record of these values under these names, which need not differ. -/
structure Shows (row : Record) (names : List String) (values : List Value) : Prop where
  keys : row.keys = names.eraseDups
  held : ∀ key ∈ row.keys, ∃ (i : Nat) (v : Value),
    names[i]? = some key ∧ values[i]? = some v ∧ row.get? key = some v
  aligned : names.Nodup → row.keys = names ∧ row.values = values

theorem ofList_concat (pairs : List (String × Value)) (p : String × Value) :
    ofList (pairs ++ [p]) = insert p.1 p.2 (ofList pairs) := by
  rw [ofList, List.foldl_append]
  rfl

theorem keys_ofList (pairs : List (String × Value)) :
    keys (ofList pairs) = (pairs.map Prod.fst).eraseDups := by
  induction pairs using List.reverseRecOn with
  | nil => rfl
  | append_singleton pairs p ih =>
    rw [ofList_concat, keys_insert, ih, List.map_append, List.map_singleton, eraseDups_concat]
    simp only [List.mem_eraseDups]

theorem mem_of_get?_ofList {pairs : List (String × Value)} {key : String} {v : Value}
    (h : get? (ofList pairs) key = some v) : (key, v) ∈ pairs := by
  induction pairs using List.reverseRecOn with
  | nil => cases h
  | append_singleton pairs p ih =>
    rw [ofList_concat, get?_insert] at h
    rw [List.mem_append, List.mem_singleton]
    split at h
    · rename_i hk
      cases h
      exact .inr (by rw [hk])
    · exact .inl (ih h)

theorem mem_of_mem_ofList {pairs : List (String × Value)} {p : String × Value}
    (h : p ∈ (ofList pairs).fields) : p ∈ pairs :=
  mem_of_get?_ofList (get?_of_mem h)

theorem shows_ofList (pairs : List (String × Value)) :
    (ofList pairs).Shows (pairs.map Prod.fst) (pairs.map Prod.snd) := by
  constructor
  · exact keys_ofList pairs
  · intro key hk
    obtain ⟨v, hv⟩ := Option.isSome_iff_exists.mp (isSome_get?_iff.mpr hk)
    obtain ⟨i, hi⟩ := List.mem_iff_getElem?.mp (mem_of_get?_ofList hv)
    refine ⟨i, v, ?_, ?_, hv⟩
    · rw [List.getElem?_map, hi]
      rfl
    · rw [List.getElem?_map, hi]
      rfl
  · intro distinct
    rw [Record.keys, Record.values, Value.ofList_eq_self distinct]
    exact ⟨rfl, rfl⟩

/-- Converted names show converted values, whichever of them become equal. -/
theorem Shows.converted (h : row.Shows names values) (f : String → String) (g : Value → Value) :
    (ofList (row.fields.map fun p => (f p.1, g p.2))).Shows (names.map f) (values.map g) := by
  let pairs := row.fields.map fun p => (f p.1, g p.2)
  have first : pairs.map Prod.fst = row.keys.map f := by
    rw [List.map_map, Record.keys, Fields.keys, List.map_map]
    rfl
  have second : pairs.map Prod.snd = row.values.map g := by
    rw [List.map_map, Record.values, List.map_map]
    rfl
  have shown := shows_ofList pairs
  constructor
  · rw [shown.keys, first, h.keys, eraseDups_map_eraseDups]
  · intro key hk
    obtain ⟨v, hv⟩ := Option.isSome_iff_exists.mp (isSome_get?_iff.mpr hk)
    obtain ⟨⟨k, w⟩, hp, he⟩ := List.mem_map.mp (mem_of_get?_ofList hv)
    cases he
    obtain ⟨i, w', hn, hw, held⟩ := h.held k (List.mem_map_of_mem hp)
    have here : get? row k = some w := get?_of_mem hp
    obtain rfl : w = w' := Option.some.inj (here.symm.trans held)
    refine ⟨i, g w, ?_, ?_, hv⟩
    · rw [List.getElem?_map, hn]
      rfl
    · rw [List.getElem?_map, hw]
      rfl
  · intro distinct
    obtain ⟨hk, hv⟩ := h.aligned distinct.of_map
    rw [hk] at first
    rw [hv] at second
    rw [← first, ← second]
    exact shown.aligned (first ▸ distinct)

end Record

namespace Casing

def RowCasing.inboundValue (casing : RowCasing) (v : Value) : Value :=
  match casing with
  | .camel => toApplicationCase v
  | .preserve => v

theorem renameItems_eq_map (rename : String → String) (items : List Value) :
    renameItems rename items = items.map (renameKeys rename) := by
  induction items with
  | nil => rfl
  | cons v items ih => rw [renameItems, ih, List.map_cons]

theorem renameFields_eq_map (rename : String → String) (fields : List (String × Value)) :
    renameFields rename fields = fields.map fun p => (rename p.1, renameKeys rename p.2) := by
  induction fields with
  | nil => rfl
  | cons p fields ih =>
    obtain ⟨k, v⟩ := p
    rw [renameFields, ih, List.map_cons]

theorem keys_renameRecord (rename : String → String) (r : Record) :
    (renameRecord rename r).keys = (r.keys.map rename).eraseDups := by
  have renamed : (r.keys.map rename) = r.fields.map fun p => rename p.1 := List.map_map
  rw [renameRecord, Record.keys_ofList, map_fst_renameFields, renamed]

/-- The keys of a row as it is stored are those of any row with the same keys. -/
theorem RowCasing.keys_outbound_congr (casing : RowCasing) {r s : Record} (h : r.keys = s.keys) :
    (casing.outbound r).keys = (casing.outbound s).keys := by
  cases casing with
  | preserve => exact h
  | camel => rw [outbound, outbound, keys_renameRecord, keys_renameRecord, h]

theorem RowCasing.shows_inbound {row : Record} {names : List String} {values : List Value}
    (casing : RowCasing) (h : row.Shows names values) :
    (casing.inbound row).Shows (names.map casing.inboundKey) (values.map casing.inboundValue) := by
  cases casing with
  | camel =>
    rw [inbound, renameRecord, renameFields_eq_map]
    exact h.converted applicationKey toApplicationCase
  | preserve =>
    have names_same : names.map RowCasing.preserve.inboundKey = names := List.map_id names
    have values_same : values.map RowCasing.preserve.inboundValue = values := List.map_id values
    rw [names_same, values_same]
    exact h

end Casing

end SqlClient
