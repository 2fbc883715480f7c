import Mathlib.Data.List.Forall2
import Mathlib.Data.String.Basic
import SqlClient.Json
/-!
# Members in order

An object that is built from members has its keys in increasing order, each once, and every key
has the value it was set to last.
-/
namespace SqlClient.Json

def Increasing (members : List (String × Json)) : Prop :=
  members.Pairwise fun m m' => m.1 < m'.1

def sorted (members : List (String × Json)) : List (String × Json) :=
  members.foldl (fun ms (k, v) => put k v ms) []

theorem ofMembers_eq (members : List (String × Json)) :
    ofMembers members = .object (sorted members) := rfl

variable {k : String} {v : Json} {m : String × Json} {members : List (String × Json)}

theorem mem_put (h : m ∈ put k v members) : m = (k, v) ∨ m ∈ members := by
  induction members with
  | nil => exact .inl (List.mem_singleton.mp h)
  | cons m' members ih =>
    obtain ⟨k', v'⟩ := m'
    rw [put] at h
    split at h
    · rcases List.mem_cons.mp h with rfl | h
      · exact .inl rfl
      · exact .inr (List.mem_cons_of_mem _ h)
    · split at h
      · exact List.mem_cons.mp h
      · rcases List.mem_cons.mp h with rfl | h
        · exact .inr List.mem_cons_self
        · exact (ih h).imp_right (List.mem_cons_of_mem _)

theorem increasing_put (h : Increasing members) : Increasing (put k v members) := by
  induction members with
  | nil => exact List.pairwise_singleton _ _
  | cons m' members ih =>
    obtain ⟨k', v'⟩ := m'
    obtain ⟨first, later⟩ := List.pairwise_cons.mp h
    rw [put]
    split
    · rename_i he
      subst he
      exact List.pairwise_cons.mpr ⟨first, later⟩
    · split
      · rename_i hlt
        refine List.pairwise_cons.mpr ⟨fun m hm => ?_, h⟩
        rcases List.mem_cons.mp hm with rfl | hm
        · exact hlt
        · exact lt_trans hlt (first m hm)
      · rename_i hne hlt
        refine List.pairwise_cons.mpr ⟨fun m hm => ?_, ih later⟩
        rcases mem_put hm with rfl | hm
        · exact lt_of_le_of_ne (not_lt.mp hlt) (Ne.symm hne)
        · exact first m hm

theorem lookup_cons_eq {κ α : Type} [DecidableEq κ] (key k : κ) (a : α) (rest : List (κ × α)) :
    ((k, a) :: rest).lookup key = if key = k then some a else rest.lookup key := by
  rw [List.lookup_cons]
  by_cases h : key = k
  · simp [h]
  · simp [h, beq_eq_false_iff_ne.mpr h]

theorem lookup_of_mem {κ α : Type} [DecidableEq κ] {k : κ} {a : α} {table : List (κ × α)}
    (hn : (table.map Prod.fst).Nodup) (h : (k, a) ∈ table) : table.lookup k = some a := by
  induction table with
  | nil => exact absurd h List.not_mem_nil
  | cons p table ih =>
    obtain ⟨k', a'⟩ := p
    obtain ⟨fresh, later⟩ := List.nodup_cons.mp hn
    rw [lookup_cons_eq]
    rcases List.mem_cons.mp h with he | inside
    · cases he
      rw [if_pos rfl]
    · have other : k ≠ k' := by
        intro he
        apply fresh
        change k' ∈ table.map Prod.fst
        rw [← he]
        exact List.mem_map_of_mem inside
      rw [if_neg other, ih later inside]

theorem lookup_map_snd {κ α β : Type} [DecidableEq κ] (f : α → β) (key : κ)
    (table : List (κ × α)) :
    (table.map fun m => (m.1, f m.2)).lookup key = (table.lookup key).map f := by
  induction table with
  | nil => rfl
  | cons m table ih =>
    obtain ⟨k, a⟩ := m
    rw [List.map_cons, lookup_cons_eq, lookup_cons_eq, ih]
    split <;> rfl

theorem lookup_put (key : String) :
    (put k v members).lookup key = if key = k then some v else members.lookup key := by
  induction members with
  | nil => exact lookup_cons_eq key k v []
  | cons m' members ih =>
    obtain ⟨k', v'⟩ := m'
    rw [put]
    by_cases he : k = k'
    · subst he
      rw [if_pos rfl]
      simp only [lookup_cons_eq]
      by_cases h : key = k <;> simp [h]
    · rw [if_neg he]
      by_cases hlt : k < k'
      · rw [if_pos hlt, lookup_cons_eq]
      · rw [if_neg hlt, lookup_cons_eq, ih, lookup_cons_eq]
        by_cases h : key = k'
        · subst h
          simp [Ne.symm he]
        · simp [h]

theorem perm_put (h : k ∉ members.map Prod.fst) : (put k v members).Perm ((k, v) :: members) := by
  induction members with
  | nil => exact .rfl
  | cons m' members ih =>
    obtain ⟨k', v'⟩ := m'
    rw [List.map_cons, List.mem_cons, not_or] at h
    rw [put, if_neg h.1]
    split
    · exact .rfl
    · exact ((ih h.2).cons _).trans (.swap _ _ _)

/-- Members of the same keys come to the same places. -/
theorem forall₂_put {R : String × Json → String × Json → Prop}
    (keys : ∀ {m m' : String × Json}, R m m' → m.1 = m'.1) {v' : Json} (hv : R (k, v) (k, v'))
    {members' : List (String × Json)} (h : List.Forall₂ R members members') :
    List.Forall₂ R (put k v members) (put k v' members') := by
  induction h with
  | nil => exact .cons hv .nil
  | @cons m m' members members' first later ih =>
    obtain ⟨key, j⟩ := m
    obtain ⟨key', j'⟩ := m'
    obtain rfl : key = key' := keys first
    rw [put, put]
    split
    · exact .cons hv later
    · split
      · exact .cons hv (.cons first later)
      · exact .cons first ih

theorem put_of_lt (h : ∀ m ∈ members, m.1 < k) : put k v members = members ++ [(k, v)] := by
  induction members with
  | nil => rfl
  | cons m' members ih =>
    obtain ⟨k', v'⟩ := m'
    have after : k' < k := h _ List.mem_cons_self
    rw [put, if_neg (ne_of_gt after), if_neg (not_lt_of_gt after),
      ih fun m hm => h m (List.mem_cons_of_mem _ hm), List.cons_append]

theorem mem_sorted (h : m ∈ sorted members) : m ∈ members := by
  have grows (start : List (String × Json))
      (hs : m ∈ members.foldl (fun ms p => put p.1 p.2 ms) start) : m ∈ start ∨ m ∈ members := by
    clear h
    induction members generalizing start with
    | nil => exact .inl hs
    | cons m' members ih =>
      rcases ih _ hs with h | h
      · rcases mem_put h with rfl | h
        · exact .inr List.mem_cons_self
        · exact .inl h
      · exact .inr (List.mem_cons_of_mem _ h)
  exact (grows [] h).resolve_left List.not_mem_nil

theorem increasing_sorted (members : List (String × Json)) : Increasing (sorted members) := by
  have grows (start : List (String × Json)) (h : Increasing start) :
      Increasing (members.foldl (fun ms p => put p.1 p.2 ms) start) := by
    induction members generalizing start with
    | nil => exact h
    | cons m members ih => exact ih _ (increasing_put h)
  exact grows [] .nil

theorem forall₂_sorted {R : String × Json → String × Json → Prop}
    (keys : ∀ {m m' : String × Json}, R m m' → m.1 = m'.1) {members' : List (String × Json)}
    (h : List.Forall₂ R members members') : List.Forall₂ R (sorted members) (sorted members') := by
  have grows {start start' : List (String × Json)} (hs : List.Forall₂ R start start') :
      List.Forall₂ R (members.foldl (fun ms p => put p.1 p.2 ms) start)
        (members'.foldl (fun ms p => put p.1 p.2 ms) start') := by
    induction h generalizing start start' with
    | nil => exact hs
    | @cons m m' members members' first later ih =>
      obtain ⟨key, j⟩ := m
      obtain ⟨key', j'⟩ := m'
      obtain rfl : key = key' := keys first
      exact ih (forall₂_put keys first hs)
  exact grows .nil

/-- Members that are in order already stay as they are. -/
theorem sorted_of_increasing (h : Increasing members) : sorted members = members := by
  have grows (start : List (String × Json)) (hs : Increasing (start ++ members)) :
      members.foldl (fun ms p => put p.1 p.2 ms) start = start ++ members := by
    induction members generalizing start with
    | nil => exact (List.append_nil start).symm
    | cons m members ih =>
      have before : ∀ m' ∈ start, m'.1 < m.1 := fun m' hm =>
        (List.pairwise_append.mp hs).2.2 m' hm m List.mem_cons_self
      rw [List.append_cons] at hs ⊢
      rw [List.foldl_cons, put_of_lt before]
      exact ih (List.pairwise_cons.mp h).2 _ hs
  exact grows [] h

section Distinct

variable (h : (members.map Prod.fst).Nodup)

include h

theorem lookup_sorted (key : String) : (sorted members).lookup key = members.lookup key := by
  have grows (start : List (String × Json)) :
      (members.foldl (fun ms p => put p.1 p.2 ms) start).lookup key =
        (members.lookup key).or (start.lookup key) := by
    induction members generalizing start with
    | nil => rfl
    | cons m members ih =>
      obtain ⟨k, v⟩ := m
      obtain ⟨fresh, later⟩ := List.nodup_cons.mp h
      rw [List.foldl_cons, ih later, lookup_put, lookup_cons_eq]
      by_cases he : key = k
      · subst he
        have missing : members.lookup key = none := by
          rw [List.lookup_eq_none_iff]
          intro m hm
          rw [bne_iff_ne]
          intro he
          apply fresh
          change key ∈ members.map Prod.fst
          rw [he]
          exact List.mem_map_of_mem hm
        simp [missing]
      · simp [he]
  rw [sorted]
  exact (grows []).trans (Option.or_none)

theorem perm_sorted : (sorted members).Perm members := by
  have grows (start : List (String × Json))
      (hs : ∀ m ∈ members, m.1 ∉ start.map Prod.fst) :
      (members.foldl (fun ms p => put p.1 p.2 ms) start).Perm (start ++ members) := by
    induction members generalizing start with
    | nil => rw [List.append_nil]; exact .rfl
    | cons m members ih =>
      obtain ⟨fresh, later⟩ := List.nodup_cons.mp h
      have placed := @perm_put m.1 m.2 start (hs m List.mem_cons_self)
      have outside : ∀ m' ∈ members, m'.1 ∉ (put m.1 m.2 start).map Prod.fst := by
        intro m' hm hk
        rcases List.mem_cons.mp ((placed.map Prod.fst).mem_iff.mp hk) with he | hk
        · exact fresh (he ▸ List.mem_map_of_mem hm)
        · exact hs m' (List.mem_cons_of_mem _ hm) hk
      rw [List.foldl_cons]
      exact (ih later _ outside).trans ((placed.append_right members).trans List.perm_middle.symm)
  exact grows [] fun _ _ => List.not_mem_nil

theorem length_sorted : (sorted members).length = members.length := (perm_sorted h).length_eq

end Distinct

end SqlClient.Json
