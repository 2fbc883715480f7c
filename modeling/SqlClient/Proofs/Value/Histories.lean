import SqlClient.Proofs.Value.Equality
/-!
# Records through their history

A record after any number of steps is told from what happened to each key by itself: the value
written last, and when the key was created. Its keys stand in the order in which they were created.
-/
namespace SqlClient.Record

/-- What can be done to a record. `extend` is the insertion that hands the record on. -/
inductive Step where
  | insert (key : String) (value : Value)
  | extend (key : String) (value : Value)
  | replace (key : String) (value : Value)
  | erase (key : String)
  /-- Made anew from the pairs that its iterator gives. -/
  | rebuild

structure Life where
  born : Nat
  value : Value

namespace Step

def apply : Step → Record → Option Value × Record
  | .insert k v, r => r.exchange k v
  | .extend k v, r => (none, r.insert k v)
  | .replace k v, r => (r.get? k, r.replace k v)
  | .erase k, r => r.withdraw k
  | .rebuild, r => (none, Record.ofList r.fields)

def live (key : String) (now : Nat) : Step → Option Life → Option Life
  | .insert k v, x | .extend k v, x =>
    if k = key then some ⟨(x.map Life.born).getD now, v⟩ else x
  | .replace k v, x => if k = key then x.map fun l => { l with value := v } else x
  | .erase k, x => if k = key then none else x
  | .rebuild, x => x

def yields (life : String → Option Life) : Step → Option Value
  | .insert k _ | .replace k _ | .erase k => (life k).map Life.value
  | .extend .. | .rebuild => none

end Step

/-- The life of a key after steps, of which the first is taken at time `now`. -/
def lived (key : String) (now : Nat) : List Step → Option Life → Option Life
  | [], x => x
  | s :: steps, x => lived key (now + 1) steps (s.live key now x)

def after (steps : List Step) (r : Record) : Record := steps.foldl (fun r s => (s.apply r).2) r

/-- The life of a key of a record that nothing has been done to: born at its place. -/
def begun (r : Record) (key : String) : Option Life :=
  (r.get? key).map fun v => ⟨r.keys.idxOf key, v⟩

variable {r : Record} {k l key : String} {v : Value}

theorem keys_erase (k : String) (r : Record) : keys (erase k r) = (keys r).erase k :=
  Fields.keys_erase k r.fields

theorem keys_replace (k : String) (v : Value) (r : Record) : keys (r.replace k v) = keys r := by
  unfold replace
  split
  · rename_i held
    rw [keys_insert, if_pos (isSome_get?_iff.mp held)]
  · rfl

theorem get?_replace (k : String) (v : Value) (r : Record) (key : String) :
    get? (r.replace k v) key =
      if k = key then (get? r key).map fun _ => v else get? r key := by
  unfold replace
  split
  · rename_i held
    rw [get?_insert]
    by_cases h : k = key
    · obtain ⟨w, hw⟩ := Option.isSome_iff_exists.mp held
      rw [if_pos h, if_pos h.symm, ← h, hw]
      rfl
    · rw [if_neg h, if_neg (Ne.symm h)]
  · rename_i missing
    split
    · rename_i h
      rw [← h, Option.not_isSome_iff_eq_none.mp missing]
      rfl
    · rfl

structure Follows (life : String → Option Life) (now : Nat) (r : Record) : Prop where
  held : ∀ key, r.get? key = (life key).map Life.value
  ordered : r.keys.Pairwise fun k l => ∀ a b, life k = some a → life l = some b → a.born < b.born
  past : ∀ key x, life key = some x → x.born < now

variable {life life' : String → Option Life} {now : Nat}

theorem Follows.mem_keys_iff (h : Follows life now r) (key : String) :
    key ∈ r.keys ↔ (life key).isSome := by
  rw [← isSome_get?_iff, h.held, Option.isSome_map]

theorem pairwise_births {ks : List String}
    (ordered : ks.Pairwise fun k l => ∀ a b, life k = some a → life l = some b → a.born < b.born)
    (same : ∀ key ∈ ks, ∀ x, life' key = some x → ∃ y, life key = some y ∧ y.born = x.born) :
    ks.Pairwise fun k l => ∀ a b, life' k = some a → life' l = some b → a.born < b.born := by
  refine ordered.imp_of_mem fun hk hl before a b ha hb => ?_
  obtain ⟨a', ha', born⟩ := same _ hk a ha
  obtain ⟨b', hb', born'⟩ := same _ hl b hb
  rw [← born, ← born']
  exact before a' b' ha' hb'

theorem live_insert_self (k : String) (v : Value) (now : Nat) (x : Option Life) :
    (Step.insert k v).live k now x = some ⟨(x.map Life.born).getD now, v⟩ := if_pos rfl

theorem live_insert_of_ne (h : k ≠ key) (v : Value) (now : Nat) (x : Option Life) :
    (Step.insert k v).live key now x = x := if_neg h

/-- A key that is there keeps its birth when a value is inserted. -/
theorem Follows.births_insert (h : Follows life now r) (k : String) (v : Value) :
    ∀ key ∈ r.keys, ∀ x, (Step.insert k v).live key now (life key) = some x →
      ∃ y, life key = some y ∧ y.born = x.born := by
  intro key held x hx
  by_cases hk : k = key
  · subst hk
    obtain ⟨y, hy⟩ := Option.isSome_iff_exists.mp ((h.mem_keys_iff k).mp held)
    rw [live_insert_self, hy] at hx
    cases hx
    exact ⟨y, hy, rfl⟩
  · rw [live_insert_of_ne hk] at hx
    exact ⟨x, hx, rfl⟩

/-- An insertion creates a key at the end, unless it is there. -/
theorem Follows.insert (h : Follows life now r) (k : String) (v : Value) :
    Follows (fun key => (Step.insert k v).live key now (life key)) (now + 1) (r.insert k v) := by
  have births := h.births_insert k v
  refine ⟨fun key => ?_, ?_, fun key x hx => ?_⟩
  · rw [get?_insert]
    by_cases hk : k = key
    · subst hk
      rw [if_pos rfl, live_insert_self]
      rfl
    · rw [if_neg (Ne.symm hk), live_insert_of_ne hk, h.held]
  · rw [keys_insert]
    split
    · exact pairwise_births h.ordered births
    · rename_i fresh
      have unborn : life k = none := by
        rwa [← Option.not_isSome_iff_eq_none, ← h.mem_keys_iff]
      refine List.pairwise_append.mpr
        ⟨pairwise_births h.ordered births, List.pairwise_singleton _ _, ?_⟩
      intro key hk l hl a b ha hb
      obtain rfl := List.mem_singleton.mp hl
      obtain ⟨y, hy, born⟩ := births key hk a ha
      rw [live_insert_self, unborn] at hb
      cases hb
      rw [← born]
      exact h.past key y hy
  · by_cases hk : k = key
    · subst hk
      rw [live_insert_self] at hx
      cases hx
      cases hy : life k with
      | none => exact Nat.lt_succ_self now
      | some y => exact Nat.lt_succ_of_lt (h.past k y hy)
    · rw [live_insert_of_ne hk] at hx
      exact Nat.lt_succ_of_lt (h.past key x hx)

theorem Follows.replace (h : Follows life now r) (k : String) (v : Value) :
    Follows (fun key => (Step.replace k v).live key now (life key)) (now + 1) (r.replace k v) := by
  have births (key : String) (x : Life) (hx : (Step.replace k v).live key now (life key) = some x) :
      ∃ y, life key = some y ∧ y.born = x.born := by
    rw [Step.live] at hx
    split at hx
    · obtain ⟨y, hy, rfl⟩ := Option.map_eq_some_iff.mp hx
      exact ⟨y, hy, rfl⟩
    · exact ⟨x, hx, rfl⟩
  refine ⟨fun key => ?_, ?_, fun key x hx => ?_⟩
  · rw [get?_replace, Step.live, h.held]
    split
    · rw [Option.map_map, Option.map_map]
      rfl
    · rfl
  · rw [keys_replace]
    exact pairwise_births h.ordered fun key _ => births key
  · obtain ⟨y, hy, born⟩ := births key x hx
    rw [← born]
    exact Nat.lt_succ_of_lt (h.past key y hy)

theorem Follows.erase (h : Follows life now r) (k : String) :
    Follows (fun key => (Step.erase k).live key now (life key)) (now + 1) (r.erase k) := by
  have births (key : String) (x : Life) (hx : (Step.erase k).live key now (life key) = some x) :
      life key = some x := by
    rw [Step.live] at hx
    split at hx
    · cases hx
    · exact hx
  refine ⟨fun key => ?_, ?_, fun key x hx => ?_⟩
  · rw [get?_erase, Step.live, h.held]
    split <;> rfl
  · rw [keys_erase]
    exact pairwise_births (h.ordered.sublist List.erase_sublist) fun key _ x hx =>
      ⟨x, births key x hx, rfl⟩
  · exact Nat.lt_succ_of_lt (h.past key x (births key x hx))

/-- What a step does to a record is what it does to each key. -/
theorem Follows.apply (h : Follows life now r) (s : Step) :
    Follows (fun key => s.live key now (life key)) (now + 1) (s.apply r).2 := by
  cases s with
  | insert k v =>
    rw [Step.apply, exchange_eq]
    exact h.insert k v
  | extend k v => exact h.insert k v
  | replace k v => exact h.replace k v
  | erase k =>
    rw [Step.apply, withdraw_eq]
    exact h.erase k
  | rebuild =>
    have same : ofList r.fields = r := Record.ext (Value.ofList_eq_self r.distinct)
    rw [Step.apply, same]
    exact ⟨h.held, h.ordered, fun key x hx => Nat.lt_succ_of_lt (h.past key x hx)⟩

theorem Follows.yields (h : Follows life now r) (s : Step) : (s.apply r).1 = s.yields life := by
  cases s with
  | insert k v => exact (congrArg Prod.fst (exchange_eq k v r)).trans (h.held k)
  | extend k v => rfl
  | replace k v => exact h.held k
  | erase k => exact (congrArg Prod.fst (withdraw_eq k r)).trans (h.held k)
  | rebuild => rfl

theorem Follows.after (h : Follows life now r) (steps : List Step) :
    Follows (fun key => lived key now steps (life key)) (now + steps.length)
      (r.after steps) := by
  induction steps generalizing life now r with
  | nil => exact h
  | cons s steps ih =>
    rw [List.length_cons, ← Nat.add_assoc, Nat.add_right_comm]
    exact ih (h.apply s)

theorem follows_begun (r : Record) : Follows r.begun r.size r := by
  refine ⟨fun key => ?_, ?_, fun key x hx => ?_⟩
  · rw [begun, Option.map_map]
    exact Option.map_id_apply.symm
  · refine List.pairwise_iff_getElem.mpr fun i j hi hj before a b ha hb => ?_
    obtain ⟨v, -, rfl⟩ := Option.map_eq_some_iff.mp ha
    obtain ⟨w, -, rfl⟩ := Option.map_eq_some_iff.mp hb
    rwa [r.nodup_keys.idxOf_getElem i hi, r.nodup_keys.idxOf_getElem j hj]
  · obtain ⟨v, hv, rfl⟩ := Option.map_eq_some_iff.mp hx
    have place := List.idxOf_lt_length_of_mem (Fields.mem_keys_of_get? hv)
    rwa [Fields.keys, List.length_map] at place

/-- An iterator gives each key with the value under it. -/
theorem map_get?_keys (r : Record) :
    (r.keys.map fun k => (k, r.get? k)) = r.fields.map fun p => (p.1, some p.2) := by
  rw [keys, Fields.keys, List.map_map]
  exact List.map_congr_left fun p hp => Prod.ext rfl (get?_of_mem hp)

/-- A record after any steps holds the keys that are alive, each once, in the order of their births,
with the values last written; every step gives back the value held before it. The parts of a record
agree. Records are equal if they hold the same keys with equal values, and so at every depth. -/
theorem follows_history (start : Record) (steps : List Step) :
    let r := start.after steps
    let life := fun key => lived key start.size steps (start.begun key)
    (r.keys.Nodup ∧ (∀ key, key ∈ r.keys ↔ (life key).isSome) ∧
      r.keys.Pairwise fun k l => ∀ a b, life k = some a → life l = some b → a.born < b.born) ∧
    (∀ key, r.get? key = (life key).map Life.value) ∧
    (∀ s : Step, (s.apply r).1 = s.yields life) ∧
    (r.size = r.keys.length ∧ r.values.map some = r.keys.map r.get? ∧
      (r.fields.map fun p => (p.1, some p.2)) = r.keys.map fun k => (k, r.get? k)) ∧
    (∀ a b : Record, a.numEq b = true ↔ (∀ k, k ∈ a.keys ↔ k ∈ b.keys) ∧
      ∀ k x y, a.get? k = some x → b.get? k = some y → x.numEq y = true) ∧
    ∀ v w : KeyedValue, v.value.numEq w.value = true ↔ v.value.Agrees w.value := by
  intro r life
  have follows : Follows life _ r := (follows_begun start).after steps
  have pairs := map_get?_keys r
  have values : r.values.map some = r.keys.map r.get? := by
    have seconds := congrArg (List.map Prod.snd) pairs
    rw [List.map_map, List.map_map] at seconds
    rw [Record.values, List.map_map]
    exact seconds.symm
  have length : r.size = r.keys.length := by rw [keys, Fields.keys, List.length_map, size]
  exact ⟨⟨r.nodup_keys, follows.mem_keys_iff, follows.ordered⟩, follows.held, follows.yields,
    ⟨length, values, pairs.symm⟩, numEq_iff, KeyedValue.numEq_iff⟩

/-- A key keeps its place when it is overwritten and comes last when it is put back; a record with
the same fields in another order is equal. -/
theorem follows_history_reinserted :
    let start := Record.ofList [("a", .int 1), ("b", .int 2)]
    let steps : List Step := [.insert "c" (.int 3), .erase "a", .replace "b" (.int 4), .rebuild,
      .extend "a" (.int 5), .insert "c" .null]
    let r := start.after steps
    let other := Record.ofList [("a", .int 5), ("b", .int 4), ("c", .null)]
    r.keys = ["b", "c", "a"] ∧ r.get? "b" = some (.int 4) ∧
      (∀ v, ((Step.insert "c" v).apply r).1 = some .null) ∧
      r.numEq other = true ∧ ∀ k, k ∈ r.keys ↔ k ∈ other.keys := by
  intro start steps r other
  obtain ⟨-, held, yields, -, equal, -⟩ := follows_history start steps
  have same : r.numEq other = true := by decide +kernel
  exact ⟨by decide +kernel, held "b", fun v => yields (.insert "c" v), same,
    ((equal r other).mp same).1⟩

end SqlClient.Record
