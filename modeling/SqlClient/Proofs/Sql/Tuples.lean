import Mathlib.Data.List.Nodup
import SqlClient.Proofs.Value.Records
import SqlClient.Sql.Insert
/-!
# Tuples of an insert

The columns of rows that lack some of one another's keys, and what each tuple holds for each of
them. The bound values are numbered through all tuples, so a cell that got another's number would
send a value to the wrong column.
-/
namespace SqlClient.Sql.Insert

inductive Cell where
  | default
  | slot (n : Nat)
  deriving DecidableEq, Repr

def Cell.number? : Cell → Option Nat
  | .default => none
  | .slot n => some n

def Cell.chars : Cell → List Char
  | .default => "DEFAULT".toList
  | .slot n => Fragment.placeholder n

theorem Cell.chars_slot (n : Nat) : (Cell.slot n).chars = Fragment.placeholder n := rfl

def CellAt (columns : List String) (cells : List (List Cell)) (i : Nat) (c : String)
    (cell : Cell) : Prop :=
  ∃ (j : Nat) (tuple : List Cell),
    columns[j]? = some c ∧ cells[i]? = some tuple ∧ tuple[j]? = some cell

/-- Columns, tuples and parameters that hold all rows and nothing else. -/
structure Fills (rows : List Record) (columns : List String) (cells : List (List Cell))
    (params : List Value) : Prop where
  /-- The columns are the keys of all rows … -/
  mem_columns : ∀ c, c ∈ columns ↔ ∃ row ∈ rows, c ∈ Record.keys row
  /-- … each of them once, in the order in which they are first seen. -/
  first_seen : columns.Pairwise fun a b =>
    (rows.flatMap Record.keys).idxOf a < (rows.flatMap Record.keys).idxOf b
  length_cells : cells.length = rows.length
  length_tuple : ∀ tuple ∈ cells, tuple.length = columns.length
  present : ∀ i row c v, rows[i]? = some row → Record.get? row c = some v →
    ∃ k, CellAt columns cells i c (.slot (k + 1)) ∧ params[k]? = some v
  absent : ∀ i row c, rows[i]? = some row → c ∈ columns → Record.get? row c = none →
    CellAt columns cells i c .default
  /-- A row has one cell in a column. -/
  cell_unique : ∀ i c x y, CellAt columns cells i c x → CellAt columns cells i c y → x = y
  /-- Placeholders are numbered from 1 in reading order. -/
  numbers : cells.flatten.filterMap Cell.number? = List.range' 1 params.length
  /-- Every number stands in one cell, of one row and key. -/
  number_once : ∀ k, 1 ≤ k → k ≤ params.length →
    ∃! p : Nat × String, CellAt columns cells p.1 p.2 (.slot k)
  length_params : params.length = (rows.flatMap Record.keys).length

theorem idxOf_lt_of_filter {p : String → Bool} {a b : String} {xs : List String}
    (ha : p a = true) (hb : p b = true) (h : (xs.filter p).idxOf a < (xs.filter p).idxOf b) :
    xs.idxOf a < xs.idxOf b := by
  induction xs with
  | nil => exact absurd h (Nat.lt_irrefl _)
  | cons x xs ih =>
    by_cases hx : p x = true
    · rw [List.filter_cons_of_pos hx] at h
      rw [List.idxOf_cons, List.idxOf_cons] at h ⊢
      by_cases hxb : x = b
      · simp [hxb] at h
      · by_cases hxa : x = a
        · rw [hxa, beq_self_eq_true, beq_eq_false_iff_ne.mpr fun he => hxb (hxa.trans he)]
          exact Nat.succ_pos _
        · simp only [beq_eq_false_iff_ne.mpr hxa, beq_eq_false_iff_ne.mpr hxb, cond_false] at h ⊢
          exact Nat.succ_lt_succ (ih (Nat.lt_of_succ_lt_succ h))
    · rw [List.filter_cons_of_neg hx] at h
      have hxa : (x == a) = false := beq_eq_false_iff_ne.mpr fun he => hx (he ▸ ha)
      have hxb : (x == b) = false := beq_eq_false_iff_ne.mpr fun he => hx (he ▸ hb)
      rw [List.idxOf_cons, List.idxOf_cons, hxa, hxb]
      exact Nat.succ_lt_succ (ih h)

theorem pairwise_idxOf_eraseDups (xs : List String) :
    xs.eraseDups.Pairwise fun a b => xs.idxOf a < xs.idxOf b := by
  match xs with
  | [] => exact .nil
  | x :: xs =>
    rw [List.eraseDups_cons]
    have shorter : (xs.filter fun y => !y == x).length < xs.length + 1 :=
      Nat.lt_succ_of_le (List.length_filter_le _ _)
    have keeps : ∀ y ∈ (xs.filter fun y => !y == x).eraseDups, (!y == x) = true := fun y hy =>
      (List.mem_filter.mp (List.mem_eraseDups.mp hy)).2
    have differs : ∀ y ∈ (xs.filter fun y => !y == x).eraseDups, (x == y) = false := by
      intro y hy
      rw [beq_eq_false_iff_ne]
      rintro rfl
      simpa using keeps x hy
    refine List.pairwise_cons.mpr ⟨fun y hy => ?_, ?_⟩
    · rw [List.idxOf_cons, List.idxOf_cons, beq_self_eq_true, differs y hy]
      exact Nat.succ_pos _
    · refine (pairwise_idxOf_eraseDups (xs.filter fun y => !y == x)).imp_of_mem ?_
      intro a b ha hb h
      rw [List.idxOf_cons, List.idxOf_cons, differs a ha, differs b hb]
      exact Nat.succ_lt_succ (idxOf_lt_of_filter (keeps a ha) (keeps b hb) h)
termination_by xs.length

theorem mem_columns {rows : List Record} {c : String} :
    c ∈ columns rows ↔ ∃ row ∈ rows, c ∈ Record.keys row := by
  rw [columns, List.mem_eraseDups, List.mem_flatMap]

theorem nodup_columns (rows : List Record) : (columns rows).Nodup :=
  (pairwise_idxOf_eraseDups _).imp fun h he => absurd (he ▸ h) (Nat.lt_irrefl _)

def rowValues (columns : List String) (row : Record) : List Value :=
  columns.filterMap (Record.get? row)

def tupleCells (row : Record) (next : Nat) : List String → List Cell
  | [] => []
  | c :: cs =>
    match Record.get? row c with
    | some _ => .slot next :: tupleCells row (next + 1) cs
    | none => .default :: tupleCells row next cs

def allCells (columns : List String) (next : Nat) : List Record → List (List Cell)
  | [] => []
  | row :: rows =>
    tupleCells row next columns :: allCells columns (next + (rowValues columns row).length) rows

section Row

variable {row : Record} {c : String} {v : Value}

theorem tupleCells_of_some (h : Record.get? row c = some v) (next : Nat) (cs : List String) :
    tupleCells row next (c :: cs) = .slot next :: tupleCells row (next + 1) cs := by
  simp [tupleCells, h]

theorem tupleCells_of_none (h : Record.get? row c = none) (next : Nat) (cs : List String) :
    tupleCells row next (c :: cs) = .default :: tupleCells row next cs := by
  simp [tupleCells, h]

theorem rowValues_of_some (h : Record.get? row c = some v) (cs : List String) :
    rowValues (c :: cs) row = v :: rowValues cs row := by
  simp [rowValues, h]

theorem rowValues_of_none (h : Record.get? row c = none) (cs : List String) :
    rowValues (c :: cs) row = rowValues cs row := by
  simp [rowValues, h]

end Row

theorem length_tupleCells (row : Record) (next : Nat) (cs : List String) :
    (tupleCells row next cs).length = cs.length := by
  induction cs generalizing next with
  | nil => rfl
  | cons c cs ih => unfold tupleCells; split <;> simp [ih]

theorem length_allCells (cs : List String) (next : Nat) (rows : List Record) :
    (allCells cs next rows).length = rows.length := by
  induction rows generalizing next with
  | nil => rfl
  | cons row rows ih => simp [allCells, ih]

theorem numbers_tupleCells (row : Record) (next : Nat) (cs : List String) :
    (tupleCells row next cs).filterMap Cell.number? =
      List.range' next (rowValues cs row).length := by
  induction cs generalizing next with
  | nil => rfl
  | cons c cs ih =>
    cases h : Record.get? row c with
    | none => rw [tupleCells_of_none h, rowValues_of_none h, List.filterMap_cons_none rfl, ih]
    | some v =>
      simp [tupleCells_of_some h, rowValues_of_some h, Cell.number?, ih, List.range'_succ]

theorem numbers_allCells (cs : List String) (next : Nat) (rows : List Record) :
    (allCells cs next rows).flatten.filterMap Cell.number? =
      List.range' next (rows.flatMap (rowValues cs)).length := by
  induction rows generalizing next with
  | nil => rfl
  | cons row rows ih =>
    rw [allCells, List.flatten_cons, List.filterMap_append, numbers_tupleCells, ih,
      List.flatMap_cons, List.length_append, List.range'_append_1]

theorem tupleCells_present {row : Record} {cs : List String} {j : Nat} {c : String} {v : Value}
    (hj : cs[j]? = some c) (hv : Record.get? row c = some v) (next : Nat) :
    ∃ k, (tupleCells row next cs)[j]? = some (.slot (next + k)) ∧
      (rowValues cs row)[k]? = some v := by
  induction cs generalizing j next with
  | nil => simp at hj
  | cons d cs ih =>
    cases j with
    | zero =>
      obtain rfl : d = c := by simpa using hj
      exact ⟨0, by simp [tupleCells_of_some hv], by simp [rowValues_of_some hv]⟩
    | succ j =>
      have hj : cs[j]? = some c := by simpa using hj
      cases hd : Record.get? row d with
      | none =>
        obtain ⟨k, hk, hp⟩ := ih hj next
        exact ⟨k, by simpa [tupleCells_of_none hd] using hk,
          by simpa [rowValues_of_none hd] using hp⟩
      | some w =>
        obtain ⟨k, hk, hp⟩ := ih hj (next + 1)
        refine ⟨k + 1, ?_, by simpa [rowValues_of_some hd] using hp⟩
        rw [show next + (k + 1) = next + 1 + k by omega]
        simpa [tupleCells_of_some hd] using hk

theorem tupleCells_absent {row : Record} {cs : List String} {j : Nat} {c : String}
    (hj : cs[j]? = some c) (hv : Record.get? row c = none) (next : Nat) :
    (tupleCells row next cs)[j]? = some .default := by
  induction cs generalizing j next with
  | nil => simp at hj
  | cons d cs ih =>
    cases j with
    | zero =>
      obtain rfl : d = c := by simpa using hj
      simp [tupleCells_of_none hv]
    | succ j =>
      have hj : cs[j]? = some c := by simpa using hj
      cases hd : Record.get? row d with
      | none => simpa [tupleCells_of_none hd] using ih hj next
      | some w => simpa [tupleCells_of_some hd] using ih hj (next + 1)

theorem allCells_getElem (cs : List String) {rows : List Record} {i : Nat} {row : Record}
    (hi : rows[i]? = some row) (next : Nat) :
    ∃ n, (allCells cs next rows)[i]? = some (tupleCells row (next + n) cs) ∧
      ∀ k v, (rowValues cs row)[k]? = some v →
        (rows.flatMap (rowValues cs))[n + k]? = some v := by
  induction rows generalizing i next with
  | nil => simp at hi
  | cons r rows ih =>
    cases i with
    | zero =>
      obtain rfl : r = row := by simpa using hi
      refine ⟨0, rfl, fun k v hk => ?_⟩
      rw [Nat.zero_add, List.flatMap_cons, List.getElem?_append_left, hk]
      exact (List.getElem?_eq_some_iff.mp hk).1
    | succ i =>
      have hi : rows[i]? = some row := by simpa using hi
      obtain ⟨n, hn, hp⟩ := ih hi (next + (rowValues cs r).length)
      refine ⟨(rowValues cs r).length + n, by simpa [allCells, Nat.add_assoc] using hn, ?_⟩
      intro k v hk
      rw [List.flatMap_cons, Nat.add_assoc, List.getElem?_append_right (Nat.le_add_right _ _),
        Nat.add_sub_cancel_left]
      exact hp k v hk

theorem index_unique {α β : Type} {f : α → Option β} {xs : List α} {b : β}
    (h : (xs.filterMap f).Nodup) {i j : Nat} {x y : α} (hi : xs[i]? = some x)
    (hj : xs[j]? = some y) (hx : f x = some b) (hy : f y = some b) : i = j := by
  induction xs generalizing i j with
  | nil => simp at hi
  | cons a xs ih =>
    cases ha : f a with
    | none =>
      rw [List.filterMap_cons_none ha] at h
      cases i with
      | zero =>
        obtain rfl : a = x := by simpa using hi
        simp [hx] at ha
      | succ i =>
        cases j with
        | zero =>
          obtain rfl : a = y := by simpa using hj
          simp [hy] at ha
        | succ j => exact congrArg (· + 1) (ih h (by simpa using hi) (by simpa using hj))
    | some c =>
      rw [List.filterMap_cons_some ha, List.nodup_cons] at h
      have fresh : ∀ (k : Nat) (z : α), xs[k]? = some z → f z = some b → c ≠ b := by
        rintro k z hk hz rfl
        exact h.1 (List.mem_filterMap.mpr ⟨z, List.mem_of_getElem? hk, hz⟩)
      cases i with
      | zero =>
        obtain rfl : a = x := by simpa using hi
        obtain rfl : c = b := by simpa [hx] using ha.symm
        cases j with
        | zero => rfl
        | succ j => exact absurd rfl (fresh j y (by simpa using hj) hy)
      | succ i =>
        cases j with
        | zero =>
          obtain rfl : a = y := by simpa using hj
          obtain rfl : c = b := by simpa [hy] using ha.symm
          exact absurd rfl (fresh i x (by simpa using hi) hx)
        | succ j => exact congrArg (· + 1) (ih h.2 (by simpa using hi) (by simpa using hj))

theorem nodup_numbers_of_mem {cells : List (List Cell)} {tuple : List Cell}
    (h : (cells.flatten.filterMap Cell.number?).Nodup) (ht : tuple ∈ cells) :
    (tuple.filterMap Cell.number?).Nodup := by
  rw [List.filterMap_flatten, List.nodup_flatten] at h
  exact h.1 _ (List.mem_map_of_mem ht)

theorem tuple_unique {cells : List (List Cell)} {i i' : Nat} {t t' : List Cell} {k : Nat}
    (h : (cells.flatten.filterMap Cell.number?).Nodup) (hi : cells[i]? = some t)
    (hi' : cells[i']? = some t') (hk : .slot k ∈ t) (hk' : .slot k ∈ t') : i = i' := by
  rw [List.filterMap_flatten, List.nodup_flatten, List.pairwise_map] at h
  have mem {t : List Cell} (ht : .slot k ∈ t) : k ∈ t.filterMap Cell.number? :=
    List.mem_filterMap.mpr ⟨_, ht, rfl⟩
  obtain ⟨hl, rfl⟩ := List.getElem?_eq_some_iff.mp hi
  obtain ⟨hl', rfl⟩ := List.getElem?_eq_some_iff.mp hi'
  rcases Nat.lt_trichotomy i i' with hlt | rfl | hgt
  · exact absurd (mem hk') (List.disjoint_left.mp
      (List.pairwise_iff_getElem.mp h.2 i i' hl hl' hlt) (mem hk))
  · rfl
  · exact absurd (mem hk) (List.disjoint_left.mp
      (List.pairwise_iff_getElem.mp h.2 i' i hl' hl hgt) (mem hk'))

/-- The keys of a row are all among the columns, so each of its values is bound. -/
theorem length_rowValues {cs : List String} {row : Record} (hc : cs.Nodup)
    (h : ∀ k ∈ Record.keys row, k ∈ cs) :
    (rowValues cs row).length = (Record.keys row).length := by
  have counted : (rowValues cs row).length =
      (cs.filter fun c => (Record.get? row c).isSome).length := by
    rw [rowValues, List.length_filterMap_eq_countP, List.countP_eq_length_filter]
  have same : (cs.filter fun c => (Record.get? row c).isSome).Perm (Record.keys row) := by
    refine (List.perm_ext_iff_of_nodup (hc.filter _) row.nodup_keys).mpr fun c => ?_
    rw [List.mem_filter, Record.isSome_get?_iff]
    exact ⟨fun hm => hm.2, fun hm => ⟨h c hm, hm⟩⟩
  rw [counted, same.length_eq]

/-- The slots that two tuples hold for one number are one cell of one row. -/
theorem cell_of_slot_unique {columns : List String} {cells : List (List Cell)} {i i' : Nat}
    {c c' : String} {k : Nat} (hn : (cells.flatten.filterMap Cell.number?).Nodup)
    (h : CellAt columns cells i c (.slot k)) (h' : CellAt columns cells i' c' (.slot k)) :
    i = i' ∧ c = c' := by
  obtain ⟨j, t, hj, hi, ht⟩ := h
  obtain ⟨j', t', hj', hi', ht'⟩ := h'
  obtain rfl : i = i' :=
    tuple_unique hn hi hi' (List.mem_of_getElem? ht) (List.mem_of_getElem? ht')
  obtain rfl : t = t' := Option.some.inj (hi.symm.trans hi')
  have distinct := nodup_numbers_of_mem hn (List.mem_of_getElem? hi)
  obtain rfl : j = j' := index_unique distinct ht ht' rfl rfl
  exact ⟨rfl, Option.some.inj (hj.symm.trans hj')⟩

/-- Every number that is given out stands in some cell. -/
theorem cellAt_of_mem_numbers {columns : List String} {cells : List (List Cell)} {k : Nat}
    (hl : ∀ tuple ∈ cells, tuple.length = columns.length)
    (h : k ∈ cells.flatten.filterMap Cell.number?) : ∃ i c, CellAt columns cells i c (.slot k) := by
  obtain ⟨cell, hc, hk⟩ := List.mem_filterMap.mp h
  obtain ⟨tuple, ht, hc⟩ := List.mem_flatten.mp hc
  obtain rfl : cell = .slot k := by
    cases cell with
    | default => simp [Cell.number?] at hk
    | slot n => simpa [Cell.number?] using hk
  obtain ⟨i, hi⟩ := List.getElem?_of_mem ht
  obtain ⟨j, hj⟩ := List.getElem?_of_mem hc
  have bound : j < columns.length := hl tuple ht ▸ (List.getElem?_eq_some_iff.mp hj).1
  exact ⟨i, columns[j], j, tuple, List.getElem?_eq_getElem bound, hi, hj⟩

theorem length_of_mem_allCells {cs : List String} {next : Nat} {rows : List Record}
    {tuple : List Cell} (h : tuple ∈ allCells cs next rows) : tuple.length = cs.length := by
  induction rows generalizing next with
  | nil => exact absurd h List.not_mem_nil
  | cons row rows ih =>
    rcases List.mem_cons.mp h with rfl | h
    · exact length_tupleCells row next cs
    · exact ih h

theorem cell_of_nodup {columns : List String} (hc : columns.Nodup) {cells : List (List Cell)}
    {i : Nat} {c : String} {x y : Cell} (hx : CellAt columns cells i c x)
    (hy : CellAt columns cells i c y) : x = y := by
  obtain ⟨j, t, hj, hi, ht⟩ := hx
  obtain ⟨j', t', hj', hi', ht'⟩ := hy
  have bound := (List.getElem?_eq_some_iff.mp hj).1
  obtain rfl : j = j' := (List.getElem?_inj bound hc).mp (hj.trans hj'.symm)
  obtain rfl : t = t' := Option.some.inj (hi.symm.trans hi')
  exact Option.some.inj (ht.symm.trans ht')

/-- The tuples of rows hold every value once, under its key. -/
theorem fills_rows (rows : List Record) :
    Fills rows (columns rows) (allCells (columns rows) 1 rows)
      (rows.flatMap (rowValues (columns rows))) := by
  have numbers := numbers_allCells (columns rows) 1 rows
  have distinct : ((allCells (columns rows) 1 rows).flatten.filterMap Cell.number?).Nodup :=
    numbers ▸ List.nodup_range'
  have lengths : ∀ tuple ∈ allCells (columns rows) 1 rows, tuple.length = (columns rows).length :=
    fun tuple ht => length_of_mem_allCells ht
  constructor
  case mem_columns => exact fun c => mem_columns
  case first_seen => exact pairwise_idxOf_eraseDups _
  case length_cells => exact length_allCells _ _ _
  case length_tuple => exact lengths
  case present =>
    intro i row c v hi hv
    have hc : c ∈ columns rows := mem_columns.mpr
      ⟨row, List.mem_of_getElem? hi, Record.isSome_get?_iff.mp (by rw [hv]; rfl)⟩
    obtain ⟨j, hj⟩ := List.getElem?_of_mem hc
    obtain ⟨n, hn, hp⟩ := allCells_getElem (columns rows) hi 1
    obtain ⟨k, hk, hkv⟩ := tupleCells_present hj hv (1 + n)
    refine ⟨n + k, ⟨j, _, hj, hn, ?_⟩, hp k v hkv⟩
    rw [hk, show 1 + n + k = n + k + 1 by omega]
  case absent =>
    intro i row c hi hc hv
    obtain ⟨j, hj⟩ := List.getElem?_of_mem hc
    obtain ⟨n, hn, -⟩ := allCells_getElem (columns rows) hi 1
    exact ⟨j, _, hj, hn, tupleCells_absent hj hv _⟩
  case cell_unique => exact fun i c x y => cell_of_nodup (nodup_columns rows)
  case numbers => exact numbers
  case number_once =>
    intro k hk hp
    have given : k ∈ (allCells (columns rows) 1 rows).flatten.filterMap Cell.number? := by
      rw [numbers, List.mem_range'_1]
      omega
    obtain ⟨i, c, hic⟩ := cellAt_of_mem_numbers lengths given
    refine ⟨(i, c), hic, ?_⟩
    rintro ⟨i', c'⟩ h'
    obtain ⟨rfl, rfl⟩ := cell_of_slot_unique distinct h' hic
    rfl
  case length_params =>
    have sizes : rows.map (fun row => (rowValues (columns rows) row).length) =
        rows.map (fun row => (Record.keys row).length) := by
      refine List.map_congr_left fun row hr => ?_
      exact length_rowValues (nodup_columns rows) fun k hk => mem_columns.mpr ⟨row, hr, hk⟩
    rw [List.length_flatMap, List.length_flatMap, sizes]

end SqlClient.Sql.Insert
