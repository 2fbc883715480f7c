import SqlClient.Proofs.Value.Named
import SqlClient.Wire.Decode
/-!
# Rows from the wire

Cells are decoded row by row, and from the left within a row. The first cell that is refused
decides the error. If none is, every row becomes a record that shows the values of its cells under
the names of the columns.
-/
namespace SqlClient.Wire.Codecs

variable (c : Codecs) (columns : List Column)

def decodedAt? (cells : List (Option Bytes)) (position : Nat) : Option (Except SqlError Value) := do
  return c.decodeCell position (← columns[position]?) (← cells[position]?)

def Reads (cells : List (Option Bytes)) (values : List Value) : Prop :=
  ∀ position : Nat, c.decodedAt? columns cells position = values[position]?.map .ok

/-- The first cell, row by row and from the left, that is refused. -/
structure FirstRefused (wire : List (List (Option Bytes))) (row position : Nat) (column : Column)
    (message : String) : Prop where
  found : columns[position]? = some column
  refused : wire[row]?.bind (c.decodedAt? columns · position) =
    some (.error (.decode column.name message))
  before : ∀ i j : Nat, i < row ∨ i = row ∧ j < position →
    ∀ e, wire[i]?.bind (c.decodedAt? columns · j) ≠ some (.error e)

variable {c columns}

theorem decodeCell_error {position : Nat} {column : Column} {cell : Option Bytes} {e : SqlError}
    (h : c.decodeCell position column cell = .error e) :
    ∃ message, e = .decode column.name message := by
  have named (x : Except String Value) (hx : x.mapError (SqlError.decode column.name) = .error e) :
      ∃ message, e = .decode column.name message := by
    cases x with
    | ok v => cases hx
    | error message =>
      cases hx
      exact ⟨message, rfl⟩
  exact named _ h

/-- The cells from `start` on: all of them are put into the record, or the first that is refused
decides. -/
theorem decodeCells_cases (start : Nat) (r : Record) (pairs : List (Column × Option Bytes)) :
    let decoded (j : Nat) := pairs[j]?.map fun p => c.decodeCell (start + j) p.1 p.2
    (∃ values : List Value, (∀ j, decoded j = values[j]?.map .ok) ∧
      c.decodeCells start r pairs = .ok (((pairs.map (·.1.name)).zip values).foldl
        (fun r p => r.insert p.1 p.2) r)) ∨
    ∃ j e, decoded j = some (.error e) ∧ (∀ i < j, ∀ e', decoded i ≠ some (.error e')) ∧
      c.decodeCells start r pairs = .error e := by
  induction pairs generalizing start r with
  | nil => exact .inl ⟨[], fun j => rfl, rfl⟩
  | cons p pairs ih =>
    obtain ⟨column, cell⟩ := p
    intro decoded
    have later (j : Nat) : decoded (j + 1) =
        pairs[j]?.map fun p => c.decodeCell (start + 1 + j) p.1 p.2 := by
      simp only [decoded, List.getElem?_cons_succ, Nat.add_assoc, Nat.add_comm 1 j]
    rw [decodeCells]
    cases hv : c.decodeCell start column cell with
    | error e => exact .inr ⟨0, e, congrArg some hv, nofun, rfl⟩
    | ok v =>
      rcases ih (start + 1) (r.insert column.name v) with
        ⟨values, read, hr⟩ | ⟨j, e, he, before, hr⟩
      · refine .inl ⟨v :: values, ?_, hr⟩
        rintro (_ | j)
        · exact congrArg some hv
        · rw [later]
          exact read j
      · refine .inr ⟨j + 1, e, ?_, ?_, hr⟩
        · rw [later]
          exact he
        · rintro (_ | i) hi e'
          · rw [show decoded 0 = some (.ok v) from congrArg some hv]
            exact nofun
          · rw [later]
            exact before i (Nat.lt_of_succ_lt_succ hi) e'

theorem decodedAt?_zip (cells : List (Option Bytes)) (j : Nat) : c.decodedAt? columns cells j =
    (columns.zip cells)[j]?.map fun p => c.decodeCell (0 + j) p.1 p.2 := by
  rw [decodedAt?, Nat.zero_add, List.zip, List.getElem?_zipWith]
  cases columns[j]? with
  | none => rfl
  | some column => cases cells[j]? <;> rfl

/-- A refusal names the column of the cell. -/
theorem decodedAt?_error {cells : List (Option Bytes)} {position : Nat} {e : SqlError}
    (h : c.decodedAt? columns cells position = some (.error e)) : ∃ column message,
      columns[position]? = some column ∧ e = .decode column.name message := by
  obtain ⟨column, hc, cell, -, refused⟩ : ∃ column, columns[position]? = some column ∧
      ∃ cell, cells[position]? = some cell ∧ c.decodeCell position column cell = .error e := by
    simpa [decodedAt?, Option.bind_eq_some_iff] using h
  obtain ⟨message, he⟩ := decodeCell_error refused
  exact ⟨column, message, hc, he⟩

/-- There are as many values as columns. -/
theorem Reads.length_eq {cells : List (Option Bytes)} {values : List Value}
    (read : c.Reads columns cells values) (h : cells.length = columns.length) :
    values.length = columns.length := by
  have ends (j : Nat) : values.length ≤ j ↔ columns.length ≤ j := by
    have same := read j
    rw [decodedAt?_zip] at same
    have none_iff := congrArg (· = none) same
    simp only [Option.map_eq_none_iff, List.getElem?_eq_none_iff, List.length_zip, h, Nat.min_self,
      eq_iff_iff] at none_iff
    exact none_iff.symm
  apply le_antisymm
  · exact (ends _).mpr le_rfl
  · exact (ends _).mp le_rfl

/-- No cell of a row that is read was refused. -/
theorem Reads.ne_error {cells : List (Option Bytes)} {values : List Value}
    (read : c.Reads columns cells values) (j : Nat) (e : SqlError) :
    c.decodedAt? columns cells j ≠ some (.error e) := by
  intro refused
  rw [read j, Option.map_eq_some_iff] at refused
  obtain ⟨v, -, hv⟩ := refused
  cases hv

/-- A row becomes a record, or its first cell that is refused decides. -/
theorem decodeRow_cases {cells : List (Option Bytes)} (h : cells.length = columns.length) :
    (∃ values row, c.Reads columns cells values ∧ c.decodeRow columns cells = .ok row ∧
      row.Shows (columns.map (·.name)) values) ∨
    ∃ j e, c.decodedAt? columns cells j = some (.error e) ∧
      (∀ i < j, ∀ e', c.decodedAt? columns cells i ≠ some (.error e')) ∧
      c.decodeRow columns cells = .error e := by
  rcases decodeCells_cases (c := c) 0 Record.empty (columns.zip cells) with
    ⟨values, read, hr⟩ | ⟨j, e, he, before, hr⟩
  · left
    have reads : c.Reads columns cells values := fun j => (decodedAt?_zip cells j).trans (read j)
    have names : (columns.zip cells).map (·.1.name) = columns.map (·.name) := by
      calc (columns.zip cells).map (·.1.name)
          = ((columns.zip cells).map Prod.fst).map (·.name) := List.map_map.symm
        _ = columns.map (·.name) := by rw [List.map_fst_zip h.ge]
    have long : (columns.map (·.name)).length = values.length := by
      rw [List.length_map, reads.length_eq h]
    have shown := Record.shows_ofList ((columns.map (·.name)).zip values)
    rw [List.map_fst_zip long.le, List.map_snd_zip long.ge] at shown
    rw [names] at hr
    exact ⟨values, _, reads, hr, shown⟩
  · right
    refine ⟨j, e, (decodedAt?_zip cells j).trans he, ?_, hr⟩
    intro i hi e'
    rw [decodedAt?_zip]
    exact before i hi e'

/-- Rows fail for a cell alone, whatever their lengths. -/
theorem decodeRows_error {wire : List (List (Option Bytes))} {e : SqlError}
    (h : c.decodeRows columns wire = .error e) : ∃ name message, e = .decode name message := by
  induction wire with
  | nil => cases h
  | cons cells wire ih =>
    rw [decodeRows] at h
    rcases decodeCells_cases (c := c) 0 Record.empty (columns.zip cells) with
      ⟨values, -, hr⟩ | ⟨j, e', he, -, hr⟩
    · rw [decodeRow, hr] at h
      cases hrows : c.decodeRows columns wire with
      | ok rows =>
        rw [hrows] at h
        cases h
      | error e' =>
        rw [hrows] at h
        cases h
        exact ih hrows
    · rw [decodeRow, hr] at h
      cases h
      obtain ⟨column, message, -, rfl⟩ := decodedAt?_error ((decodedAt?_zip cells j).trans he)
      exact ⟨column.name, message, rfl⟩

/-- Every row becomes a record, or the first cell that is refused decides. -/
theorem decodeRows_cases {wire : List (List (Option Bytes))}
    (h : ∀ cells ∈ wire, cells.length = columns.length) :
    (∃ rows, c.decodeRows columns wire = .ok rows ∧
      List.Forall₂ (fun cells row => ∃ values, c.Reads columns cells values ∧
        row.Shows (columns.map (·.name)) values) wire rows) ∨
    ∃ row position column message, c.FirstRefused columns wire row position column message ∧
      c.decodeRows columns wire = .error (.decode column.name message) := by
  induction wire with
  | nil => exact .inl ⟨[], rfl, .nil⟩
  | cons cells wire ih =>
    rw [decodeRows]
    rcases decodeRow_cases (c := c) (h cells List.mem_cons_self) with
      ⟨values, row, reads, hr, shown⟩ | ⟨position, e, he, before, hr⟩
    · rw [hr]
      rcases ih fun cells hc => h cells (List.mem_cons_of_mem _ hc) with
        ⟨rows, hrows, all⟩ | ⟨row', position, column, message, first, hrows⟩
      · left
        refine ⟨row :: rows, ?_, .cons ⟨values, reads, shown⟩ all⟩
        rw [hrows]
        rfl
      · right
        refine ⟨row' + 1, position, column, message, ⟨first.found, first.refused, ?_⟩, ?_⟩
        · rintro (_ | i) j hij e he
          · exact reads.ne_error j e he
          · exact first.before i j (by omega) e he
        · rw [hrows]
          rfl
    · right
      rw [hr]
      obtain ⟨column, message, hc, rfl⟩ := decodedAt?_error he
      refine ⟨0, position, column, message, ⟨hc, he, ?_⟩, rfl⟩
      rintro i j (hi | ⟨rfl, hj⟩) e'
      · exact absurd hi (Nat.not_lt_zero i)
      · exact before j hj e'

end SqlClient.Wire.Codecs
