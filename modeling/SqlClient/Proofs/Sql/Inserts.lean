import SqlClient.Proofs.Sql.Placeholders
import SqlClient.Proofs.Sql.Tuples
import SqlClient.Proofs.Value.Named
/-!
# Inserts

The compiled text of an insert is its clauses, one a line, and its parameters fill the tuples: each
value of each row is bound once, in the column of its key. Names are without line feeds, since
tidying would join and trim what stands between quotes. The text is made of names alone, as that of
every tree is: trees that differ only in their bound values compile to one text.
-/
namespace SqlClient

namespace Sql

namespace Fragment

@[simp] theorem values_precede (s : String) (f : Fragment) : (f.precede s).values = f.values := by
  cases f <;> rfl

@[simp] theorem spell_precede (s : String) (f : Fragment) (next : Nat) :
    Mark.spell ((f.precede s).marks next) = s.toList ++ Mark.spell (f.marks next) := by
  cases f <;> simp [precede, marks]

@[simp] theorem values_append (f g : Fragment) : (f ++ g).values = f.values ++ g.values := by
  change (f.extend fun t => g.precede t).values = _
  induction f with
  | text t => exact values_precede t g
  | bind _ _ _ ih => simp [extend, values, ih]
  | splice _ _ _ _ ih => simp [extend, values, ih]

@[simp] theorem spell_append (f g : Fragment) (next : Nat) :
    Mark.spell ((f ++ g).marks next) =
      Mark.spell (f.marks next) ++ Mark.spell (g.marks (next + f.values.length)) := by
  change Mark.spell ((f.extend fun t => g.precede t).marks next) = _
  induction f generalizing next with
  | text t => simp [extend, marks, values]
  | bind _ _ rest ih =>
    have hn : next + 1 + rest.values.length = next + (rest.values.length + 1) := by omega
    simp [extend, marks, values, ih, hn]
  | splice _ _ _ _ ih => simp [extend, marks, values, ih, Nat.add_assoc]

@[simp] theorem values_text (s : String) : (text s).values = [] := rfl

@[simp] theorem spell_text (s : String) (next : Nat) :
    Mark.spell ((text s).marks next) = s.toList := by simp [marks]

def spelled (next : Nat) : List Fragment → List (List Char)
  | [] => []
  | f :: fs => Mark.spell (f.marks next) :: spelled (next + f.values.length) fs

theorem values_commas (fs : List Fragment) : (commas fs).values = fs.flatMap values := by
  match fs with
  | [] => rfl
  | [f] => simp [commas]
  | f :: g :: fs => simp [commas, values_commas (g :: fs)]

end Fragment

def commaList (ts : List (List Char)) : List Char := List.intercalate ", ".toList ts

namespace Fragment

theorem spell_commas (fs : List Fragment) (next : Nat) :
    Mark.spell ((commas fs).marks next) = commaList (spelled next fs) := by
  match fs with
  | [] => simp [commas, spelled, commaList]
  | [f] => simp [commas, spelled, commaList]
  | f :: g :: fs =>
    simp only [commas, spell_append, spell_precede, spell_commas (g :: fs), spelled, commaList,
      List.intercalate_cons_cons, List.append_assoc]

end Fragment

namespace Insert

theorem values_cell (row : Record) (c : String) :
    (cell row c).values = (Record.get? row c).toList := by
  unfold cell
  cases Record.get? row c <;> rfl

theorem values_tuple (columns : List String) (row : Record) :
    (tuple columns row).values = rowValues columns row := by
  have cells : (columns.map (cell row)).flatMap Fragment.values = rowValues columns row := by
    induction columns with
    | nil => rfl
    | cons c cs ih =>
      rw [List.map_cons, List.flatMap_cons, ih, values_cell]
      cases h : Record.get? row c with
      | none => rw [rowValues_of_none h, Option.toList_none, List.nil_append]
      | some v => rw [rowValues_of_some h, Option.toList_some, List.singleton_append]
  simp [tuple, Fragment.values_commas, cells]

theorem spell_cell_of_none {row : Record} {c : String} (h : Record.get? row c = none)
    (next : Nat) : Mark.spell ((cell row c).marks next) = Cell.chars .default := by
  rw [cell, h]
  exact Fragment.spell_text "DEFAULT" next

theorem spell_cell_of_some {row : Record} {c : String} {v : Value}
    (h : Record.get? row c = some v) (next : Nat) :
    Mark.spell ((cell row c).marks next) = Cell.chars (.slot next) := by
  rw [cell, h, Cell.chars_slot]
  simp [Fragment.marks, Mark.chars, Mark.literal, Fragment.placeholder]

theorem spelled_cells (row : Record) (columns : List String) (next : Nat) :
    Fragment.spelled next (columns.map (cell row)) =
      (tupleCells row next columns).map Cell.chars := by
  induction columns generalizing next with
  | nil => rfl
  | cons c cs ih =>
    rw [List.map_cons, Fragment.spelled, ih, values_cell]
    cases h : Record.get? row c with
    | none =>
      rw [spell_cell_of_none h, tupleCells_of_none h, List.map_cons]
      rfl
    | some v =>
      rw [spell_cell_of_some h, tupleCells_of_some h, List.map_cons]
      rfl

def tupleChars (cells : List Cell) : List Char :=
  '(' :: commaList (cells.map Cell.chars) ++ [')']

theorem spell_tuple (columns : List String) (row : Record) (next : Nat) :
    Mark.spell ((tuple columns row).marks next) = tupleChars (tupleCells row next columns) := by
  simp [tuple, Fragment.spell_commas, spelled_cells, tupleChars]

theorem spelled_tuples (columns : List String) (rows : List Record) (next : Nat) :
    Fragment.spelled next (rows.map (tuple columns)) =
      (allCells columns next rows).map tupleChars := by
  induction rows generalizing next with
  | nil => rfl
  | cons row rows ih =>
    rw [List.map_cons, Fragment.spelled, ih, values_tuple, spell_tuple, allCells, List.map_cons]

theorem spelled_names (names : List String) (next : Nat) :
    Fragment.spelled next (names.map quotedName) = names.map quoteSegment := by
  induction names generalizing next with
  | nil => rfl
  | cons s names ih =>
    rw [List.map_cons, Fragment.spelled, ih, List.map_cons]
    simp [quotedName, Fragment.ident, IdentPath.quoted, IdentPath.quotedChars, IdentPath.name,
      IdentPath.segments]

theorem values_names (names : List String) :
    (names.map quotedName).flatMap Fragment.values = [] := by
  simp [quotedName, Fragment.ident, List.flatMap_map]

def returned (returning : List String) : List Char :=
  if returning.isEmpty then ['*'] else commaList (returning.map quoteSegment)

def layout (table : IdentPath) (columns : List String) (cells : List (List Cell))
    (returning : List String) : List (List Char) :=
  let target := "INSERT INTO ".toList ++ table.quotedChars
  let result := "RETURNING ".toList ++ returned returning
  if columns.isEmpty then [target, "DEFAULT VALUES".toList, result]
  else [target ++ " (".toList ++ commaList (columns.map quoteSegment) ++ [')'],
    "VALUES ".toList ++ commaList (cells.map tupleChars), result]

def clauses (table : IdentPath) (rows : List Record) (returning : List String) : Fragment :=
  .text "INSERT INTO " ++ .ident table ++ body (columns rows) rows ++ returningClause returning

theorem spell_returningClause (returning : List String) (next : Nat) :
    Mark.spell ((returningClause returning).marks next) =
      '\n' :: ("RETURNING ".toList ++ returned returning) := by
  unfold returningClause returned
  split <;> simp [Fragment.spell_commas, spelled_names]

theorem values_returningClause (returning : List String) :
    (returningClause returning).values = [] := by
  unfold returningClause
  split <;> simp [Fragment.values_commas, values_names]

theorem values_clauses (table : IdentPath) (rows : List Record) (returning : List String) :
    (clauses table rows returning).values = rows.flatMap (rowValues (columns rows)) := by
  have tuples : (rows.map (tuple (columns rows))).flatMap Fragment.values =
      rows.flatMap (rowValues (columns rows)) := by
    simp only [List.flatMap_map, values_tuple]
  simp only [clauses, Fragment.values_append, values_returningClause, Fragment.values_text,
    Fragment.ident, List.append_nil, List.nil_append, body]
  by_cases h : (columns rows).isEmpty = true
  · simp [List.isEmpty_iff.mp h, rowValues]
  · simp [h, Fragment.values_commas, values_names, tuples]

theorem spell_clauses (table : IdentPath) (rows : List Record) (returning : List String) :
    Mark.spell ((clauses table rows returning).marks 1) =
      List.intercalate ['\n']
        (layout table (columns rows) (allCells (columns rows) 1 rows) returning) := by
  simp only [clauses, Fragment.spell_append, spell_returningClause, Fragment.spell_text,
    Fragment.ident, Fragment.values_text, IdentPath.quoted, String.toList_ofList, body, layout]
  by_cases h : (columns rows).isEmpty = true
  · simp [h]
  · simp [h, Fragment.spell_commas, spelled_names, spelled_tuples, Fragment.values_commas,
      values_names]

theorem lineEnd_quoteSegment {s : String} (h : '\n' ∉ s.toList) :
    Text.LineEnd (quoteSegment s) := by
  refine .snoc (fun hm => ?_) (by decide)
  rcases List.mem_cons.mp hm with hm | hm
  · exact absurd hm (by decide)
  · obtain ⟨c, hc, hm⟩ := List.mem_flatMap.mp hm
    by_cases hq : c = '"'
    · rw [if_pos hq] at hm
      exact absurd hm (by decide)
    · rw [if_neg hq] at hm
      obtain rfl : '\n' = c := by simpa using hm
      exact h hc

theorem lineEnd_names {sep : List Char} {names : List String} (hs : '\n' ∉ sep) (hn : names ≠ [])
    (h : ∀ s ∈ names, '\n' ∉ s.toList) :
    Text.LineEnd (List.intercalate sep (names.map quoteSegment)) := by
  refine Text.lineEnd_intercalate hs (by simpa using hn) fun l hl => ?_
  obtain ⟨s, hm, rfl⟩ := List.mem_map.mp hl
  exact lineEnd_quoteSegment (h s hm)

theorem newline_not_mem_cell (cell : Cell) : '\n' ∉ cell.chars := by
  cases cell with
  | default => decide
  | slot n =>
    intro hm
    rcases List.mem_cons.mp hm with hm | hm
    · exact absurd hm (by decide)
    · exact absurd ((Fragment.wellFormed_slot n).2 _ hm) (by decide)

theorem lineEnd_tupleChars (cells : List Cell) : Text.LineEnd (tupleChars cells) := by
  refine .snoc (fun hm => ?_) (by decide)
  rcases List.mem_cons.mp hm with hm | hm
  · exact absurd hm (by decide)
  · rcases Text.mem_intercalate hm with hm | ⟨l, hl, hm⟩
    · exact absurd hm (by decide)
    · obtain ⟨cell, -, rfl⟩ := List.mem_map.mp hl
      exact newline_not_mem_cell cell hm

theorem lineEnd_returned {returning : List String} (h : ∀ s ∈ returning, '\n' ∉ s.toList) :
    Text.LineEnd (returned returning) := by
  unfold returned
  by_cases hr : returning.isEmpty = true
  · rw [if_pos hr]
    exact .snoc List.not_mem_nil (by decide)
  · rw [if_neg hr]
    exact lineEnd_names (by decide) (fun he => hr (List.isEmpty_iff.mpr he)) h

theorem tidyLine_layout {table : IdentPath} {columns returning : List String}
    {cells : List (List Cell)} (ht : ∀ s ∈ table.segments, '\n' ∉ s.toList)
    (hc : ∀ s ∈ columns, '\n' ∉ s.toList) (hr : ∀ s ∈ returning, '\n' ∉ s.toList)
    (hn : cells ≠ []) : ∀ l ∈ layout table columns cells returning, Text.TidyLine l := by
  have target : Text.LineEnd table.quotedChars :=
    lineEnd_names (by decide) (List.cons_ne_nil _ _) ht
  have result : Text.TidyLine ("RETURNING ".toList ++ returned returning) :=
    (lineEnd_returned hr).tidyLine (by decide) (by decide)
  intro l hl
  by_cases h : columns.isEmpty = true
  · simp only [layout, if_pos h, List.mem_cons, List.not_mem_nil, or_false] at hl
    rcases hl with rfl | rfl | rfl
    · exact target.tidyLine (by decide) (by decide)
    · exact ⟨by decide, by decide, by decide⟩
    · exact result
  · simp only [layout, if_neg h, List.mem_cons, List.not_mem_nil, or_false] at hl
    have names := lineEnd_names (by decide : '\n' ∉ ", ".toList)
      (fun he => h (List.isEmpty_iff.mpr he)) hc
    rcases hl with rfl | rfl | rfl
    · have closed :
          Text.LineEnd (" (".toList ++ commaList (columns.map quoteSegment) ++ [')']) := by
        rw [List.append_assoc]
        exact Text.LineEnd.after (.snoc names.unbroken (by decide)) (by decide)
      have all : Text.TidyLine ('I' :: "NSERT INTO ".toList ++ (table.quotedChars ++
          (" (".toList ++ commaList (columns.map quoteSegment) ++ [')']))) :=
        (closed.after target.unbroken).tidyLine (by decide) (by decide)
      simpa using all
    · refine Text.LineEnd.tidyLine ?_ (by decide) (by decide)
      refine Text.lineEnd_intercalate (by decide) (by simpa using hn) fun t hm => ?_
      obtain ⟨tuple, -, rfl⟩ := List.mem_map.mp hm
      exact lineEnd_tupleChars tuple
    · exact result

/-- Rows that no statement inserts: none at all, or several without any column. -/
def Uninsertable (rows : List Record) : Prop :=
  rows = [] ∨ 1 < rows.length ∧ ∀ row ∈ rows, Record.keys row = []

theorem columns_eq_nil_iff {rows : List Record} {casing : Casing.RowCasing} :
    columns (rows.map casing.outbound) = [] ↔ ∀ row ∈ rows, Record.keys row = [] := by
  rw [List.eq_nil_iff_forall_not_mem]
  constructor
  · intro h row hr
    rw [← casing.keys_outbound_eq_nil_iff, List.eq_nil_iff_forall_not_mem]
    exact fun k hk => h k (mem_columns.mpr ⟨_, List.mem_map_of_mem hr, hk⟩)
  · intro h c hc
    obtain ⟨r, hr, hk⟩ := mem_columns.mp hc
    obtain ⟨row, hm, rfl⟩ := List.mem_map.mp hr
    rw [casing.keys_outbound_eq_nil_iff.mpr (h row hm)] at hk
    exact List.not_mem_nil hk

theorem statement_of_uninsertable {rows : List Record} (h : Uninsertable rows) (table : IdentPath)
    (returning : List String) (casing : Casing.RowCasing) :
    ∃ message, statement table rows returning casing = .error (.invalidInput message) := by
  by_cases hr : rows = []
  · subst hr
    exact ⟨_, rfl⟩
  · obtain ⟨hl, hn⟩ := h.resolve_left hr
    refine ⟨"cannot insert several rows that have no columns", ?_⟩
    rw [statement, fragment, build, if_neg (by simpa using hr),
      columns_eq_nil_iff.mpr hn, if_pos (by simpa using hl)]
    rfl

theorem statement_of_insertable {rows : List Record} (h : ¬ Uninsertable rows) (table : IdentPath)
    (returning : List String) (casing : Casing.RowCasing) :
    statement table rows returning casing =
      .ok (clauses table (rows.map casing.outbound) returning).compile := by
  obtain ⟨hr, hn⟩ := not_or.mp h
  have columned : ¬ ((columns (rows.map casing.outbound)).isEmpty &&
      decide (1 < (rows.map casing.outbound).length)) = true := by
    rw [Bool.and_eq_true, List.isEmpty_iff, columns_eq_nil_iff, decide_eq_true_eq, List.length_map]
    exact fun ⟨he, hl⟩ => hn ⟨hl, he⟩
  rw [statement, fragment, build, if_neg (by simpa using hr), if_neg columned]
  rfl

/-- An insert is refused exactly when there is nothing to write. Otherwise its columns and tuples
hold the rows as they go to the database, and its text is the lines of these. -/
theorem statement_layout (table : IdentPath) (rows : List Record) (returning : List String)
    (casing : Casing.RowCasing) (ht : ∀ s ∈ table.segments, '\n' ∉ s.toList)
    (hr : ∀ s ∈ returning, '\n' ∉ s.toList)
    (hc : ∀ row ∈ rows, ∀ s ∈ Record.keys (casing.outbound row), '\n' ∉ s.toList) :
    (Uninsertable rows →
      ∃ message, statement table rows returning casing = .error (.invalidInput message)) ∧
    (¬ Uninsertable rows → ∃ s columns cells,
      statement table rows returning casing = .ok s ∧
      Fills (rows.map casing.outbound) columns cells s.params ∧
      (columns = [] → s.params = []) ∧
      s.text = String.ofList
        (List.intercalate ['\n'] (layout table columns cells returning))) := by
  refine ⟨fun h => statement_of_uninsertable h table returning casing, fun h => ?_⟩
  let stored := rows.map casing.outbound
  have nonempty : allCells (columns stored) 1 stored ≠ [] := by
    intro he
    have hl := length_allCells (columns stored) 1 stored
    rw [he, List.length_map] at hl
    exact h (.inl (List.length_eq_zero_iff.mp hl.symm))
  have unbroken : ∀ s ∈ columns stored, '\n' ∉ s.toList := by
    intro s hs
    obtain ⟨r, hm, hk⟩ := mem_columns.mp hs
    obtain ⟨row, hrow, rfl⟩ := List.mem_map.mp hm
    exact hc row hrow s hk
  refine ⟨_, columns stored, allCells (columns stored) 1 stored,
    statement_of_insertable h table returning casing, ?_, ?_, ?_⟩
  · rw [Fragment.params_compile, values_clauses]
    exact fills_rows stored
  · intro he
    rw [Fragment.params_compile, values_clauses, he]
    simp [rowValues]
  · rw [Fragment.text_compile, spell_clauses,
      Text.tidyLines_intercalate (tidyLine_layout ht unbroken hr nonempty)]

theorem statement_layout_sparse :
    let rows := [Record.ofList [("userId", .null), ("b", .bool false)],
      Record.ofList [("c", .null), ("b", .null)]]
    ∃ s columns cells, statement (.name "t") rows ["id"] .camel = .ok s ∧
      Fills (rows.map Casing.RowCasing.camel.outbound) columns cells s.params ∧
      s.text = String.ofList (List.intercalate ['\n'] (layout (.name "t") columns cells ["id"])) ∧
      s.params.length = 4 := by
  intro rows
  have insertable : ¬ Uninsertable rows := by unfold Uninsertable; decide
  obtain ⟨s, columns, cells, hs, hf, -, ht⟩ :=
    (statement_layout (.name "t") rows ["id"] .camel (by decide) (by decide) (by decide)).2
      insertable
  exact ⟨s, columns, cells, hs, hf, ht, hf.length_params.trans (by decide)⟩

end Insert

end Sql

namespace Sql.Fragment

/-- Two trees that differ at most in the values of their slots; the pairs are the values of the one
and of the other, in reading order. -/
inductive Alike : Fragment → Fragment → List (Value × Value) → Prop where
  | text (t : String) : Alike (.text t) (.text t) []
  | bind {f g : Fragment} {ps : List (Value × Value)} (t : String) (v w : Value)
      (rest : Alike f g ps) : Alike (.bind t v f) (.bind t w g) ((v, w) :: ps)
  | splice {f g i j : Fragment} {ps qs : List (Value × Value)} (t : String)
      (inner : Alike i j ps) (rest : Alike f g qs) :
      Alike (.splice t i f) (.splice t j g) (ps ++ qs)

section Alike

variable {f g : Fragment} {ps : List (Value × Value)}

theorem Alike.values (h : Alike f g ps) :
    f.values = ps.map Prod.fst ∧ g.values = ps.map Prod.snd := by
  induction h with
  | text t => exact ⟨rfl, rfl⟩
  | bind t v w rest ih =>
    obtain ⟨left, right⟩ := ih
    constructor
    · rw [Fragment.values, left, List.map_cons]
    · rw [Fragment.values, right, List.map_cons]
  | splice t inner rest ihi ihr =>
    constructor
    · rw [Fragment.values, ihi.1, ihr.1, List.map_append]
    · rw [Fragment.values, ihi.2, ihr.2, List.map_append]

theorem Alike.marks (h : Alike f g ps) (next : Nat) : f.marks next = g.marks next := by
  induction h generalizing next with
  | text t => rfl
  | bind t v w rest ih => rw [Fragment.marks, Fragment.marks, ih]
  | splice t inner rest ihi ihr =>
    rw [Fragment.marks, Fragment.marks, ihi, ihr, inner.values.1, inner.values.2, List.length_map,
      List.length_map]

theorem Alike.text_eq (h : Alike f g ps) : f.compile.text = g.compile.text := by
  rw [text_compile, text_compile, h.marks]

end Alike

end Sql.Fragment

namespace Record

theorem isSome_get?_congr {r s : Record} (h : keys r = keys s) (k : String) :
    (get? r k).isSome = (get? s k).isSome := by
  rw [Bool.eq_iff_iff, isSome_get?_iff, isSome_get?_iff, h]

end Record

namespace Sql.Insert

abbrev SameKeys : List Record → List Record → Prop :=
  List.Forall₂ fun row other => row.keys = other.keys

theorem sameKeys_iff {rows others : List Record} :
    SameKeys rows others ↔ rows.map Record.keys = others.map Record.keys := by
  rw [← List.forall₂_eq_eq_eq, List.forall₂_map_left_iff, List.forall₂_map_right_iff]

section Keys

variable {rows others : List Record}

theorem SameKeys.outbound (h : SameKeys rows others) (casing : Casing.RowCasing) :
    SameKeys (rows.map casing.outbound) (others.map casing.outbound) := by
  rw [SameKeys, List.forall₂_map_left_iff, List.forall₂_map_right_iff]
  apply h.imp
  intro row other hk
  exact casing.keys_outbound_congr hk

theorem SameKeys.columns_eq (h : SameKeys rows others) : columns rows = columns others := by
  rw [columns, columns, List.flatMap_def, List.flatMap_def, sameKeys_iff.mp h]

/-- Whether a cell is bound depends on the keys of its row. -/
theorem tupleCells_congr {row other : Record} (h : row.keys = other.keys) (next : Nat)
    (cs : List String) : tupleCells row next cs = tupleCells other next cs ∧
      (rowValues cs row).length = (rowValues cs other).length := by
  induction cs generalizing next with
  | nil => exact ⟨rfl, rfl⟩
  | cons c cs ih =>
    have same := Record.isSome_get?_congr h c
    rcases hr : Record.get? row c with _ | v
    · obtain ho : Record.get? other c = none := by simpa [hr] using same
      rw [tupleCells_of_none hr, tupleCells_of_none ho, rowValues_of_none hr, rowValues_of_none ho]
      exact ⟨congrArg _ (ih next).1, (ih next).2⟩
    · obtain ⟨w, ho⟩ : ∃ w, Record.get? other c = some w :=
        Option.isSome_iff_exists.mp (same.symm.trans (by rw [hr]; rfl))
      rw [tupleCells_of_some hr, tupleCells_of_some ho, rowValues_of_some hr, rowValues_of_some ho]
      exact ⟨congrArg _ (ih (next + 1)).1, congrArg Nat.succ (ih next).2⟩

theorem SameKeys.allCells_eq (h : SameKeys rows others) (cs : List String) (next : Nat) :
    allCells cs next rows = allCells cs next others := by
  induction h generalizing next with
  | nil => rfl
  | cons hk _ ih =>
    obtain ⟨cells, count⟩ := tupleCells_congr hk next cs
    rw [allCells, allCells, cells, count, ih]

theorem SameKeys.text_clauses (h : SameKeys rows others) (table : IdentPath)
    (returning : List String) :
    (clauses table rows returning).compile.text =
      (clauses table others returning).compile.text := by
  rw [Fragment.text_compile, Fragment.text_compile, spell_clauses, spell_clauses, h.columns_eq,
    h.allCells_eq]

/-- Rows with the same keys are inserted by the same text, or are refused alike. -/
theorem SameKeys.text_statement (h : SameKeys rows others) (table : IdentPath)
    (returning : List String) (casing : Casing.RowCasing) :
    (statement table rows returning casing).map Statement.text =
      (statement table others returning casing).map Statement.text := by
  have stored := h.outbound casing
  have length := stored.length_eq
  have empty : (rows.map casing.outbound).isEmpty = (others.map casing.outbound).isEmpty := by
    rw [Bool.eq_iff_iff, List.isEmpty_iff_length_eq_zero, List.isEmpty_iff_length_eq_zero, length]
  rw [statement, statement, fragment, fragment, build, build, stored.columns_eq, length, empty]
  split_ifs
  · rfl
  · rfl
  · have text := stored.text_clauses table returning
    rw [clauses, clauses, stored.columns_eq] at text
    exact congrArg Except.ok text

end Keys

end Sql.Insert

end SqlClient
