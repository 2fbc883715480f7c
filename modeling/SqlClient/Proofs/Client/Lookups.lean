import Mathlib.Data.List.Forall2
import SqlClient.Proofs.Client.Calls
import SqlClient.Proofs.Sql.Placeholders
/-!
# Lookups by a unique column

A lookup is answered with the rows whose column equals one of the values asked for. No two rows
agree in that column, so every value has its row as soon as there are as many rows as values: each
value takes at most one row away from the table, and leaves the other values theirs.
-/
namespace SqlClient

open Act
open SqlClient.Casing SqlClient.Sql

/-- Equality as the server tests it. It need not tell apart what differs here, and null equals
nothing. -/
structure SqlEquality where
  equal : Value → Value → Bool
  symm : ∀ {v w}, equal v w → equal w v
  trans : ∀ {u v w}, equal u v → equal v w → equal u w
  null : ∀ v, equal .null v = false

namespace SqlEquality

variable (eq : SqlEquality) (column : String)

/-- What the row has in the column; a column that is missing is null. -/
def held (row : Record) : Value := (row.get? column).getD .null

def hits (v : Value) (row : Record) : Bool := eq.equal v (held column row)

def matching (values : List Value) (table : List Record) : List Record :=
  table.filter fun row => values.any (eq.hits column · row)

def Distinct (table : List Record) : Prop :=
  table.Pairwise fun row other => ¬ eq.equal (held column row) (held column other)

/-- The values differ from each other, and each is in the column of some row. -/
structure Resolves (values : List Value) (table : List Record) : Prop where
  different : values.Pairwise fun v w => ¬ eq.equal v w
  found : ∀ v ∈ values, ∃ row ∈ table, eq.hits column v row

variable {eq column} {v : Value} {values : List Value} {table : List Record}

instance : Decidable (eq.Distinct column table) := inferInstanceAs (Decidable (List.Pairwise _ _))

instance : Decidable (eq.Resolves column values table) :=
  decidable_of_iff ((values.Pairwise fun v w => ¬ eq.equal v w) ∧
      ∀ v ∈ values, ∃ row ∈ table, eq.hits column v row)
    ⟨fun h => ⟨h.1, h.2⟩, fun h => ⟨h.different, h.found⟩⟩

theorem Resolves.null_not_mem (h : eq.Resolves column values table) : .null ∉ values := by
  intro asked
  obtain ⟨row, -, hit⟩ := h.found .null asked
  rw [hits, eq.null] at hit
  cases hit

/-- The value has its row to itself, and the others have theirs among the rest. -/
theorem resolves_cons_iff : eq.Resolves column (v :: values) table ↔
    (∃ row ∈ table, eq.hits column v row) ∧
      eq.Resolves column values (table.filter fun row => !eq.hits column v row) := by
  constructor
  · intro h
    obtain ⟨first, others⟩ := List.pairwise_cons.mp h.different
    refine ⟨h.found v List.mem_cons_self, others, ?_⟩
    intro w hw
    obtain ⟨row, hrow, hit⟩ := h.found w (List.mem_cons_of_mem v hw)
    refine ⟨row, List.mem_filter.mpr ⟨hrow, ?_⟩, hit⟩
    rw [Bool.not_eq_true', ← Bool.not_eq_true]
    intro both
    exact first w hw (eq.trans both (eq.symm hit))
  · rintro ⟨found, h⟩
    constructor
    · refine List.pairwise_cons.mpr ⟨?_, h.different⟩
      intro w hw same
      obtain ⟨row, hrow, hit⟩ := h.found w hw
      have apart := (List.mem_filter.mp hrow).2
      rw [Bool.not_eq_true', ← Bool.not_eq_true] at apart
      exact apart (eq.trans same hit)
    · refine List.forall_mem_cons.mpr ⟨found, ?_⟩
      intro w hw
      obtain ⟨row, hrow, hit⟩ := h.found w hw
      exact ⟨row, (List.mem_filter.mp hrow).1, hit⟩

/-- The rows of the first value come first. -/
theorem matching_cons_perm (eq : SqlEquality) (column : String) (v : Value) (values : List Value)
    (table : List Record) : (eq.matching column (v :: values) table).Perm
    (table.filter (eq.hits column v) ++
      eq.matching column values (table.filter fun row => !eq.hits column v row)) := by
  have split := List.filter_append_perm (eq.hits column v) (eq.matching column (v :: values) table)
  refine split.symm.trans (List.Perm.of_eq ?_)
  rw [matching, matching, List.filter_filter, List.filter_filter, List.filter_filter]
  congr 1
  · refine List.filter_congr fun row _ => ?_
    rw [List.any_cons]
    cases eq.hits column v row <;> simp
  · refine List.filter_congr fun row _ => ?_
    rw [List.any_cons]
    cases eq.hits column v row <;> simp

theorem Distinct.hits_cases (h : eq.Distinct column table) (v : Value) :
    (∀ row ∈ table, ¬ eq.hits column v row) ∨
      ∃ row, table.filter (eq.hits column v) = [row] ∧ row ∈ table ∧ eq.hits column v row := by
  cases hits : table.filter (eq.hits column v) with
  | nil => exact .inl (List.filter_eq_nil_iff.mp hits)
  | cons row others =>
    right
    have all : ∀ other ∈ row :: others, other ∈ table ∧ eq.hits column v other := by
      intro other ho
      rw [← hits] at ho
      exact List.mem_filter.mp ho
    obtain ⟨hrow, hit⟩ := all row List.mem_cons_self
    have apart := h.filter (eq.hits column v)
    rw [hits] at apart
    cases others with
    | nil => exact ⟨row, rfl, hrow, hit⟩
    | cons other others =>
      have same := (all other (List.mem_cons_of_mem row List.mem_cons_self)).2
      have differ := List.rel_of_pairwise_cons apart List.mem_cons_self
      exact absurd (eq.trans (eq.symm hit) same) differ

/-- Every value has its own row, or there are fewer rows than values. -/
theorem Distinct.matching_cases (h : eq.Distinct column table) (values : List Value) :
    (eq.Resolves column values table ∧ ∃ found,
      List.Forall₂ (fun v row => eq.hits column v row) values found ∧
      (eq.matching column values table).Perm found) ∨
    ¬ eq.Resolves column values table ∧
      (eq.matching column values table).length < values.length := by
  induction values generalizing table with
  | nil =>
    have nothing : eq.matching column [] table = [] := List.filter_eq_nil_iff.mpr fun _ _ => nofun
    exact .inl ⟨⟨.nil, nofun⟩, [], .nil, .of_eq nothing⟩
  | cons v values ih =>
    have rest := ih (h.filter fun row => !eq.hits column v row)
    have rows := matching_cons_perm eq column v values table
    rcases h.hits_cases v with missing | ⟨row, one, hrow, hit⟩
    · right
      constructor
      · intro resolves
        obtain ⟨row, hrow, hit⟩ := resolves.found v List.mem_cons_self
        exact missing row hrow hit
      · rw [rows.length_eq, List.filter_eq_nil_iff.mpr missing, List.nil_append, List.length_cons]
        rcases rest with ⟨-, found, all, perm⟩ | ⟨-, fewer⟩
        · rw [perm.length_eq, all.length_eq]
          exact Nat.lt_succ_self _
        · exact Nat.lt_succ_of_lt fewer
    · rw [one] at rows
      rcases rest with ⟨resolves, found, all, perm⟩ | ⟨unresolved, fewer⟩
      · left
        refine ⟨resolves_cons_iff.mpr ⟨⟨row, hrow, hit⟩, resolves⟩, row :: found, ?_, ?_⟩
        · exact .cons hit all
        · exact rows.trans (perm.cons row)
      · right
        constructor
        · intro resolves
          exact unresolved (resolves_cons_iff.mp resolves).2
        · rw [rows.length_eq]
          exact Nat.succ_lt_succ fewer

end SqlEquality

variable {σ η : Type}

/-- The server answers the lookup of these values with the matching rows, in any order. -/
def Driver.LooksUp (d : Driver σ η) (scope : Option η) (path : IdentPath) (column : String)
    (eq : SqlEquality) (table : List Record) (s : σ) (values : List Value) : Prop :=
  (d.execute scope (lookupStatement path column values)).Ends s fun r _ =>
    ∃ columns rows, r = .ok ⟨columns, rows⟩ ∧ rows.Perm (eq.matching column values table)

def SqlEquality.integers : SqlEquality where
  equal
    | .int i, .int j => i = j
    | _, _ => false
  symm := by
    rintro (_ | _) (_ | _) same <;> simp_all
  trans := by
    rintro (_ | _) (_ | _) (_ | _) first second <;> simp_all
  null _ := rfl

def Driver.onTable (eq : SqlEquality) (column : String) (table : List Record) :
    Driver Unit Unit where
  execute _ st :=
    match st.params with
    | [.array values] => pure ⟨[], eq.matching column values table⟩
    | _ => Act.fail SqlClient.notFound
  begin _ := pure ()
  commit _ := pure ()
  rollback _ := pure ()
  drop _ p := p

theorem Driver.looksUp_onTable (eq : SqlEquality) (column : String) (table : List Record)
    (path : IdentPath) (values : List Value) :
    (onTable eq column table).LooksUp none path column eq table () values := by
  have params : (lookupStatement path column values).params = [.array values] :=
    Fragment.params_compile _
  rw [LooksUp, onTable]
  dsimp only
  rw [params]
  exact ends_pure ⟨[], _, rfl, .refl _⟩

namespace Client

def OnePerValue (casing : RowCasing) (eq : SqlEquality) (column : String) (values : List Value)
    (table rows : List Record) : Prop :=
  ∃ matched, List.Forall₂ (fun v row => eq.hits column v row) values matched ∧
    matched.Perm (eq.matching column values table) ∧ rows.Perm (matched.map casing.inbound)

variable {c : Client σ η} {s : σ} {eq : SqlEquality} {path : IdentPath} {column : String}
  {values : List Value} {table : List Record}

/-- The rows that are answered are returned as they come in, if there is one. -/
theorem ends_many {st : Statement} {answer : List Record → Prop}
    (h : (c.driver.execute c.scope st).Ends s fun r _ =>
      ∃ columns rows, r = .ok ⟨columns, rows⟩ ∧ answer rows) :
    (c.many st).Ends s fun r _ => ∃ rows, answer rows ∧
      r = if rows = [] then .error (.failed SqlClient.notFound) else
        .ok (rows.map c.context.casing.inbound) := by
  have asked : (c.query st).Ends s fun r _ => ∃ result, r = .ok result ∧
      ∃ rows, answer rows ∧ result.rows = rows.map c.context.casing.inbound := by
    refine ends_query h ?_ ?_
    · rintro _ t ⟨columns, rows, ⟨⟩, ha⟩
      exact ⟨_, rfl, rows, ha, rfl⟩
    · rintro _ t ⟨_, _, ⟨⟩, _⟩
  have listed : (c.any st).Ends s fun r _ => ∃ result, r = .ok result ∧
      ∃ rows, answer rows ∧ result = rows.map c.context.casing.inbound :=
    asked.afterwards fun result t ⟨rows, ha, hr⟩ => ends_pure ⟨_, rfl, rows, ha, hr⟩
  refine listed.afterwards ?_
  rintro _ t ⟨rows, ha, rfl⟩
  cases rows with
  | nil => exact ends_fail ⟨[], ha, rfl⟩
  | cons row rows => exact ends_pure ⟨row :: rows, ha, rfl⟩

/-- Only as many rows as values are returned. -/
theorem ends_manyByUnique_answered {answer : List Record → Prop} (hv : values ≠ [])
    (h : (c.driver.execute c.scope (lookupStatement path column values)).Ends s fun r _ =>
      ∃ columns rows, r = .ok ⟨columns, rows⟩ ∧ answer rows) :
    (c.manyByUnique path column values).Ends s fun r _ => ∃ rows, answer rows ∧
      (rows.length = values.length ∧ r = .ok (rows.map c.context.casing.inbound) ∨
        rows.length ≠ values.length ∧ ∃ message, r = .error (.failed (.notFound message))) := by
  rw [manyByUnique, if_neg (by rwa [List.isEmpty_iff])]
  refine ends_bind ((ends_many h).mono ?_)
  rintro _ t ⟨rows, ha, rfl⟩
  by_cases empty : rows = []
  · subst empty
    exact ⟨[], ha, .inr ⟨Nat.ne_of_lt (List.length_pos_iff.mpr hv), _, rfl⟩⟩
  · rw [if_neg empty]
    dsimp only
    by_cases same : rows.length = values.length
    · rw [if_pos (by rwa [List.length_map])]
      exact ends_pure ⟨rows, ha, .inl ⟨same, rfl⟩⟩
    · rw [if_neg (by rwa [List.length_map])]
      exact ends_fail ⟨rows, ha, .inr ⟨same, _, rfl⟩⟩

/-- As many rows as values are found just if every value has its own. -/
theorem ends_manyByUnique (distinct : eq.Distinct column table)
    (h : c.driver.LooksUp c.scope path column eq table s values) (hv : values ≠ []) :
    (c.manyByUnique path column values).Ends s fun r _ =>
      (eq.Resolves column values table ∧
        ∃ rows, OnePerValue c.context.casing eq column values table rows ∧ r = .ok rows) ∨
      ¬ eq.Resolves column values table ∧ ∃ message, r = .error (.failed (.notFound message)) := by
  refine (ends_manyByUnique_answered hv h).mono ?_
  rintro r t ⟨rows, perm, outcome⟩
  have answered := perm.length_eq
  rcases distinct.matching_cases values with
    ⟨resolves, matched, all, matching⟩ | ⟨unresolved, fewer⟩
  · left
    rcases outcome with ⟨-, hr⟩ | ⟨apart, -⟩
    · exact ⟨resolves, _, ⟨matched, all, matching.symm, (perm.trans matching).map _⟩, hr⟩
    · exact absurd (answered.trans (matching.length_eq.trans all.length_eq.symm)) apart
  · right
    rcases outcome with ⟨same, -⟩ | ⟨-, hr⟩
    · exact absurd (answered.symm.trans same) (Nat.ne_of_lt fewer)
    · exact ⟨unresolved, hr⟩

theorem ends_byUnique {v : Value} (distinct : eq.Distinct column table)
    (h : c.driver.LooksUp c.scope path column eq table s [v]) :
    (c.byUnique path column v).Ends s fun r _ =>
      (∃ row ∈ table, eq.hits column v row ∧
        (∀ other ∈ table, eq.hits column v other → other = row) ∧
        r = .ok (c.context.casing.inbound row)) ∨
      (∀ row ∈ table, ¬ eq.hits column v row) ∧
        ∃ message, r = .error (.failed (.notFound message)) := by
  refine ends_bind ((ends_manyByUnique distinct h (List.cons_ne_nil v [])).mono ?_)
  rintro r t (⟨resolves, rows, ⟨matched, all, matching, perm⟩, rfl⟩ | ⟨unresolved, message, rfl⟩)
  · obtain ⟨row, none, hit, last, rfl⟩ := List.forall₂_cons_left_iff.mp all
    cases last
    obtain rfl := List.perm_singleton.mp perm
    have mem (other : Record) : other = row ↔ other ∈ table ∧ eq.hits column v other := by
      rw [← List.mem_singleton, matching.mem_iff, SqlEquality.matching, List.mem_filter,
        List.any_cons, List.any_nil, Bool.or_false]
    refine ends_pure (.inl ⟨row, ((mem row).mp rfl).1, hit, ?_, rfl⟩)
    intro other ho same
    exact (mem other).mpr ⟨ho, same⟩
  · refine .inr ⟨?_, message, rfl⟩
    intro row hrow hit
    exact unresolved ⟨List.pairwise_singleton _ v, List.forall_mem_singleton.mpr ⟨row, hrow, hit⟩⟩

/-- Lookups resolve all values or fail. Nothing is asked where there are no values. -/
theorem lookups_resolve (distinct : eq.Distinct column table) :
    (∀ values, c.driver.LooksUp c.scope path column eq table s values →
      (c.manyByUnique path column values).Ends s fun r _ =>
      ((∃ rows, r = .ok rows) ↔ values ≠ [] ∧ eq.Resolves column values table) ∧
      (∀ rows, r = .ok rows → OnePerValue c.context.casing eq column values table rows) ∧
      ∀ stop, r = .error stop → values ≠ [] → ∃ message, stop = .failed (.notFound message)) ∧
    (∀ p, (c.manyByUnique path column []).run p =
      (.error (.failed (.invalidInput "You must supply at least one id")), p)) ∧
    ∀ v, c.driver.LooksUp c.scope path column eq table s [v] →
      (c.byUnique path column v).Ends s fun r _ =>
      (∃ row ∈ table, eq.hits column v row ∧
        (∀ other ∈ table, eq.hits column v other → other = row) ∧
        r = .ok (c.context.casing.inbound row)) ∨
      (∀ row ∈ table, ¬ eq.hits column v row) ∧
        ∃ message, r = .error (.failed (.notFound message)) := by
  have empty (p : Progress σ) : (c.manyByUnique path column []).run p =
      (.error (.failed (.invalidInput "You must supply at least one id")), p) := rfl
  refine ⟨?_, empty, fun v => ends_byUnique distinct⟩
  intro values h
  by_cases hv : values = []
  · subst hv
    intro p hp
    rw [empty p]
    refine ⟨⟨?_, ?_⟩, ?_, ?_⟩
    · rintro ⟨rows, ⟨⟩⟩
    · rintro ⟨asked, -⟩
      exact absurd rfl asked
    · rintro rows ⟨⟩
    · rintro stop - asked
      exact absurd rfl asked
  · refine (ends_manyByUnique distinct h hv).mono ?_
    rintro r t (⟨resolves, rows, each, rfl⟩ | ⟨unresolved, message, rfl⟩)
    · refine ⟨⟨fun _ => ⟨hv, resolves⟩, fun _ => ⟨rows, rfl⟩⟩, ?_, ?_⟩
      · rintro rows ⟨⟩
        exact each
      · rintro stop ⟨⟩
    · refine ⟨⟨?_, ?_⟩, ?_, ?_⟩
      · rintro ⟨rows, ⟨⟩⟩
      · rintro ⟨-, resolves⟩
        exact absurd resolves unresolved
      · rintro rows ⟨⟩
      · rintro stop ⟨⟩ -
        exact ⟨message, rfl⟩

/-- Two rows are found in any order, but not twice, and null is not found. -/
theorem lookups_resolve_integers :
    let row (v : Value) := Record.ofList [("id", v)]
    let table := [row (.int 1), row (.int 2), row .null]
    let c : Client Unit Unit :=
      { driver := .onTable .integers "id" table, context := { casing := .preserve } }
    let resolves values := ∃ rows,
      ((c.manyByUnique (.name "user") "id" values).run (.new ())).1 = .ok rows
    resolves [.int 2, .int 1] ∧ ¬ resolves [.int 1, .int 1] ∧ ¬ resolves [.int 1, .null] ∧
      ((c.byUnique (.name "user") "id" (.int 2)).run (.new ())).1 = .ok (row (.int 2)) := by
  intro row table c resolves
  have distinct : SqlEquality.integers.Distinct "id" table := by decide +kernel
  have answered := Driver.looksUp_onTable .integers "id" table (.name "user")
  obtain ⟨many, -, one⟩ := lookups_resolve (c := c) distinct
  have iff (values : List Value) : resolves values ↔
      values ≠ [] ∧ SqlEquality.integers.Resolves "id" values table :=
    (many values (answered values) (.new ()) rfl).1
  refine ⟨?_, ?_, ?_, ?_⟩
  · exact (iff _).mpr ⟨List.cons_ne_nil _ _, by decide +kernel⟩
  · intro twice
    exact absurd ((iff _).mp twice).2 (by decide +kernel)
  · intro null
    exact ((iff _).mp null).2.null_not_mem (List.mem_cons_of_mem _ List.mem_cons_self)
  · rcases one (.int 2) (answered _) (.new ()) rfl with ⟨row, hrow, hit, -, hr⟩ | ⟨missing, -⟩
    · rcases List.mem_cons.mp hrow with rfl | hrow
      · exact absurd hit (by decide +kernel)
      · rcases List.mem_cons.mp hrow with rfl | hrow
        · exact hr
        · cases List.mem_singleton.mp hrow
          exact absurd hit (by decide +kernel)
    · exact absurd (missing _ (List.mem_cons_of_mem _ List.mem_cons_self)) (by decide +kernel)

end Client

end SqlClient
