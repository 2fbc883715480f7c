import SqlClient.Proofs.Client.Calls
import SqlClient.Proofs.Driver.Requests
import SqlClient.Proofs.Wire.RoundTrip
import SqlClient.Proofs.Wire.Rows
/-!
# Columns and rows of a result

What a client returns of a statement that the server executed: the names of the columns, converted
and in order, and for each row on the wire a record of what its cells are decoded to. Names may be
equal from the start or become equal by the conversion.
-/
namespace SqlClient

open Act
open SqlClient.Casing SqlClient.Wire

namespace Client

def ShowsCells (codecs : Codecs) (casing : RowCasing) (columns : List Column)
    (cells : List (Option Bytes)) (row : Record) : Prop :=
  ∃ values, codecs.Reads columns cells values ∧
    row.Shows (columns.map fun column => casing.inboundKey column.name)
      (values.map casing.inboundValue)

/-- What a statement comes to that is answered with these columns and rows. -/
inductive Comes (codecs : Codecs) (casing : RowCasing) (columns : List Column)
    (wire : List (List (Option Bytes))) : Except (Stop SqlError) ResultSet → Prop where
  | refused {row position : Nat} {column : Column} {message : String} :
      codecs.FirstRefused columns wire row position column message →
      Comes codecs casing columns wire (.error (.failed (.decode column.name message)))
  | shown {rows : List Record} :
      List.Forall₂ (ShowsCells codecs casing columns) wire rows →
      Comes codecs casing columns wire
        (.ok ⟨columns.map fun column => casing.inboundKey column.name, rows⟩)

variable {β : Type} {server : Server β} {codecs : Codecs} {columns : List Column}
  {wire : List (List (Option Bytes))} {s : Line β Ownership}

theorem shows_inbound_rows (casing : RowCasing) {rows : List Record}
    (h : List.Forall₂ (fun cells row => ∃ values, codecs.Reads columns cells values ∧
      row.Shows (columns.map (·.name)) values) wire rows) :
    List.Forall₂ (ShowsCells codecs casing columns) wire (rows.map casing.inbound) := by
  apply List.forall₂_map_right_iff.mpr
  refine h.imp ?_
  rintro cells row ⟨values, reads, shown⟩
  have converted := casing.shows_inbound shown
  rw [List.map_map] at converted
  exact ⟨values, reads, converted⟩

/-- A statement that is executed comes to a result whose columns and rows agree, or fails by the
first cell that is refused. A row on the wire has one cell for each column. -/
theorem query_comes {c : Client (Line β Ownership) OpenScope} {st : Sql.Statement}
    (hd : c.driver = Exclusive.driver server codecs)
    (executes : Exclusive.Executes server c.scope st columns wire s)
    (full : ∀ cells ∈ wire, cells.length = columns.length) :
    (c.query st).Ends s fun r _ => Comes codecs c.context.casing columns wire r := by
  have run : ((Exclusive.driver server codecs).execute c.scope st).Ends s _ :=
    executes.ends_execute
  rw [← hd] at run
  rcases Codecs.decodeRows_cases (c := codecs) full with
    ⟨rows, decoded, shown⟩ | ⟨row, position, column, message, first, decoded⟩
  · rw [decoded] at run
    refine ends_query run ?_ ?_
    · rintro r t ⟨⟩
      have comes := Comes.shown (shows_inbound_rows c.context.casing shown)
      have names : (columns.map (·.name)).map c.context.casing.inboundKey =
          columns.map fun column => c.context.casing.inboundKey column.name := List.map_map
      rw [← names] at comes
      exact comes
    · rintro stop t ⟨⟩
  · rw [decoded] at run
    refine ends_query run ?_ ?_
    · rintro r t ⟨⟩
    · rintro stop t ⟨⟩
      exact .refused first

/-- Two columns whose names become equal share a key of the record. -/
theorem query_comes_colliding :
    let columns : List Column := [⟨"user_id", .text⟩, ⟨"b", .text⟩, ⟨"userId", .text⟩]
    let cells := [some (utf8 "x"), none, some (utf8 "y")]
    let script : Script := { replies := [{ columns, rows := [cells] }] }
    let c : Client (Line Script Ownership) OpenScope :=
      { driver := Exclusive.driver Script.server .standard }
    ∃ row, ((c.query ⟨"SELECT", []⟩).run (Progress.new (Exclusive.start script))).1 =
      .ok ⟨["userId", "b", "userId"], [row]⟩ ∧ row.keys = ["userId", "b"] := by
  intro columns cells script c
  have text := Codecs.decoder?_scalar .decimal (by decide : PgType.text ∈ tableScalars)
  have reads : Codecs.standard.Reads columns cells [.text "x", .null, .text "y"] := by
    rintro (_ | _ | _ | position)
    · exact congrArg some (Codecs.decodeCell_scalar text (readText_utf8 "x") 0 "user_id")
    · exact congrArg some (Codecs.decodeCell_eq_ok text rfl "b")
    · exact congrArg some (Codecs.decodeCell_scalar text (readText_utf8 "y") 2 "userId")
    · rfl
  have executes : Exclusive.Executes Script.server c.scope ⟨"SELECT", []⟩ columns [cells]
      (Exclusive.start script) :=
    ⟨fun _ => rfl, [], [], script, _, _, .nothing rfl, rfl, rfl, rfl⟩
  obtain ⟨r, q, ran, comes⟩ :=
    (query_comes (c := c) rfl executes (List.forall_mem_singleton.mpr rfl)).outcome
      (p := .new (Exclusive.start script)) rfl
  have keys : columns.map (fun column => c.context.casing.inboundKey column.name) =
      ["userId", "b", "userId"] := by decide +kernel
  rw [run, ran]
  cases comes with
  | @refused row position column message first =>
    have refused := first.refused
    rcases row with _ | row
    · exact absurd refused (reads.ne_error position _)
    · cases refused
  | shown all =>
    obtain ⟨row, none, ⟨values, -, shown⟩, last, rfl⟩ := List.forall₂_cons_left_iff.mp all
    cases last
    refine ⟨row, ?_, ?_⟩
    · rw [keys]
    · rw [shown.keys, keys]
      rfl

end Client

end SqlClient
