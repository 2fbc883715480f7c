import SqlClient.Wire.Decode
/-!
# Servers

What a server can be asked over a connection and what it answers: commands that open and end scopes,
of which the one at depth 1 is a transaction and a deeper one a savepoint named after its depth, and
statements. A server is a state and four functions on it; connections are numbered in the order in
which they are asked for. The scripted one answers with one entry for each statement that is
prepared and errors for certain commands and connections; where the script says nothing, all is
well.
-/
namespace SqlClient

open SqlClient.Wire

inductive ScopeAction where
  | begin
  | commit
  | rollback
  | discard
  deriving DecidableEq, Repr

def ScopeAction.name : ScopeAction → String
  | .begin => "begin"
  | .commit => "commit"
  | .rollback => "rollback"
  | .discard => "discard"

structure ScopeCommand where
  action : ScopeAction
  depth : Nat
  deriving DecidableEq, Repr

namespace ScopeCommand

def savepointName (depth : Nat) : String := "pgplus_sp_" ++ toString depth

/-- Rolling back to a savepoint keeps it; discarding it rolls back and then drops it. -/
def sql (c : ScopeCommand) : String :=
  let name := savepointName c.depth
  if c.depth ≤ 1 then
    match c.action with
    | .begin => "BEGIN"
    | .commit => "COMMIT"
    | .rollback | .discard => "ROLLBACK"
  else
    match c.action with
    | .begin => "SAVEPOINT " ++ name
    | .commit => "RELEASE SAVEPOINT " ++ name
    | .rollback => "ROLLBACK TO SAVEPOINT " ++ name
    | .discard => "ROLLBACK TO SAVEPOINT " ++ name ++ "; RELEASE SAVEPOINT " ++ name

end ScopeCommand

structure Prepared where
  params : List PgType
  columns : List Column

inductive Reply (α : Type) where
  | answered (a : α)
  | refused (e : ServerError)
  /-- The server carries the request out, but the call that waits for it, at the given level of
  nesting, is dropped before the answer arrives. -/
  | unanswered (level : Nat)

structure Server (β : Type) where
  connect : Nat → β → Except ServerError Unit × β
  prepare : Nat → String → β → Reply Prepared × β
  execute : Nat → String → List (Option Bytes) → β → Reply (List (List (Option Bytes))) × β
  batch : Nat → ScopeCommand → β → Reply Unit × β

inductive Request where
  | connect (accepted : Bool)
  | prepare (sql : String)
  | execute (params : List (Option Bytes))
  | batch (command : ScopeCommand)

structure ScriptedReply where
  params : List PgType := []
  columns : List Column := []
  rows : List (List (Option Bytes)) := []
  prepareError : Option ServerError := none
  executeError : Option ServerError := none

structure Script where
  replies : List ScriptedReply := []
  /-- Errors by the text of the command, each for one time. -/
  batchErrors : List (String × ServerError) := []
  connectErrors : List (Option ServerError) := []
  /-- The entry of the statement prepared last. -/
  current : ScriptedReply := {}

namespace Script

def connect (s : Script) : Except ServerError Unit × Script :=
  let rest := { s with connectErrors := s.connectErrors.tail }
  match s.connectErrors.head? with
  | some (some e) => (.error e, rest)
  | _ => (.ok (), rest)

def prepare (s : Script) : Reply Prepared × Script :=
  let reply := s.replies.head?.getD {}
  let rest := { s with replies := s.replies.tail, current := reply }
  match reply.prepareError with
  | some e => (.refused e, rest)
  | none => (.answered ⟨reply.params, reply.columns⟩, rest)

def execute (s : Script) : Reply (List (List (Option Bytes))) × Script :=
  match s.current.executeError with
  | some e => (.refused e, s)
  | none => (.answered s.current.rows, s)

def batch (command : ScopeCommand) (s : Script) : Reply Unit × Script :=
  match s.batchErrors.find? (·.1 = command.sql) with
  | some (_, e) =>
    (.refused e, { s with batchErrors := s.batchErrors.eraseP (·.1 = command.sql) })
  | none => (.answered (), s)

def server : Server Script where
  connect _ := connect
  prepare _ _ := prepare
  execute _ _ _ := execute
  batch _ := batch

end Script

end SqlClient
