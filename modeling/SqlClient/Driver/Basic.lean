import SqlClient.Action
/-!
# Drivers

What a client runs on: one statement at a time, and scopes that nest. A driver never repeats a
request; its errors go to the caller. On a connection statements are prepared, encoded, executed and
decoded; of the scopes dropped while open only the shallowest is kept, because rolling it back takes
everything inside it along, and it is discarded before anything else runs in the scopes around it.
The recording driver has no server: it answers statements from a list of results.
-/
namespace SqlClient

open SqlClient.Sql SqlClient.Monitor SqlClient.Wire

structure Abandoned where
  shallowest : Option Nat
  deriving DecidableEq, Repr

namespace Abandoned

def none : Abandoned := ⟨.none⟩

def abandon (a : Abandoned) (depth : Nat) : Abandoned :=
  match a.shallowest with
  | .none => ⟨some depth⟩
  | some d => if depth < d then ⟨some depth⟩ else a

/-- The abandoned scope inside the one at `depth`; depth 0 is the bare connection. -/
def below? (a : Abandoned) (depth : Nat) : Option Nat := a.shallowest.filter (depth < ·)

def settle (a : Abandoned) (depth : Nat) : Abandoned :=
  if a.shallowest = some depth then none else a

end Abandoned

structure ResultSet where
  columns : List String
  rows : List Record
  deriving Repr

namespace ResultSet

def empty : ResultSet := ⟨[], []⟩

def ofRows (rows : List Record) : ResultSet := ⟨(rows.head?.map Record.keys).getD [], rows⟩

end ResultSet

/-- A driver with state `σ` and handles `η` on open scopes. Statements run in a scope, or outside
of all of them where none is given. -/
structure Driver (σ η : Type) where
  execute : Option η → Statement → Act σ SqlError ResultSet
  /-- Open a transaction, or a savepoint inside a scope. -/
  begin : Option η → Act σ SqlError η
  commit : η → Act σ SqlError Unit
  rollback : η → Act σ SqlError Unit
  /-- Let go of a scope that is still open. -/
  drop : η → Progress σ → Progress σ

structure Recording where
  responses : List (Except SqlError ResultSet)
  /-- The scope commands that fail. -/
  failing : List ScopeCommand

namespace Recording

def execute (s : Statement) : Act Recording SqlError ResultSet := do
  Act.append (.call (.execute s))
  let response ← Act.onState fun r => (r.responses.head?, { r with responses := r.responses.tail })
  Act.ofExcept (response.getD (.ok .empty))

def scope (action : ScopeAction) (depth : Nat) : Act Recording SqlError Unit := do
  Act.append (.call (.scope ⟨action, depth⟩))
  if (← Act.progress).state.failing.contains ⟨action, depth⟩ then
    Act.fail (.connection (action.name ++ " " ++ toString depth ++ " failed"))

def driver : Driver Recording Nat where
  execute _ s := execute s
  begin outer := do
    let depth := outer.getD 0 + 1
    scope .begin depth
    return depth
  commit depth := scope .commit depth
  rollback depth := scope .rollback depth
  drop depth p := { p with log := p.log ++ [.call (.drop depth)] }

end Recording

/-- A server, and what is known of the connections to it: the scopes abandoned on each, and what
the driver keeps about all of them. -/
structure Line (β γ : Type) where
  server : β
  abandoned : Nat → Abandoned
  keeping : γ

namespace Line

variable {β γ : Type}

def changeAbandoned (connection : Nat) (f : Abandoned → Abandoned) (s : Line β γ) : Line β γ :=
  { s with abandoned := fun n => if n = connection then f (s.abandoned n) else s.abandoned n }

def keep (f : γ → γ) (s : Line β γ) : Line β γ := { s with keeping := f s.keeping }

end Line

structure OpenScope where
  connection : Nat
  depth : Nat
  deriving DecidableEq, Repr

structure Link (β γ : Type) where
  server : Server β
  codecs : Codecs
  connection : Nat
  /-- What else goes on while an answer is awaited. -/
  meanwhile : Act (Line β γ) SqlError Unit
  /-- What becomes of the connection when the scope at a depth has ended. -/
  ended : Nat → Line β γ → Line β γ
  /-- What becomes of it when that scope is dropped while open. -/
  letGo : Nat → Line β γ → Line β γ

def encodeParams (types : List PgType) (params : List Value) :
    Except SqlError (List (Option Bytes)) :=
  if types.length = params.length then
    ((types.zip params).zipIdx).mapM fun ((type, v), i) =>
      (encode type v).mapError fun cause => .query (.parameter i cause)
  else .error (.query (.parameterCount types.length params.length))

def discardTrace (depth : Nat) : Trace where
  target := clientTarget
  level := .warn
  message := "discarding transaction scope that was dropped while open"
  fields := [("depth", .count depth)]

namespace Link

variable {β γ α : Type}

def ask (l : Link β γ) (request : Request) (f : β → Reply α × β) : Act (Line β γ) SqlError α := do
  Act.append (.request l.connection request)
  l.meanwhile
  match ← Act.onState fun s => let (reply, b) := f s.server; (reply, { s with server := b }) with
  | .answered a => return a
  | .refused e => Act.fail (.ofServer e)
  | .unanswered level => Act.drop level

def batch (l : Link β γ) (command : ScopeCommand) : Act (Line β γ) SqlError Unit :=
  l.ask (.batch command) (l.server.batch l.connection command)

def run (l : Link β γ) (s : Statement) : Act (Line β γ) SqlError ResultSet := do
  let prepared ← l.ask (.prepare s.text) (l.server.prepare l.connection s.text)
  let params ← Act.ofExcept (encodeParams prepared.params s.params)
  let rows ← l.ask (.execute params) (l.server.execute l.connection s.text params)
  return ⟨prepared.columns.map (·.name), ← Act.ofExcept (l.codecs.decodeRows prepared.columns rows)⟩

def discard (l : Link β γ) (depth : Nat) : Act (Line β γ) SqlError Unit := do
  match ((← Act.progress).state.abandoned l.connection).below? depth with
  | none => pure ()
  | some d =>
    Act.append (.trace (discardTrace d))
    l.batch ⟨.discard, d⟩
    Act.changeState (Line.changeAbandoned l.connection (·.settle d))

def execute (l : Link β γ) (depth : Nat) (s : Statement) : Act (Line β γ) SqlError ResultSet := do
  l.discard depth
  l.run s

/-- Open the scope at `depth`. One that fails to open is over; one that is dropped on the way may
be open. -/
def enter (l : Link β γ) (depth : Nat) : Act (Line β γ) SqlError OpenScope := do
  (l.batch ⟨.begin, depth⟩).cleanUp (l.ended depth) (l.letGo depth)
  return ⟨l.connection, depth⟩

def enterInside (l : Link β γ) (depth : Nat) : Act (Line β γ) SqlError OpenScope := do
  l.discard depth
  l.enter (depth + 1)

/-- End the scope at `depth` by a command. The scope is over once the server has answered. -/
def finish (l : Link β γ) (action : ScopeAction) (depth : Nat) : Act (Line β γ) SqlError Unit := do
  (l.discard depth).cleanUp (l.letGo depth) (l.letGo depth)
  (l.batch ⟨action, depth⟩).cleanUp (l.ended depth) (l.letGo depth)
  Act.changeState (l.ended depth)

end Link

end SqlClient
