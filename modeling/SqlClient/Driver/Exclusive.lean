import SqlClient.Driver.Basic
/-!
# One connection

A driver over a single connection. A transaction owns it until it has ended: what is asked of the
driver itself meanwhile is refused, so that it does not end up inside that transaction.
-/
namespace SqlClient

open SqlClient.Sql SqlClient.Wire

structure Ownership where
  owned : Bool
  deriving DecidableEq, Repr

namespace Exclusive

variable {β : Type}

def setOwned (owned : Bool) : Line β Ownership → Line β Ownership := Line.keep fun _ => ⟨owned⟩

def ended (depth : Nat) (s : Line β Ownership) : Line β Ownership :=
  if depth ≤ 1 then setOwned false s else s

def letGo (depth : Nat) (s : Line β Ownership) : Line β Ownership :=
  ended depth (s.changeAbandoned 0 (·.abandon depth))

def link (server : Server β) (codecs : Codecs) : Link β Ownership where
  server
  codecs
  connection := 0
  meanwhile := pure ()
  ended
  letGo

def pinned : SqlError :=
  .invalidInput ("connection is pinned by an open transaction; run statements through the "
    ++ "transaction handle, or use a pool for concurrent work")

def requireFree : Act (Line β Ownership) SqlError Unit := do
  if (← Act.progress).state.keeping.owned then Act.fail pinned

def connect (server : Server β) : Act (Line β Ownership) SqlError Unit := do
  let result ← Act.onState fun s =>
    let (r, b) := server.connect 0 s.server
    (r, { s with server := b })
  Act.append (.request 0 (.connect result.isOk))
  match result with
  | .ok () => pure ()
  | .error e => Act.fail (.ofServer e)

def begin (l : Link β Ownership) : Act (Line β Ownership) SqlError OpenScope := do
  requireFree
  Act.changeState (setOwned true)
  (l.discard 0).cleanUp (setOwned false) (setOwned false)
  l.enter 1

def driver (server : Server β) (codecs : Codecs) : Driver (Line β Ownership) OpenScope :=
  let l := link server codecs
  { execute := fun scope s => do
      match scope with
      | none => requireFree; l.execute 0 s
      | some scope => l.execute scope.depth s
    begin := fun scope =>
      match scope with
      | none => begin l
      | some scope => l.enterInside scope.depth
    commit := fun scope => l.finish .commit scope.depth
    rollback := fun scope => l.finish .rollback scope.depth
    drop := fun scope p => { p with state := letGo scope.depth p.state } }

def start (server : β) : Line β Ownership := ⟨server, fun _ => .none, ⟨false⟩⟩

end Exclusive

end SqlClient
