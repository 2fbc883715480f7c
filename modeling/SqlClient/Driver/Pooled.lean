import SqlClient.Driver.Basic
/-!
# A pool of connections

A driver that takes a connection for each statement and gives it back after it, and keeps one for
the length of a transaction. A transaction that is dropped while open leaves its connection behind,
which is rolled back in the background before it can be taken again, or closed if that fails or
nothing can run there.
-/
namespace SqlClient

open SqlClient.Monitor SqlClient.Sql SqlClient.Wire

structure Pool where
  /-- Connections to be taken, the one that waits longest first. -/
  idle : List Nat := []
  /-- How many connections there are, those in use included. -/
  size : Nat := 0
  /-- The number of the next connection to be opened. -/
  next : Nat := 0
  /-- Connections left behind by transactions, to be rolled back. -/
  orphans : List Nat := []
  /-- For each time that rollbacks come to their end, the connections whose rollback takes longer;
  none once the list is used up. -/
  delays : List (List Nat) := []
  /-- Whether anything can run in the background. -/
  background : Bool := true
  deriving DecidableEq, Repr

namespace Pool

def delayed (p : Pool) : List Nat := p.delays.headD []

def due (p : Pool) : List Nat := p.orphans.filter (· ∉ p.delayed)

def waitLonger (p : Pool) : Pool :=
  { p with orphans := p.orphans.filter (· ∈ p.delayed), delays := p.delays.tail }

variable {β : Type}

def closingTrace (failure : QueryFault) : Trace where
  target := clientTarget
  level := .warn
  message := "rollback of abandoned transaction failed; closing connection"
  fields := [("error", .text failure.message)]

def giveBack (connection : Nat) : Line β Pool → Line β Pool :=
  Line.keep fun p => { p with idle := p.idle ++ [connection] }

/-- A connection that is closed is never taken again. -/
def close : Line β Pool → Line β Pool := Line.keep fun p => { p with size := p.size - 1 }

def requestRollback (server : Server β) (connection : Nat) :
    Act (Line β Pool) SqlError (Reply Unit) := do
  let command : ScopeCommand := ⟨.discard, 1⟩
  Act.append (.request connection (.batch command))
  Act.onState fun s =>
    let (reply, b) := server.batch connection command s.server; (reply, { s with server := b })

def settleOrphan (connection : Nat) : Reply Unit → Act (Line β Pool) SqlError Unit
  | .answered () => Act.changeState (giveBack connection)
  | .refused e => do
    Act.append (.trace (closingTrace (.server e)))
    Act.changeState close
  | .unanswered _ => Act.changeState close

/-- Roll back the connections that were left behind, but for those that take longer: each is asked
for before the first answer is looked at. -/
def rollBackOrphans (server : Server β) : Act (Line β Pool) SqlError Unit := do
  let orphans := (← Act.progress).state.keeping.due
  Act.changeState (Line.keep waitLonger)
  let replies ← orphans.mapM (requestRollback server)
  (orphans.zip replies).forM fun (connection, reply) => settleOrphan connection reply

def connectError : SqlError := .pool "Error occurred while creating a new object: db error"

def connect (server : Server β) : Act (Line β Pool) SqlError Nat := do
  let connection := (← Act.progress).state.keeping.next
  let result ← Act.onState fun s =>
    let (r, b) := server.connect connection s.server; (r, { s with server := b })
  Act.append (.request connection (.connect result.isOk))
  Act.changeState (Line.keep fun p => { p with next := p.next + 1 })
  rollBackOrphans server
  match result with
  | .ok () =>
    Act.changeState (Line.keep fun p => { p with size := p.size + 1 })
    return connection
  | .error _ => Act.fail connectError

def takeReady (server : Server β) (maxSize : Nat) : Act (Line β Pool) SqlError (Option Nat) := do
  let pool := (← Act.progress).state.keeping
  match pool.idle with
  | connection :: rest =>
    Act.changeState (Line.keep fun p => { p with idle := rest })
    return some connection
  | [] => if pool.size < maxSize then some <$> connect server else return none

def waitReady (server : Server β) (maxSize : Nat) : Nat → Act (Line β Pool) SqlError (Option Nat)
  | 0 => return none
  | times + 1 => do
    rollBackOrphans server
    match ← takeReady server maxSize with
    | some connection => return some connection
    | none => waitReady server maxSize times

/-- Take a connection. Where all are in use, those left behind come back first, however long it
takes; if there are none, nothing ends the wait and the program stands still. -/
def take (server : Server β) (maxSize : Nat) : Act (Line β Pool) SqlError Nat := do
  match ← takeReady server maxSize with
  | some connection => return connection
  | none =>
    let delays := (← Act.progress).state.keeping.delays
    match ← waitReady server maxSize (delays.length + 1) with
    | some connection => return connection
    | none => Act.drop 0

def ended (connection depth : Nat) (s : Line β Pool) : Line β Pool :=
  if depth ≤ 1 then giveBack connection s else s

/-- Leave a connection to be rolled back in the background, or close it where nothing runs there. -/
def leaveBehind (connection : Nat) (s : Line β Pool) : Line β Pool :=
  if s.keeping.background then s.keep fun p => { p with orphans := p.orphans ++ [connection] }
  else close s

def letGo (connection depth : Nat) (s : Line β Pool) : Line β Pool :=
  if depth ≤ 1 then leaveBehind connection s
  else s.changeAbandoned connection (·.abandon depth)

def link (server : Server β) (codecs : Codecs) (connection : Nat) : Link β Pool where
  server
  codecs
  connection
  meanwhile := rollBackOrphans server
  ended := ended connection
  letGo := letGo connection

def execute (server : Server β) (codecs : Codecs) (maxSize : Nat) (s : Statement) :
    Act (Line β Pool) SqlError ResultSet := do
  let connection ← take server maxSize
  let back := giveBack connection
  let result ← ((link server codecs connection).run s).cleanUp back back
  Act.changeState back
  return result

def begin (server : Server β) (codecs : Codecs) (maxSize : Nat) :
    Act (Line β Pool) SqlError OpenScope := do
  let connection ← take server maxSize
  Act.changeState (Line.changeAbandoned connection fun _ => .none)
  (link server codecs connection).enter 1

def driver (server : Server β) (codecs : Codecs) (maxSize : Nat) :
    Driver (Line β Pool) OpenScope :=
  let on (scope : OpenScope) := link server codecs scope.connection
  { execute := fun scope s =>
      match scope with
      | none => execute server codecs maxSize s
      | some scope => (on scope).execute scope.depth s
    begin := fun scope =>
      match scope with
      | none => begin server codecs maxSize
      | some scope => (on scope).enterInside scope.depth
    commit := fun scope => (on scope).finish .commit scope.depth
    rollback := fun scope => (on scope).finish .rollback scope.depth
    drop := fun scope p => { p with state := letGo scope.connection scope.depth p.state } }

def start (server : β) : Line β Pool := ⟨server, fun _ => .none, {}⟩

end Pool

end SqlClient
