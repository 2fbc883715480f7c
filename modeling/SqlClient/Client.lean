import SqlClient.Driver.Basic
import SqlClient.Sql.Insert
/-!
# Clients

A client runs statements on a driver, converts the keys of rows, and tells hooks about it all.
Inside a transaction it is bound to that scope, one level deeper: the scope is committed when the
body returns and rolled back when it fails or is dropped. Callers expect of rows any number of them,
at least one, at most the first, or the first; looked up by a unique column, each value has to be
found.
-/
namespace SqlClient

open SqlClient.Casing SqlClient.Monitor SqlClient.Sql SqlClient.Calendar

structure Context where
  hook : Option Hook := none
  inTransaction : Bool := false
  /-- 0 outside of any transaction, 1 inside the outermost one. -/
  depth : Nat := 0
  casing : RowCasing := .camel

namespace Context

def nested (c : Context) : Context := { c with inTransaction := true, depth := c.depth + 1 }

def debugText (c : Context) : String :=
  "ExecContext \x7b hook: " ++ toString c.hook.isSome
    ++ ", in_transaction: " ++ toString c.inTransaction
    ++ ", depth: " ++ toString c.depth
    ++ ", casing: " ++ c.casing.name ++ " \x7d"

end Context

structure Client (σ η : Type) where
  driver : Driver σ η
  scope : Option η := none
  context : Context := {}

namespace Client

variable {σ η ε : Type}

def withCasing (c : Client σ η) (casing : RowCasing) : Client σ η :=
  { c with context := { c.context with casing } }

def withHook (c : Client σ η) (hook : Hook) : Client σ η :=
  { c with context := { c.context with hook := some hook } }

def addHook (c : Client σ η) (hook : Hook) : Client σ η :=
  c.withHook (Hook.add c.context.hook hook)

def inside (c : Client σ η) (scope : η) : Client σ η :=
  { c with scope := some scope, context := c.context.nested }

def notify (c : Client σ η) (e : Event) : Act σ ε Unit :=
  match c.context.hook with
  | some hook => Act.change (hook.deliver e)
  | none => pure ()

def debugText (c : Client σ η) : String := "Pg \x7b ctx: " ++ c.context.debugText ++ ", .. \x7d"

end Client

def Casing.RowCasing.inboundResult (casing : RowCasing) (r : ResultSet) : ResultSet :=
  ⟨r.columns.map casing.inboundKey, r.rows.map casing.inbound⟩

def notFound : SqlError := .notFound "Entity not found"

namespace Client

variable {σ η : Type}

/-- Run a statement. Hooks are told of it, and then of its error if it failed. -/
def query (c : Client σ η) (s : Statement) : Act σ SqlError ResultSet := do
  let start ← Act.now
  let result ← Act.attempt (c.driver.execute c.scope s)
  let duration := start.elapsed (← Act.now)
  let context := c.context
  c.notify (.query ⟨s.text, s.params, duration, context.inTransaction, context.depth⟩)
  match result with
  | .ok r => return context.casing.inboundResult r
  | .error e =>
    c.notify (.error ⟨e, context.inTransaction, context.depth⟩)
    Act.fail e

def any (c : Client σ η) (s : Statement) : Act σ SqlError (List Record) :=
  return (← c.query s).rows

def many (c : Client σ η) (s : Statement) : Act σ SqlError (List Record) := do
  let rows ← c.any s
  if rows.isEmpty then Act.fail notFound else return rows

def maybeOne (c : Client σ η) (s : Statement) : Act σ SqlError (Option Record) :=
  return (← c.query s).rows.head?

/-- The first row, which has to be there; others are left out. -/
def one (c : Client σ η) (s : Statement) : Act σ SqlError Record := do
  match ← c.maybeOne s with
  | some row => return row
  | none => Act.fail notFound

variable {α : Type} [OfJson α]

def decoded (row : Record) : Act σ SqlError α :=
  Act.ofExcept (row.decode.mapError fun fault => .serialization fault.message)

def anyAs (c : Client σ η) (s : Statement) : Act σ SqlError (List α) := do
  (← c.any s).mapM decoded

def manyAs (c : Client σ η) (s : Statement) : Act σ SqlError (List α) := do
  (← c.many s).mapM decoded

def maybeOneAs (c : Client σ η) (s : Statement) : Act σ SqlError (Option α) := do
  (← c.maybeOne s).mapM decoded

def oneAs (c : Client σ η) (s : Statement) : Act σ SqlError α := do
  decoded (← c.one s)

end Client

def lookupStatement (table : IdentPath) (column : String) (values : List Value) : Statement :=
  (Fragment.raw "SELECT * FROM ").pushIdent table
    |>.push " WHERE "
    |>.pushIdent (.name column)
    |>.push " = ANY("
    |>.pushBind (.array values)
    |>.push ")"
    |>.compile

namespace Client

variable {σ η : Type}

def idColumn : String := "id"

def manyByUnique (c : Client σ η) (table : IdentPath) (column : String) (values : List Value) :
    Act σ SqlError (List Record) :=
  if values.isEmpty then Act.fail (.invalidInput "You must supply at least one id")
  else do
    let rows ← c.many (lookupStatement table column values)
    if rows.length = values.length then return rows
    else Act.fail (.notFound "Entities not found")

def byUnique (c : Client σ η) (table : IdentPath) (column : String) (v : Value) :
    Act σ SqlError Record := do
  match ← c.manyByUnique table column [v] with
  | row :: _ => return row
  | [] => Act.fail notFound

def manyById (c : Client σ η) (table : IdentPath) (values : List Value) :
    Act σ SqlError (List Record) :=
  c.manyByUnique table idColumn values

def byId (c : Client σ η) (table : IdentPath) (v : Value) : Act σ SqlError Record :=
  c.byUnique table idColumn v

def insertMany (c : Client σ η) (table : IdentPath) (rows : List Record)
    (returning : List String) : Act σ SqlError (List Record) := do
  c.any (← Act.ofExcept (Insert.statement table rows returning c.context.casing))

def insertOne (c : Client σ η) (table : IdentPath) (row : Record) (returning : List String) :
    Act σ SqlError Record := do
  match ← c.insertMany table [row] returning with
  | row :: _ => return row
  | [] => Act.fail notFound

end Client

class CallerError (ε : Type) where
  ofSql : SqlError → ε
  cause : ε → Cause

instance : CallerError SqlError := ⟨id, .sql⟩

def droppedError : SqlError := .other "transaction dropped before completion"

namespace Client

variable {σ η ε α : Type}

def notifyBoundary (c : Client σ η) (phase : Phase) (duration : Option Duration)
    (cause : Option Cause) : Act σ ε Unit :=
  c.notify (.transaction ⟨phase, c.context.depth + 1, duration, cause⟩)

def notifyEnd (c : Client σ η) (phase : Phase) (start : Instant) (cause : Option Cause) :
    Act σ ε Unit := do
  c.notifyBoundary phase (some (start.elapsed (← Act.now))) cause

/-- The scope inside this client was dropped; so is all up to that level. -/
def endDropped (c : Client σ η) (start : Instant) (level : Nat) : Act σ ε α := do
  c.notifyEnd .rollback start (some (.sql droppedError))
  Act.drop level

def rollbackFailedTrace (depth : Nat) (failure : SqlError) (cause : Cause) : Trace where
  target := clientTarget
  level := .warn
  message := "rollback failed after transaction error: " ++ cause.message
  fields := [("depth", .count depth), ("error", .text failure.message)]

def finishReturned [CallerError ε] (c : Client σ η) (scope : η) (start : Instant) (a : α) :
    Act σ ε α := do
  match ← Act.observe (c.driver.commit scope) with
  | .ok () =>
    c.notifyEnd .commit start none
    return a
  | .error (.failed e) =>
    c.notifyEnd .rollback start (some (.sql e))
    Act.fail (CallerError.ofSql e)
  | .error (.dropped level) => c.endDropped start level

/-- End a scope whose body failed. Its error is returned, whatever becomes of the rollback. -/
def finishFailed [CallerError ε] (c : Client σ η) (scope : η) (start : Instant) (error : ε) :
    Act σ ε α := do
  let cause := CallerError.cause error
  match ← Act.observe (c.driver.rollback scope) with
  | .ok () => pure ()
  | .error (.failed e) =>
    Act.append (.trace (rollbackFailedTrace (c.context.depth + 1) e cause))
  | .error (.dropped level) => c.endDropped start level
  c.notifyEnd .rollback start (some cause)
  Act.fail error

def transaction [CallerError ε] (c : Client σ η) (body : Client σ η → Act σ ε α) : Act σ ε α := do
  let start ← Act.now
  match ← Act.attempt (c.driver.begin c.scope) with
  | .error e =>
    c.notifyEnd .rollback start (some (.sql e))
    Act.fail (CallerError.ofSql e)
  | .ok scope =>
    c.notifyBoundary .begin none none
    match ← Act.observe (body (c.inside scope)) with
    | .ok a => c.finishReturned scope start a
    | .error (.failed error) => c.finishFailed scope start error
    | .error (.dropped level) =>
      Act.change (c.driver.drop scope)
      c.endDropped start level

end Client

end SqlClient
