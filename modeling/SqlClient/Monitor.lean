import SqlClient.Error
/-!
# Events, counters and traces

What a client reports while it works: every statement after it ran, a failed statement once more
with its error, and every boundary of a transaction. Counters are 64-bit counts of nanoseconds: one
statement counts at most the greatest of them, their sum wraps. The tracer writes events as messages
with fields.
-/
namespace SqlClient.Monitor

open SqlClient.Calendar SqlClient.Number

structure QueryEvent where
  text : String
  params : List Value
  duration : Duration
  inTransaction : Bool
  depth : Nat

structure ErrorEvent where
  error : SqlError
  inTransaction : Bool
  depth : Nat

inductive Phase where
  | begin
  | commit
  | rollback
  deriving DecidableEq, Repr

def Phase.name : Phase → String
  | .begin => "BEGIN"
  | .commit => "COMMIT"
  | .rollback => "ROLLBACK"

inductive Cause where
  | sql (error : SqlError)
  | caller (message : String)

def Cause.message : Cause → String
  | .sql e => e.message
  | .caller m => m

structure TransactionEvent where
  phase : Phase
  depth : Nat
  duration : Option Duration
  cause : Option Cause

inductive Event where
  | query (e : QueryEvent)
  | error (e : ErrorEvent)
  | transaction (e : TransactionEvent)

structure Counters where
  total : Nat := 0
  failed : Nat := 0
  begins : Nat := 0
  commits : Nat := 0
  rollbacks : Nat := 0
  totalNanos : UInt64 := 0
  maxNanos : UInt64 := 0
  deriving DecidableEq, Repr

namespace Counters

def record (c : Counters) : Event → Counters
  | .query e =>
    let nanos := UInt64.ofNat (min e.duration.nanos (UInt64.size - 1))
    { c with
      total := c.total + 1
      totalNanos := c.totalNanos + nanos
      maxNanos := max c.maxNanos nanos }
  | .error _ => { c with failed := c.failed + 1 }
  | .transaction e =>
    match e.phase with
    | .begin => { c with begins := c.begins + 1 }
    | .commit => { c with commits := c.commits + 1 }
    | .rollback => { c with rollbacks := c.rollbacks + 1 }

end Counters

inductive Level where
  | error
  | warn
  | info
  | debug
  | trace
  deriving DecidableEq, Repr

def Level.name : Level → String
  | .error => "ERROR"
  | .warn => "WARN"
  | .info => "INFO"
  | .debug => "DEBUG"
  | .trace => "TRACE"

def Level.ofName? (name : String) : Option Level :=
  [error, warn, info, debug, trace].find? (·.name = name)

inductive Field where
  | flag (b : Bool)
  | count (n : Nat)
  | number (x : Double)
  | text (s : String)
  deriving DecidableEq, Repr

structure Trace where
  target : String
  level : Level
  message : String
  fields : List (String × Field)

def clientTarget : String := "pgplus"

def sqlTarget : String := "pgplus.sql"

structure Tracer where
  level : Level := .debug
  maxBytes : Option Nat := none
  excluded : List String := ["\"session\"", "no-log"]
  showParams : Bool := true

namespace Tracer

def excludes (t : Tracer) (sql : String) : Bool :=
  t.excluded.any fun part => Text.holds part.toList sql.toList

/-- The text, or its start and three points when it takes more than the most bytes allowed. -/
def shorten (t : Tracer) (sql : String) : String :=
  match t.maxBytes with
  | some limit =>
    if limit < Text.byteLength sql.toList then
      String.ofList (Text.takeBytes limit sql.toList) ++ "..."
    else sql
  | none => sql

def paramsText (params : List Value) : String :=
  "\n".intercalate (params.zipIdx.map fun (v, i) =>
    "$" ++ toString (i + 1) ++ " - " ++ v.displayText)

def queryTrace (t : Tracer) (e : QueryEvent) : Trace where
  target := sqlTarget
  level := t.level
  message := t.shorten e.text
  fields := [
    ("duration_ms", .number e.duration.milliseconds),
    ("in_transaction", .flag e.inTransaction),
    ("depth", .count e.depth),
    ("param_count", .count e.params.length),
    ("params", .text (if t.showParams then paramsText e.params else ""))]

/-- An error is a warning at every level, with what the server said about it. -/
def errorTrace (e : ErrorEvent) : Trace where
  target := sqlTarget
  level := .warn
  message := "Pg error: " ++ e.error.message
  fields :=
    let said (part : ServerError → Option String) : Field :=
      .text ((e.error.serverError?.bind part).getD "-")
    [ ("code", .text (e.error.sqlstate?.getD "-")),
      ("label", .text ((e.error.sqlstate?.bind sqlstateLabel?).getD "")),
      ("constraint", said ServerError.constraint),
      ("detail", said ServerError.detail),
      ("hint", said ServerError.hint),
      ("in_transaction", .flag e.inTransaction),
      ("depth", .count e.depth)]

def transactionMessage (e : TransactionEvent) : String :=
  match e.phase, e.duration with
  | .begin, _ | _, none => e.phase.name
  | phase, some d =>
    phase.name ++ " - " ++ String.ofList (d.milliseconds.fixedText 3) ++ "ms"

def transactionTrace (t : Tracer) (e : TransactionEvent) : Trace where
  target := sqlTarget
  level := t.level
  message := transactionMessage e
  fields := ("depth", .count e.depth) ::
    match e.phase, e.duration with
    | .rollback, some _ => [("error", .text ((e.cause.map Cause.message).getD "-"))]
    | _, _ => []

def trace? (t : Tracer) : Event → Option Trace
  | .query e => if t.excludes e.text then none else some (t.queryTrace e)
  | .error e => some (errorTrace e)
  | .transaction e => some (t.transactionTrace e)

end Tracer

end SqlClient.Monitor
