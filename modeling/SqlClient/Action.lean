import SqlClient.Monitor
import SqlClient.Server
import SqlClient.Sql.Fragment
/-!
# Actions and hooks

A call of this library is an action: it carries a program forward and either returns, fails, or is
dropped while it waits. What happened on the way is kept in one list, so that the order of requests,
reports and remarks can be told. A hook is one observer or a list of hooks, which are told in order.
-/
namespace SqlClient

open SqlClient.Calendar SqlClient.Monitor SqlClient.Sql

inductive DriverCall where
  | execute (s : Statement)
  | scope (command : ScopeCommand)
  /-- The scope at `depth` was dropped while open. -/
  | drop (depth : Nat)

inductive Entry where
  | call (c : DriverCall)
  | request (connection : Nat) (r : Request)
  | observed (label : String) (e : Event)
  | trace (t : Trace)
  /-- A remark of the program that runs the calls. -/
  | note (remark : Json)

structure Progress (σ : Type) where
  state : σ
  now : Instant
  counters : List Counters := []
  log : List Entry := []

inductive Stop (ε : Type) where
  | failed (error : ε)
  /-- The call at that level of nesting was dropped; level 1 is a call on the outermost client. -/
  | dropped (level : Nat)

/-- An action gives an `α` or fails with an `ε`; what it changed stays changed if it fails. -/
abbrev Act (σ ε : Type) := ExceptT (Stop ε) (StateM (Progress σ))

namespace Act

variable {σ ε δ α : Type}

def run (act : Act σ ε α) (p : Progress σ) : Except (Stop ε) α × Progress σ := act p

def ofRun (f : Progress σ → Except (Stop ε) α × Progress σ) : Act σ ε α := f

def fail (e : ε) : Act σ ε α := ofRun fun p => (.error (.failed e), p)

def drop (level : Nat) : Act σ ε α := ofRun fun p => (.error (.dropped level), p)

def change (f : Progress σ → Progress σ) : Act σ ε Unit := ofRun fun p => (.ok (), f p)

def progress : Act σ ε (Progress σ) := ofRun fun p => (.ok p, p)

def onState (f : σ → α × σ) : Act σ ε α :=
  ofRun fun p => let (a, s) := f p.state; (.ok a, { p with state := s })

def changeState (f : σ → σ) : Act σ ε Unit := change fun p => { p with state := f p.state }

def now : Act σ ε Instant := return (← progress).now

def append (e : Entry) : Act σ ε Unit := change fun p => { p with log := p.log ++ [e] }

def observe (act : Act σ ε α) : Act σ δ (Except (Stop ε) α) :=
  ofRun fun p => let (r, p) := act.run p; (.ok r, p)

/-- Run an action and look at its failure, if it fails; a drop goes on. -/
def attempt (act : Act σ ε α) : Act σ δ (Except ε α) :=
  ofRun fun p =>
    match act.run p with
    | (.ok a, p) => (.ok (.ok a), p)
    | (.error (.failed e), p) => (.ok (.error e), p)
    | (.error (.dropped level), p) => (.error (.dropped level), p)

def cleanUp (onFailure onDrop : σ → σ) (act : Act σ ε α) : Act σ ε α :=
  ofRun fun p =>
    match act.run p with
    | (.ok a, p) => (.ok a, p)
    | (.error (.failed e), p) => (.error (.failed e), { p with state := onFailure p.state })
    | (.error (.dropped l), p) => (.error (.dropped l), { p with state := onDrop p.state })

def ofExcept : Except ε α → Act σ ε α
  | .ok a => pure a
  | .error e => fail e

def mapError (f : ε → δ) (act : Act σ ε α) : Act σ δ α := do
  match ← attempt act with
  | .ok a => pure a
  | .error e => fail (f e)

/-- Run a call of that level; nothing is returned if it is dropped, and the caller goes on. -/
def unlessDropped (level : Nat) (act : Act σ ε α) : Act σ ε (Option α) :=
  ofRun fun p =>
    match act.run p with
    | (.ok a, p) => (.ok (some a), p)
    | (.error (.failed e), p) => (.error (.failed e), p)
    | (.error (.dropped l), p) => if l = level then (.ok none, p) else (.error (.dropped l), p)

end Act

namespace Monitor

structure Watched where
  queries : Bool := true
  errors : Bool := true
  transactions : Bool := true
  deriving DecidableEq, Repr

def Watched.includes (watched : Watched) : Event → Bool
  | .query _ => watched.queries
  | .error _ => watched.errors
  | .transaction _ => watched.transactions

inductive Observer where
  /-- Records the events that it watches, under a label. -/
  | recorder (label : String) (watched : Watched)
  /-- Keeps the counters at that place. -/
  | counter (index : Nat)
  | tracer (t : Tracer)
  /-- Takes no notice. -/
  | silent

def Observer.observe {σ : Type} (o : Observer) (e : Event) (p : Progress σ) : Progress σ :=
  match o with
  | .recorder label watched =>
    if watched.includes e then { p with log := p.log ++ [.observed label e] } else p
  | .counter i => { p with counters := p.counters.modify i (·.record e) }
  | .tracer t => { p with log := p.log ++ (t.trace? e).toList.map .trace }
  | .silent => p

inductive Hook where
  | observer (o : Observer)
  | composite (hooks : List Hook)

namespace Hook

mutual

def deliver {σ : Type} (e : Event) : Hook → Progress σ → Progress σ
  | .observer o, p => o.observe e p
  | .composite hooks, p => deliverAll e hooks p

def deliverAll {σ : Type} (e : Event) : List Hook → Progress σ → Progress σ
  | [], p => p
  | h :: hs, p => deliverAll e hs (deliver e h p)

end

def add (present : Option Hook) (next : Hook) : Hook :=
  match present with
  | some h => .composite [h, next]
  | none => next

end Hook

end Monitor

end SqlClient
