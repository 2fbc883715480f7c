import SqlClient.Proofs.Client.Brackets
/-!
# Registered hooks

Hooks are set in place of others or added to them, and the client of a scope has those of the client
around it. So every event that a query or a transaction gives rise to, at any depth, reaches each
of the hooks that stand, once and in the order of their registration, and no hook that was replaced.
-/
namespace SqlClient

open SqlClient.Monitor SqlClient.Sql Act

inductive Registration where
  /-- In place of all hooks before it. -/
  | set (h : Hook)
  /-- After those before it. -/
  | add (h : Hook)

/-- The hooks that stand after registrations: those since the last that was set, which is the first
of them, or all where none was. -/
def Registration.standing (before : List Hook) : List Registration → List Hook
  | [] => before
  | .set h :: rs => standing [h] rs
  | .add h :: rs => standing (before ++ [h]) rs

namespace Client

variable {σ η : Type}

def register (c : Client σ η) : Registration → Client σ η
  | .set h => c.withHook h
  | .add h => c.addHook h

def registerAll (c : Client σ η) (rs : List Registration) : Client σ η := rs.foldl register c

theorem observers_addHook (c : Client σ η) (h : Hook) :
    (c.addHook h).observers = c.observers ++ h.observers := by
  rw [observers, observers, addHook, withHook]
  cases c.context.hook with
  | none => simp [Hook.add]
  | some present => simp [Hook.add, Hook.observers, Hook.observersOf]

theorem driver_registerAll (c : Client σ η) (rs : List Registration) :
    (c.registerAll rs).driver = c.driver := by
  induction rs generalizing c with
  | nil => rfl
  | cons r rs ih =>
    refine (ih (c.register r)).trans ?_
    cases r <;> rfl

/-- However they are put together, the observers that are told are those of the standing hooks. -/
theorem observers_registerAll {c : Client σ η} {before : List Hook}
    (h : c.observers = before.flatMap Hook.observers) (rs : List Registration) :
    (c.registerAll rs).observers = (Registration.standing before rs).flatMap Hook.observers := by
  induction rs generalizing c before with
  | nil => exact h
  | cons r rs ih =>
    cases r with
    | set hook => exact ih rfl
    | add hook =>
      refine ih ?_
      rw [register, observers_addHook, h, List.flatMap_append, List.flatMap_singleton]

end Client

/-- What a run leaves behind for others: an entry that no observer made, or an event. -/
inductive Happening where
  | logged (entry : Entry)
  | emitted (e : Event)

namespace Happening

variable {σ : Type} {os : List Observer} {p q : Progress σ} {w : List Happening}

def event? : Happening → Option Event
  | .logged _ => none
  | .emitted e => some e

def events (w : List Happening) : List Event := w.filterMap event?

def deliver (os : List Observer) (p : Progress σ) : Happening → Progress σ
  | .logged entry => { p with log := p.log ++ [entry] }
  | .emitted e => Hook.tell os e p

def deliverAll (os : List Observer) (w : List Happening) (p : Progress σ) : Progress σ :=
  w.foldl (deliver os) p

/-- To the log and the counters came what these happenings leave there, nothing else. -/
structure Delivered (os : List Observer) (p : Progress σ) (w : List Happening) (q : Progress σ) :
    Prop where
  unrecorded : ∀ entry, .logged entry ∈ w → entry.isRecord = false
  left : q.Alike (deliverAll os w p)

theorem alike_deliverAll (h : p.Alike q) : (deliverAll os w p).Alike (deliverAll os w q) := by
  induction w generalizing p q with
  | nil => exact h
  | cons x w ih =>
    refine ih ?_
    cases x with
    | logged entry => exact ⟨congrArg (· ++ [entry]) h.log, h.counters⟩
    | emitted e => exact Hook.alike_tell os e h

theorem deliverAll_logged (entries : List Entry) (p : Progress σ) :
    deliverAll os (entries.map .logged) p = { p with log := p.log ++ entries } := by
  induction entries generalizing p with
  | nil => rw [List.append_nil]; rfl
  | cons entry entries ih =>
    refine (ih _).trans ?_
    rw [deliver, List.append_assoc, List.singleton_append]

theorem events_logged (entries : List Entry) : events (entries.map .logged) = [] := by
  rw [events, List.filterMap_map]
  exact List.filterMap_eq_nil_iff.mpr fun _ _ => rfl

def delivering (σ : Type) (os : List Observer) : Account σ Event where
  Grows p es q := ∃ w, events w = es ∧ Delivered os p w q
  still p s := ⟨[], rfl, nofun, rfl, rfl⟩
  append := by
    rintro p q r _ _ ⟨w, rfl, first⟩ ⟨w', rfl, second⟩
    refine ⟨w ++ w', List.filterMap_append, ?_, ?_⟩
    · intro entry he
      exact (List.mem_append.mp he).elim (first.unrecorded entry) (second.unrecorded entry)
    · have later : (deliverAll os w' q).Alike (deliverAll os w' (deliverAll os w p)) :=
        alike_deliverAll first.left
      rw [deliverAll, List.foldl_append]
      exact ⟨second.left.log.trans later.log, second.left.counters.trans later.counters⟩

theorem delivering_unremarked (h : p.Unremarked q) : (delivering σ os).Grows p [] q := by
  obtain ⟨entries, log, plain⟩ := h.logged
  refine ⟨entries.map .logged, events_logged entries, ?_, ?_⟩
  · intro entry he
    obtain ⟨_, mem, ⟨⟩⟩ := List.mem_map.mp he
    exact plain entry mem
  · rw [deliverAll_logged]
    exact ⟨log, h.counters⟩

/-- Nothing is heard of an observer that is not told. -/
theorem heard_deliverAll {label : String} (away : ∀ o ∈ os, o.recorder? label = [])
    (unrecorded : ∀ entry, .logged entry ∈ w → entry.isRecord = false) (p : Progress σ) :
    heard label (deliverAll os w p).log = heard label p.log := by
  induction w generalizing p with
  | nil => rfl
  | cons x w ih =>
    refine (ih (fun entry he => unrecorded entry (List.mem_cons_of_mem x he)) _).trans ?_
    cases x with
    | logged entry =>
      have plain := unrecorded entry List.mem_cons_self
      exact (Progress.unremarked_append plain p).heard_eq label
    | emitted e =>
      have recorders : os.flatMap (·.recorder? label) = [] := List.flatMap_eq_nil_iff.mpr away
      rw [deliver, Hook.heard_tell, recorders]
      exact List.append_nil _

theorem counter_deliverAll {i : Nat} (away : .counter i ∉ os) (w : List Happening)
    (p : Progress σ) : (deliverAll os w p).counters[i]? = p.counters[i]? := by
  induction w generalizing p with
  | nil => rfl
  | cons x w ih =>
    refine (ih _).trans ?_
    cases x with
    | logged entry => rfl
    | emitted e => exact Hook.counter_tell away e p

end Happening

/-- Of a client over a discreet driver all observers are told of all events. -/
theorem Client.accountable_delivering {σ η : Type} {c : Client σ η} (h : c.driver.Discreet) :
    c.Accountable (Happening.delivering σ c.observers) where
  driver :=
    { execute := fun scope st p => Happening.delivering_unremarked (h.execute scope st p)
      begin := fun scope p => Happening.delivering_unremarked (h.begin scope p)
      commit := fun scope p => Happening.delivering_unremarked (h.commit scope p)
      rollback := fun scope p => Happening.delivering_unremarked (h.rollback scope p)
      drop := fun scope p => Happening.delivering_unremarked (h.drop scope p) }
  trace p t := Happening.delivering_unremarked (Progress.unremarked_append rfl p)
  event p e := by
    refine ⟨[.emitted e], rfl, ?_, ?_⟩
    · rintro entry (_ | ⟨_, ⟨⟩⟩)
    · rw [told_eq]
      exact ⟨rfl, rfl⟩

/-- What is done with `n` clients at hand, call by call: with that of the innermost scope, which is
the first, or with one around it. A call that is dropped on its own comes to nothing, and the errand
goes on. -/
inductive Errand (ε α : Type) : Nat → Type where
  | returns {n : Nat} (a : α) : Errand ε α n
  | fails {n : Nat} (error : ε) : Errand ε α n
  /-- The call at that level is dropped, with all inside, while nothing is asked of the driver. -/
  | drop {n : Nat} (level : Nat) : Errand ε α n
  | statement {n : Nat} (on : Fin n) (st : Statement)
      (next : Option (Except SqlError ResultSet) → Errand ε α n) : Errand ε α n
  | scope {n : Nat} (on : Fin n) (body : Errand ε α (n + 1))
      (next : Option (Except ε α) → Errand ε α n) : Errand ε α n

namespace Errand

variable {σ η ε α : Type} {n : Nat}

def within (inner : Client σ η) (around : Fin n → Client σ η) : Fin (n + 1) → Client σ η :=
  Fin.cases inner around

variable [CallerError ε]

def run : {n : Nat} → Errand ε α n → (Fin n → Client σ η) → Act σ ε α
  | _, .returns a, _ => pure a
  | _, .fails error, _ => Act.fail error
  | _, .drop level, _ => Act.drop level
  | n, .statement on st next, clients => do
    let x ← unlessDropped n (attempt ((clients on).query st))
    (next x).run clients
  | n, .scope on body next, clients => do
    let x ← unlessDropped n (attempt ((clients on).transaction fun inner =>
      body.run (within inner clients)))
    (next x).run clients

def Emits : {n : Nat} → Errand ε α n → (Fin n → Client σ η) → σ →
    Except (Stop ε) α → List Event → σ → Prop
  | _, .returns a, _, s, r, w, t => r = .ok a ∧ w = [] ∧ t = s
  | _, .fails error, _, s, r, w, t => r = .error (.failed error) ∧ w = [] ∧ t = s
  | _, .drop level, _, s, r, w, t => r = .error (.dropped level) ∧ w = [] ∧ t = s
  | n, .statement on st next, clients, s, r, w, t =>
    GoesOn n ((clients on).Reported st s) (fun x u => (next x).Emits clients u) r w t
  | n, .scope on body next, clients, s, r, w, t =>
    GoesOn n ((clients on).Bracket
        (fun scope => body.Emits (within ((clients on).inside scope) clients)) s)
      (fun x u => (next x).Emits clients u) r w t

theorem accounts_run {A : Account σ Event} (errand : Errand ε α n) {clients : Fin n → Client σ η}
    {s : σ} (h : ∀ k, (clients k).Accountable A) :
    (errand.run clients).Accounts A s (errand.Emits clients s) := by
  induction errand generalizing s with
  | returns a => exact accounts_pure ⟨rfl, rfl, rfl⟩
  | fails error => exact accounts_fail ⟨rfl, rfl, rfl⟩
  | drop level => exact accounts_drop ⟨rfl, rfl, rfl⟩
  | statement on st next ih =>
    exact accounts_goesOn (Client.accounts_query (h on) st) fun x t => ih x h
  | scope on body next ihbody ihnext =>
    refine accounts_goesOn ?_ fun x t => ihnext x h
    refine Client.accounts_transaction (h on) fun scope t => ihbody ?_
    exact Fin.cases ((h on).inside scope) h

/-- All that an errand emits is told to the observers of the hooks that stand, to each of them once
and in the order of registration, and to nobody else. -/
theorem delivered_run {c : Client σ η} (discreet : c.driver.Discreet) (rs : List Registration)
    (errand : Errand ε α 1) (p : Progress σ) :
    let standing := Registration.standing c.context.hook.toList rs
    let observers := standing.flatMap Hook.observers
    let registered : Fin 1 → Client σ η := fun _ => c.registerAll rs
    let result := (errand.run registered).run p
    (∃ w, errand.Emits registered p.state result.1 (Happening.events w) result.2.state ∧
      Happening.Delivered observers p w result.2) ∧
    (∀ label, (∀ o ∈ observers, o.recorder? label = []) →
      heard label result.2.log = heard label p.log) ∧
    ∀ i, .counter i ∉ observers → result.2.counters[i]? = p.counters[i]? := by
  intro standing observers registered result
  have told : (c.registerAll rs).observers = observers := Client.observers_registerAll rfl rs
  have accountable : (c.registerAll rs).Accountable (Happening.delivering σ observers) := by
    rw [← told]
    refine Client.accountable_delivering ?_
    rw [Client.driver_registerAll]
    exact discreet
  obtain ⟨_, ⟨w, rfl, delivered⟩, emits⟩ := errand.accounts_run (fun _ => accountable) p rfl
  refine ⟨⟨w, emits, delivered⟩, ?_, ?_⟩
  · intro label away
    rw [delivered.left.log]
    exact Happening.heard_deliverAll away delivered.unrecorded p
  · intro i away
    rw [delivered.left.counters]
    exact Happening.counter_deliverAll away w p

def outward : Errand SqlError Unit 1 :=
  .scope 0 (.statement 0 ⟨"a", []⟩ fun _ => .statement 1 ⟨"b", []⟩ fun _ => .returns ())
    fun _ => .returns ()

def layered : List Registration :=
  [.add (.observer (.recorder "early" {})),
    .set (.composite [.composite [.observer (.recorder "first" {}), .observer (.counter 0)],
      .observer (.recorder "second" {})]),
    .add (.observer (.recorder "third" {}))]

theorem delivered_run_outward :
    let c : Client Recording Nat := { driver := Recording.driver }
    let p := { recording with counters := [{}] }
    let log := ((outward.run fun _ => c.registerAll layered).run p).2.log
    c.driver.Discreet ∧
      heard "early" log = [] ∧
      log.filterMap (fun | .observed label e => some (label, e.sign) | _ => none) =
        [("BEGIN", 1), ("a", 1), ("b", 0), ("no b", 0), ("COMMIT", 1)].flatMap fun sign =>
          [("first", sign), ("second", sign), ("third", sign)] := by
  intro c p log
  have discreet : c.driver.Discreet := Recording.discreet_driver
  obtain ⟨-, unheard, -⟩ := outward.delivered_run discreet layered p
  exact ⟨discreet, unheard "early" (by decide +kernel), by decide +kernel⟩

end Errand

end SqlClient
