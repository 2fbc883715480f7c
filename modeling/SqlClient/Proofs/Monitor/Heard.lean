import SqlClient.Proofs.Action
/-!
# What is heard

What observers record under a label, in the order in which it is recorded. Only hooks are heard: an
action is silent if it tells none. A hook, however deep its composites go, is a list of observers
that are told one after the other, and they look at nothing but the log and the counters, where they
leave what they see.
-/
namespace SqlClient

namespace Monitor

def heardIn? (label : String) : Entry → Option Event
  | .observed l e => if l = label then some e else none
  | .call _ | .request .. | .trace _ | .note _ => none

def heard (label : String) (log : List Entry) : List Event := log.filterMap (heardIn? label)

section Heard

variable {σ : Type} {label : String}

theorem heard_append (before after : List Entry) :
    heard label (before ++ after) = heard label before ++ heard label after :=
  List.filterMap_append

theorem heard_unheard {e : Entry} (h : heardIn? label e = none) (before : List Entry) :
    heard label (before ++ [e]) = heard label before := by
  have none : heard label [e] = [] := by simp [heard, h]
  rw [heard_append, none, List.append_nil]

theorem heard_traces (ts : List Trace) : heard label (ts.map .trace) = [] := by
  rw [heard, List.filterMap_map]
  exact List.filterMap_eq_nil_iff.mpr fun _ _ => rfl

theorem heard_observed (e : Event) : heard label [.observed label e] = [e] := by
  simp [heard, heardIn?]

def Observer.recorder? (label : String) : Observer → List Watched
  | .recorder l watched => if l = label then [watched] else []
  | .counter _ | .tracer _ | .silent => []

mutual

def Hook.recorders (label : String) : Hook → List Watched
  | .observer o => o.recorder? label
  | .composite hooks => recordersOf label hooks

def Hook.recordersOf (label : String) : List Hook → List Watched
  | [] => []
  | h :: hs => recorders label h ++ recordersOf label hs

end

def Hook.Hears (h : Hook) (label : String) : Prop := h.recorders label = [{}]

def records (e : Event) (watched : List Watched) : List Event :=
  watched.flatMap fun w => if w.includes e then [e] else []

theorem records_append (e : Event) (ws vs : List Watched) :
    records e (ws ++ vs) = records e ws ++ records e vs := List.flatMap_append

theorem heard_observe (o : Observer) (e : Event) (p : Progress σ) :
    heard label (o.observe e p).log = heard label p.log ++ records e (o.recorder? label) := by
  cases o with
  | recorder l watched =>
    by_cases hw : watched.includes e = true
    · by_cases hl : l = label
      · subst hl
        simp [Observer.observe, Observer.recorder?, records, hw, heard_append, heard_observed]
      · simp [Observer.observe, Observer.recorder?, records, hw, hl, heard, heardIn?]
    · by_cases hl : l = label <;> simp [Observer.observe, Observer.recorder?, records, hw, hl]
  | counter i => simp [Observer.observe, Observer.recorder?, records]
  | tracer t =>
    simp [Observer.observe, Observer.recorder?, records, heard_append, heard_traces]
  | silent => simp [Observer.observe, Observer.recorder?, records]

mutual

theorem heard_deliver (e : Event) (h : Hook) (p : Progress σ) :
    heard label (h.deliver e p).log = heard label p.log ++ records e (h.recorders label) := by
  cases h with
  | observer o => exact heard_observe o e p
  | composite hooks => exact heard_deliverAll e hooks p

theorem heard_deliverAll (e : Event) (hooks : List Hook) (p : Progress σ) :
    heard label (Hook.deliverAll e hooks p).log =
      heard label p.log ++ records e (Hook.recordersOf label hooks) := by
  cases hooks with
  | nil => exact (List.append_nil _).symm
  | cons h hs =>
    have later := heard_deliverAll e hs (h.deliver e p)
    rw [heard_deliver e h p, List.append_assoc, ← records_append] at later
    exact later

end

theorem Hook.Hears.deliver {h : Hook} (hears : h.Hears label) (e : Event) (p : Progress σ) :
    heard label (h.deliver e p).log = heard label p.log ++ [e] := by
  have all : ({} : Watched).includes e = true := by cases e <;> rfl
  rw [heard_deliver, hears, records, List.flatMap_singleton, if_pos all]

end Heard

def hearing (σ : Type) (label : String) : Account σ Event where
  Grows p w q := heard label q.log = heard label p.log ++ w
  still _ _ := (List.append_nil _).symm
  append first second := by rw [second, first, List.append_assoc]

end Monitor

namespace Act

open SqlClient.Monitor

variable {σ ε α : Type}

/-- Started in `s`, the action comes to a result, is heard and leaves a state as `post` says. -/
def Tells (label : String) (act : Act σ ε α) (s : σ)
    (post : Except (Stop ε) α → List Event → σ → Prop) : Prop :=
  ∀ p : Progress σ, p.state = s → ∃ w,
    heard label (act.run p).2.log = heard label p.log ++ w ∧
      post (act.run p).1 w (act.run p).2.state

def Silent (act : Act σ ε α) : Prop :=
  ∀ (label : String) (p : Progress σ), heard label (act.run p).2.log = heard label p.log

end Act

structure Progress.Alike {σ : Type} (p q : Progress σ) : Prop where
  log : p.log = q.log
  counters : p.counters = q.counters

namespace Monitor.Hook

mutual

def observers : Hook → List Observer
  | .observer o => [o]
  | .composite hooks => observersOf hooks

def observersOf : List Hook → List Observer
  | [] => []
  | h :: hs => observers h ++ observersOf hs

end

section Tell

variable {σ : Type}

def tell (os : List Observer) (e : Event) (p : Progress σ) : Progress σ :=
  os.foldl (fun p o => o.observe e p) p

theorem tell_append (os os' : List Observer) (e : Event) (p : Progress σ) :
    tell (os ++ os') e p = tell os' e (tell os e p) := List.foldl_append

theorem state_observe (o : Observer) (e : Event) (p : Progress σ) :
    (o.observe e p).state = p.state := by
  cases o with
  | recorder label watched =>
    rw [Observer.observe]
    split <;> rfl
  | counter i => rfl
  | tracer t => rfl
  | silent => rfl

theorem state_tell (os : List Observer) (e : Event) (p : Progress σ) :
    (tell os e p).state = p.state := by
  induction os generalizing p with
  | nil => rfl
  | cons o os ih => exact (ih (o.observe e p)).trans (state_observe o e p)

theorem alike_observe {p q : Progress σ} (o : Observer) (e : Event) (h : p.Alike q) :
    (o.observe e p).Alike (o.observe e q) := by
  cases o with
  | recorder label watched =>
    rw [Observer.observe, Observer.observe]
    split
    · exact ⟨congrArg (· ++ [_]) h.log, h.counters⟩
    · exact h
  | counter i => exact ⟨h.log, congrArg (List.modify · i _) h.counters⟩
  | tracer t => exact ⟨congrArg (· ++ _) h.log, h.counters⟩
  | silent => exact h

theorem alike_tell {p q : Progress σ} (os : List Observer) (e : Event) (h : p.Alike q) :
    (tell os e p).Alike (tell os e q) := by
  induction os generalizing p q with
  | nil => exact h
  | cons o os ih => exact ih (alike_observe o e h)

theorem heard_tell {label : String} (os : List Observer) (e : Event) (p : Progress σ) :
    heard label (tell os e p).log =
      heard label p.log ++ records e (os.flatMap (·.recorder? label)) := by
  induction os generalizing p with
  | nil => exact (List.append_nil _).symm
  | cons o os ih =>
    refine (ih (o.observe e p)).trans ?_
    rw [heard_observe, List.append_assoc, ← records_append, List.flatMap_cons]

theorem counter_tell {i : Nat} {os : List Observer} (away : .counter i ∉ os) (e : Event)
    (p : Progress σ) : (tell os e p).counters[i]? = p.counters[i]? := by
  induction os generalizing p with
  | nil => rfl
  | cons o os ih =>
    obtain ⟨other, away⟩ := not_or.mp (mt List.mem_cons.mpr away)
    refine (ih away (o.observe e p)).trans ?_
    cases o with
    | recorder label watched =>
      rw [Observer.observe]
      split <;> rfl
    | counter j =>
      have differs : j ≠ i := fun same => other (congrArg _ same.symm)
      exact List.getElem?_modify_ne _ _ differs
    | tracer t => rfl
    | silent => rfl

mutual

theorem deliver_eq (e : Event) (h : Hook) (p : Progress σ) :
    h.deliver e p = tell h.observers e p := by
  cases h with
  | observer o => rfl
  | composite hooks => exact deliverAll_eq e hooks p

theorem deliverAll_eq (e : Event) (hooks : List Hook) (p : Progress σ) :
    deliverAll e hooks p = tell (observersOf hooks) e p := by
  cases hooks with
  | nil => rfl
  | cons h hs =>
    rw [deliverAll, observersOf, tell_append, deliver_eq e h p]
    exact deliverAll_eq e hs _

end

end Tell

end Monitor.Hook

end SqlClient
