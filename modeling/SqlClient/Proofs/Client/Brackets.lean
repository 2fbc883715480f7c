import SqlClient.Proofs.Client.Calls
import SqlClient.Proofs.Driver.Silence
/-!
# Brackets of events

What hooks are told while a callback runs, from what the driver answers. The call of a transaction
is heard as a bracket around what its callback is heard to do, or as one `ROLLBACK` where it could
not begin; brackets nest, and the depth in every event is that of the innermost open one.
-/
namespace SqlClient

open SqlClient.Monitor SqlClient.Sql SqlClient.Calendar Act

section Told

variable {σ η ε δ α β : Type} [CallerError ε]

namespace Client

/-- What is told of a statement that has ended: that it ran and, if the driver failed it, its
error. Nothing is told of one that was dropped. -/
inductive Reported (c : Client σ η) (st : Statement) (s : σ) :
    Except (Stop SqlError) ResultSet → List Event → σ → Prop where
  | answered {r : ResultSet} {t : σ} {duration : Duration}
      (answer : (c.driver.execute c.scope st).Leads s (.ok r) t) :
      Reported c st s (.ok (c.context.casing.inboundResult r))
        [.query ⟨st.text, st.params, duration, c.context.inTransaction, c.context.depth⟩] t
  | failed {e : SqlError} {t : σ} {duration : Duration}
      (answer : (c.driver.execute c.scope st).Leads s (.error (.failed e)) t) :
      Reported c st s (.error (.failed e))
        [.query ⟨st.text, st.params, duration, c.context.inTransaction, c.context.depth⟩,
          .error ⟨e, c.context.inTransaction, c.context.depth⟩] t
  | dropped {level : Nat} {t : σ}
      (answer : (c.driver.execute c.scope st).Leads s (.error (.dropped level)) t) :
      Reported c st s (.error (.dropped level)) [] t

/-- How the scope of a call is closed once its callback has ended: the phase and the cause that
are told, and what the call comes to. -/
inductive Closed (c : Client σ η) (scope : η) (s : σ) :
    Except (Stop ε) α → Phase → Option Cause → Except (Stop ε) α → σ → Prop where
  | committed {a : α} {t : σ} (commit : (c.driver.commit scope).Leads s (.ok ()) t) :
      Closed c scope s (.ok a) .commit none (.ok a) t
  | notCommitted {a : α} {e : SqlError} {t : σ}
      (commit : (c.driver.commit scope).Leads s (.error (.failed e)) t) :
      Closed c scope s (.ok a) .rollback (some (.sql e)) (.error (.failed (CallerError.ofSql e))) t
  | droppedInCommit {a : α} {level : Nat} {t : σ}
      (commit : (c.driver.commit scope).Leads s (.error (.dropped level)) t) :
      Closed c scope s (.ok a) .rollback (some (.sql droppedError)) (.error (.dropped level)) t
  | rolledBack {error : ε} {t : σ} (rollback : (c.driver.rollback scope).Leads s (.ok ()) t) :
      Closed c scope s (.error (.failed error)) .rollback (some (CallerError.cause error))
        (.error (.failed error)) t
  | notRolledBack {error : ε} {e : SqlError} {t : σ}
      (rollback : (c.driver.rollback scope).Leads s (.error (.failed e)) t) :
      Closed c scope s (.error (.failed error)) .rollback (some (CallerError.cause error))
        (.error (.failed error)) t
  | droppedInRollback {error : ε} {level : Nat} {t : σ}
      (rollback : (c.driver.rollback scope).Leads s (.error (.dropped level)) t) :
      Closed c scope s (.error (.failed error)) .rollback (some (.sql droppedError))
        (.error (.dropped level)) t
  | dropped {level : Nat} {t : σ}
      (drop : (change (c.driver.drop scope) : Act σ ε Unit).Leads s (.ok ()) t) :
      Closed c scope s (.error (.dropped level)) .rollback (some (.sql droppedError))
        (.error (.dropped level)) t

def boundary (c : Client σ η) (phase : Phase) (duration : Option Duration)
    (cause : Option Cause) : Event :=
  .transaction ⟨phase, c.context.depth + 1, duration, cause⟩

inductive Bracket (c : Client σ η) (body : η → σ → Except (Stop ε) α → List Event → σ → Prop)
    (s : σ) : Except (Stop ε) α → List Event → σ → Prop where
  | refused {e : SqlError} {t : σ} {duration : Duration}
      (begin : (c.driver.begin c.scope).Leads s (.error (.failed e)) t) :
      Bracket c body s (.error (.failed (CallerError.ofSql e)))
        [c.boundary .rollback (some duration) (some (.sql e))] t
  | unopened {level : Nat} {t : σ}
      (begin : (c.driver.begin c.scope).Leads s (.error (.dropped level)) t) :
      Bracket c body s (.error (.dropped level)) [] t
  | whole {scope : η} {ended r : Except (Stop ε) α} {phase : Phase} {cause : Option Cause}
      {duration : Duration} {inside : List Event} {opened left t : σ}
      (begin : (c.driver.begin c.scope).Leads s (.ok scope) opened)
      (told : body scope opened ended inside left)
      (closed : c.Closed scope left ended phase cause r t) :
      Bracket c body s r
        (c.boundary .begin none none :: (inside ++ [c.boundary phase (some duration) cause])) t

end Client

inductive GoesOn (level : Nat) (call : Except (Stop δ) β → List Event → σ → Prop)
    (rest : Option (Except δ β) → σ → Except (Stop ε) α → List Event → σ → Prop) :
    Except (Stop ε) α → List Event → σ → Prop where
  | returned {b : β} {u w : List Event} {s t : σ} {r : Except (Stop ε) α}
      (told : call (.ok b) u s) (after : rest (some (.ok b)) s r w t) :
      GoesOn level call rest r (u ++ w) t
  | failed {e : δ} {u w : List Event} {s t : σ} {r : Except (Stop ε) α}
      (told : call (.error (.failed e)) u s) (after : rest (some (.error e)) s r w t) :
      GoesOn level call rest r (u ++ w) t
  | dropped {u w : List Event} {s t : σ} {r : Except (Stop ε) α}
      (told : call (.error (.dropped level)) u s) (after : rest none s r w t) :
      GoesOn level call rest r (u ++ w) t
  | stopped {l : Nat} {u : List Event} {t : σ} (outer : l ≠ level)
      (told : call (.error (.dropped l)) u t) : GoesOn level call rest (.error (.dropped l)) u t

def Callback.Told :
    Callback ε α → Client σ η → σ → Except (Stop ε) α → List Event → σ → Prop
  | .returns a, _, s, r, w, t => r = .ok a ∧ w = [] ∧ t = s
  | .fails error, _, s, r, w, t => r = .error (.failed error) ∧ w = [] ∧ t = s
  | .drop level, _, s, r, w, t => r = .error (.dropped level) ∧ w = [] ∧ t = s
  | .statement st next, c, s, r, w, t =>
    GoesOn (c.context.depth + 1) (c.Reported st s) (fun x u => (next x).Told c u) r w t
  | .scope body next, c, s, r, w, t =>
    GoesOn (c.context.depth + 1) (c.Bracket (fun scope => body.Told (c.inside scope)) s)
      (fun x u => (next x).Told c u) r w t

end Told

section Tells

variable {σ η ε δ α β : Type} {label : String} {A : Account σ Event} {c : Client σ η} {s : σ}

structure Driver.Untold (A : Account σ Event) (d : Driver σ η) : Prop where
  execute : ∀ scope st p, A.Grows p [] ((d.execute scope st).run p).2
  begin : ∀ scope p, A.Grows p [] ((d.begin scope).run p).2
  commit : ∀ scope p, A.Grows p [] ((d.commit scope).run p).2
  rollback : ∀ scope p, A.Grows p [] ((d.rollback scope).run p).2
  drop : ∀ scope p, A.Grows p [] (d.drop scope p)

namespace Client

structure Accountable (A : Account σ Event) (c : Client σ η) : Prop where
  driver : c.driver.Untold A
  trace : ∀ p t, A.Grows p [] { p with log := p.log ++ [.trace t] }
  event : ∀ p e, A.Grows p [e] (c.told e p)

theorem Accountable.inside (h : c.Accountable A) (scope : η) : (c.inside scope).Accountable A :=
  ⟨h.driver, h.trace, h.event⟩

theorem accounts_notify (h : c.Accountable A) {e : Event}
    {post : Except (Stop ε) Unit → List Event → σ → Prop} (he : post (.ok ()) [e] s) :
    (c.notify e : Act σ ε Unit).Accounts A s post := by
  rw [notify_eq]
  refine accounts_change (fun p => h.event p e) ?_
  rintro p rfl
  rw [state_told]
  exact he

theorem accounts_query (h : c.Accountable A) (st : Statement) :
    (c.query st).Accounts A s (c.Reported st s) := by
  have asked : (c.driver.execute c.scope st).Accounts A s _ :=
    accounts_leads (h.driver.execute c.scope st)
  refine accounts_now_bind fun start => accounts_bind (Accounts.attempt (asked.mono ?_))
  rintro r _ t ⟨rfl, answer⟩
  match r, answer with
  | .ok r, answer =>
    refine accounts_now_bind fun stop => accounts_bind (accounts_notify h (accounts_pure ?_))
    exact .answered answer
  | .error (.failed e), answer =>
    refine accounts_now_bind fun stop => accounts_bind (accounts_notify h ?_)
    exact accounts_bind (accounts_notify h (accounts_fail (.failed answer)))
  | .error (.dropped level), answer => exact .dropped answer

section Transaction

theorem accounts_notifyEnd (h : c.Accountable A) {phase : Phase} {start : Instant}
    {cause : Option Cause} {post : Except (Stop ε) Unit → List Event → σ → Prop}
    (he : ∀ duration, post (.ok ()) [c.boundary phase (some duration) cause] s) :
    (c.notifyEnd phase start cause : Act σ ε Unit).Accounts A s post :=
  accounts_now_bind fun _ => accounts_notify h (he _)

theorem accounts_endDropped (h : c.Accountable A) {start : Instant} {level : Nat}
    {post : Except (Stop ε) α → List Event → σ → Prop}
    (he : ∀ duration, post (.error (.dropped level))
      [c.boundary .rollback (some duration) (some (.sql droppedError))] s) :
    (c.endDropped start level : Act σ ε α).Accounts A s post :=
  accounts_bind (accounts_notifyEnd h fun duration => accounts_drop (he duration))

variable [CallerError ε]

def Shut (c : Client σ η) (scope : η) (s : σ) (ended r : Except (Stop ε) α) (w : List Event)
    (t : σ) : Prop :=
  ∃ phase cause duration, w = [c.boundary phase (some duration) cause] ∧
    c.Closed scope s ended phase cause r t

theorem Bracket.around {told : η → σ → Except (Stop ε) α → List Event → σ → Prop} {scope : η}
    {opened left t : σ} {ended r : Except (Stop ε) α} {inside w : List Event}
    (begun : (c.driver.begin c.scope).Leads s (.ok scope) opened)
    (heard : told scope opened ended inside left) (shut : c.Shut scope left ended r w t) :
    c.Bracket told s r (c.boundary .begin none none :: (inside ++ w)) t := by
  obtain ⟨phase, cause, duration, rfl, closed⟩ := shut
  exact .whole begun heard closed

theorem accounts_finishReturned (h : c.Accountable A) (scope : η) (start : Instant) (a : α) :
    (c.finishReturned scope start a : Act σ ε α).Accounts A s (c.Shut scope s (.ok a)) := by
  have asked : (c.driver.commit scope).Accounts A s _ := accounts_leads (h.driver.commit scope)
  refine accounts_bind (Accounts.observe (asked.mono ?_))
  rintro r _ t ⟨rfl, answer⟩
  match r, answer with
  | .ok (), answer =>
    refine accounts_bind (accounts_notifyEnd h fun duration => accounts_pure ?_)
    exact ⟨_, _, duration, rfl, .committed answer⟩
  | .error (.failed e), answer =>
    refine accounts_bind (accounts_notifyEnd h fun duration => accounts_fail ?_)
    exact ⟨_, _, duration, rfl, .notCommitted answer⟩
  | .error (.dropped level), answer =>
    exact accounts_endDropped h fun duration => ⟨_, _, duration, rfl, .droppedInCommit answer⟩

theorem accounts_finishFailed (h : c.Accountable A) (scope : η) (start : Instant) (error : ε) :
    (c.finishFailed scope start error : Act σ ε α).Accounts A s
      (c.Shut scope s (.error (.failed error))) := by
  have asked : (c.driver.rollback scope).Accounts A s _ :=
    accounts_leads (h.driver.rollback scope)
  refine accounts_bind (Accounts.observe (asked.mono ?_))
  rintro r _ t ⟨rfl, answer⟩
  match r, answer with
  | .ok (), answer =>
    refine accounts_bind (accounts_notifyEnd h fun duration => accounts_fail ?_)
    exact ⟨_, _, duration, rfl, .rolledBack answer⟩
  | .error (.failed e), answer =>
    -- the warning that is traced here is told to no hook
    refine accounts_bind (accounts_change (fun p => h.trace p _) ?_)
    rintro p rfl
    refine accounts_bind (accounts_notifyEnd h fun duration => accounts_fail ?_)
    exact ⟨_, _, duration, rfl, .notRolledBack answer⟩
  | .error (.dropped level), answer =>
    refine accounts_bind (accounts_endDropped h fun duration => ?_)
    exact ⟨_, _, duration, rfl, .droppedInRollback answer⟩

theorem accounts_transaction (h : c.Accountable A) {body : Client σ η → Act σ ε α}
    {told : η → σ → Except (Stop ε) α → List Event → σ → Prop}
    (hbody : ∀ scope t, (body (c.inside scope)).Accounts A t (told scope t)) :
    (c.transaction body).Accounts A s (c.Bracket told s) := by
  have asked : (c.driver.begin c.scope).Accounts A s _ := accounts_leads (h.driver.begin c.scope)
  refine accounts_now_bind fun start => accounts_bind (Accounts.attempt (asked.mono ?_))
  rintro r _ t ⟨rfl, begun⟩
  match r, begun with
  | .error (.failed e), begun =>
    exact accounts_bind (accounts_notifyEnd h fun duration => accounts_fail (.refused begun))
  | .error (.dropped level), begun => exact .unopened begun
  | .ok scope, begun =>
    refine accounts_bind (accounts_notify h (accounts_bind (Accounts.observe ?_)))
    refine (hbody scope t).mono ?_
    rintro ((error | level) | a) inside left ended
    · exact (accounts_finishFailed h scope start error).mono fun _ _ _ => .around begun ended
    · refine accounts_bind (accounts_change (h.driver.drop scope) ?_)
      rintro p rfl
      have bracketed := fun r w t => Bracket.around (r := r) (w := w) (t := t) begun ended
      refine accounts_endDropped h fun duration => bracketed _ _ _ ?_
      exact ⟨_, _, duration, rfl, .dropped ⟨p, _, rfl, rfl, rfl⟩⟩
    · exact (accounts_finishReturned h scope start a).mono fun _ _ _ => .around begun ended

end Transaction

end Client

theorem accounts_goesOn {level : Nat} {call : Act σ δ β} {rest : Option (Except δ β) → Act σ ε α}
    {told : Except (Stop δ) β → List Event → σ → Prop}
    {after : Option (Except δ β) → σ → Except (Stop ε) α → List Event → σ → Prop}
    (hcall : call.Accounts A s told) (hrest : ∀ x t, (rest x).Accounts A t (after x t)) :
    (unlessDropped level (attempt call) >>= rest).Accounts A s (GoesOn level told after) := by
  refine accounts_bind (Accounts.unlessDropped (Accounts.attempt (hcall.mono ?_)))
  rintro ((e | l) | b) w t called
  · exact (hrest _ t).mono fun _ _ _ ended => .failed called ended
  · refine ⟨?_, fun outer => .stopped outer called⟩
    rintro rfl
    exact (hrest _ t).mono fun _ _ _ ended => .dropped called ended
  · exact (hrest _ t).mono fun _ _ _ ended => .returned called ended

theorem Callback.accounts_run [CallerError ε] {body : Callback ε α} (h : c.Accountable A) :
    (body.run c).Accounts A s (body.Told c s) := by
  induction body generalizing c s with
  | returns a => exact accounts_pure ⟨rfl, rfl, rfl⟩
  | fails error => exact accounts_fail ⟨rfl, rfl, rfl⟩
  | drop level => exact accounts_drop ⟨rfl, rfl, rfl⟩
  | statement st next ih => exact accounts_goesOn (Client.accounts_query h st) fun x t => ih x h
  | scope body next ihbody ihnext =>
    refine accounts_goesOn ?_ fun x t => ihnext x h
    exact Client.accounts_transaction h fun scope t => ihbody (h.inside scope)

structure Client.Audible (c : Client σ η) (label : String) : Prop where
  silent : c.driver.Silent
  hears : ∃ hook, c.context.hook = some hook ∧ hook.Hears label

/-- Where as much is heard as before, nothing was told. -/
theorem untold {p q : Progress σ} (same : heard label q.log = heard label p.log) :
    (hearing σ label).Grows p [] q := same.trans (List.append_nil _).symm

theorem Client.Audible.accountable (h : c.Audible label) :
    c.Accountable (hearing σ label) where
  driver :=
    { execute := fun scope st p => untold (h.silent.execute scope st label p)
      begin := fun scope p => untold (h.silent.begin scope label p)
      commit := fun scope p => untold (h.silent.commit scope label p)
      rollback := fun scope p => untold (h.silent.rollback scope label p)
      drop := fun scope p => untold (h.silent.drop scope label p) }
  trace p t := untold (heard_unheard rfl p.log)
  event p e := by
    obtain ⟨hook, present, hears⟩ := h.hears
    rw [told, present]
    exact hears.deliver e p

/-- What is heard of a callback is what is told of it. -/
theorem Callback.tells_run [CallerError ε] {body : Callback ε α} (h : c.Audible label) :
    (body.run c).Tells label s (body.Told c s) :=
  Callback.accounts_run h.accountable

end Tells

/-- The depth of the innermost open bracket after an event, given that before it; none if the event
is out of place there. -/
def Monitor.Event.depthAfter? (depth : Nat) : Event → Option Nat
  | .query e => if e.depth = depth ∧ e.inTransaction = decide (0 < depth) then some depth else none
  | .error e => if e.depth = depth ∧ e.inTransaction = decide (0 < depth) then some depth else none
  | .transaction e =>
    match e.phase with
    | .begin => if e.depth = depth + 1 then some (depth + 1) else none
    | .commit => if e.depth = depth ∧ 0 < depth then some (depth - 1) else none
    | .rollback =>
      if e.depth = depth + 1 then some depth
      else if e.depth = depth ∧ 0 < depth then some (depth - 1) else none

/-- Every event is in its place inside a bracket at `depth`, and all brackets in it are closed. -/
def Monitor.Nested (depth : Nat) (w : List Event) : Prop :=
  w.foldlM Event.depthAfter? depth = some depth

theorem Monitor.Nested.append {depth : Nat} {u w : List Event} (hu : Nested depth u)
    (hw : Nested depth w) : Nested depth (u ++ w) := by
  rw [Nested, List.foldlM_append, hu]
  exact hw

section Nested

variable {σ η ε δ α β : Type} {c : Client σ η} {s t : σ} {w : List Event}

def Context.Levelled (x : Context) : Prop := x.inTransaction = decide (0 < x.depth)

theorem Context.Levelled.nested {x : Context} : x.nested.Levelled := by
  simp [Levelled, Context.nested]

namespace Client

theorem Reported.nested {st : Statement} {r : Except (Stop SqlError) ResultSet}
    (level : c.context.Levelled) (h : c.Reported st s r w t) : Nested c.context.depth w := by
  cases h with
  | answered => simp [Nested, Event.depthAfter?, level.symm]
  | failed => simp [Nested, Event.depthAfter?, level.symm]
  | dropped => rfl

variable [CallerError ε]

theorem nested_bracket {inside : List Event} {phase : Phase} {duration : Duration}
    {cause : Option Cause} (ends : phase ≠ .begin) (h : Nested (c.context.depth + 1) inside) :
    Nested c.context.depth
      (c.boundary .begin none none :: (inside ++ [c.boundary phase (some duration) cause])) := by
  have opens : (c.boundary .begin none none).depthAfter? c.context.depth =
      some (c.context.depth + 1) := if_pos rfl
  have closes : (c.boundary phase (some duration) cause).depthAfter? (c.context.depth + 1) =
      some c.context.depth := by
    cases phase with
    | begin => exact absurd rfl ends
    | commit => simp [boundary, Event.depthAfter?]
    | rollback => simp [boundary, Event.depthAfter?]
  rw [Nested, List.foldlM_cons, opens]
  change (inside ++ _).foldlM Event.depthAfter? (c.context.depth + 1) = _
  rw [List.foldlM_append, h]
  exact (bind_pure _).trans closes

theorem Closed.ends {scope : η} {ended r : Except (Stop ε) α} {phase : Phase}
    {cause : Option Cause} (h : c.Closed scope s ended phase cause r t) : phase ≠ .begin := by
  cases h <;> exact nofun

theorem Bracket.nested {told : η → σ → Except (Stop ε) α → List Event → σ → Prop}
    {r : Except (Stop ε) α} (h : c.Bracket told s r w t)
    (inside : ∀ scope s r w t, told scope s r w t → Nested (c.context.depth + 1) w) :
    Nested c.context.depth w := by
  cases h with
  | refused => simp [Nested, boundary, Event.depthAfter?]
  | unopened => rfl
  | whole _ heard closed => exact nested_bracket closed.ends (inside _ _ _ _ _ heard)

end Client

theorem GoesOn.nested {level depth : Nat} {call : Except (Stop δ) β → List Event → σ → Prop}
    {rest : Option (Except δ β) → σ → Except (Stop ε) α → List Event → σ → Prop}
    {r : Except (Stop ε) α} (h : GoesOn level call rest r w t)
    (hcall : ∀ r w t, call r w t → Nested depth w)
    (hrest : ∀ x s r w t, rest x s r w t → Nested depth w) : Nested depth w := by
  cases h with
  | returned called after => exact (hcall _ _ _ called).append (hrest _ _ _ _ _ after)
  | failed called after => exact (hcall _ _ _ called).append (hrest _ _ _ _ _ after)
  | dropped called after => exact (hcall _ _ _ called).append (hrest _ _ _ _ _ after)
  | stopped _ called => exact hcall _ _ _ called

theorem Callback.Told.nested [CallerError ε] {body : Callback ε α} {r : Except (Stop ε) α}
    (level : c.context.Levelled) (h : body.Told c s r w t) : Nested c.context.depth w := by
  induction body generalizing c s r w t with
  | returns | fails | drop =>
    obtain ⟨-, rfl, -⟩ := h
    rfl
  | statement st next ih =>
    refine GoesOn.nested h ?_ ?_
    · exact fun _ _ _ reported => reported.nested level
    · exact fun x _ _ _ _ after => ih x level after
  | scope body next ihbody ihnext =>
    refine GoesOn.nested h ?_ ?_
    · intro r w t bracket
      refine bracket.nested ?_
      exact fun scope _ _ _ _ told => ihbody (c := c.inside scope) Context.Levelled.nested told
    · exact fun x _ _ _ _ after => ihnext x level after

/-- What is heard of a callback at the root is a word of nested brackets, in which every call is
told of by what the driver answered to it. -/
theorem Callback.heard_run [CallerError ε] {label : String} (body : Callback ε α)
    (audible : c.Audible label) (outside : c.context.inTransaction = false ∧ c.context.depth = 0)
    (p : Progress σ) :
    ∃ w, heard label ((body.run c).run p).2.log = heard label p.log ++ w ∧
      body.Told c p.state ((body.run c).run p).1 w ((body.run c).run p).2.state ∧ Nested 0 w := by
  obtain ⟨w, grown, told⟩ := body.tells_run audible p rfl
  have level : c.context.Levelled := by
    rw [Context.Levelled, outside.1, outside.2]
    rfl
  exact ⟨w, grown, told, outside.2 ▸ told.nested level⟩

end Nested

def Monitor.Event.sign : Event → String × Nat
  | .query e => (e.text, e.depth)
  | .error e => (e.error.message, e.depth)
  | .transaction e => (e.phase.name, e.depth)

def stumbling : Callback SqlError Unit :=
  .scope (.statement ⟨"a", []⟩ fun _ =>
    .scope (.statement ⟨"b", []⟩ fun _ => .fails (.other "b is needed")) fun _ =>
      .scope (.statement ⟨"c", []⟩ fun _ => .drop 2) fun _ => .returns ()) fun _ => .returns ()

def recorded : Client Recording Nat where
  driver := Recording.driver
  context := { hook := some (.composite [.observer (.counter 0), .observer (.recorder "log" {})]) }

def recording : Progress Recording where
  state := ⟨[.ok .empty, .error (.other "no b")], [⟨.rollback, 2⟩]⟩
  now := .ofDate ((Date.ofDayNumber? 0).get (by decide +kernel))

theorem Callback.heard_run_stumbling :
    recorded.Audible "log" ∧ ∃ w,
      stumbling.Told recorded recording.state ((stumbling.run recorded).run recording).1 w
        ((stumbling.run recorded).run recording).2.state ∧
      Nested 0 w ∧ w.map Event.sign =
        [("BEGIN", 1), ("a", 1), ("BEGIN", 2), ("b", 2), ("no b", 2), ("ROLLBACK", 2),
          ("BEGIN", 2), ("c", 2), ("ROLLBACK", 2), ("COMMIT", 1)] := by
  have audible : recorded.Audible "log" := ⟨Recording.silent_driver, _, rfl, rfl⟩
  obtain ⟨w, grown, told, nested⟩ := stumbling.heard_run audible ⟨rfl, rfl⟩ recording
  refine ⟨audible, w, told, nested, ?_⟩
  rw [← List.nil_append w]
  exact (congrArg (List.map Event.sign) grown.symm).trans (by decide +kernel)

end SqlClient
