import SqlClient.Driver.Exclusive
import SqlClient.Driver.Pooled
import SqlClient.Proofs.Monitor.Heard
/-!
# Silent drivers

Drivers send requests and write traces, and leave it to clients to tell hooks. So the log goes on
with entries that no observer makes, and nothing is counted.
-/
namespace SqlClient

open SqlClient.Monitor SqlClient.Sql Act

def Entry.isRecord : Entry → Bool
  | .observed .. => true
  | .call _ | .request .. | .trace _ | .note _ => false

/-- Nobody was told of anything: the log goes on with entries of other kinds, nothing is counted. -/
structure Progress.Unremarked {σ : Type} (p q : Progress σ) : Prop where
  logged : ∃ entries, q.log = p.log ++ entries ∧ ∀ e ∈ entries, e.isRecord = false
  counters : q.counters = p.counters

namespace Progress

variable {σ : Type} {p q r : Progress σ}

theorem Unremarked.refl (p : Progress σ) (s : σ) : p.Unremarked { p with state := s } :=
  ⟨⟨[], (List.append_nil _).symm, nofun⟩, rfl⟩

theorem Unremarked.trans (h : p.Unremarked q) (h' : q.Unremarked r) : p.Unremarked r := by
  obtain ⟨entries, log, plain⟩ := h.logged
  obtain ⟨entries', log', plain'⟩ := h'.logged
  refine ⟨⟨entries ++ entries', ?_, ?_⟩, h'.counters.trans h.counters⟩
  · rw [log', log, List.append_assoc]
  · intro e he
    exact (List.mem_append.mp he).elim (plain e) (plain' e)

theorem unremarked_append {e : Entry} (h : e.isRecord = false) (p : Progress σ) :
    p.Unremarked { p with log := p.log ++ [e] } :=
  ⟨⟨[e], rfl, List.forall_mem_singleton.mpr h⟩, rfl⟩

/-- What is not remarked is not heard. -/
theorem Unremarked.heard_eq (h : p.Unremarked q) (label : String) :
    heard label q.log = heard label p.log := by
  obtain ⟨entries, log, plain⟩ := h.logged
  have unheard : heard label entries = [] := by
    refine List.filterMap_eq_nil_iff.mpr fun e he => ?_
    have own := plain e he
    cases e with
    | observed => cases own
    | call | request | trace | note => rfl
  rw [log, heard_append, unheard, List.append_nil]

end Progress

namespace Act

variable {σ ε α β : Type} {act : Act σ ε α}

def Discreet (act : Act σ ε α) : Prop := ∀ p : Progress σ, p.Unremarked (act.run p).2

theorem Discreet.silent (h : act.Discreet) : act.Silent := fun label p => (h p).heard_eq label

theorem discreet_pure (a : α) : (pure a : Act σ ε α).Discreet := fun p => .refl p p.state

theorem discreet_fail (e : ε) : (fail e : Act σ ε α).Discreet := fun p => .refl p p.state

theorem discreet_drop (level : Nat) : (drop level : Act σ ε α).Discreet := fun p => .refl p p.state

theorem discreet_progress : (progress : Act σ ε (Progress σ)).Discreet := fun p => .refl p p.state

theorem discreet_onState (f : σ → α × σ) : (onState f : Act σ ε α).Discreet := fun p => .refl p _

theorem discreet_changeState (f : σ → σ) : (changeState f : Act σ ε Unit).Discreet :=
  fun p => .refl p _

theorem discreet_append {e : Entry} (h : e.isRecord = false) :
    (append e : Act σ ε Unit).Discreet := Progress.unremarked_append h

theorem Discreet.bind {f : α → Act σ ε β} (h : act.Discreet) (hf : ∀ a, (f a).Discreet) :
    (act >>= f).Discreet := by
  intro p
  have first := h p
  rw [run_bind]
  cases hr : act.run p with
  | mk r q =>
    rw [hr] at first
    cases r with
    | ok a => exact first.trans (hf a q)
    | error e => exact first

theorem Discreet.cleanUp (h : act.Discreet) (onFailure onDrop : σ → σ) :
    (act.cleanUp onFailure onDrop).Discreet := by
  intro p
  have first := h p
  change p.Unremarked (Act.cleanUp onFailure onDrop act p).2
  simp only [Act.cleanUp, ofRun]
  cases hr : act.run p with
  | mk r q =>
    rw [hr] at first
    rcases r with (e | l) | a
    · exact first.trans (.refl q _)
    · exact first.trans (.refl q _)
    · exact first

theorem discreet_ofExcept (x : Except ε α) : (ofExcept x : Act σ ε α).Discreet := by
  cases x with
  | ok a => exact discreet_pure a
  | error e => exact discreet_fail e

theorem discreet_mapM {f : β → Act σ ε α} (hf : ∀ b, (f b).Discreet) (bs : List β) :
    (bs.mapM f).Discreet := by
  induction bs with
  | nil => exact discreet_pure _
  | cons b bs ih =>
    rw [List.mapM_cons]
    exact (hf b).bind fun a => ih.bind fun as => discreet_pure _

theorem discreet_forM {f : β → Act σ ε PUnit} (hf : ∀ b, (f b).Discreet) (bs : List β) :
    (bs.forM f).Discreet := by
  induction bs with
  | nil => exact discreet_pure _
  | cons b bs ih => exact (hf b).bind fun _ => ih

end Act

structure Driver.Silent {σ η : Type} (d : Driver σ η) : Prop where
  execute : ∀ scope st, (d.execute scope st).Silent
  begin : ∀ scope, (d.begin scope).Silent
  commit : ∀ scope, (d.commit scope).Silent
  rollback : ∀ scope, (d.rollback scope).Silent
  drop : ∀ scope label p, heard label (d.drop scope p).log = heard label p.log

structure Driver.Discreet {σ η : Type} (d : Driver σ η) : Prop where
  execute : ∀ scope st, (d.execute scope st).Discreet
  begin : ∀ scope, (d.begin scope).Discreet
  commit : ∀ scope, (d.commit scope).Discreet
  rollback : ∀ scope, (d.rollback scope).Discreet
  drop : ∀ scope (p : Progress σ), p.Unremarked (d.drop scope p)

theorem Driver.Discreet.silent {σ η : Type} {d : Driver σ η} (h : d.Discreet) : d.Silent where
  execute scope st := (h.execute scope st).silent
  begin scope := (h.begin scope).silent
  commit scope := (h.commit scope).silent
  rollback scope := (h.rollback scope).silent
  drop scope label p := (h.drop scope p).heard_eq label

namespace Link

variable {β γ α : Type} {l : Link β γ}

theorem discreet_ask (h : l.meanwhile.Discreet) (request : Request) (f : β → Reply α × β) :
    (l.ask request f).Discreet := by
  refine (discreet_append rfl).bind fun _ => h.bind fun _ => ?_
  refine (discreet_onState _).bind fun reply => ?_
  cases reply with
  | answered a => exact discreet_pure a
  | refused e => exact discreet_fail _
  | unanswered level => exact discreet_drop level

theorem discreet_run (h : l.meanwhile.Discreet) (st : Statement) : (l.run st).Discreet := by
  refine (discreet_ask h _ _).bind fun prepared => ?_
  refine (discreet_ofExcept _).bind fun params => ?_
  exact (discreet_ask h _ _).bind fun rows => (discreet_ofExcept _).bind fun _ => discreet_pure _

theorem discreet_discard (h : l.meanwhile.Discreet) (depth : Nat) : (l.discard depth).Discreet := by
  refine discreet_progress.bind fun p => ?_
  split
  · exact discreet_pure _
  · refine (discreet_append rfl).bind fun _ => ?_
    exact (discreet_ask h _ _).bind fun _ => discreet_changeState _

theorem discreet_execute (h : l.meanwhile.Discreet) (depth : Nat) (st : Statement) :
    (l.execute depth st).Discreet :=
  (discreet_discard h depth).bind fun _ => discreet_run h st

theorem discreet_enter (h : l.meanwhile.Discreet) (depth : Nat) : (l.enter depth).Discreet :=
  ((discreet_ask h _ _).cleanUp _ _).bind fun _ => discreet_pure _

theorem discreet_enterInside (h : l.meanwhile.Discreet) (depth : Nat) :
    (l.enterInside depth).Discreet :=
  (discreet_discard h depth).bind fun _ => discreet_enter h _

theorem discreet_finish (h : l.meanwhile.Discreet) (action : ScopeAction) (depth : Nat) :
    (l.finish action depth).Discreet := by
  refine ((discreet_discard h depth).cleanUp _ _).bind fun _ => ?_
  exact ((discreet_ask h _ _).cleanUp _ _).bind fun _ => discreet_changeState _

end Link

namespace Exclusive

variable {β : Type}

theorem discreet_requireFree :
    (requireFree : Act (Line β Ownership) SqlError Unit).Discreet := by
  refine discreet_progress.bind fun p => ?_
  split
  · exact discreet_fail _
  · exact discreet_pure _

theorem discreet_driver (server : Server β) (codecs : Wire.Codecs) :
    (driver server codecs).Discreet := by
  have waiting : (link server codecs).meanwhile.Discreet := discreet_pure _
  refine ⟨?_, ?_, ?_, ?_, fun _ p => .refl p _⟩
  · rintro (_ | scope) st
    · exact discreet_requireFree.bind fun _ => Link.discreet_execute waiting 0 st
    · exact Link.discreet_execute waiting scope.depth st
  · rintro (_ | scope)
    · refine discreet_requireFree.bind fun _ => (discreet_changeState _).bind fun _ => ?_
      refine ((Link.discreet_discard waiting 0).cleanUp _ _).bind fun _ => ?_
      exact Link.discreet_enter waiting 1
    · exact Link.discreet_enterInside waiting scope.depth
  · exact fun scope => Link.discreet_finish waiting .commit scope.depth
  · exact fun scope => Link.discreet_finish waiting .rollback scope.depth

end Exclusive

namespace Pool

variable {β : Type} (server : Server β)

theorem discreet_settleOrphan (connection : Nat) (reply : Reply Unit) :
    (settleOrphan connection reply : Act (Line β Pool) SqlError Unit).Discreet := by
  cases reply with
  | answered => exact discreet_changeState _
  | refused e => exact (discreet_append rfl).bind fun _ => discreet_changeState _
  | unanswered => exact discreet_changeState _

theorem discreet_rollBackOrphans : (rollBackOrphans server).Discreet := by
  refine discreet_progress.bind fun p => (discreet_changeState _).bind fun _ => ?_
  have asked (connection : Nat) : (requestRollback server connection).Discreet :=
    (discreet_append rfl).bind fun _ => discreet_onState _
  refine (discreet_mapM asked _).bind fun replies => ?_
  exact discreet_forM (fun (connection, reply) => discreet_settleOrphan connection reply) _

theorem discreet_connect : (connect server).Discreet := by
  refine discreet_progress.bind fun p => (discreet_onState _).bind fun result => ?_
  refine (discreet_append rfl).bind fun _ => (discreet_changeState _).bind fun _ => ?_
  refine (discreet_rollBackOrphans server).bind fun _ => ?_
  cases result with
  | ok => exact (discreet_changeState _).bind fun _ => discreet_pure _
  | error e => exact discreet_fail _

theorem discreet_takeReady (maxSize : Nat) : (takeReady server maxSize).Discreet := by
  refine discreet_progress.bind fun p => ?_
  dsimp only
  split
  · exact (discreet_changeState _).bind fun _ => discreet_pure _
  · split
    · rw [← bind_pure_comp]
      exact (discreet_connect server).bind fun _ => discreet_pure _
    · exact discreet_pure _

theorem discreet_waitReady (maxSize times : Nat) :
    (waitReady server maxSize times).Discreet := by
  induction times with
  | zero => exact discreet_pure _
  | succ times ih =>
    refine (discreet_rollBackOrphans server).bind fun _ => ?_
    refine (discreet_takeReady server maxSize).bind fun ready => ?_
    cases ready with
    | some connection => exact discreet_pure _
    | none => exact ih

theorem discreet_take (maxSize : Nat) : (take server maxSize).Discreet := by
  refine (discreet_takeReady server maxSize).bind fun ready => ?_
  cases ready with
  | some connection => exact discreet_pure _
  | none =>
    refine discreet_progress.bind fun p => ?_
    refine (discreet_waitReady server maxSize _).bind fun ready => ?_
    cases ready with
    | some connection => exact discreet_pure _
    | none => exact discreet_drop 0

theorem discreet_driver (codecs : Wire.Codecs) (maxSize : Nat) :
    (driver server codecs maxSize).Discreet := by
  have waiting (connection : Nat) : (link server codecs connection).meanwhile.Discreet :=
    discreet_rollBackOrphans server
  refine ⟨?_, ?_, ?_, ?_, fun _ p => .refl p _⟩
  · rintro (_ | scope) st
    · refine (discreet_take server maxSize).bind fun connection => ?_
      refine ((Link.discreet_run (waiting connection) st).cleanUp _ _).bind fun _ => ?_
      exact (discreet_changeState _).bind fun _ => discreet_pure _
    · exact Link.discreet_execute (waiting scope.connection) scope.depth st
  · rintro (_ | scope)
    · refine (discreet_take server maxSize).bind fun connection => ?_
      exact (discreet_changeState _).bind fun _ => Link.discreet_enter (waiting connection) 1
    · exact Link.discreet_enterInside (waiting scope.connection) scope.depth
  · exact fun scope => Link.discreet_finish (waiting scope.connection) .commit scope.depth
  · exact fun scope => Link.discreet_finish (waiting scope.connection) .rollback scope.depth

end Pool

namespace Recording

theorem discreet_scope (action : ScopeAction) (depth : Nat) : (scope action depth).Discreet := by
  refine (discreet_append rfl).bind fun _ => discreet_progress.bind fun p => ?_
  split
  · exact discreet_fail _
  · exact discreet_pure _

theorem discreet_driver : driver.Discreet where
  execute _ st := by
    refine (discreet_append rfl).bind fun _ => (discreet_onState _).bind fun response => ?_
    exact discreet_ofExcept _
  begin outer := (discreet_scope .begin _).bind fun _ => discreet_pure _
  commit depth := discreet_scope .commit depth
  rollback depth := discreet_scope .rollback depth
  drop _ p := Progress.unremarked_append rfl p

theorem silent_driver : driver.Silent := discreet_driver.silent

end Recording

end SqlClient
