import Mathlib.Data.List.Count
import SqlClient.Driver.Pooled
import SqlClient.Proofs.Driver.Requests
import SqlClient.Proofs.Driver.Runs
/-!
# Connections that can be taken

Every connection of a pool waits to be taken, was left behind, or is held by a transaction or a
statement, and is never in two of these places. On the way back to where it can be taken it passes
through the end of its transaction, so that one is taken outside of any.
-/
namespace SqlClient

open SqlClient.Sql Act

namespace Pool

variable {β α : Type} {server : Server β} {codecs : Wire.Codecs} {inside : β → Nat → Prop}
  {plain : String → Prop} {s t : Line β Pool} {held : List Nat} {n depth maxSize : Nat}

def places (held : List Nat) (s : Line β Pool) (n : Nat) : Nat :=
  s.keeping.idle.count n + s.keeping.orphans.count n + held.count n

/-- Each connection is in at most one place, only connections that were opened are in any, and those
that can be taken are outside of a transaction. -/
structure Kept (inside : β → Nat → Prop) (held : List Nat) (s : Line β Pool) : Prop where
  once : ∀ n, places held s n ≤ 1
  known : ∀ n, s.keeping.next ≤ n → places held s n = 0
  clean : ∀ n ∈ s.keeping.idle, ¬ inside s.server n

def Quiet (inside : β → Nat → Prop) (s t : Line β Pool) : Prop :=
  ∀ n, inside t.server n → inside s.server n

theorem Quiet.trans {u : Line β Pool} (h : Quiet inside s t) (h' : Quiet inside t u) :
    Quiet inside s u := fun n hn => h n (h' n hn)

namespace Kept

/-- What is held is not to be taken. -/
theorem not_mem_idle (hk : Kept inside held s) (hn : n ∈ held) : n ∉ s.keeping.idle := by
  intro idle
  have once := hk.once n
  have here := List.count_pos_iff.mpr idle
  have there := List.count_pos_iff.mpr hn
  rw [places] at once
  omega

/-- Connections change places, or are closed. -/
theorem moved {held' : List Nat} (hk : Kept inside held s)
    (hp : ∀ n, places held' t n ≤ places held s n) (next : t.keeping.next = s.keeping.next)
    (clean : ∀ n ∈ t.keeping.idle, ¬ inside t.server n) : Kept inside held' t where
  once n := Nat.le_trans (hp n) (hk.once n)
  known n hn := Nat.le_zero.mp (Nat.le_trans (hp n) (Nat.le_of_eq (hk.known n (next ▸ hn))))
  clean := clean

theorem of_perm {held' : List Nat} (hk : Kept inside held s) (h : held.Perm held') :
    Kept inside held' s :=
  hk.moved (fun n => Nat.le_of_eq (by rw [places, places, h.count_eq n])) rfl hk.clean

/-- The server may have changed, but not for the worse where connections can be taken. -/
theorem on_server (hk : Kept inside held s) (same : t.keeping = s.keeping)
    (ht : ∀ n ∈ s.keeping.idle, inside t.server n → inside s.server n) : Kept inside held t := by
  refine hk.moved (fun n => Nat.le_of_eq (by rw [places, places, same])) (by rw [same]) ?_
  intro n hn open_
  rw [same] at hn
  exact hk.clean n hn (ht n hn open_)

theorem forgotten (hk : Kept inside (n :: held) s) : Kept inside held s :=
  hk.moved (fun _ => Nat.add_le_add_left List.count_le_count_cons _) rfl hk.clean

theorem closed (hk : Kept inside (n :: held) s) : Kept inside held (close s) :=
  hk.forgotten.moved (fun _ => Nat.le_refl _) rfl hk.clean

theorem given_back (hk : Kept inside (n :: held) s) (hn : ¬ inside s.server n) :
    Kept inside held (giveBack n s) := by
  refine hk.moved (fun m => ?_) rfl fun m hm => ?_
  · simp only [places, giveBack, Line.keep, List.count_append, List.count_cons, List.count_nil]
    omega
  · rcases List.mem_append.mp hm with hm | hm
    · exact hk.clean m hm
    · rw [List.mem_singleton.mp hm]
      exact hn

/-- A transaction that is let go of leaves its connection behind. -/
theorem left_behind (hk : Kept inside (n :: held) s) (hd : depth ≤ 1) :
    Kept inside held (letGo n depth s) := by
  rw [letGo, if_pos hd, leaveBehind]
  split
  · refine hk.moved (fun m => ?_) rfl hk.clean
    simp only [places, Line.keep, List.count_append, List.count_cons, List.count_nil]
    omega
  · exact hk.closed

/-- Those that are not due stay where they are. -/
theorem due_held (hk : Kept inside held s) :
    Kept inside (s.keeping.due ++ held) (s.keep waitLonger) := by
  refine hk.moved (fun m => ?_) rfl hk.clean
  have parted := List.filter_append_perm (· ∈ s.keeping.delayed) s.keeping.orphans
  have count := parted.count_eq m
  simp only [places, Line.keep, waitLonger, due, List.count_append, decide_not] at count ⊢
  omega

theorem taken {rest : List Nat} (hk : Kept inside held s) (hi : s.keeping.idle = n :: rest) :
    Kept inside (n :: held) (s.keep fun p => { p with idle := rest }) := by
  refine hk.moved (fun m => ?_) rfl fun m hm => hk.clean m (by rw [hi]; exact .tail _ hm)
  simp only [places, hi, Line.keep, List.count_cons]
  omega

/-- A connection with a new number is held by the one who asked for it. -/
theorem opened (hk : Kept inside held s) :
    Kept inside (s.keeping.next :: held) (s.keep fun p => { p with next := p.next + 1 }) := by
  have counted (m : Nat) : places (s.keeping.next :: held)
      (s.keep fun p => { p with next := p.next + 1 }) m =
        places held s m + if s.keeping.next == m then 1 else 0 := by
    simp only [places, Line.keep, List.count_cons]
    omega
  have fresh := hk.known s.keeping.next (Nat.le_refl _)
  refine ⟨fun m => ?_, fun m hm => ?_, hk.clean⟩
  · rw [counted]
    by_cases hm : s.keeping.next = m
    · simp [← hm, fresh]
    · simpa [hm] using hk.once m
  · have above : s.keeping.next + 1 ≤ m := hm
    rw [counted, hk.known m (by omega), if_neg (by simp; omega)]

end Kept

/-- All of them are rolled back, in whatever way the server answers. -/
theorem ends_mapM_requestRollback (h : server.Transactional inside plain) (orphans : List Nat)
    (s : Line β Pool) :
    (orphans.mapM (requestRollback server)).Ends s fun r t =>
      ∃ replies, r = .ok replies ∧ replies.length = orphans.length ∧ t.keeping = s.keeping ∧
        Quiet inside s t ∧ ∀ n ∈ orphans, ¬ inside t.server n := by
  induction orphans generalizing s with
  | nil => exact ends_pure ⟨[], rfl, rfl, rfl, fun _ => id, nofun⟩
  | cons n orphans ih =>
    rw [List.mapM_cons]
    have asked : (requestRollback server n).Ends s fun r t => ∃ reply, r = .ok reply ∧
        t.keeping = s.keeping ∧ Quiet inside s t ∧ ¬ inside t.server n := by
      refine Ends.andThen (ends_append ⟨rfl, rfl⟩) (ends_onState ⟨_, rfl, rfl, ?_, ?_⟩)
      · exact fun m hm => h.batch_opens_none (.inl (by simp)) hm
      · exact h.not_inside_of_ends (by simp) (Nat.le_refl 1)
    refine asked.afterwards ?_
    rintro reply t ⟨same, quiet, outside⟩
    refine (ih t).afterwards ?_
    rintro replies u ⟨length, same', quiet', outside'⟩
    refine ends_pure ⟨_, rfl, congrArg Nat.succ length, same'.trans same, quiet.trans quiet', ?_⟩
    exact List.forall_mem_cons.mpr ⟨fun open_ => outside (quiet' n open_), outside'⟩

/-- Each of them can be taken again, or is closed. -/
theorem ends_forM_settleOrphan (pairs : List (Nat × Reply Unit)) {s : Line β Pool}
    (hk : Kept inside (pairs.map Prod.fst ++ held) s)
    (outside : ∀ pair ∈ pairs, ¬ inside s.server pair.1) :
    (pairs.forM fun (n, reply) => settleOrphan n reply : Act (Line β Pool) SqlError Unit).Ends s
      fun r t => r = .ok () ∧ Kept inside held t ∧ t.server = s.server := by
  induction pairs generalizing s with
  | nil => exact ends_pure ⟨rfl, hk, rfl⟩
  | cons pair pairs ih =>
    obtain ⟨n, reply⟩ := pair
    obtain ⟨here, others⟩ := List.forall_mem_cons.mp outside
    have settled : (settleOrphan n reply : Act (Line β Pool) SqlError Unit).Ends s fun r t =>
        r = .ok () ∧ Kept inside (pairs.map Prod.fst ++ held) t ∧ t.server = s.server := by
      cases reply with
      | answered _ => exact ends_changeState ⟨rfl, hk.given_back here, rfl⟩
      | refused e =>
        exact Ends.andThen (ends_append ⟨rfl, rfl⟩) (ends_changeState ⟨rfl, hk.closed, rfl⟩)
      | unanswered level => exact ends_changeState ⟨rfl, hk.closed, rfl⟩
    refine settled.returning fun t ht => ?_
    obtain ⟨kept, same⟩ := ht
    refine (ih kept (by rwa [same])).mono ?_
    rintro _ u ⟨hr, hu, same'⟩
    exact ⟨hr, hu, same'.trans same⟩

theorem ends_rollBackOrphans (h : server.Transactional inside plain) (hk : Kept inside held s) :
    (rollBackOrphans server).Ends s fun r t =>
      r = .ok () ∧ Kept inside held t ∧ Quiet inside s t := by
  refine ends_progress_bind fun p hp => ?_
  subst hp
  refine Ends.andThen (ends_changeState ⟨rfl, rfl⟩) ?_
  refine (ends_mapM_requestRollback h p.state.keeping.due _).afterwards ?_
  rintro replies t ⟨length, same, quiet, outside⟩
  have names : (p.state.keeping.due.zip replies).map Prod.fst = p.state.keeping.due :=
    List.map_fst_zip (Nat.le_of_eq length.symm)
  have kept : Kept inside (p.state.keeping.due ++ held) t :=
    hk.due_held.on_server same fun n _ => quiet n
  refine (ends_forM_settleOrphan _ (names.symm ▸ kept) ?_).mono ?_
  · rintro ⟨n, reply⟩ hn
    exact outside n (List.of_mem_zip hn).1
  · rintro r u ⟨hr, hu, server⟩
    exact ⟨hr, hu, fun n hn => quiet n (by rwa [server] at hn)⟩

theorem ends_connect (h : server.Transactional inside plain) (hk : Kept inside held s) :
    (connect server).Ends s fun r t =>
      match r with
      | .ok n => Kept inside (n :: held) t ∧ ¬ inside t.server n
      | .error _ => Kept inside held t := by
  refine ends_progress_bind fun p hp => ?_
  subst hp
  refine Ends.andThen (ends_onState ⟨rfl, rfl⟩) ?_
  refine Ends.andThen (ends_append ⟨rfl, rfl⟩) ?_
  refine Ends.andThen (ends_changeState ⟨rfl, rfl⟩) ?_
  have kept : Kept inside held { p.state with
      server := (server.connect p.state.keeping.next p.state.server).2 } :=
    hk.on_server rfl fun n _ hn => (h.connect _ n _ hn).2
  have outside : ¬ inside (server.connect p.state.keeping.next p.state.server).2
      p.state.keeping.next := fun open_ => (h.connect _ _ _ open_).1 rfl
  refine (ends_rollBackOrphans h kept.opened).returning fun t ht => ?_
  obtain ⟨kept, quiet⟩ := ht
  cases (server.connect p.state.keeping.next p.state.server).1 with
  | ok _ =>
    refine Ends.andThen (ends_changeState ⟨rfl, rfl⟩) (ends_pure ⟨?_, fun open_ => ?_⟩)
    · exact kept.moved (fun _ => Nat.le_refl _) rfl kept.clean
    · exact outside (quiet _ open_)
  | error e => exact ends_fail kept.forgotten

theorem ends_takeReady (h : server.Transactional inside plain) (hk : Kept inside held s) :
    (takeReady server maxSize).Ends s fun r t =>
      match r with
      | .ok (some n) => Kept inside (n :: held) t ∧ ¬ inside t.server n
      | _ => Kept inside held t := by
  refine ends_progress_bind fun p hp => ?_
  subst hp
  dsimp only
  cases hi : p.state.keeping.idle with
  | cons n rest =>
    refine Ends.andThen (ends_changeState ⟨rfl, rfl⟩) (ends_pure ⟨hk.taken hi, ?_⟩)
    exact hk.clean n (by rw [hi]; exact List.mem_cons_self)
  | nil =>
    dsimp only
    split
    · rw [← bind_pure_comp]
      refine (ends_connect h hk).bind ?_ fun _ _ kept => kept
      intro n t ht
      exact ends_pure ht
    · exact ends_pure hk

theorem ends_waitReady (h : server.Transactional inside plain) (hk : Kept inside held s)
    (times : Nat) :
    (waitReady server maxSize times).Ends s fun r t =>
      match r with
      | .ok (some n) => Kept inside (n :: held) t ∧ ¬ inside t.server n
      | _ => Kept inside held t := by
  induction times generalizing s with
  | zero => exact ends_pure hk
  | succ times ih =>
    refine (ends_rollBackOrphans h hk).returning fun t ht => ?_
    refine (ends_takeReady h ht.1).bind ?_ fun _ _ kept => kept
    rintro (_ | n) u hu
    · exact ih hu
    · exact ends_pure hu

/-- Whatever is taken is outside of a transaction. -/
theorem ends_take (h : server.Transactional inside plain) (hk : Kept inside held s) :
    (take server maxSize).Ends s fun r t =>
      match r with
      | .ok n => Kept inside (n :: held) t ∧ ¬ inside t.server n
      | .error _ => Kept inside held t := by
  refine (ends_takeReady h hk).bind ?_ fun _ _ kept => kept
  rintro (_ | n) t ht
  · refine ends_progress_bind fun p hp => ?_
    subst hp
    refine (ends_waitReady h ht _).bind ?_ fun _ _ kept => kept
    rintro (_ | n) u hu
    · exact ends_drop hu
    · exact ends_pure hu
  · exact ends_pure ht

section Requests

variable {post : Except (Stop SqlError) α → Line β Pool → Prop}

/-- Connections that were left behind come back while an answer is awaited. -/
theorem ends_ask (h : server.Transactional inside plain) (hk : Kept inside held s)
    {request : Request} {f : β → Reply α × β}
    (hp : ∀ t, Kept inside held t → Quiet inside s t →
      post (f t.server).1.outcome { t with server := (f t.server).2 }) :
    ((link server codecs n).ask request f).Ends s post := by
  refine Ends.andThen (ends_append ⟨rfl, rfl⟩) ?_
  refine (ends_rollBackOrphans h hk).returning fun t ht => ?_
  refine Ends.andThen (ends_onState ⟨rfl, rfl⟩) ?_
  have asked := hp t ht.1 ht.2
  generalize f t.server = reply at asked
  obtain ⟨a | e | level, b⟩ := reply
  · exact ends_pure asked
  · exact ends_fail asked
  · exact ends_drop asked

end Requests

/-- A request that opens no transaction. -/
theorem ends_ask_quiet (h : server.Transactional inside plain) (hk : Kept inside held s)
    {request : Request} {f : β → Reply α × β} (hf : ∀ b m, inside (f b).2 m → inside b m) :
    ((link server codecs n).ask request f).Ends s fun _ t =>
      Kept inside held t ∧ Quiet inside s t :=
  ends_ask h hk fun t ht quiet => ⟨ht.on_server rfl fun m _ => hf t.server m,
    fun m hm => quiet m (hf t.server m hm)⟩

theorem ends_run (h : server.Transactional inside plain) (hk : Kept inside held s) {st : Statement}
    (hp : plain st.text) :
    ((link server codecs n).run st).Ends s fun _ t => Kept inside held t ∧ Quiet inside s t := by
  have prepared : ((link server codecs n).ask (.prepare st.text) (server.prepare n st.text)).Ends s
      fun _ t => Kept inside held t ∧ Quiet inside s t :=
    ends_ask_quiet h hk fun b m => h.prepare n m st.text b
  refine prepared.bind ?_ fun _ _ done => done
  rintro columns t ⟨kept, quiet⟩
  refine ends_ofExcept_bind (fun params => ?_) fun _ => ⟨kept, quiet⟩
  have executed : ((link server codecs n).ask (.execute params)
      (server.execute n st.text params)).Ends t fun _ u =>
        Kept inside held u ∧ Quiet inside t u :=
    ends_ask_quiet h kept fun b m => h.execute n m st.text params b hp
  refine executed.bind ?_ fun _ _ done => ⟨done.1, quiet.trans done.2⟩
  rintro rows u ⟨kept, quiet'⟩
  exact ends_ofExcept_bind (fun _ => ends_pure ⟨kept, quiet.trans quiet'⟩)
    fun _ => ⟨kept, quiet.trans quiet'⟩

/-- What is noted about abandoned scopes does not matter for where connections are. -/
theorem Kept.noted (hk : Kept inside held s) (f : Abandoned → Abandoned) :
    Kept inside held (s.changeAbandoned n f) :=
  hk.moved (fun _ => Nat.le_refl _) rfl hk.clean

theorem ends_batch_quiet (h : server.Transactional inside plain) (hk : Kept inside held s)
    {command : ScopeCommand} (hc : command.action ≠ .begin ∨ 1 < command.depth) :
    ((link server codecs n).batch command).Ends s fun _ t =>
      Kept inside held t ∧ Quiet inside s t :=
  ends_ask_quiet h hk fun _ _ => h.batch_opens_none hc

theorem ends_discard (h : server.Transactional inside plain) (hk : Kept inside held s) :
    ((link server codecs n).discard depth).Ends s fun _ t =>
      Kept inside held t ∧ Quiet inside s t := by
  refine ends_progress_bind fun p hp => ?_
  subst hp
  split
  · exact ends_pure ⟨hk, fun _ => id⟩
  · refine Ends.andThen (ends_append ⟨rfl, rfl⟩) ?_
    refine (ends_batch_quiet h hk (.inl (by simp))).bind ?_ fun _ _ done => done
    rintro _ t ⟨kept, quiet⟩
    exact ends_changeState ⟨kept.noted _, quiet⟩

theorem ended_inner (hd : 1 < depth) : ended n depth s = s := if_neg (by omega)

theorem letGo_inner (hd : 1 < depth) : letGo n depth s = s.changeAbandoned n (·.abandon depth) :=
  if_neg (by omega)

/-- A transaction is opened on a connection that is held. If that fails the connection can be taken
again, and if the reply is lost it is left behind. -/
theorem ends_enter_transaction (h : server.Transactional inside plain)
    (hk : Kept inside (n :: held) s) (outside : ¬ inside s.server n) :
    ((link server codecs n).enter 1).Ends s fun r t =>
      match r with
      | .ok scope => scope = ⟨n, 1⟩ ∧ Kept inside (n :: held) t
      | .error _ => Kept inside held t := by
  have sent : ((link server codecs n).batch ⟨.begin, 1⟩).Ends s fun r t =>
      Kept inside (n :: held) t ∧ ∀ e, r = .error (.failed e) → ¬ inside t.server n := by
    refine ends_ask h hk fun t ht quiet => ⟨ht.on_server rfl fun m hm open_ => ?_, ?_⟩
    · rcases h.batch n m _ t.server open_ with before | ⟨rfl, -⟩
      · exact before
      · exact absurd hm (ht.not_mem_idle List.mem_cons_self)
    · intro e he open_
      obtain ⟨cause, refused⟩ := Reply.refused_of_outcome he
      exact outside (quiet n (h.not_inside_of_refused refused open_))
  have opened : (((link server codecs n).batch ⟨.begin, 1⟩).cleanUp (ended n 1) (letGo n 1)).Ends s
      fun r t => match r with
        | .ok _ => Kept inside (n :: held) t
        | .error _ => Kept inside held t :=
    sent.cleanUp (fun _ _ ht => ht.1) (fun e _ ht => ht.1.given_back (ht.2 e rfl))
      fun _ _ ht => ht.1.left_behind (Nat.le_refl 1)
  refine opened.bind ?_ fun _ _ kept => kept
  intro _ t ht
  exact ends_pure ⟨rfl, ht⟩

theorem ends_enter_savepoint (h : server.Transactional inside plain) (hk : Kept inside held s)
    (hd : 1 < depth) :
    ((link server codecs n).enter depth).Ends s fun r t =>
      Kept inside held t ∧ ∀ scope, r = .ok scope → scope.depth = depth := by
  have opened : (((link server codecs n).batch ⟨.begin, depth⟩).cleanUp (ended n depth)
      (letGo n depth)).Ends s fun _ t => Kept inside held t := by
    refine (ends_batch_quiet h hk (.inr hd)).cleanUp (fun _ _ done => done.1) ?_ ?_
    · intro e t ht
      rw [ended_inner hd]
      exact ht.1
    · intro level t ht
      rw [letGo_inner hd]
      exact ht.1.noted _
  refine opened.bind ?_ fun _ _ kept => ⟨kept, nofun⟩
  intro _ t ht
  exact ends_pure ⟨ht, by rintro _ ⟨⟩; rfl⟩

/-- However the end of a transaction goes, its connection can be taken again or is left behind. -/
theorem ends_finish_transaction (h : server.Transactional inside plain)
    (hk : Kept inside (n :: held) s) {action : ScopeAction} (ha : action ≠ .begin)
    (hd : depth ≤ 1) :
    ((link server codecs n).finish action depth).Ends s fun _ t => Kept inside held t := by
  have settled : (((link server codecs n).discard depth).cleanUp (letGo n depth)
      (letGo n depth)).Ends s fun r t => match r with
        | .ok _ => Kept inside (n :: held) t
        | .error _ => Kept inside held t :=
    (ends_discard h hk).cleanUp (fun _ _ ht => ht.1) (fun _ _ ht => ht.1.left_behind hd)
      fun _ _ ht => ht.1.left_behind hd
  refine settled.bind ?_ fun _ _ kept => kept
  intro _ t ht
  have sent : ((link server codecs n).batch ⟨action, depth⟩).Ends t fun _ u =>
      Kept inside (n :: held) u ∧ ¬ inside u.server n :=
    ends_ask h ht fun u hu _ =>
      ⟨hu.on_server rfl fun _ _ => h.batch_opens_none (.inl ha), h.not_inside_of_ends ha hd⟩
  have back {u : Line β Pool} (hu : Kept inside (n :: held) u ∧ ¬ inside u.server n) :
      Kept inside held (ended n depth u) := by
    rw [ended, if_pos hd]
    exact hu.1.given_back hu.2
  have done : (((link server codecs n).batch ⟨action, depth⟩).cleanUp (ended n depth)
      (letGo n depth)).Ends t fun r u => match r with
        | .ok _ => Kept inside (n :: held) u ∧ ¬ inside u.server n
        | .error _ => Kept inside held u :=
    sent.cleanUp (fun _ _ hu => hu) (fun _ _ hu => back hu) fun _ _ hu => hu.1.left_behind hd
  refine done.bind ?_ fun _ _ kept => kept
  intro _ u hu
  exact ends_changeState (back hu)

theorem ends_finish_savepoint (h : server.Transactional inside plain) (hk : Kept inside held s)
    {action : ScopeAction} (ha : action ≠ .begin) (hd : 1 < depth) :
    ((link server codecs n).finish action depth).Ends s fun _ t => Kept inside held t := by
  have noted {t : Line β Pool} (ht : Kept inside held t) : Kept inside held (letGo n depth t) := by
    rw [letGo_inner hd]
    exact ht.noted _
  have settled : (((link server codecs n).discard depth).cleanUp (letGo n depth)
      (letGo n depth)).Ends s fun _ t => Kept inside held t :=
    (ends_discard h hk).cleanUp (fun _ _ ht => ht.1) (fun _ _ ht => noted ht.1)
      fun _ _ ht => noted ht.1
  refine settled.bind ?_ fun _ _ kept => kept
  intro _ t ht
  have done : (((link server codecs n).batch ⟨action, depth⟩).cleanUp (ended n depth)
      (letGo n depth)).Ends t fun _ u => Kept inside held u := by
    refine (ends_batch_quiet h ht (.inl ha)).cleanUp (fun _ _ hu => hu.1) ?_ ?_
    · intro e u hu
      rw [ended_inner hd]
      exact hu.1
    · exact fun level u hu => noted hu.1
  refine done.bind ?_ fun _ _ kept => kept
  intro _ u hu
  refine ends_changeState ?_
  change Kept inside held (ended n depth u)
  rwa [ended_inner hd]

/-- A statement gives its connection back as it was. -/
theorem ends_execute (h : server.Transactional inside plain) (hk : Kept inside held s)
    {st : Statement} (hp : plain st.text) :
    (execute server codecs maxSize st).Ends s fun _ t => Kept inside held t := by
  refine (ends_take h hk).bind ?_ fun _ _ kept => kept
  rintro n t ⟨kept, outside⟩
  have back {u : Line β Pool} (hu : Kept inside (n :: held) u ∧ Quiet inside t u) :
      Kept inside held (giveBack n u) := hu.1.given_back fun open_ => outside (hu.2 n open_)
  have ran : (((link server codecs n).run st).cleanUp (giveBack n) (giveBack n)).Ends t fun r u =>
      match r with
      | .ok _ => Kept inside (n :: held) u ∧ Quiet inside t u
      | .error _ => Kept inside held u :=
    (ends_run h kept hp).cleanUp (fun _ _ hu => hu) (fun _ _ hu => back hu) fun _ _ hu => back hu
  refine ran.bind ?_ fun _ _ kept => kept
  intro result u hu
  exact Ends.andThen (ends_changeState ⟨rfl, rfl⟩) (ends_pure (back hu))

theorem ends_begin (h : server.Transactional inside plain) (hk : Kept inside held s) :
    (begin server codecs maxSize).Ends s fun r t =>
      match r with
      | .ok scope => scope.depth = 1 ∧ Kept inside (scope.connection :: held) t
      | .error _ => Kept inside held t := by
  refine (ends_take h hk).bind ?_ fun _ _ kept => kept
  rintro n t ⟨kept, outside⟩
  refine Ends.andThen (ends_changeState ⟨rfl, rfl⟩) ?_
  refine (ends_enter_transaction h (kept.noted _) outside).mono ?_
  rintro (e | scope) u hu
  · exact hu
  · obtain ⟨rfl, kept⟩ := hu
    exact ⟨rfl, kept⟩

def heldBy (live : List OpenScope) : List Nat :=
  (live.filter (·.depth ≤ 1)).map (·.connection)

structure Keeps (inside : β → Nat → Prop) (u : Usage (Line β Pool) OpenScope) : Prop where
  kept : Kept inside (heldBy u.live) u.progress.state
  depths : ∀ scope ∈ u.live, 1 ≤ scope.depth

section Live

variable {live : List OpenScope} {scope : OpenScope}

theorem heldBy_cons_transaction (hd : scope.depth ≤ 1) :
    heldBy (scope :: live) = scope.connection :: heldBy live := by
  rw [heldBy, List.filter_cons_of_pos (by simpa using hd), List.map_cons, heldBy]

theorem heldBy_cons_savepoint (hd : 1 < scope.depth) : heldBy (scope :: live) = heldBy live := by
  rw [heldBy, List.filter_cons_of_neg (by simpa using hd), heldBy]

theorem heldBy_perm {live' : List OpenScope} (h : live.Perm live') :
    (heldBy live).Perm (heldBy live') := (h.filter _).map _

/-- A handle that is used up gives up what it held. -/
theorem Kept.of_mem (hk : Kept inside (heldBy live) s) (held : scope ∈ live) :
    Kept inside (heldBy (scope :: live.erase scope)) s :=
  hk.of_perm (heldBy_perm (List.perm_cons_erase held))

end Live

def Begun (inside : β → Nat → Prop) (live : List OpenScope) :
    Except (Stop SqlError) OpenScope → Line β Pool → Prop
  | .ok scope, t => 1 ≤ scope.depth ∧ Kept inside (heldBy (scope :: live)) t
  | .error _, t => Kept inside (heldBy live) t

/-- Steps between two calls: time passes, connections that were left behind are rolled back in the
background, and it is decided anew which rollbacks take longer and whether anything can run in the
background. -/
inductive Background (server : Server β) :
    Usage (Line β Pool) OpenScope → Usage (Line β Pool) OpenScope → Prop where
  | elsewhere {u : Usage (Line β Pool) OpenScope} {p : Progress (Line β Pool)} :
      p.state = u.progress.state → Background server u ⟨p, u.live⟩
  | rollBack {u : Usage (Line β Pool) OpenScope} :
      Background server u ⟨((rollBackOrphans server).run u.progress).2, u.live⟩
  | reschedule {u : Usage (Line β Pool) OpenScope} (delays : List (List Nat)) (background : Bool) :
      Background server u ⟨{ u.progress with
        state := u.progress.state.keep fun p => { p with delays, background } }, u.live⟩

variable {u v : Usage (Line β Pool) OpenScope} {c : Call OpenScope}

namespace Keeps

theorem erase (hu : Keeps inside u) {scope : OpenScope} {p : Progress (Line β Pool)}
    (hp : Kept inside (heldBy (u.live.erase scope)) p.state) :
    Keeps inside ⟨p, u.live.erase scope⟩ :=
  ⟨hp, fun other ho => hu.depths other (List.mem_of_mem_erase ho)⟩

theorem begun (hu : Keeps inside u) {p : Progress (Line β Pool)}
    {r : Except (Stop SqlError) OpenScope} (hr : Begun inside u.live r p.state) :
    Keeps inside ⟨p, r.toOption.toList ++ u.live⟩ := by
  cases r with
  | error e => exact ⟨hr, hu.depths⟩
  | ok scope => exact ⟨hr.2, List.forall_mem_cons.mpr ⟨hr.1, hu.depths⟩⟩

/-- The scope of a handle is ended by a command. -/
theorem finish (h : server.Transactional inside plain) (hu : Keeps inside u) {scope : OpenScope}
    (held : scope ∈ u.live) {action : ScopeAction} (ha : action ≠ .begin) :
    Keeps inside ⟨(((link server codecs scope.connection).finish action scope.depth).run
      u.progress).2, u.live.erase scope⟩ := by
  have kept := hu.kept.of_mem held
  apply hu.erase
  rcases Nat.lt_or_ge 1 scope.depth with inner | outermost
  · rw [heldBy_cons_savepoint inner] at kept
    exact ends_finish_savepoint h kept ha inner u.progress rfl
  · rw [heldBy_cons_transaction outermost] at kept
    exact ends_finish_transaction h kept ha outermost u.progress rfl

theorem perform (h : server.Transactional inside plain) (hu : Keeps inside u)
    (hc : c.Legal plain u.live) : Keeps inside ((driver server codecs maxSize).perform u c) := by
  cases c with
  | execute scope st =>
    have text : plain st.text := hc.plain st rfl
    cases scope with
    | none => exact ⟨ends_execute h hu.kept text u.progress rfl, hu.depths⟩
    | some scope =>
      have ran : ((link server codecs scope.connection).execute scope.depth st).Ends
          u.progress.state fun _ t => Kept inside (heldBy u.live) t := by
        refine (ends_discard h hu.kept).bind ?_ fun _ _ done => done.1
        intro _ t ht
        exact (ends_run h ht.1 text).mono fun _ _ done => done.1
      exact ⟨ran u.progress rfl, hu.depths⟩
  | begin scope =>
    cases scope with
    | none =>
      have began : (begin server codecs maxSize).Ends u.progress.state (Begun inside u.live) := by
        refine (ends_begin h hu.kept).mono ?_
        rintro (e | scope) t ht
        · exact ht
        · obtain ⟨outermost, kept⟩ := ht
          refine ⟨Nat.le_of_eq outermost.symm, ?_⟩
          rwa [heldBy_cons_transaction (Nat.le_of_eq outermost)]
      exact hu.begun (began u.progress rfl)
    | some scope =>
      have deep := hu.depths scope (hc.held scope rfl)
      have entered : ((link server codecs scope.connection).enterInside scope.depth).Ends
          u.progress.state (Begun inside u.live) := by
        refine (ends_discard h hu.kept).bind ?_ fun _ _ done => done.1
        intro _ t ht
        refine (ends_enter_savepoint h ht.1 (Nat.lt_succ_of_le deep)).mono ?_
        rintro (e | inner) v ⟨kept, depth⟩
        · exact kept
        · have deeper : 1 < inner.depth := by rw [depth inner rfl]; omega
          exact ⟨Nat.le_of_lt deeper, by rwa [heldBy_cons_savepoint deeper]⟩
      exact hu.begun (entered u.progress rfl)
  | commit scope => exact hu.finish h (hc.held scope rfl) nofun
  | rollback scope => exact hu.finish h (hc.held scope rfl) nofun
  | drop scope =>
    have kept := hu.kept.of_mem (hc.held scope rfl)
    apply hu.erase
    rcases Nat.lt_or_ge 1 scope.depth with inner | outermost
    · rw [heldBy_cons_savepoint inner] at kept
      change Kept inside _ (letGo scope.connection scope.depth u.progress.state)
      rw [letGo_inner inner]
      exact kept.noted _
    · rw [heldBy_cons_transaction outermost] at kept
      exact kept.left_behind outermost

theorem background (h : server.Transactional inside plain) (hu : Keeps inside u)
    (hb : Background server u v) : Keeps inside v := by
  cases hb with
  | elsewhere same => exact ⟨by rw [same]; exact hu.kept, hu.depths⟩
  | rollBack => exact ⟨(ends_rollBackOrphans h hu.kept u.progress rfl).2.1, hu.depths⟩
  | reschedule delays background =>
    exact ⟨hu.kept.moved (fun _ => Nat.le_refl _) rfl hu.kept.clean, hu.depths⟩

end Keeps

theorem keeps_of_reaches (h : server.Transactional inside plain) {b : β}
    (hu : (driver server codecs maxSize).Reaches plain (Background server) (Pool.start b) u) :
    Keeps inside u := by
  induction hu with
  | start p hp =>
    refine ⟨?_, nofun⟩
    rw [hp]
    exact ⟨fun _ => Nat.zero_le 1, fun _ _ => rfl, nofun⟩
  | call _ legal ih => exact ih.perform h legal
  | between _ step ih => exact ih.background h step

/-- In every run over a pool, with replies lost and requests refused anywhere, rollbacks that take
however long, and times when none can run: the server is outside of any transaction on each
connection that waits to be taken, and on one that is taken. -/
theorem available_connections_are_outside (h : server.Transactional inside plain)
    (codecs : Wire.Codecs) (maxSize : Nat) {b : β}
    (hu : (driver server codecs maxSize).Reaches plain (Background server) (Pool.start b) u) :
    (∀ n ∈ u.progress.state.keeping.idle, ¬ inside u.progress.state.server n) ∧
      ∀ n p, (take server maxSize).run u.progress = (.ok n, p) → ¬ inside p.state.server n := by
  have keeps := keeps_of_reaches h hu
  refine ⟨keeps.kept.clean, fun n p hp => ?_⟩
  have takes : (take server maxSize).Ends u.progress.state fun r t =>
      match r with
      | .ok n => Kept inside (n :: heldBy u.live) t ∧ ¬ inside t.server n
      | .error _ => Kept inside (heldBy u.live) t := ends_take h keeps.kept
  have taken := takes u.progress rfl
  rw [hp] at taken
  exact taken.2

/-- The reply to a `COMMIT` is lost: the connection is left behind, rolled back in the background,
and waits to be taken. -/
theorem available_connections_are_outside_lost :
    ∃ u : Usage (Line (List Nat) Pool) OpenScope,
      (driver Server.losingCommits ⟨[], .text⟩ 1).Reaches (· ≠ "BEGIN")
          (Background Server.losingCommits) (start []) u ∧
        u.progress.state.keeping.idle = [0] ∧ 0 ∉ u.progress.state.server := by
  let d := driver Server.losingCommits ⟨[], .text⟩ 1
  let begun := d.perform (.new (start [])) (.begin none)
  let left := d.perform begun (.commit ⟨0, 1⟩)
  let settled : Usage (Line (List Nat) Pool) OpenScope :=
    ⟨((rollBackOrphans Server.losingCommits).run left.progress).2, left.live⟩
  have first : (Call.begin none : Call OpenScope).Legal (· ≠ "BEGIN") [] := ⟨nofun, nofun⟩
  have live : begun.live = [⟨0, 1⟩] := by decide +kernel
  have second : (Call.commit ⟨0, 1⟩ : Call OpenScope).Legal (· ≠ "BEGIN") begun.live :=
    ⟨by rintro _ ⟨⟩; rw [live]; exact List.mem_singleton_self _, nofun⟩
  have reached : d.Reaches (· ≠ "BEGIN") (Background Server.losingCommits) (start []) settled :=
    .between (.call (.call (.start _ rfl) first) second) .rollBack
  obtain ⟨outside, -⟩ :=
    available_connections_are_outside Server.transactional_losingCommits ⟨[], .text⟩ 1 reached
  have idle : settled.progress.state.keeping.idle = [0] := by decide +kernel
  exact ⟨settled, reached, idle, outside 0 (by rw [idle]; exact List.mem_singleton_self 0)⟩

end Pool

end SqlClient
