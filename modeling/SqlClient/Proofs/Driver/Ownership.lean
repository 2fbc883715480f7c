import Mathlib.Data.List.Count
import SqlClient.Proofs.Driver.Requests
import SqlClient.Proofs.Driver.Runs
/-!
# Who owns the connection

Over one connection, whatever calls are made on the driver and on its handles and wherever they are
dropped: the connection is owned exactly while the handle of a transaction is held or one is being
opened; the driver refuses calls meanwhile; and its own statements run outside of any transaction.

How things stand while an answer is awaited is told by an onlooker, who goes on at those moments in
place of nothing.
-/
namespace SqlClient

open SqlClient.Sql

namespace Act

variable {σ ε α β : Type} {s : σ} {a b : Act σ ε α} {post mid : Except (Stop ε) α → σ → Prop}

/-- Started in `s`, the two do the same and come to a result and a state as `post` says. -/
def Agree (a b : Act σ ε α) (s : σ) (post : Except (Stop ε) α → σ → Prop) : Prop :=
  ∀ p : Progress σ, p.state = s → a.run p = b.run p ∧ post (b.run p).1 (b.run p).2.state

theorem Ends.agree (h : b.Ends s post) : b.Agree b s post := fun p hp => ⟨rfl, h p hp⟩

theorem Agree.mono (h : a.Agree b s mid) (hm : ∀ r t, mid r t → post r t) : a.Agree b s post :=
  fun p hp => ⟨(h p hp).1, hm _ _ (h p hp).2⟩

theorem Agree.bind {f g : α → Act σ ε β} {post : Except (Stop ε) β → σ → Prop}
    (h : a.Agree b s mid) (hok : ∀ x t, mid (.ok x) t → (f x).Agree (g x) t post)
    (herror : ∀ e t, mid (.error e) t → post (.error e) t) :
    (a >>= f).Agree (b >>= g) s post := by
  intro p hp
  obtain ⟨same, hm⟩ := h p hp
  rw [run_bind, run_bind, same]
  cases hr : b.run p with
  | mk r q =>
    rw [hr] at hm
    cases r with
    | ok x => exact hok x q.state hm q rfl
    | error e => exact ⟨rfl, herror e q.state hm⟩

theorem Agree.cleanUp {onFailure onDrop : σ → σ} (h : a.Agree b s mid)
    (hok : ∀ x t, mid (.ok x) t → post (.ok x) t)
    (hfailed : ∀ e t, mid (.error (.failed e)) t → post (.error (.failed e)) (onFailure t))
    (hdropped : ∀ l t, mid (.error (.dropped l)) t → post (.error (.dropped l)) (onDrop t)) :
    (a.cleanUp onFailure onDrop).Agree (b.cleanUp onFailure onDrop) s post := by
  intro p hp
  have ends : b.Ends s mid := fun p hp => (h p hp).2
  refine ⟨?_, ends.cleanUp hok hfailed hdropped p hp⟩
  simp only [run, Act.cleanUp, ofRun]
  have same : a p = b p := (h p hp).1
  rw [same]

section Prefix

variable {c : Act σ ε α} {f g : α → Act σ ε β} {post : Except (Stop ε) β → σ → Prop}

theorem Ends.agree_andThen {x : α} {t : σ} (h : c.Ends s fun r u => r = .ok x ∧ u = t)
    (hf : (f x).Agree (g x) t post) : (c >>= f).Agree (c >>= g) s post := by
  refine h.agree.bind ?_ ?_
  · rintro y u ⟨hr, rfl⟩
    cases hr
    exact hf
  · rintro e u ⟨hr, -⟩
    cases hr

theorem Ends.agree_stop {e : Stop ε} (h : c.Ends s fun r u => r = .error e ∧ u = s)
    (hp : post (.error e) s) : (c >>= f).Agree (c >>= g) s post := by
  refine h.agree.bind ?_ ?_
  · rintro y u ⟨hr, -⟩
    cases hr
  · rintro _ u ⟨hr, rfl⟩
    cases hr
    exact hp

theorem agree_ofExcept_bind {x : Except ε α} (hok : ∀ y, (f y).Agree (g y) s post)
    (herror : ∀ e, post (.error (.failed e)) s) :
    (ofExcept x >>= f).Agree (ofExcept x >>= g) s post := by
  cases x with
  | ok y => exact hok y
  | error e => exact Ends.agree_stop (ends_fail ⟨rfl, rfl⟩) (herror e)

end Prefix

theorem agree_progress_bind {f g : Progress σ → Act σ ε α}
    (h : ∀ p : Progress σ, p.state = s → (f p).Agree (g p) s post) :
    (progress >>= f).Agree (progress >>= g) s post := by
  intro p hp
  rw [run_bind, run_bind]
  exact h p hp p hp

end Act

namespace Exclusive

open Act

variable {β α : Type}

def watched (server : Server β) (codecs : Wire.Codecs)
    (look : Act (Line β Ownership) SqlError Unit) : Link β Ownership :=
  { link server codecs with meanwhile := look }

def driverOn (l : Link β Ownership) : Driver (Line β Ownership) OpenScope :=
  { execute := fun scope s => do
      match scope with
      | none => requireFree; l.execute 0 s
      | some scope => l.execute scope.depth s
    begin := fun scope =>
      match scope with
      | none => begin l
      | some scope => l.enterInside scope.depth
    commit := fun scope => l.finish .commit scope.depth
    rollback := fun scope => l.finish .rollback scope.depth
    drop := fun scope p => { p with state := letGo scope.depth p.state } }

theorem driverOn_link (server : Server β) (codecs : Wire.Codecs) :
    driverOn (link server codecs) = driver server codecs := rfl

section States

variable {inside : β → Nat → Prop} {s t u : Line β Ownership} {depth d : Nat}

/-- No transaction has been opened, and a transaction that is marked as abandoned still is. -/
structure Calm (inside : β → Nat → Prop) (s t : Line β Ownership) : Prop where
  owned : t.keeping.owned = s.keeping.owned
  opened : inside t.server 0 → inside s.server 0
  marked : (s.abandoned 0).shallowest = some 1 → (t.abandoned 0).shallowest = some 1
  deep : (s.abandoned 0).shallowest ≠ some 0 → (t.abandoned 0).shallowest ≠ some 0

/-- The connection has been given back. A transaction that is still open on it is marked as
abandoned. -/
structure Free (inside : β → Nat → Prop) (s : Line β Ownership) : Prop where
  owned : s.keeping.owned = false
  marked : inside s.server 0 → (s.abandoned 0).shallowest = some 1
  deep : (s.abandoned 0).shallowest ≠ some 0

theorem Calm.refl (s : Line β Ownership) : Calm inside s s := ⟨rfl, id, id, id⟩

theorem Calm.trans (h : Calm inside s t) (h' : Calm inside t u) : Calm inside s u where
  owned := h'.owned.trans h.owned
  opened hu := h.opened (h'.opened hu)
  marked hs := h'.marked (h.marked hs)
  deep hs := h'.deep (h.deep hs)

/-- Discarding a savepoint leaves the mark of a transaction. -/
theorem Calm.settle (hd : 1 < d) (h : Calm inside s t) :
    Calm inside s (t.changeAbandoned 0 (·.settle d)) where
  owned := h.owned
  opened := h.opened
  marked hs := by
    have other : ¬ some 1 = some d := by rw [Option.some.injEq]; omega
    simp [Line.changeAbandoned, Abandoned.settle, h.marked hs, other]
  deep hs := by
    have kept := h.deep hs
    simp only [Line.changeAbandoned, Abandoned.settle, if_true]
    split
    · exact (Option.some_ne_none 0).symm
    · exact kept

theorem below?_eq_some {a : Abandoned} : a.below? depth = some d ↔
    a.shallowest = some d ∧ depth < d := by
  rw [Abandoned.below?, Option.filter_eq_some_iff, decide_eq_true_eq]

theorem shallowest_abandon_one {a : Abandoned} (h : a.shallowest ≠ some 0) :
    (a.abandon 1).shallowest = some 1 := by
  obtain ⟨_ | d⟩ := a
  · rfl
  · have positive : d ≠ 0 := fun hd => h (congrArg some hd)
    simp only [Abandoned.abandon]
    split
    · rfl
    · exact congrArg some (by omega)

/-- Letting go of a savepoint changes nothing for the transaction around it. -/
theorem calm_letGo (hd : 1 < depth) (s : Line β Ownership) : Calm inside s (letGo depth s) := by
  have inner : ¬ depth ≤ 1 := by omega
  rw [letGo, ended, if_neg inner]
  refine ⟨rfl, id, fun hs => ?_, fun hs => ?_⟩
  · simp only [Line.changeAbandoned, if_true, Abandoned.abandon, hs]
    rw [if_neg (by omega), hs]
  · simp only [Line.changeAbandoned, if_true, Abandoned.abandon]
    split
    · exact fun he => by cases he; omega
    · split
      · exact fun he => by cases he; omega
      · exact hs

theorem ended_inner (hd : 1 < depth) (s : Line β Ownership) : ended depth s = s :=
  if_neg (by omega)

/-- Letting go of a transaction gives the connection back with a mark. -/
theorem free_letGo (h : (s.abandoned 0).shallowest ≠ some 0) : Free inside (letGo 1 s) := by
  have mark : ((letGo 1 s).abandoned 0).shallowest = some 1 := shallowest_abandon_one h
  refine ⟨rfl, fun _ => mark, ?_⟩
  rw [mark]
  nofun

/-- Over a connection that is outside of any transaction, nothing needs to be marked. -/
theorem free_of_outside (hi : ¬ inside s.server 0) (h : (s.abandoned 0).shallowest ≠ some 0) :
    Free inside (setOwned false s) := ⟨rfl, fun open_ => absurd open_ hi, h⟩

end States

section Functions

variable {server : Server β} (codecs : Wire.Codecs) {inside : β → Nat → Prop}
  {plain : String → Prop} {look : Act (Line β Ownership) SqlError Unit} {owned : Bool} {own : Prop}
  {s : Line β Ownership} {depth : Nat}

/-- The onlooker does nothing as long as ownership is as expected and the driver's `own` requests
reach the server outside of any transaction, but for the one that ends a leftover. -/
def Passes (inside : β → Nat → Prop) (owned : Bool) (own : Prop)
    (look : Act (Line β Ownership) SqlError Unit) : Prop :=
  ∀ p, p.state.keeping.owned = owned →
    (own → inside p.state.server 0 → p.log.getLast? = some (.request 0 (.batch ⟨.discard, 1⟩))) →
    look.run p = (.ok (), p)

theorem agree_ask {request : Request} {f : β → Reply α × β}
    {post : Except (Stop SqlError) α → Line β Ownership → Prop}
    (passes : Passes inside owned own look) (hs : s.keeping.owned = owned)
    (ho : own → inside s.server 0 → request = .batch ⟨.discard, 1⟩)
    (h : post (f s.server).1.outcome { s with server := (f s.server).2 }) :
    ((watched server codecs look).ask request f).Agree ((link server codecs).ask request f) s
      post := by
  intro p hp
  refine ⟨?_, ends_ask h p hp⟩
  subst hp
  have pass := passes { p with log := p.log ++ [.request 0 request] } hs fun hown open_ => by
    rw [ho hown open_]
    exact List.getLast?_concat
  have passed (k : Unit → Act (Line β Ownership) SqlError α) :
      (look >>= k).run { p with log := p.log ++ [.request 0 request] } =
        (k ()).run { p with log := p.log ++ [.request 0 request] } := by
    rw [run_bind, pass]
  rw [Link.ask, Link.ask, run_bind, run_bind]
  exact passed _

theorem calm_ask {request : Request} {f : β → Reply α × β} (passes : Passes inside owned own look)
    (hs : s.keeping.owned = owned)
    (ho : own → inside s.server 0 → request = .batch ⟨.discard, 1⟩)
    (opened : inside (f s.server).2 0 → inside s.server 0) :
    ((watched server codecs look).ask request f).Agree ((link server codecs).ask request f) s
      fun _ t => Calm inside s t :=
  agree_ask codecs passes hs ho ⟨rfl, opened, id, id⟩

/-- A statement opens no transaction; where it is the driver's own it needs to find none. -/
theorem calm_run (h : server.Transactional inside plain) (passes : Passes inside owned own look)
    {st : Statement} (hp : plain st.text) (hs : s.keeping.owned = owned)
    (ho : own → ¬ inside s.server 0) :
    ((watched server codecs look).run st).Agree ((link server codecs).run st) s
      fun _ t => Calm inside s t := by
  have prepared : ((watched server codecs look).ask (.prepare st.text)
      (server.prepare 0 st.text)).Agree ((link server codecs).ask (.prepare st.text)
        (server.prepare 0 st.text)) s fun _ t => Calm inside s t :=
    calm_ask codecs passes hs (fun hown open_ => absurd open_ (ho hown))
      (h.prepare 0 0 st.text s.server)
  refine prepared.bind ?_ fun _ _ calm => calm
  intro columns t ht
  refine agree_ofExcept_bind (fun params => ?_) fun _ => ht
  have outside : own → ¬ inside t.server 0 := fun hown open_ => ho hown (ht.opened open_)
  have executed : ((watched server codecs look).ask (.execute params)
      (server.execute 0 st.text params)).Agree ((link server codecs).ask (.execute params)
        (server.execute 0 st.text params)) t fun _ u => Calm inside t u :=
    calm_ask codecs passes (ht.owned.trans hs) (fun hown open_ => absurd open_ (outside hown))
      (h.execute 0 0 st.text params t.server hp)
  refine executed.bind ?_ fun _ _ calm => ht.trans calm
  intro rows u hu
  refine agree_ofExcept_bind (fun decoded => ?_) fun _ => ht.trans hu
  exact Ends.agree (ends_pure (ht.trans hu))

theorem agree_batch {command : ScopeCommand}
    {post : Except (Stop SqlError) Unit → Line β Ownership → Prop}
    (passes : Passes inside owned own look) (hs : s.keeping.owned = owned)
    (ho : own → inside s.server 0 → command = ⟨.discard, 1⟩)
    (h : post (server.batch 0 command s.server).1.outcome
      { s with server := (server.batch 0 command s.server).2 }) :
    ((watched server codecs look).batch command).Agree ((link server codecs).batch command) s
      post :=
  agree_ask codecs passes hs (fun hown open_ => congrArg Request.batch (ho hown open_)) h

theorem calm_batch (h : server.Transactional inside plain) (passes : Passes inside owned own look)
    {command : ScopeCommand} (hs : s.keeping.owned = owned) (hown : ¬ own)
    (hc : command.action ≠ .begin ∨ 1 < command.depth) :
    ((watched server codecs look).batch command).Agree ((link server codecs).batch command) s
      fun _ t => Calm inside s t :=
  agree_batch codecs passes hs (fun own => absurd own hown) ⟨rfl, h.batch_opens_none hc, id, id⟩

theorem agree_discard {post : Except (Stop SqlError) Unit → Line β Ownership → Prop}
    (nothing : (s.abandoned 0).below? depth = none → post (.ok ()) s)
    (sent : ∀ d, (s.abandoned 0).below? depth = some d →
      ((watched server codecs look).batch ⟨.discard, d⟩).Agree
        ((link server codecs).batch ⟨.discard, d⟩) s fun r t =>
          match r with
          | .ok () => post (.ok ()) (t.changeAbandoned 0 (·.settle d))
          | .error e => post (.error e) t) :
    ((watched server codecs look).discard depth).Agree ((link server codecs).discard depth) s
      post := by
  refine agree_progress_bind fun p hp => ?_
  have left : (p.state.abandoned (link server codecs).connection).below? depth =
      (s.abandoned 0).below? depth := by rw [hp]; rfl
  have left' : (p.state.abandoned (watched server codecs look).connection).below? depth =
      (s.abandoned 0).below? depth := left
  simp only [left, left']
  cases hb : (s.abandoned 0).below? depth with
  | none => exact Ends.agree (ends_pure (nothing hb))
  | some d =>
    refine Ends.agree_andThen (ends_append ⟨rfl, rfl⟩)
      ((sent d hb).bind ?_ fun _ _ stopped => stopped)
    intro _ t ht
    exact Ends.agree (ends_changeState ht)

/-- Inside a transaction only savepoints are discarded. -/
theorem calm_discard (h : server.Transactional inside plain) (passes : Passes inside owned own look)
    (hs : s.keeping.owned = owned) (hown : ¬ own) (hd : 1 ≤ depth) :
    ((watched server codecs look).discard depth).Agree ((link server codecs).discard depth) s
      fun _ t => Calm inside s t := by
  refine agree_discard codecs (fun _ => Calm.refl s) fun d hb => ?_
  have deeper : 1 < d := Nat.lt_of_le_of_lt hd (below?_eq_some.mp hb).2
  refine (calm_batch codecs h passes hs hown (.inl (by simp))).mono ?_
  rintro (e | _) t ht
  · exact ht
  · exact ht.settle deeper

/-- On the bare connection what was left over is ended first, whatever the server answers. -/
theorem agree_discard_leftover (h : server.Transactional inside plain)
    (passes : Passes inside owned own look) (hs : s.keeping.owned = owned)
    (marked : inside s.server 0 → (s.abandoned 0).shallowest = some 1)
    (deep : (s.abandoned 0).shallowest ≠ some 0) :
    ((watched server codecs look).discard 0).Agree ((link server codecs).discard 0) s fun _ t =>
      t.keeping = s.keeping ∧ ¬ inside t.server 0 ∧ (t.abandoned 0).shallowest ≠ some 0 := by
  refine agree_discard codecs (fun hb => ⟨rfl, fun open_ => ?_, deep⟩) fun d hb => ?_
  · have left : (s.abandoned 0).below? 0 = some 1 := below?_eq_some.mpr ⟨marked open_, Nat.one_pos⟩
    rw [hb] at left
    cases left
  · obtain ⟨here, -⟩ := below?_eq_some.mp hb
    have outermost (open_ : inside s.server 0) : d = 1 :=
      Option.some.inj (here.symm.trans (marked open_))
    have ended : ¬ inside (server.batch 0 ⟨.discard, d⟩ s.server).2 0 := by
      intro open_
      have before := h.batch_opens_none (.inl (by simp)) open_
      exact h.not_inside_of_ends (by decide) (Nat.le_of_eq (outermost before)) open_
    refine agree_batch codecs passes hs (fun _ open_ => by rw [outermost open_]) ?_
    cases (server.batch 0 ⟨.discard, d⟩ s.server).1.outcome with
    | error e => exact ⟨rfl, ended, deep⟩
    | ok _ =>
      refine ⟨rfl, ended, ?_⟩
      simp [Line.changeAbandoned, Abandoned.settle, here, Abandoned.none]

/-- A savepoint is opened, or not, without a change for the transaction. -/
theorem calm_enter (h : server.Transactional inside plain) (passes : Passes inside owned own look)
    (hs : s.keeping.owned = owned) (hown : ¬ own) (hd : 1 < depth) :
    ((watched server codecs look).enter depth).Agree ((link server codecs).enter depth) s
      fun r t => Calm inside s t ∧ ∀ scope, r = .ok scope → scope.depth = depth := by
  have opened : (((watched server codecs look).batch ⟨.begin, depth⟩).cleanUp (ended depth)
      (letGo depth)).Agree (((link server codecs).batch ⟨.begin, depth⟩).cleanUp (ended depth)
        (letGo depth)) s fun _ t => Calm inside s t := by
    refine (calm_batch codecs h passes hs hown (.inr hd)).cleanUp (fun _ _ calm => calm) ?_ ?_
    · intro e t ht
      rwa [ended_inner hd t]
    · intro level t ht
      exact ht.trans (calm_letGo hd t)
  refine opened.bind ?_ fun e t ht => ⟨ht, nofun⟩
  intro _ t ht
  exact Ends.agree (ends_pure ⟨ht, by rintro _ ⟨⟩; rfl⟩)

/-- A transaction is opened on a connection that is outside of any. -/
theorem agree_enter_transaction (h : server.Transactional inside plain)
    (passes : Passes inside true own look) (hs : s.keeping.owned = true)
    (outside : ¬ inside s.server 0) (deep : (s.abandoned 0).shallowest ≠ some 0) :
    ((watched server codecs look).enter 1).Agree ((link server codecs).enter 1) s fun r t =>
      match r with
      | .ok scope => scope.depth = 1 ∧ t.keeping.owned = true ∧ (t.abandoned 0).shallowest ≠ some 0
      | .error _ => Free inside t := by
  have sent : ((watched server codecs look).batch ⟨.begin, 1⟩).Agree
      ((link server codecs).batch ⟨.begin, 1⟩) s fun r t =>
        t.keeping.owned = true ∧ (t.abandoned 0).shallowest ≠ some 0 ∧
          ∀ e, r = .error (.failed e) → ¬ inside t.server 0 := by
    refine agree_batch codecs passes hs (fun _ open_ => absurd open_ outside) ⟨hs, deep, ?_⟩
    intro e he open_
    obtain ⟨cause, refused⟩ := Reply.refused_of_outcome he
    exact outside (h.not_inside_of_refused refused open_)
  have opened : (((watched server codecs look).batch ⟨.begin, 1⟩).cleanUp (ended 1)
      (letGo 1)).Agree (((link server codecs).batch ⟨.begin, 1⟩).cleanUp (ended 1) (letGo 1)) s
        fun r t => match r with
          | .ok _ => t.keeping.owned = true ∧ (t.abandoned 0).shallowest ≠ some 0
          | .error _ => Free inside t := by
    refine sent.cleanUp (fun _ t ht => ⟨ht.1, ht.2.1⟩) ?_ ?_
    · intro e t ht
      exact free_of_outside (ht.2.2 e rfl) ht.2.1
    · intro level t ht
      exact free_letGo ht.2.1
  refine opened.bind ?_ fun e t ht => ht
  intro _ t ht
  exact Ends.agree (ends_pure ⟨rfl, ht⟩)

/-- Ending a savepoint changes nothing for the transaction around it. -/
theorem calm_finish (h : server.Transactional inside plain) (passes : Passes inside owned own look)
    {action : ScopeAction} (ha : action ≠ .begin) (hs : s.keeping.owned = owned) (hown : ¬ own)
    (hd : 1 < depth) :
    ((watched server codecs look).finish action depth).Agree
      ((link server codecs).finish action depth) s fun _ t => Calm inside s t := by
  have settled : (((watched server codecs look).discard depth).cleanUp (letGo depth)
      (letGo depth)).Agree (((link server codecs).discard depth).cleanUp (letGo depth)
        (letGo depth)) s fun _ t => Calm inside s t :=
    (calm_discard codecs h passes hs hown (Nat.le_of_lt hd)).cleanUp (fun _ _ calm => calm)
      (fun _ t ht => ht.trans (calm_letGo hd t)) fun _ t ht => ht.trans (calm_letGo hd t)
  refine settled.bind ?_ fun _ _ calm => calm
  intro _ t ht
  have ended : (((watched server codecs look).batch ⟨action, depth⟩).cleanUp (ended depth)
      (letGo depth)).Agree (((link server codecs).batch ⟨action, depth⟩).cleanUp (ended depth)
        (letGo depth)) t fun _ u => Calm inside t u := by
    refine (calm_batch codecs h passes (ht.owned.trans hs) hown (.inl ha)).cleanUp
      (fun _ _ calm => calm) ?_ fun _ u hu => hu.trans (calm_letGo hd u)
    intro e u hu
    rwa [ended_inner hd u]
  refine ended.bind ?_ fun _ _ calm => ht.trans calm
  intro _ u hu
  refine Ends.agree (ends_changeState ?_)
  change Calm inside s (Exclusive.ended depth u)
  rw [ended_inner hd u]
  exact ht.trans hu

/-- Ending a transaction gives the connection back, however it goes. -/
theorem free_finish (h : server.Transactional inside plain) (passes : Passes inside owned own look)
    {action : ScopeAction} (ha : action ≠ .begin) (hs : s.keeping.owned = owned) (hown : ¬ own)
    (deep : (s.abandoned 0).shallowest ≠ some 0) :
    ((watched server codecs look).finish action 1).Agree ((link server codecs).finish action 1) s
      fun _ t => Free inside t := by
  have settled : (((watched server codecs look).discard 1).cleanUp (letGo 1) (letGo 1)).Agree
      (((link server codecs).discard 1).cleanUp (letGo 1) (letGo 1)) s fun r t =>
        match r with
        | .ok _ => Calm inside s t
        | .error _ => Free inside t :=
    (calm_discard codecs h passes hs hown (Nat.le_refl 1)).cleanUp (fun _ _ calm => calm)
      (fun _ _ ht => free_letGo (ht.deep deep)) fun _ _ ht => free_letGo (ht.deep deep)
  refine settled.bind ?_ fun _ _ free => free
  intro _ t ht
  have outside : ¬ inside (server.batch 0 ⟨action, 1⟩ t.server).2 0 :=
    h.not_inside_of_ends ha (Nat.le_refl 1)
  have sent : ((watched server codecs look).batch ⟨action, 1⟩).Agree
      ((link server codecs).batch ⟨action, 1⟩) t fun _ u =>
        ¬ inside u.server 0 ∧ (u.abandoned 0).shallowest ≠ some 0 :=
    agree_batch codecs passes (ht.owned.trans hs) (fun own => absurd own hown)
      ⟨outside, ht.deep deep⟩
  have ended : (((watched server codecs look).batch ⟨action, 1⟩).cleanUp (ended 1)
      (letGo 1)).Agree (((link server codecs).batch ⟨action, 1⟩).cleanUp (ended 1) (letGo 1)) t
        fun r u => match r with
          | .ok _ => ¬ inside u.server 0 ∧ (u.abandoned 0).shallowest ≠ some 0
          | .error _ => Free inside u :=
    sent.cleanUp (fun _ _ done => done) (fun _ _ hu => free_of_outside hu.1 hu.2)
      fun _ _ hu => free_letGo hu.2
  refine ended.bind ?_ fun _ _ free => free
  intro _ u hu
  exact Ends.agree (ends_changeState (free_of_outside hu.1 hu.2))

theorem calm_execute (h : server.Transactional inside plain) (passes : Passes inside owned own look)
    {st : Statement} (hp : plain st.text) (hs : s.keeping.owned = owned) (hown : ¬ own)
    (hd : 1 ≤ depth) :
    ((watched server codecs look).execute depth st).Agree ((link server codecs).execute depth st) s
      fun _ t => Calm inside s t := by
  refine (calm_discard codecs h passes hs hown hd).bind ?_ fun _ _ calm => calm
  intro _ t ht
  have ran := calm_run codecs h passes hp (ht.owned.trans hs) fun own => absurd own hown
  exact ran.mono fun _ _ hu => ht.trans hu

theorem calm_enterInside (h : server.Transactional inside plain)
    (passes : Passes inside owned own look) (hs : s.keeping.owned = owned) (hown : ¬ own)
    (hd : 1 ≤ depth) :
    ((watched server codecs look).enterInside depth).Agree ((link server codecs).enterInside depth)
      s fun r t => Calm inside s t ∧ ∀ scope, r = .ok scope → scope.depth = depth + 1 := by
  refine (calm_discard codecs h passes hs hown hd).bind ?_ fun _ _ calm => ⟨calm, nofun⟩
  intro _ t ht
  refine (calm_enter codecs h passes (ht.owned.trans hs) hown (Nat.lt_succ_of_le hd)).mono ?_
  exact fun _ _ hu => ⟨ht.trans hu.1, hu.2⟩

/-- Refused, and nothing is sent. -/
theorem run_execute_owned (l : Link β Ownership) {p : Progress (Line β Ownership)}
    (hp : p.state.keeping.owned = true) (st : Statement) :
    ((driverOn l).execute none st).run p = (.error (.failed pinned), p) := by
  change (requireFree >>= fun _ => l.execute 0 st).run p = _
  rw [run_bind, run_requireFree, if_pos hp]

theorem run_begin_owned (l : Link β Ownership) {p : Progress (Line β Ownership)}
    (hp : p.state.keeping.owned = true) :
    ((driverOn l).begin none).run p = (.error (.failed pinned), p) := by
  change (requireFree >>= _).run p = _
  rw [run_bind, run_requireFree, if_pos hp]

/-- A statement of the driver's own runs after what was left over has been ended. -/
theorem free_execute (h : server.Transactional inside plain) (passes : Passes inside false own look)
    {st : Statement} (hp : plain st.text) (hs : Free inside s) :
    ((driverOn (watched server codecs look)).execute none st).Agree
      ((driver server codecs).execute none st) s fun _ t => Free inside t := by
  refine (ends_requireFree hs.owned).agree_andThen ?_
  refine (agree_discard_leftover codecs h passes hs.owned hs.marked hs.deep).bind ?_ ?_
  · rintro _ u ⟨same, outside, deep⟩
    have free : u.keeping.owned = false := (congrArg Ownership.owned same).trans hs.owned
    refine (calm_run codecs h passes hp free fun _ => outside).mono fun _ v hv => ?_
    exact ⟨hv.owned.trans free, fun open_ => absurd (hv.opened open_) outside, hv.deep deep⟩
  · rintro _ u ⟨same, outside, deep⟩
    exact ⟨(congrArg Ownership.owned same).trans hs.owned, fun open_ => absurd open_ outside, deep⟩

/-- The connection is owned from the moment a transaction is asked for. -/
theorem agree_begin (h : server.Transactional inside plain) (passes : Passes inside true own look)
    (hs : Free inside s) :
    ((driverOn (watched server codecs look)).begin none).Agree
      ((driver server codecs).begin none) s fun r t =>
        match r with
        | .ok scope =>
          scope.depth = 1 ∧ t.keeping.owned = true ∧ (t.abandoned 0).shallowest ≠ some 0
        | .error _ => Free inside t := by
  refine (ends_requireFree hs.owned).agree_andThen ?_
  refine Ends.agree_andThen (ends_changeState ⟨rfl, rfl⟩) ?_
  have settled : (((watched server codecs look).discard 0).cleanUp (setOwned false)
      (setOwned false)).Agree (((link server codecs).discard 0).cleanUp (setOwned false)
        (setOwned false)) (setOwned true s) fun r u => match r with
          | .ok _ => u.keeping.owned = true ∧ ¬ inside u.server 0 ∧
              (u.abandoned 0).shallowest ≠ some 0
          | .error _ => Free inside u := by
    have leftover := agree_discard_leftover codecs (s := setOwned true s) h passes rfl
      hs.marked hs.deep
    refine leftover.cleanUp ?_ ?_ ?_
    · rintro _ u ⟨same, outside, deep⟩
      exact ⟨congrArg Ownership.owned same, outside, deep⟩
    · rintro _ u ⟨-, outside, deep⟩
      exact free_of_outside outside deep
    · rintro _ u ⟨-, outside, deep⟩
      exact free_of_outside outside deep
  refine settled.bind ?_ fun _ _ free => free
  rintro _ u ⟨owned, outside, deep⟩
  exact agree_enter_transaction codecs h passes owned outside deep

end Functions

variable {server : Server β} {inside : β → Nat → Prop} {plain : String → Prop}
  {u : Usage (Line β Ownership) OpenScope} {c : Call OpenScope}

/-- What holds between calls: a transaction is held exactly when the connection is owned, and what
is left over on a connection that is not owned is marked. -/
structure Owns (inside : β → Nat → Prop) (u : Usage (Line β Ownership) OpenScope) : Prop where
  handles : u.live.countP (·.depth = 1) = u.progress.state.keeping.owned.toNat
  depths : ∀ scope ∈ u.live, 1 ≤ scope.depth
  marked : u.progress.state.keeping.owned = false → inside u.progress.state.server 0 →
    (u.progress.state.abandoned 0).shallowest = some 1
  deep : (u.progress.state.abandoned 0).shallowest ≠ some 0

namespace Owns

theorem owned_iff (hu : Owns inside u) :
    u.progress.state.keeping.owned = true ↔ ∃ scope ∈ u.live, scope.depth = 1 := by
  have counted := hu.handles
  cases ho : u.progress.state.keeping.owned with
  | true =>
    have positive : 0 < u.live.countP (·.depth = 1) := by rw [counted, ho]; exact Nat.one_pos
    simpa using List.countP_pos_iff.mp positive
  | false =>
    have absent : u.live.countP (·.depth = 1) = 0 := by rw [counted, ho]; rfl
    simpa using List.countP_eq_zero.mp absent

theorem free (hu : Owns inside u) (ho : u.progress.state.keeping.owned = false) :
    Free inside u.progress.state := ⟨ho, hu.marked ho, hu.deep⟩

/-- Calls that change nothing about the transaction, with the same transactions held. -/
theorem calm (hu : Owns inside u) {p : Progress (Line β Ownership)} {live : List OpenScope}
    (hp : Calm inside u.progress.state p.state)
    (same : live.countP (·.depth = 1) = u.live.countP (·.depth = 1))
    (depths : ∀ scope ∈ live, 1 ≤ scope.depth) : Owns inside ⟨p, live⟩ where
  handles := by rw [same, hu.handles, ← hp.owned]
  depths := depths
  marked ho open_ := hp.marked (hu.marked (hp.owned.symm.trans ho) (hp.opened open_))
  deep := hp.deep hu.deep

theorem calm_erase (hu : Owns inside u) {p : Progress (Line β Ownership)} {scope : OpenScope}
    (hp : Calm inside u.progress.state p.state) (hd : 1 < scope.depth) :
    Owns inside ⟨p, u.live.erase scope⟩ := by
  refine hu.calm hp ?_ fun other ho => hu.depths other (List.mem_of_mem_erase ho)
  have inner : ¬ scope.depth = 1 := by omega
  simp [List.countP_erase, inner]

/-- The only handle of a transaction is used up. -/
theorem given_back (hu : Owns inside u) {p : Progress (Line β Ownership)} {scope : OpenScope}
    (held : scope ∈ u.live) (hd : scope.depth = 1) (hp : Free inside p.state) :
    Owns inside ⟨p, u.live.erase scope⟩ where
  handles := by
    have owned := hu.owned_iff.mpr ⟨scope, held, hd⟩
    rw [List.countP_erase, hu.handles, owned, hp.owned, if_pos (by simp [held, hd])]
    rfl
  depths other ho := hu.depths other (List.mem_of_mem_erase ho)
  marked _ := hp.marked
  deep := hp.deep

end Owns

structure Awaits (inside : β → Nat → Prop) (u : Usage (Line β Ownership) OpenScope)
    (c : Call OpenScope) (p : Progress (Line β Ownership)) : Prop where
  /-- The connection is owned if a transaction is held, or this is one being opened. -/
  owned : p.state.keeping.owned = true ↔ (∃ scope ∈ u.live, scope.depth = 1) ∨ c = .begin none
  /-- What the driver itself has just sent finds no transaction, or puts an end to it. -/
  outside : c.handle? = none → inside p.state.server 0 →
    p.log.getLast? = some (.request 0 (.batch ⟨.discard, 1⟩))

/-- A call on a handle is awaited with the connection as it was. -/
theorem Owns.passes_handle (hu : Owns inside u) {scope : OpenScope} (hc : c.handle? = some scope)
    {look : Act (Line β Ownership) SqlError Unit}
    (unseen : ∀ p, Awaits inside u c p → look.run p = (.ok (), p)) :
    Passes inside u.progress.state.keeping.owned False look := by
  intro p ho _
  apply unseen
  refine ⟨?_, fun driver => by rw [hc] at driver; cases driver⟩
  rw [ho, hu.owned_iff, or_iff_left]
  rintro rfl
  cases hc

/-- A savepoint that is opened, or not, leaves the transactions as they are. -/
theorem Owns.begun_inside (hu : Owns inside u) {p : Progress (Line β Ownership)}
    {r : Except (Stop SqlError) OpenScope} {depth : Nat} (hd : 1 ≤ depth)
    (hp : Calm inside u.progress.state p.state)
    (hr : ∀ scope, r = .ok scope → scope.depth = depth + 1) :
    Owns inside ⟨p, r.toOption.toList ++ u.live⟩ := by
  cases r with
  | error e => exact hu.calm hp rfl hu.depths
  | ok scope =>
    have inner : scope.depth = depth + 1 := hr scope rfl
    refine hu.calm hp ?_ (List.forall_mem_cons.mpr ⟨by omega, hu.depths⟩)
    exact List.countP_cons_of_neg (by simp; omega)

theorem Owns.begun (hu : Owns inside u) (ho : u.progress.state.keeping.owned = false)
    {p : Progress (Line β Ownership)} {r : Except (Stop SqlError) OpenScope}
    (hr : match r with
      | .ok scope => scope.depth = 1 ∧ p.state.keeping.owned = true ∧
          (p.state.abandoned 0).shallowest ≠ some 0
      | .error _ => Free inside p.state) :
    Owns inside ⟨p, r.toOption.toList ++ u.live⟩ := by
  have none_held : u.live.countP (·.depth = 1) = 0 := by rw [hu.handles, ho]; rfl
  cases r with
  | error e =>
    refine ⟨?_, hu.depths, fun _ => hr.marked, hr.deep⟩
    exact none_held.trans (congrArg Bool.toNat hr.owned).symm
  | ok scope =>
    obtain ⟨outermost, owned, deep⟩ := hr
    have depths : ∀ other ∈ scope :: u.live, 1 ≤ other.depth :=
      List.forall_mem_cons.mpr ⟨Nat.le_of_eq outermost.symm, hu.depths⟩
    refine ⟨?_, depths, fun free => ?_, deep⟩
    · have counted : (scope :: u.live).countP (·.depth = 1) = u.live.countP (·.depth = 1) + 1 :=
        List.countP_cons_of_pos (by simpa using outermost)
      exact counted.trans (by rw [none_held, owned]; rfl)
    · exact absurd (owned.symm.trans free) (by simp)

/-- The scope of a handle is ended by a command. -/
theorem Owns.finish (h : server.Transactional inside plain) (codecs : Wire.Codecs)
    (hu : Owns inside u) {scope : OpenScope} (held : scope ∈ u.live) (action : ScopeAction)
    (ha : action ≠ .begin) {look : Act (Line β Ownership) SqlError Unit}
    (passes : Passes inside u.progress.state.keeping.owned False look) :
    ((watched server codecs look).finish action scope.depth).run u.progress =
        ((link server codecs).finish action scope.depth).run u.progress ∧
      Owns inside ⟨(((link server codecs).finish action scope.depth).run u.progress).2,
        u.live.erase scope⟩ := by
  rcases Nat.lt_or_eq_of_le (hu.depths scope held) with inner | outer
  · obtain ⟨same, calm⟩ := calm_finish codecs h passes ha rfl id inner u.progress rfl
    exact ⟨same, hu.calm_erase calm inner⟩
  · have agree := free_finish codecs h passes ha rfl id hu.deep
    rw [outer] at agree
    obtain ⟨same, free⟩ := agree u.progress rfl
    exact ⟨same, hu.given_back held outer.symm free⟩

/-- No call can tell that there is an onlooker, and the invariant is kept. -/
theorem Owns.perform (h : server.Transactional inside plain) (codecs : Wire.Codecs)
    (hu : Owns inside u) (hc : c.Legal plain u.live) {look : Act (Line β Ownership) SqlError Unit}
    (unseen : ∀ p, Awaits inside u c p → look.run p = (.ok (), p)) :
    (driverOn (watched server codecs look)).perform u c = (driver server codecs).perform u c ∧
      Owns inside ((driver server codecs).perform u c) := by
  cases c with
  | execute scope st =>
    have text : plain st.text := hc.plain st rfl
    suffices ((driverOn (watched server codecs look)).execute scope st).run u.progress =
        ((driver server codecs).execute scope st).run u.progress ∧
          Owns inside ⟨(((driver server codecs).execute scope st).run u.progress).2, u.live⟩ from
      ⟨congrArg (fun r => (⟨r.2, u.live⟩ : Usage _ _)) this.1, this.2⟩
    cases scope with
    | some scope =>
      have deep := hu.depths scope (hc.held scope rfl)
      have passes := hu.passes_handle rfl unseen
      obtain ⟨same, calm⟩ := calm_execute codecs h passes text rfl id deep u.progress rfl
      exact ⟨same, hu.calm calm rfl hu.depths⟩
    | none =>
      cases ho : u.progress.state.keeping.owned with
      | true =>
        have refused := run_execute_owned (link server codecs) ho st
        rw [driverOn_link] at refused
        rw [run_execute_owned _ ho st, refused]
        exact ⟨rfl, hu⟩
      | false =>
        have passes : Passes inside false True look := by
          intro p free outside
          refine unseen p ⟨?_, fun _ => outside trivial⟩
          rw [free, ← hu.owned_iff, ho]
          simp
        obtain ⟨same, free⟩ := free_execute codecs h passes text (hu.free ho) u.progress rfl
        exact ⟨same, hu.handles.trans (by rw [ho, free.owned]), hu.depths, fun _ => free.marked,
          free.deep⟩
  | begin scope =>
    suffices ((driverOn (watched server codecs look)).begin scope).run u.progress =
        ((driver server codecs).begin scope).run u.progress ∧
          Owns inside ⟨(((driver server codecs).begin scope).run u.progress).2,
            (((driver server codecs).begin scope).run u.progress).1.toOption.toList ++ u.live⟩ from
      ⟨congrArg (fun r => (⟨r.2, r.1.toOption.toList ++ u.live⟩ : Usage _ _)) this.1, this.2⟩
    cases scope with
    | some scope =>
      have deep := hu.depths scope (hc.held scope rfl)
      have passes := hu.passes_handle rfl unseen
      obtain ⟨same, calm, inner⟩ := calm_enterInside codecs h passes rfl id deep u.progress rfl
      exact ⟨same, hu.begun_inside deep calm inner⟩
    | none =>
      cases ho : u.progress.state.keeping.owned with
      | true =>
        have refused := run_begin_owned (link server codecs) ho
        rw [driverOn_link] at refused
        rw [run_begin_owned _ ho, refused]
        exact ⟨rfl, hu⟩
      | false =>
        have passes : Passes inside true True look := by
          intro p owned outside
          exact unseen p ⟨by simp [owned], fun _ => outside trivial⟩
        obtain ⟨same, begun⟩ := agree_begin codecs h passes (hu.free ho) u.progress rfl
        exact ⟨same, hu.begun ho begun⟩
  | commit scope =>
    have passes := hu.passes_handle rfl unseen
    obtain ⟨same, owns⟩ := hu.finish h codecs (hc.held scope rfl) .commit nofun passes
    exact ⟨congrArg (fun r => (⟨r.2, u.live.erase scope⟩ : Usage _ _)) same, owns⟩
  | rollback scope =>
    have passes := hu.passes_handle rfl unseen
    obtain ⟨same, owns⟩ := hu.finish h codecs (hc.held scope rfl) .rollback nofun passes
    exact ⟨congrArg (fun r => (⟨r.2, u.live.erase scope⟩ : Usage _ _)) same, owns⟩
  | drop scope =>
    refine ⟨rfl, ?_⟩
    have held := hc.held scope rfl
    rcases Nat.lt_or_eq_of_le (hu.depths scope held) with inner | outer
    · exact hu.calm_erase (calm_letGo inner _) inner
    · refine hu.given_back held outer.symm ?_
      have free : Free inside (letGo 1 u.progress.state) := free_letGo hu.deep
      rwa [outer] at free

/-- Between two calls only what the driver does not keep may change: the clock, the counters of
observers, the remarks of the program. -/
def Elsewhere (u v : Usage (Line β Ownership) OpenScope) : Prop :=
  v.progress.state = u.progress.state ∧ v.live = u.live

theorem owns_of_reaches (h : server.Transactional inside plain) {codecs : Wire.Codecs} {b : β}
    (fresh : ¬ inside b 0)
    (hu : (driver server codecs).Reaches plain Elsewhere (Exclusive.start b) u) :
    Owns inside u := by
  induction hu with
  | start p hp =>
    constructor
    · rw [hp]
      rfl
    · nofun
    · rw [hp]
      exact fun _ open_ => absurd open_ fresh
    · rw [hp]
      nofun
  | call _ legal ih =>
    have idle (p : Progress (Line β Ownership)) :
        (pure () : Act (Line β Ownership) SqlError Unit).run p = (.ok (), p) := rfl
    exact (ih.perform h codecs legal fun p _ => idle p).2
  | between _ same ih =>
    obtain ⟨state, live⟩ := same
    constructor
    · rw [state, live, ih.handles]
    · rw [live]
      exact ih.depths
    · rw [state]
      exact ih.marked
    · rw [state]
      exact ih.deep

/-- In every run over one connection, with replies lost anywhere: the connection is owned exactly
while a transaction is held; as long as it is, the driver refuses calls and sends nothing; and an
onlooker at the awaits of any call finds it owned exactly if a transaction is held or being opened,
and the driver's own requests outside of any transaction but for the rollback of a leftover. -/
theorem transaction_owns_connection (h : server.Transactional inside plain) (codecs : Wire.Codecs)
    {b : β} (fresh : ¬ inside b 0)
    (hu : (driver server codecs).Reaches plain Elsewhere (Exclusive.start b) u) :
    (u.progress.state.keeping.owned = true ↔ ∃ scope ∈ u.live, scope.depth = 1) ∧
      (∀ p : Progress (Line β Ownership), p.state.keeping.owned = true →
        (∀ st, ((driver server codecs).execute none st).run p = (.error (.failed pinned), p)) ∧
          ((driver server codecs).begin none).run p = (.error (.failed pinned), p)) ∧
      ∀ c : Call OpenScope, c.Legal plain u.live →
        ∀ look : Act (Line β Ownership) SqlError Unit,
          (∀ p, Awaits inside u c p → look.run p = (.ok (), p)) →
          (driverOn (watched server codecs look)).perform u c =
            (driver server codecs).perform u c := by
  have owns := owns_of_reaches h fresh hu
  refine ⟨owns.owned_iff, ?_, ?_⟩
  · intro p hp
    exact ⟨run_execute_owned (link server codecs) hp, run_begin_owned (link server codecs) hp⟩
  · intro c legal look unseen
    exact (owns.perform h codecs legal unseen).1

/-- A transaction is held after `BEGIN`, and then the driver refuses what is asked of it. -/
theorem transaction_owns_connection_held :
    ∃ u : Usage (Line (List Nat) Ownership) OpenScope,
      (driver Server.losingCommits ⟨[], .text⟩).Reaches (· ≠ "BEGIN") Elsewhere (start []) u ∧
        u.live = [⟨0, 1⟩] ∧ u.progress.state.keeping.owned = true ∧
          ∀ st, ((driver Server.losingCommits ⟨[], .text⟩).execute none st).run u.progress =
            (.error (.failed pinned), u.progress) := by
  let d := driver Server.losingCommits ⟨[], .text⟩
  let before : Usage (Line (List Nat) Ownership) OpenScope := .new (start [])
  have legal : (Call.begin none : Call OpenScope).Legal (· ≠ "BEGIN") [] := ⟨nofun, nofun⟩
  have reached : d.Reaches (· ≠ "BEGIN") Elsewhere (start []) (d.perform before (.begin none)) :=
    .call (.start _ rfl) legal
  obtain ⟨owned, refuses, -⟩ :=
    transaction_owns_connection Server.transactional_losingCommits ⟨[], .text⟩ List.not_mem_nil
      reached
  have held : (d.perform before (.begin none)).progress.state.keeping.owned = true :=
    owned.mpr ⟨⟨0, 1⟩, List.mem_singleton_self _, rfl⟩
  exact ⟨_, reached, rfl, held, (refuses _ held).1⟩

end Exclusive

end SqlClient
