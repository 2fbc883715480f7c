import SqlClient.Action
/-!
# How actions end

What an action returns, what it leaves in the driver's state, for every clock, log and counters, and
what it does on its way, told in words of one's choice: the word of an action is that of its first
step and behind it that of what follows. Hooks, traces and the clock never touch the driver's state,
so such steps only pass it on.
-/
namespace SqlClient

def Progress.new {σ : Type} (s : σ) : Progress σ where
  state := s
  now := (Calendar.Instant.ofUnix? 0 0).get rfl

namespace Act

variable {σ ε δ α β : Type} {s : σ} {act : Act σ ε α} {post mid : Except (Stop ε) α → σ → Prop}

/-- Started in `s`, the action comes to a result and a state as `post` says. -/
def Ends (act : Act σ ε α) (s : σ) (post : Except (Stop ε) α → σ → Prop) : Prop :=
  ∀ p : Progress σ, p.state = s → post (act.run p).1 (act.run p).2.state

theorem Ends.mono (h : act.Ends s mid) (hm : ∀ r t, mid r t → post r t) : act.Ends s post :=
  fun p hp => hm _ _ (h p hp)

theorem Ends.outcome (h : act.Ends s mid) {p : Progress σ} (hp : p.state = s) :
    ∃ r q, act p = (r, q) ∧ mid r q.state :=
  ⟨_, _, rfl, h p hp⟩

def Leads (act : Act σ ε α) (s : σ) (r : Except (Stop ε) α) (t : σ) : Prop :=
  ∃ p q, p.state = s ∧ act.run p = (r, q) ∧ q.state = t

theorem Ends.leads (h : act.Ends s mid) : act.Ends s fun r t => mid r t ∧ act.Leads s r t :=
  fun p hp => ⟨h p hp, p, _, hp, rfl, rfl⟩

theorem run_bind (act : Act σ ε α) (f : α → Act σ ε β) (p : Progress σ) :
    (act >>= f).run p =
      match act.run p with
      | (.ok a, q) => (f a).run q
      | (.error e, q) => (.error e, q) := by
  change (ExceptT.bind act f) p = _
  cases h : act.run p with
  | mk r q =>
    have hr : act p = (r, q) := h
    simp only [ExceptT.bind, ExceptT.mk, ExceptT.bindCont, bind, StateT.bind, hr]
    cases r with
    | ok a => rfl
    | error e => rfl

theorem run_now_bind (f : Calendar.Instant → Act σ ε β) (p : Progress σ) :
    (now >>= f).run p = (f p.now).run p := by
  rw [run_bind]
  rfl

theorem ends_pure {a : α} (h : post (.ok a) s) : (pure a : Act σ ε α).Ends s post := by
  intro p hp
  subst hp
  exact h

theorem Ends.bind {f : α → Act σ ε β} {post : Except (Stop ε) β → σ → Prop}
    (h : act.Ends s mid) (hok : ∀ a t, mid (.ok a) t → (f a).Ends t post)
    (herror : ∀ e t, mid (.error e) t → post (.error e) t) : (act >>= f).Ends s post := by
  intro p hp
  have hm := h p hp
  rw [run_bind]
  cases hr : act.run p with
  | mk r q =>
    rw [hr] at hm
    cases r with
    | ok a => exact hok a q.state hm q rfl
    | error e => exact herror e q.state hm

/-- What is asked of the first step for what follows it. -/
theorem ends_bind {f : α → Act σ ε β} {post : Except (Stop ε) β → σ → Prop}
    (h : act.Ends s fun r t =>
      match r with
      | .ok a => (f a).Ends t post
      | .error e => post (.error e) t) : (act >>= f).Ends s post :=
  h.bind (fun _ _ hf => hf) (fun _ _ he => he)

/-- After an action that returns something. -/
theorem Ends.afterwards {f : α → Act σ ε β} {post : Except (Stop ε) β → σ → Prop}
    {left : α → σ → Prop} (h : act.Ends s fun r t => ∃ a, r = .ok a ∧ left a t)
    (hf : ∀ a t, left a t → (f a).Ends t post) : (act >>= f).Ends s post := by
  refine h.bind ?_ ?_
  · intro r t ends
    obtain ⟨a, hr, ht⟩ := ends
    cases hr
    exact hf r t ht
  · intro e t ends
    obtain ⟨a, hr, -⟩ := ends
    cases hr

theorem Ends.returning {f : α → Act σ ε β} {post : Except (Stop ε) β → σ → Prop} {a : α}
    {left : σ → Prop} (h : act.Ends s fun r t => r = .ok a ∧ left t)
    (hf : ∀ t, left t → (f a).Ends t post) : (act >>= f).Ends s post := by
  have returns : act.Ends s fun r t => ∃ x, r = .ok x ∧ x = a ∧ left t :=
    h.mono fun _ _ ends => ⟨a, ends.1, rfl, ends.2⟩
  refine returns.afterwards ?_
  intro x t ends
  obtain ⟨rfl, ht⟩ := ends
  exact hf t ht

theorem Ends.andThen {f : α → Act σ ε β} {post : Except (Stop ε) β → σ → Prop} {a : α} {t : σ}
    (h : act.Ends s fun r u => r = .ok a ∧ u = t) (hf : (f a).Ends t post) :
    (act >>= f).Ends s post := by
  refine h.returning ?_
  intro u hp
  subst hp
  exact hf

theorem Ends.stop {f : α → Act σ ε β} {post : Except (Stop ε) β → σ → Prop} {e : Stop ε} {t : σ}
    (h : act.Ends s fun r u => r = .error e ∧ u = t) (hf : post (.error e) t) :
    (act >>= f).Ends s post := by
  refine h.bind ?_ ?_
  · intro r t hr
    cases hr.1
  · intro r u ends
    obtain ⟨hr, rfl⟩ := ends
    cases hr
    exact hf

theorem ends_fail {e : ε} (h : post (.error (.failed e)) s) : (fail e : Act σ ε α).Ends s post := by
  intro p hp
  subst hp
  exact h

theorem ends_drop {level : Nat} (h : post (.error (.dropped level)) s) :
    (drop level : Act σ ε α).Ends s post := by
  intro p hp
  subst hp
  exact h

section Unit

variable {post : Except (Stop ε) Unit → σ → Prop}

theorem ends_change {f : Progress σ → Progress σ}
    (h : ∀ p, p.state = s → post (.ok ()) (f p).state) : (change f : Act σ ε Unit).Ends s post :=
  h

theorem ends_changeState {f : σ → σ} (h : post (.ok ()) (f s)) :
    (changeState f : Act σ ε Unit).Ends s post := by
  refine ends_change ?_
  intro p hp
  subst hp
  exact h

theorem ends_append {e : Entry} (h : post (.ok ()) s) : (append e : Act σ ε Unit).Ends s post := by
  refine ends_change ?_
  intro p hp
  subst hp
  exact h

end Unit

theorem ends_onState {f : σ → α × σ} (h : post (.ok (f s).1) (f s).2) :
    (onState f : Act σ ε α).Ends s post := by
  intro p hp
  subst hp
  exact h

section Bind

variable {f : Progress σ → Act σ ε α}

theorem ends_progress_bind (h : ∀ p : Progress σ, p.state = s → (f p).Ends s post) :
    (progress >>= f).Ends s post := by
  intro p hp
  rw [run_bind]
  exact h p hp p hp

end Bind

theorem ends_ofExcept_bind {x : Except ε α} {f : α → Act σ ε β}
    {post : Except (Stop ε) β → σ → Prop} (hok : ∀ a, (f a).Ends s post)
    (herror : ∀ e, post (.error (.failed e)) s) : (ofExcept x >>= f).Ends s post := by
  cases x with
  | ok a => exact hok a
  | error e => exact Ends.stop (ends_fail ⟨rfl, rfl⟩) (herror e)

theorem ends_now_bind {f : Calendar.Instant → Act σ ε α} (h : ∀ t, (f t).Ends s post) :
    (now >>= f).Ends s post := by
  intro p hp
  rw [run_now_bind]
  exact h p.now p hp

theorem Ends.attempt {post : Except (Stop δ) (Except ε α) → σ → Prop} (h : act.Ends s mid)
    (hok : ∀ a t, mid (.ok a) t → post (.ok (.ok a)) t)
    (hfailed : ∀ e t, mid (.error (.failed e)) t → post (.ok (.error e)) t)
    (hdropped : ∀ l t, mid (.error (.dropped l)) t → post (.error (.dropped l)) t) :
    (attempt act : Act σ δ (Except ε α)).Ends s post := by
  intro p hp
  obtain ⟨r, q, hr, hm⟩ := h.outcome hp
  simp only [run, Act.attempt, ofRun, hr]
  cases r with
  | ok a => exact hok a q.state hm
  | error stop =>
    cases stop with
    | failed e => exact hfailed e q.state hm
    | dropped l => exact hdropped l q.state hm

theorem Ends.observe {post : Except (Stop δ) (Except (Stop ε) α) → σ → Prop} (h : act.Ends s mid)
    (hm : ∀ r t, mid r t → post (.ok r) t) :
    (observe act : Act σ δ (Except (Stop ε) α)).Ends s post :=
  fun p hp => hm _ _ (h p hp)

theorem Ends.cleanUp {onFailure onDrop : σ → σ} (h : act.Ends s mid)
    (hok : ∀ a t, mid (.ok a) t → post (.ok a) t)
    (hfailed : ∀ e t, mid (.error (.failed e)) t → post (.error (.failed e)) (onFailure t))
    (hdropped : ∀ l t, mid (.error (.dropped l)) t → post (.error (.dropped l)) (onDrop t)) :
    (act.cleanUp onFailure onDrop).Ends s post := by
  intro p hp
  obtain ⟨r, q, hr, hm⟩ := h.outcome hp
  simp only [run, Act.cleanUp, ofRun, hr]
  cases r with
  | ok a => exact hok a q.state hm
  | error stop =>
    cases stop with
    | failed e => exact hfailed e q.state hm
    | dropped l => exact hdropped l q.state hm

/-- Nothing is cleaned up after an action that returns. -/
theorem Ends.cleanUp_ok {onFailure onDrop : σ → σ} {a : α} {kept : σ → Prop}
    (h : act.Ends s fun r t => r = .ok a ∧ kept t) :
    (act.cleanUp onFailure onDrop).Ends s fun r t => r = .ok a ∧ kept t := by
  refine h.cleanUp (fun _ _ hr => hr) ?_ ?_
  · intro r t hr
    cases hr.1
  · intro r t hr
    cases hr.1

theorem Ends.cleanUp_failed {onFailure onDrop : σ → σ} {e : ε} {t : σ}
    (h : act.Ends s fun r u => r = .error (.failed e) ∧ u = t) :
    (act.cleanUp onFailure onDrop).Ends s fun r u => r = .error (.failed e) ∧ u = onFailure t := by
  refine h.cleanUp ?_ ?_ ?_
  · intro r t hr
    cases hr.1
  · intro r u ends
    obtain ⟨hr, rfl⟩ := ends
    cases hr
    exact ⟨rfl, rfl⟩
  · intro r t hr
    cases hr.1

/-- What is asked of a call that may be dropped there. -/
theorem ends_unlessDropped {level : Nat} {post : Except (Stop ε) (Option α) → σ → Prop}
    (h : act.Ends s fun r t =>
      match r with
      | .ok a => post (.ok (some a)) t
      | .error (.failed e) => post (.error (.failed e)) t
      | .error (.dropped l) =>
        (l = level → post (.ok none) t) ∧ (l ≠ level → post (.error (.dropped l)) t)) :
    (unlessDropped level act).Ends s post := by
  intro p hp
  obtain ⟨r, q, hr, hm⟩ := h.outcome hp
  simp only [run, Act.unlessDropped, ofRun, hr]
  cases r with
  | ok a => exact hm
  | error stop =>
    cases stop with
    | failed e => exact hm
    | dropped l =>
      by_cases hl : l = level
      · simpa only [if_pos hl] using hm.1 hl
      · simpa only [if_neg hl] using hm.2 hl

end Act

/-- What can be told between two points of a program. A change of the driver's state alone needs
no word, and words stand one behind another. -/
structure Account (σ τ : Type) where
  Grows : Progress σ → List τ → Progress σ → Prop
  still : ∀ p s, Grows p [] { p with state := s }
  append : ∀ {p q r u w}, Grows p u q → Grows q w r → Grows p (u ++ w) r

namespace Act

variable {σ τ ε δ α β : Type} {A : Account σ τ} {s : σ} {act : Act σ ε α}
  {post mid : Except (Stop ε) α → List τ → σ → Prop}

def Accounts (A : Account σ τ) (act : Act σ ε α) (s : σ)
    (post : Except (Stop ε) α → List τ → σ → Prop) : Prop :=
  ∀ p : Progress σ, p.state = s →
    ∃ w, A.Grows p w (act.run p).2 ∧ post (act.run p).1 w (act.run p).2.state

theorem Accounts.mono (h : act.Accounts A s mid) (hm : ∀ r w t, mid r w t → post r w t) :
    act.Accounts A s post := by
  intro p hp
  obtain ⟨w, grows, h⟩ := h p hp
  exact ⟨w, grows, hm _ _ _ h⟩

theorem Accounts.outcome (h : act.Accounts A s mid) {p : Progress σ} (hp : p.state = s) :
    ∃ r q w, act p = (r, q) ∧ A.Grows p w q ∧ mid r w q.state := by
  obtain ⟨w, grows, h⟩ := h p hp
  exact ⟨_, _, w, rfl, grows, h⟩

theorem accounts_pure {a : α} (h : post (.ok a) [] s) :
    (pure a : Act σ ε α).Accounts A s post := by
  rintro p rfl
  exact ⟨[], A.still p p.state, h⟩

theorem accounts_fail {e : ε} (h : post (.error (.failed e)) [] s) :
    (fail e : Act σ ε α).Accounts A s post := by
  rintro p rfl
  exact ⟨[], A.still p p.state, h⟩

theorem accounts_drop {level : Nat} (h : post (.error (.dropped level)) [] s) :
    (drop level : Act σ ε α).Accounts A s post := by
  rintro p rfl
  exact ⟨[], A.still p p.state, h⟩

theorem accounts_onState {f : σ → α × σ} (h : post (.ok (f s).1) [] (f s).2) :
    (onState f : Act σ ε α).Accounts A s post := by
  rintro p rfl
  exact ⟨[], A.still p _, h⟩

theorem accounts_ofExcept {x : Except ε α} (hok : ∀ a, x = .ok a → post (.ok a) [] s)
    (herror : ∀ e, x = .error e → post (.error (.failed e)) [] s) :
    (ofExcept x : Act σ ε α).Accounts A s post := by
  cases x with
  | ok a => exact accounts_pure (hok a rfl)
  | error e => exact accounts_fail (herror e rfl)

section Unit

variable {post : Except (Stop ε) Unit → List τ → σ → Prop}

theorem accounts_change {f : Progress σ → Progress σ} {w : List τ}
    (grows : ∀ p, A.Grows p w (f p)) (h : ∀ p, p.state = s → post (.ok ()) w (f p).state) :
    (change f : Act σ ε Unit).Accounts A s post :=
  fun p hp => ⟨w, grows p, h p hp⟩

theorem accounts_changeState {f : σ → σ} (h : post (.ok ()) [] (f s)) :
    (changeState f : Act σ ε Unit).Accounts A s post := by
  refine accounts_change (fun p => A.still p _) ?_
  rintro p rfl
  exact h

end Unit

/-- What follows a step is told after it. -/
theorem accounts_bind {f : α → Act σ ε β} {post : Except (Stop ε) β → List τ → σ → Prop}
    (h : act.Accounts A s fun r w t =>
      match r with
      | .ok a => (f a).Accounts A t fun r w' u => post r (w ++ w') u
      | .error e => post (.error e) w t) : (act >>= f).Accounts A s post := by
  intro p hp
  obtain ⟨r, q, w, hr, grows, h⟩ := h.outcome hp
  have run : act.run p = (r, q) := hr
  rw [run_bind, run]
  cases r with
  | ok a =>
    obtain ⟨w', grows', h⟩ := h q rfl
    exact ⟨w ++ w', A.append grows grows', h⟩
  | error e => exact ⟨w, grows, h⟩

theorem accounts_progress_bind {f : Progress σ → Act σ ε α}
    (h : ∀ p : Progress σ, p.state = s → (f p).Accounts A s post) :
    (progress >>= f).Accounts A s post := by
  intro p hp
  rw [run_bind]
  exact h p hp p hp

theorem accounts_now_bind {f : Calendar.Instant → Act σ ε α}
    (h : ∀ t, (f t).Accounts A s post) : (now >>= f).Accounts A s post := by
  intro p hp
  rw [run_now_bind]
  exact h p.now p hp

theorem Accounts.attempt {post : Except (Stop δ) (Except ε α) → List τ → σ → Prop}
    (h : act.Accounts A s fun r w t =>
      match r with
      | .ok a => post (.ok (.ok a)) w t
      | .error (.failed e) => post (.ok (.error e)) w t
      | .error (.dropped l) => post (.error (.dropped l)) w t) :
    (attempt act : Act σ δ (Except ε α)).Accounts A s post := by
  intro p hp
  obtain ⟨r, q, w, hr, grows, h⟩ := h.outcome hp
  simp only [run, Act.attempt, ofRun, hr]
  rcases r with (e | l) | a
  · exact ⟨w, grows, h⟩
  · exact ⟨w, grows, h⟩
  · exact ⟨w, grows, h⟩

theorem Accounts.observe {post : Except (Stop δ) (Except (Stop ε) α) → List τ → σ → Prop}
    (h : act.Accounts A s fun r w t => post (.ok r) w t) :
    (observe act : Act σ δ (Except (Stop ε) α)).Accounts A s post := h

theorem Accounts.unlessDropped {level : Nat}
    {post : Except (Stop ε) (Option α) → List τ → σ → Prop}
    (h : act.Accounts A s fun r w t =>
      match r with
      | .ok a => post (.ok (some a)) w t
      | .error (.failed e) => post (.error (.failed e)) w t
      | .error (.dropped l) =>
        (l = level → post (.ok none) w t) ∧ (l ≠ level → post (.error (.dropped l)) w t)) :
    (unlessDropped level act).Accounts A s post := by
  intro p hp
  obtain ⟨r, q, w, hr, grows, h⟩ := h.outcome hp
  simp only [run, Act.unlessDropped, ofRun, hr]
  rcases r with (e | l) | a
  · exact ⟨w, grows, h⟩
  · by_cases hl : l = level
    · simpa only [if_pos hl] using ⟨w, grows, h.1 hl⟩
    · simpa only [if_neg hl] using ⟨w, grows, h.2 hl⟩
  · exact ⟨w, grows, h⟩

/-- An action of which nothing is told comes to what it leads to. -/
theorem accounts_leads (h : ∀ p, A.Grows p [] (act.run p).2) :
    act.Accounts A s fun r w t => w = [] ∧ act.Leads s r t :=
  fun p hp => ⟨[], h p, rfl, p, _, hp, rfl, rfl⟩

end Act

end SqlClient
