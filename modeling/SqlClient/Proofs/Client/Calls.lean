import SqlClient.Client
import SqlClient.Proofs.Monitor.Heard
/-!
# Calls of a client

What callers do inside a transaction is a tree: a callback goes on from whatever its calls come to,
so that it can also pass over an error. Hooks, the clock and traces do not touch the state of the
driver, so what a call comes to is told from what the driver's calls and the body come to. The
library looks at whether a call returned, never at what it returned.
-/
namespace SqlClient

open SqlClient.Sql Act SqlClient.Monitor

/-- What is done on one client, call by call. A call that is dropped on its own comes to nothing,
and the callback goes on. -/
inductive Callback (ε α : Type) where
  | returns (a : α)
  | fails (error : ε)
  /-- The call at that level is dropped, with all inside, while nothing is asked of the driver. -/
  | drop (level : Nat)
  | statement (st : Statement) (next : Option (Except SqlError ResultSet) → Callback ε α)
  | scope (body : Callback ε α) (next : Option (Except ε α) → Callback ε α)

def Callback.run {σ η ε α : Type} [CallerError ε] : Callback ε α → Client σ η → Act σ ε α
  | .returns a, _ => pure a
  | .fails error, _ => Act.fail error
  | .drop level, _ => Act.drop level
  | .statement st next, c => do
    let x ← unlessDropped (c.context.depth + 1) (attempt (c.query st))
    (next x).run c
  | .scope body next, c => do
    let x ← unlessDropped (c.context.depth + 1) (attempt (c.transaction body.run))
    (next x).run c

/-- What is asked of a call for what the callback does after it. -/
theorem Act.Ends.goesOn {σ ε δ α β : Type} {s : σ} {level : Nat} {call : Act σ δ β}
    {rest : Option (Except δ β) → Act σ ε α} {mid : Except (Stop δ) β → σ → Prop}
    {post : Except (Stop ε) α → σ → Prop} (hcall : call.Ends s mid)
    (hok : ∀ b t, mid (.ok b) t → (rest (some (.ok b))).Ends t post)
    (hfailed : ∀ e t, mid (.error (.failed e)) t → (rest (some (.error e))).Ends t post)
    (hdropped : ∀ t, mid (.error (.dropped level)) t → (rest none).Ends t post)
    (hstopped : ∀ l t, mid (.error (.dropped l)) t → post (.error (.dropped l)) t) :
    (Act.unlessDropped level (Act.attempt call) >>= rest).Ends s post := by
  refine ends_bind (ends_unlessDropped (hcall.attempt ?_ ?_ ?_))
  · exact hok
  · exact hfailed
  intro l t h
  refine ⟨?_, fun _ => hstopped l t h⟩
  rintro rfl
  exact hdropped t h

namespace Client

open Act

variable {σ η ε α : Type} {c : Client σ η} {s : σ}

def told (c : Client σ η) (e : Event) (p : Progress σ) : Progress σ :=
  match c.context.hook with
  | some hook => hook.deliver e p
  | none => p

theorem notify_eq (c : Client σ η) (e : Event) :
    (c.notify e : Act σ ε Unit) = change (c.told e) := by
  rw [notify]
  unfold told
  cases c.context.hook with
  | none => rfl
  | some hook => rfl

def observers (c : Client σ η) : List Observer := c.context.hook.toList.flatMap Hook.observers

theorem told_eq (c : Client σ η) (e : Event) (p : Progress σ) :
    c.told e p = Hook.tell c.observers e p := by
  rw [told, observers]
  cases c.context.hook with
  | none => rfl
  | some hook =>
    rw [Option.toList_some, List.flatMap_singleton]
    exact Hook.deliver_eq e hook p

theorem state_told (c : Client σ η) (e : Event) (p : Progress σ) :
    (c.told e p).state = p.state := by
  rw [told_eq, Hook.state_tell]

section Notify

variable {post : Except (Stop ε) Unit → σ → Prop}

theorem ends_notify {e : Event} (h : post (.ok ()) s) :
    (c.notify e : Act σ ε Unit).Ends s post := by
  rw [notify_eq]
  refine ends_change ?_
  rintro p rfl
  rw [state_told]
  exact h

theorem ends_notifyEnd {phase : Phase} {start : Calendar.Instant} {cause : Option Cause}
    (h : post (.ok ()) s) : (c.notifyEnd phase start cause : Act σ ε Unit).Ends s post :=
  ends_now_bind fun _ => ends_notify h

end Notify

/-- A statement ends as on the driver, with the keys of its rows converted. -/
theorem ends_query {st : Sql.Statement} {mid post : Except (Stop SqlError) ResultSet → σ → Prop}
    (h : (c.driver.execute c.scope st).Ends s mid)
    (hok : ∀ r t, mid (.ok r) t → post (.ok (c.context.casing.inboundResult r)) t)
    (herror : ∀ stop t, mid (.error stop) t → post (.error stop) t) : (c.query st).Ends s post := by
  refine ends_now_bind fun start => ends_bind ?_
  refine h.attempt ?_ ?_ ?_
  · intro r t hr
    refine ends_now_bind fun stop => ?_
    exact Ends.andThen (ends_notify ⟨rfl, rfl⟩) (ends_pure (hok r t hr))
  · intro e t he
    refine ends_now_bind fun stop => ?_
    refine Ends.andThen (ends_notify ⟨rfl, rfl⟩) ?_
    exact Ends.andThen (ends_notify ⟨rfl, rfl⟩) (ends_fail (herror _ t he))
  · intro level t hl
    exact herror _ t hl

section Transaction

variable {post : Except (Stop ε) α → σ → Prop} {scope : η} {start : Calendar.Instant}

theorem ends_endDropped {level : Nat} (h : post (.error (.dropped level)) s) :
    (c.endDropped start level : Act σ ε α).Ends s post :=
  Ends.andThen (ends_notifyEnd ⟨rfl, rfl⟩) (ends_drop h)

variable [CallerError ε]

theorem ends_finishReturned {a : α} {mid : Except (Stop SqlError) Unit → σ → Prop}
    (h : (c.driver.commit scope).Ends s mid) (hok : ∀ t, mid (.ok ()) t → post (.ok a) t)
    (hfailed : ∀ e t, mid (.error (.failed e)) t → post (.error (.failed (CallerError.ofSql e))) t)
    (hdropped : ∀ l t, mid (.error (.dropped l)) t → post (.error (.dropped l)) t) :
    (c.finishReturned scope start a : Act σ ε α).Ends s post := by
  refine ends_bind (h.observe ?_)
  rintro ((e | level) | _) t hr
  · exact Ends.andThen (ends_notifyEnd ⟨rfl, rfl⟩) (ends_fail (hfailed e t hr))
  · exact ends_endDropped (hdropped level t hr)
  · exact Ends.andThen (ends_notifyEnd ⟨rfl, rfl⟩) (ends_pure (hok t hr))

/-- The error of the body is returned, whatever becomes of the rollback. -/
theorem ends_finishFailed {error : ε} {mid : Except (Stop SqlError) Unit → σ → Prop}
    (h : (c.driver.rollback scope).Ends s mid)
    (hdone : ∀ t, mid (.ok ()) t → post (.error (.failed error)) t)
    (hfailed : ∀ e t, mid (.error (.failed e)) t → post (.error (.failed error)) t)
    (hdropped : ∀ l t, mid (.error (.dropped l)) t → post (.error (.dropped l)) t) :
    (c.finishFailed scope start error : Act σ ε α).Ends s post := by
  refine ends_bind (h.observe ?_)
  rintro ((e | level) | _) t hr
  · refine Ends.andThen (ends_append ⟨rfl, rfl⟩) ?_
    exact Ends.andThen (ends_notifyEnd ⟨rfl, rfl⟩) (ends_fail (hfailed e t hr))
  · exact Ends.stop (ends_endDropped ⟨rfl, rfl⟩) (hdropped level t hr)
  · exact Ends.andThen (ends_notifyEnd ⟨rfl, rfl⟩) (ends_fail (hdone t hr))

/-- A transaction that is opened ends with its body: it is committed, rolled back or let go of. -/
theorem ends_transaction {body : Client σ η → Act σ ε α}
    {opened : Except (Stop SqlError) η → σ → Prop} {left : η → Except (Stop ε) α → σ → Prop}
    (hbegin : (c.driver.begin c.scope).Ends s opened)
    (hrefused : ∀ e t, opened (.error (.failed e)) t →
      post (.error (.failed (CallerError.ofSql e))) t)
    (hunopened : ∀ l t, opened (.error (.dropped l)) t → post (.error (.dropped l)) t)
    (hbody : ∀ scope t, opened (.ok scope) t → (body (c.inside scope)).Ends t (left scope))
    (hreturned : ∀ scope start a t, left scope (.ok a) t →
      (c.finishReturned scope start a : Act σ ε α).Ends t post)
    (hfailed : ∀ scope start e t, left scope (.error (.failed e)) t →
      (c.finishFailed scope start e : Act σ ε α).Ends t post)
    (hdropped : ∀ scope l p, left scope (.error (.dropped l)) p.state →
      post (.error (.dropped l)) (c.driver.drop scope p).state) :
    (c.transaction body).Ends s post := by
  refine ends_now_bind fun start => ends_bind ?_
  refine hbegin.attempt ?_ ?_ hunopened
  · intro scope t ht
    refine Ends.andThen (ends_notify ⟨rfl, rfl⟩) (ends_bind ?_)
    refine (hbody scope t ht).observe ?_
    rintro ((e | level) | a) u hu
    · exact hfailed scope start e u hu
    · refine ends_bind (ends_change ?_)
      rintro p rfl
      exact ends_endDropped (hdropped scope level p hu)
    · exact hreturned scope start a u hu
  · intro e t he
    exact Ends.andThen (ends_notifyEnd ⟨rfl, rfl⟩) (ends_fail (hrefused e t he))

end Transaction

end Client

namespace Act

variable {σ ε δ α β : Type} (f : α → β) (act : Act σ ε α)

theorem map_apply (p : Progress σ) : (f <$> act) p = ((act p).1.map f, (act p).2) := by
  change (f <$> act).run p = ((act.run p).1.map f, (act.run p).2)
  rw [← bind_pure_comp, run_bind]
  rcases act.run p with ⟨_ | _, q⟩ <;> rfl

theorem Ends.map {f : α → β} {act : Act σ ε α} {s : σ} {mid : Except (Stop ε) α → σ → Prop}
    {post : Except (Stop ε) β → σ → Prop} (h : act.Ends s mid)
    (hm : ∀ r t, mid r t → post (r.map f) t) : (f <$> act).Ends s post := by
  intro p hp
  change post ((f <$> act) p).1 ((f <$> act) p).2.state
  rw [map_apply]
  exact hm _ _ (h p hp)

theorem observe_map :
    (observe (f <$> act) : Act σ δ (Except (Stop ε) β)) = Except.map f <$> observe act := by
  funext p
  simp only [map_apply, observe, ofRun, run]
  rfl

theorem attempt_map :
    (attempt (f <$> act) : Act σ δ (Except ε β)) = Except.map f <$> attempt act := by
  funext p
  simp only [map_apply, attempt, ofRun, run]
  rcases act p with ⟨(_ | _) | _, q⟩ <;> rfl

theorem unlessDropped_map (level : Nat) :
    unlessDropped level (f <$> act) = Option.map f <$> unlessDropped level act := by
  funext p
  simp only [map_apply, unlessDropped, ofRun, run]
  rcases act p with ⟨(_ | l) | _, q⟩
  · rfl
  · by_cases h : l = level
    · simp only [if_pos h, Except.map, Option.map]
    · simp only [if_neg h, Except.map]
  · rfl

end Act

namespace Client

variable {σ η ε α β : Type} (f : α → β) (c : Client σ η) (scope : η) (start : Calendar.Instant)

theorem endDropped_map (level : Nat) :
    f <$> (c.endDropped start level : Act σ ε α) = c.endDropped start level := by
  rw [endDropped, map_bind]
  rfl

variable [CallerError ε]

theorem finishReturned_map (a : α) :
    f <$> (c.finishReturned scope start a : Act σ ε α) = c.finishReturned scope start (f a) := by
  rw [finishReturned, finishReturned, map_bind]
  congr 1
  funext r
  rcases r with (e | level) | _
  · simp only [map_bind]
    rfl
  · exact endDropped_map f c start level
  · simp only [map_bind]
    rfl

theorem finishFailed_map (error : ε) :
    f <$> (c.finishFailed scope start error : Act σ ε α) = c.finishFailed scope start error := by
  rw [finishFailed, finishFailed, map_bind]
  congr 1
  funext r
  rcases r with (e | level) | _ <;> simp only [map_bind] <;> rfl

theorem transaction_map (body : Client σ η → Act σ ε α) :
    c.transaction (fun inner => f <$> body inner) = f <$> c.transaction body := by
  rw [transaction, transaction]
  simp only [map_bind]
  congr 1
  funext start
  congr 1
  funext r
  rcases r with e | scope
  · simp only [map_bind]
    rfl
  simp only [map_bind]
  congr 1
  funext _
  rw [Act.observe_map, bind_map_left]
  congr 1
  funext r
  rcases r with (e | level) | a
  · exact (finishFailed_map f c scope start e).symm
  · simp only [Except.map, map_bind, endDropped_map]
  · exact (finishReturned_map f c scope start a).symm

end Client

end SqlClient
