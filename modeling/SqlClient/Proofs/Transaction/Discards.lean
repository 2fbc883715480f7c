import SqlClient.Proofs.Transaction.Journal
import SqlClient.Proofs.Transaction.Programs
/-!
# Discarding under lost answers

A call may be dropped while the server carries its request out, so that nobody knows whether the
savepoint of its scope still stands. The next call discards the scope all the same. Whichever calls
are dropped, the scopes around them stay in order on the server, and a savepoint that is gone back
to is one that was set in the scope, unless one of its name had been left there before.
-/
namespace SqlClient

open SqlClient.Sql SqlClient.Ledger Act

namespace Lossy

section Link

variable {γ α : Type} (judge : Judge γ) (codecs : Wire.Codecs) {depth : Nat}
  {s t : Line (Lossy γ) Ownership}

def connection : Link (Lossy γ) Ownership := Exclusive.link (server judge) codecs

variable {judge codecs}

def InOrder (depth : Nat) (s : Line (Lossy γ) Ownership) : Prop :=
  Orderly depth (s.abandoned 0) s.server.ledger.books s.server.journal

/-- A command has been carried out or refused by the server, and only an answer says which. -/
structure Sent (command : ScopeCommand) (s : Line (Lossy γ) Ownership)
    (r : Except (Stop SqlError) Unit) (t : Line (Lossy γ) Ownership) : Prop where
  abandoned : t.abandoned = s.abandoned
  books : t.server.ledger.books = (runCommand command s.server.ledger.books).2
  journal : t.server.journal =
    ⟨command, s.server.ledger.books, (runCommand command s.server.ledger.books).2⟩ ::
      s.server.journal
  answered : r = .ok () → (runCommand command s.server.ledger.books).1 = .ok ()

theorem outcome_serve {f : Ledger γ → Except ServerError α × Ledger γ} {l : Lossy γ} {a : α}
    (h : (serve f l).1.outcome = .ok a) : (f l.ledger).1 = .ok a := by
  rw [serve] at h
  generalize f l.ledger = result at h ⊢
  obtain ⟨x, ledger⟩ := result
  cases hl : l.losses.head?.join with
  | some level =>
    simp only [hl] at h
    cases h
  | none =>
    simp only [hl] at h
    cases x with
    | ok a' =>
      cases h
      rfl
    | error e => cases h

theorem ends_batch (command : ScopeCommand) :
    ((connection judge codecs).batch command).Ends s (Sent command s) :=
  Exclusive.ends_ask ⟨rfl, rfl, rfl, outcome_serve (f := obey command)⟩

theorem Sent.inOrder {action : ScopeAction} {r : Except (Stop SqlError) Unit}
    (h : Sent ⟨action, depth + 1⟩ s r t)
    (done : Orderly depth ⟨some (depth + 1)⟩
      (runCommand ⟨action, depth + 1⟩ s.server.ledger.books).2
      (⟨⟨action, depth + 1⟩, s.server.ledger.books,
        (runCommand ⟨action, depth + 1⟩ s.server.ledger.books).2⟩ :: s.server.journal)) :
    Orderly depth ⟨some (depth + 1)⟩ t.server.ledger.books t.server.journal := by
  rw [h.books, h.journal]
  exact done

/-- What was left inside is discarded, or the next call tries again. -/
theorem ends_discard (h : InOrder depth s) :
    ((connection judge codecs).discard depth).Ends s fun r t =>
      InOrder depth t ∧ (r = .ok () → t.abandoned 0 = .none) := by
  rcases h.left with ha | ha
  · refine (Exclusive.ends_discard_none (by rw [ha]; rfl)).mono ?_
    rintro r t ⟨rfl, rfl⟩
    exact ⟨h, fun _ => ha⟩
  · have here : (s.abandoned 0).below? depth = some (depth + 1) := by
      rw [ha]
      simp [Abandoned.below?]
    refine Exclusive.ends_discard_some here ((ends_batch ⟨.discard, depth + 1⟩).mono ?_)
    intro r t sent
    have order : Orderly depth ⟨some (depth + 1)⟩ t.server.ledger.books t.server.journal :=
      sent.inOrder (Orderly.command (ha ▸ h) (by decide))
    cases r with
    | error e =>
      refine ⟨by rw [InOrder, sent.abandoned, ha]; exact order, fun returned => ?_⟩
      cases returned
    | ok _ =>
      have gone : (t.changeAbandoned 0 (·.settle (depth + 1))).abandoned 0 = .none := by
        change (t.abandoned 0).settle (depth + 1) = .none
        rw [sent.abandoned, ha]
        exact if_pos rfl
      exact ⟨by rw [InOrder, gone]; exact order.settled, fun _ => gone⟩

theorem InOrder.ended (h : InOrder depth s) (d : Nat) : InOrder depth (Exclusive.ended d s) := by
  rw [Exclusive.ended]
  split
  · exact h
  · exact h

theorem abandoned_letGo (d : Nat) :
    (Exclusive.letGo d s).abandoned 0 = (s.abandoned 0).abandon d := by
  rw [Exclusive.letGo, Exclusive.ended]
  split <;> rfl

theorem server_letGo (d : Nat) : (Exclusive.letGo d s).server = s.server := by
  rw [Exclusive.letGo, Exclusive.ended]
  split <;> rfl

theorem InOrder.letGo (h : InOrder (depth + 1) s) :
    InOrder depth (Exclusive.letGo (depth + 1) s) := by
  have shallowest : (s.abandoned 0).abandon (depth + 1) = ⟨some (depth + 1)⟩ := by
    rcases h.left with ha | ha
    · rw [ha]
      rfl
    · simp [ha, Abandoned.abandon]
  rw [InOrder, abandoned_letGo, server_letGo, shallowest]
  exact Orderly.letGo h

def Opened (depth : Nat) (r : Except (Stop SqlError) OpenScope) (t : Line (Lossy γ) Ownership) :
    Prop :=
  match r with
  | .ok scope => scope = ⟨0, depth + 1⟩ ∧ InOrder (depth + 1) t
  | .error _ => InOrder depth t

theorem ends_enter (h : InOrder depth s) (ha : s.abandoned 0 = .none) :
    ((connection judge codecs).enter (depth + 1)).Ends s (Opened depth) := by
  have before : Orderly depth .none s.server.ledger.books s.server.journal := ha ▸ h
  have left {r : Except (Stop SqlError) Unit} {t : Line (Lossy γ) Ownership}
      (sent : Sent ⟨.begin, depth + 1⟩ s r t) := sent.inOrder before.begun
  have mine {r : Except (Stop SqlError) Unit} {t : Line (Lossy γ) Ownership}
      (sent : Sent ⟨.begin, depth + 1⟩ s r t) : t.abandoned 0 = .none := by
    rw [sent.abandoned, ha]
  refine ends_bind ((ends_batch ⟨.begin, depth + 1⟩).cleanUp ?_ ?_ ?_)
  · intro _ t sent
    refine ends_pure ⟨rfl, ?_⟩
    rw [InOrder, mine sent]
    refine (left sent).entered fun hd => ?_
    rw [sent.books]
    exact stands_begun depth _ (sent.answered rfl) hd
  · intro e t sent
    refine InOrder.ended ?_ _
    rw [InOrder, mine sent]
    exact (left sent).settled
  · intro level t sent
    have noted : (t.abandoned 0).abandon (depth + 1) = ⟨some (depth + 1)⟩ := by
      rw [mine sent]
      rfl
    change InOrder depth (Exclusive.letGo (depth + 1) t)
    rw [InOrder, abandoned_letGo, server_letGo, noted]
    exact left sent

/-- However the end of a scope is answered, the scopes around it are in order. -/
theorem ends_finish {action : ScopeAction} (ends : action ≠ .begin) (h : InOrder (depth + 1) s) :
    ((connection judge codecs).finish action (depth + 1)).Ends s fun _ t =>
      InOrder depth t := by
  refine ends_bind ((ends_discard h).cleanUp ?_ ?_ ?_)
  · rintro _ t ⟨h, settled⟩
    have ha := settled rfl
    have before : Orderly (depth + 1) .none t.server.ledger.books t.server.journal := ha ▸ h
    have left {r : Except (Stop SqlError) Unit} {u : Line (Lossy γ) Ownership}
        (sent : Sent ⟨action, depth + 1⟩ t r u) := sent.inOrder (before.letGo.command ends)
    have ended {r : Except (Stop SqlError) Unit} {u : Line (Lossy γ) Ownership}
        (sent : Sent ⟨action, depth + 1⟩ t r u) : InOrder depth u := by
      rw [InOrder, sent.abandoned, ha]
      exact (left sent).settled
    refine ends_bind ((ends_batch ⟨action, depth + 1⟩).cleanUp ?_ ?_ ?_)
    · intro _ u sent
      exact ends_changeState ((ended sent).ended _)
    · intro e u sent
      exact (ended sent).ended _
    · intro level u sent
      have noted : (u.abandoned 0).abandon (depth + 1) = ⟨some (depth + 1)⟩ := by
        rw [sent.abandoned, ha]
        rfl
      change InOrder depth (Exclusive.letGo (depth + 1) u)
      rw [InOrder, abandoned_letGo, server_letGo, noted]
      exact left sent
  · rintro e t ⟨h, -⟩
    exact h.letGo
  · rintro level t ⟨h, -⟩
    exact h.letGo

structure Undisturbed (s t : Line (Lossy γ) Ownership) : Prop where
  abandoned : t.abandoned = s.abandoned
  journal : t.server.journal = s.server.journal
  saved : t.server.ledger.books.saved = s.server.ledger.books.saved
  pending : s.server.ledger.books.pending <+: t.server.ledger.books.pending

theorem Undisturbed.trans {u : Line (Lossy γ) Ownership} (h : Undisturbed s t)
    (h' : Undisturbed t u) : Undisturbed s u where
  abandoned := h'.abandoned.trans h.abandoned
  journal := h'.journal.trans h.journal
  saved := h'.saved.trans h.saved
  pending := h.pending.trans h'.pending

theorem Undisturbed.inOrder (h : Undisturbed s t) (order : InOrder depth s) : InOrder depth t := by
  rw [InOrder, h.abandoned, h.journal]
  exact Orderly.grown order h.saved h.pending

theorem saved_judged (l : Ledger γ) (ask : List Write → γ → Except ServerError α × γ)
    (done : Books → Books) (saved : (done l.books).saved = l.books.saved)
    (pending : l.books.pending <+: (done l.books).pending) :
    (l.judged ask done).2.books.saved = l.books.saved ∧
      l.books.pending <+: (l.judged ask done).2.books.pending := by
  rw [judged]
  split
  · exact ⟨rfl, List.prefix_rfl⟩
  · split
    · exact ⟨saved, pending⟩
    · exact ⟨l.books.saved_abort, l.books.pending_abort ▸ List.prefix_rfl⟩

theorem ends_serve {request : Request} {f : Ledger γ → Except ServerError α × Ledger γ}
    (h : (f s.server.ledger).2.books.saved = s.server.ledger.books.saved ∧
      s.server.ledger.books.pending <+: (f s.server.ledger).2.books.pending) :
    ((connection judge codecs).ask request (serve f)).Ends s fun _ t =>
      Undisturbed s t :=
  Exclusive.ends_ask ⟨rfl, rfl, h.1, h.2⟩

theorem ends_prepare (sql : String) :
    ((connection judge codecs).ask (.prepare sql)
      ((connection judge codecs).server.prepare (connection judge codecs).connection sql)).Ends s
      fun _ t => Undisturbed s t := by
  have kept := saved_judged s.server.ledger (fun seen m => judge.prepare seen sql m) id rfl
    List.prefix_rfl
  exact ends_serve (f := Ledger.prepare judge sql) kept

theorem ends_send (sql : String) (params : List (Option Bytes)) :
    ((connection judge codecs).ask (.execute params)
      ((connection judge codecs).server.execute (connection judge codecs).connection sql
        params)).Ends s fun _ t => Undisturbed s t := by
  have kept := saved_judged s.server.ledger (fun seen m => judge.execute seen ⟨sql, params⟩ m)
    (Books.record ⟨sql, params⟩) (Books.saved_record _ _) (Books.pending_record _ _)
  exact ends_serve (f := Ledger.execute judge ⟨sql, params⟩) kept

theorem ends_run (st : Statement) :
    ((connection judge codecs).run st).Ends s fun _ t => Undisturbed s t := by
  refine (ends_prepare st.text).bind ?_ fun _ _ h => h
  intro prepared t h
  cases encodeParams prepared.params st.params with
  | error e => exact Ends.stop (ends_fail ⟨rfl, rfl⟩) h
  | ok params =>
    refine Ends.andThen (ends_pure ⟨rfl, rfl⟩) ?_
    refine (ends_send st.text params).bind ?_ fun _ _ h' => h.trans h'
    intro rows u h'
    cases (connection judge codecs).codecs.decodeRows prepared.columns rows with
    | error e => exact Ends.stop (ends_fail ⟨rfl, rfl⟩) (h.trans h')
    | ok rs => exact Ends.andThen (ends_pure ⟨rfl, rfl⟩) (ends_pure (h.trans h'))

theorem ends_execute (st : Statement) (h : InOrder depth s) :
    ((connection judge codecs).execute depth st).Ends s fun _ t =>
      InOrder depth t :=
  (ends_discard h).bind
    (fun _ _ ends => (ends_run st).mono fun _ _ undisturbed => undisturbed.inOrder ends.1)
    fun _ _ ends => ends.1

def handle? : Nat → Option OpenScope
  | 0 => none
  | above + 1 => some ⟨0, above + 1⟩

theorem ends_driver_execute (st : Statement) (h : InOrder depth s) :
    ((Exclusive.driver (server judge) codecs).execute (handle? depth) st).Ends s fun _ t =>
      InOrder depth t := by
  have inside : ((connection judge codecs).execute depth st).Ends s fun _ t => InOrder depth t :=
    ends_execute st h
  cases depth with
  | succ above => exact inside
  | zero =>
    refine Exclusive.ends_requireFree_same.bind ?_ ?_
    · rintro _ t rfl
      exact inside
    · rintro _ t rfl
      exact h

theorem ends_begin (h : InOrder 0 s) :
    (Exclusive.begin (connection judge codecs)).Ends s (Opened 0) := by
  refine Exclusive.ends_requireFree_same.bind ?_ ?_
  · rintro _ t rfl
    refine Ends.andThen (ends_changeState ⟨rfl, rfl⟩) ?_
    have owned : InOrder 0 (Exclusive.setOwned true t) := h
    refine ends_bind ((ends_discard owned).cleanUp ?_ ?_ ?_)
    · rintro _ t ⟨h, settled⟩
      exact ends_enter h (settled rfl)
    · rintro _ t ⟨h, -⟩
      exact h
    · rintro _ t ⟨h, -⟩
      exact h
  · rintro _ t rfl
    exact h

theorem ends_driver_begin (h : InOrder depth s) :
    ((Exclusive.driver (server judge) codecs).begin (handle? depth)).Ends s (Opened depth) := by
  cases depth with
  | zero =>
    have begun : (Exclusive.begin (connection judge codecs)).Ends s (Opened 0) := ends_begin h
    exact begun
  | succ above =>
    have inside : ((connection judge codecs).enterInside (above + 1)).Ends s
        (Opened (above + 1)) := by
      refine (ends_discard h).bind ?_ ?_
      · rintro _ t ⟨h, settled⟩
        exact ends_enter h (settled rfl)
      · rintro _ t ⟨h, -⟩
        exact h
    exact inside

theorem ends_driver_commit (h : InOrder (depth + 1) s) :
    ((Exclusive.driver (server judge) codecs).commit ⟨0, depth + 1⟩).Ends s fun _ t =>
      InOrder depth t := by
  have finished : ((connection judge codecs).finish .commit (depth + 1)).Ends s fun _ t =>
    InOrder depth t := ends_finish (by decide) h
  exact finished

theorem ends_driver_rollback (h : InOrder (depth + 1) s) :
    ((Exclusive.driver (server judge) codecs).rollback ⟨0, depth + 1⟩).Ends s fun _ t =>
      InOrder depth t := by
  have finished : ((connection judge codecs).finish .rollback (depth + 1)).Ends s fun _ t =>
    InOrder depth t := ends_finish (by decide) h
  exact finished

end Link

section Callback

variable {γ ε α : Type} {judge : Judge γ} {codecs : Wire.Codecs} {depth : Nat}
  {s : Line (Lossy γ) Ownership} {c : Client (Line (Lossy γ) Ownership) OpenScope}

structure Inside (judge : Judge γ) (codecs : Wire.Codecs)
    (c : Client (Line (Lossy γ) Ownership) OpenScope) (depth : Nat) : Prop where
  driver : c.driver = Exclusive.driver (server judge) codecs
  scope : c.scope = handle? depth

theorem ends_query (hc : Inside judge codecs c depth) (st : Statement) (h : InOrder depth s) :
    (c.query st).Ends s fun _ t => InOrder depth t := by
  have asked : (c.driver.execute c.scope st).Ends s fun _ t => InOrder depth t := by
    rw [hc.driver, hc.scope]
    exact ends_driver_execute st h
  exact Client.ends_query asked (fun _ _ h => h) fun _ _ h => h

theorem ends_transaction [CallerError ε]
    {body : Client (Line (Lossy γ) Ownership) OpenScope → Act (Line (Lossy γ) Ownership) ε α}
    (hc : Inside judge codecs c depth) (h : InOrder depth s)
    (hbody : ∀ inner t, Inside judge codecs inner (depth + 1) → InOrder (depth + 1) t →
      (body inner).Ends t fun _ u => InOrder (depth + 1) u) :
    (c.transaction body).Ends s fun _ t => InOrder depth t := by
  have begun : (c.driver.begin c.scope).Ends s (Opened depth) := by
    rw [hc.driver, hc.scope]
    exact ends_driver_begin h
  have inside (scope : OpenScope) (t : Line (Lossy γ) Ownership)
      (ht : Opened depth (.ok scope) t) : (body (c.inside scope)).Ends t fun _ u =>
        scope = ⟨0, depth + 1⟩ ∧ InOrder (depth + 1) u := by
    obtain ⟨rfl, h⟩ := ht
    have hc' : Inside judge codecs (c.inside ⟨0, depth + 1⟩) (depth + 1) := ⟨hc.driver, rfl⟩
    exact (hbody _ t hc' h).mono fun _ _ h => ⟨rfl, h⟩
  refine Client.ends_transaction begun (fun _ _ h => h) (fun _ _ h => h) inside ?_ ?_ ?_
  · rintro scope start a t ⟨rfl, h⟩
    have commit : (c.driver.commit ⟨0, depth + 1⟩).Ends t fun _ u => InOrder depth u := by
      rw [hc.driver]
      exact ends_driver_commit h
    exact Client.ends_finishReturned commit (fun _ h => h) (fun _ _ h => h) fun _ _ h => h
  · rintro scope start e t ⟨rfl, h⟩
    have rollback : (c.driver.rollback ⟨0, depth + 1⟩).Ends t fun _ u => InOrder depth u := by
      rw [hc.driver]
      exact ends_driver_rollback h
    exact Client.ends_finishFailed rollback (fun _ h => h) (fun _ _ h => h) fun _ _ h => h
  · rintro scope level p ⟨rfl, h⟩
    rw [hc.driver]
    exact h.letGo

/-- Whatever a callback does and whichever of its calls are dropped, the scopes around it are in
order. -/
theorem ends_callback [CallerError ε] {body : Callback ε α} (hc : Inside judge codecs c depth)
    (h : InOrder depth s) : (body.run c).Ends s fun _ t => InOrder depth t := by
  induction body generalizing c depth s with
  | returns a => exact ends_pure h
  | fails error => exact ends_fail h
  | drop level => exact ends_drop h
  | statement st next ih =>
    refine (ends_query hc st h).goesOn ?_ ?_ ?_ fun _ _ h => h
    · exact fun _ _ h => ih _ hc h
    · exact fun _ _ h => ih _ hc h
    · exact fun _ h => ih _ hc h
  | scope body next ihbody ihnext =>
    have called := ends_transaction hc h fun _ _ hc' h' => ihbody hc' h'
    refine called.goesOn ?_ ?_ ?_ fun _ _ h => h
    · exact fun _ _ h => ihnext _ hc h
    · exact fun _ _ h => ihnext _ hc h
    · exact fun _ h => ihnext _ hc h

theorem inOrder_start (memory : γ) (losses : List (Option Nat)) :
    InOrder 0 (Exclusive.start (new memory losses)) where
  left := .inl rfl
  stacked := .nil
  standing d hd hle := by omega
  kept d hd open_ := by
    rcases open_ with hle | he
    · omega
    · cases he
  sound := sound_nil

def root (judge : Judge γ) (codecs : Wire.Codecs) (context : Context) :
    Client (Line (Lossy γ) Ownership) OpenScope :=
  { driver := Exclusive.driver (server judge) codecs, context }

/-- Whichever calls are dropped while the server carries their requests out, discarding a scope
undoes nothing that was pending before it was opened, if no savepoint of its name was left then. -/
theorem sound_run [CallerError ε] (context : Context) (body : Callback ε α) {memory : γ}
    {losses : List (Option Nat)} {p : Progress (Line (Lossy γ) Ownership)}
    (start : p.state = Exclusive.start (new memory losses)) :
    Sound ((body.run (root judge codecs context)).run p).2.state.server.journal := by
  have outside : Inside judge codecs (root judge codecs context) 0 := ⟨rfl, rfl⟩
  exact (ends_callback outside (inOrder_start memory losses) p start).sound

end Callback

def willing : Judge Unit where
  prepare _ _ m := (.ok ⟨[], []⟩, m)
  execute _ _ m := (.ok [], m)

def writing : Callback SqlError Unit :=
  .statement (insertInto "a") fun _ => .scope (.returns ()) fun _ =>
    .statement (insertInto "b") fun _ => .returns ()

def retrying : Callback SqlError Unit := .scope (.fails (.other "no")) fun _ => writing

def fresh (losses : List (Option Nat)) : Progress (Line (Lossy Unit) Ownership) where
  state := Exclusive.start (new () losses)
  now := Ledger.fresh.now

def after (body : Callback SqlError Unit) (losses : List (Option Nat)) : Lossy Unit :=
  (((Callback.scope body fun _ => .returns ()).run (root willing ⟨[], .text⟩ {})).run
    (fresh losses)).2.state.server

/-- The savepoint was released, so that the server refuses to go back to it. -/
theorem sound_run_writing :
    let losses := [none, none, none, none, some 2]
    (fresh losses).state = Exclusive.start (new () losses) ∧ Sound (after writing losses).journal ∧
      (after writing losses).journal.map (fun turn => (turn.command, turn.after.pending.length)) =
        [(⟨.discard, 2⟩, 1), (⟨.discard, 2⟩, 1), (⟨.commit, 2⟩, 1), (⟨.begin, 2⟩, 1),
          (⟨.begin, 1⟩, 0)] := by
  intro losses
  have start : (fresh losses).state = Exclusive.start (new () losses) := rfl
  have sound : Sound (after writing losses).journal := by
    rw [after]
    exact sound_run {} _ start
  exact ⟨start, sound, by decide +kernel⟩

/-- The scope that failed has left its savepoint. With the answer to a release that was carried out
lost, going back to that name undoes the first write, and the transaction is committed without. -/
theorem lost_release_undoes :
    ¬∀ (body : Callback SqlError Unit) (losses : List (Option Nat)) (turn opening : Turn)
      (earlier : List Turn) (depth : Nat), turn :: earlier <:+ (after body losses).journal →
      2 ≤ depth → turn.command = ⟨.discard, depth⟩ → opening? depth earlier = some opening →
      opening.before.pending <+: turn.after.pending := by
  intro spared
  let losses := [none, none, none, none, none, none, some 2]
  have undone : ∃ turn ∈ (after retrying losses).journal.tail.head?,
      ∃ opening ∈ opening? 2 (after retrying losses).journal.tail.tail,
        turn.command = ⟨.discard, 2⟩ ∧ ¬opening.before.pending <+: turn.after.pending := by
    decide +kernel
  obtain ⟨turn, hturn, opening, hopening, command, undone⟩ := undone
  have here : turn :: (after retrying losses).journal.tail.tail <:+
      (after retrying losses).journal := by
    rw [List.cons_head?_tail hturn]
    exact List.tail_suffix _
  exact undone (spared retrying losses turn opening _ 2 here (by decide) command hopening)

end Lossy

end SqlClient
