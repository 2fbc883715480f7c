import SqlClient.Proofs.Client.Brackets
import SqlClient.Proofs.Transaction.Programs
/-!
# Commits of failed transactions

A callback may pass over the error of a statement. The server has aborted the transaction then: it
refuses all that is asked of it but to roll back, and a commit is such a rollback, which is not
reported as an error. What a call that returned has made durable is all that its callback kept, if
the commit found a transaction that was not aborted, and nothing otherwise.
-/
namespace SqlClient

open SqlClient.Sql SqlClient.Ledger Act

def keptIn {ε α : Type} : Except ε (α × List Statement) → List Statement
  | .ok (_, done) => done
  | .error _ => []

/-- The same callback, which also returns the statements of `done` and those it kept: those carried
out here, and what a scope inside returned. -/
def Callback.keeping {ε α : Type} :
    Callback ε α → List Statement → Callback ε (α × List Statement)
  | .returns a, done => .returns (a, done)
  | .fails error, _ => .fails error
  | .drop level, _ => .drop level
  | .statement st next, done => .statement st fun x =>
    (next x).keeping (done ++ x.elim [] (Ledger.kept st))
  | .scope body next, done => .scope (body.keeping []) fun x =>
    (next (x.map (·.map Prod.fst))).keeping (done ++ x.elim [] keptIn)

theorem Callback.run_keeping {σ η ε α : Type} [CallerError ε] (body : Callback ε α)
    (c : Client σ η) (done : List Statement) :
    Prod.fst <$> (body.keeping done).run c = body.run c := by
  induction body generalizing c done with
  | returns a => rfl
  | fails error => rfl
  | drop level => rfl
  | statement st next ih =>
    rw [keeping, run, run, map_bind]
    congr 1
    funext x
    exact ih x c _
  | scope body next ihbody ihnext =>
    have plain : body.run = fun inner : Client σ η => Prod.fst <$> (body.keeping []).run inner :=
      funext fun inner => (ihbody inner []).symm
    rw [keeping, run, run, map_bind, plain, Client.transaction_map, attempt_map,
      unlessDropped_map, bind_map_left]
    congr 1
    funext x
    exact ihnext _ c _

theorem Callback.transaction_keeping {σ η ε α : Type} [CallerError ε] (body : Callback ε α)
    (c : Client σ η) :
    Prod.fst <$> c.transaction (body.keeping []).run = c.transaction body.run := by
  rw [← Client.transaction_map]
  exact congrArg c.transaction (funext fun inner => body.run_keeping inner [])

namespace Ledger

section Link

variable {γ ε α : Type} {judge : Judge γ} {codecs : Wire.Codecs}
  {s t : Line (Ledger γ) Ownership} {place inner : Place} {writes added : List Write}
  {done : List Statement} {c : Client (Line (Ledger γ) Ownership) OpenScope}

/-- A commit would find the transaction aborted: nothing that was dropped is discarded before. -/
def Doomed (s : Line (Ledger γ) Ownership) : Prop :=
  s.abandoned 0 = .none ∧ s.server.books.isAborted = true

/-- Whether a statement has failed matters only to a transaction that was aborted. -/
theorem Place.Holds.failing {failed failed' : Bool} (h : place.Holds writes failed s)
    (hs : Doomed s → failed' = true) : place.Holds writes failed' s := by
  refine ⟨h.owned, ?_⟩
  cases place with
  | free base => exact h.stands
  | scope above below durable base =>
    obtain ⟨hd, b, hb, hi⟩ := h.stands
    refine ⟨hd, b, hb, ?_⟩
    generalize ha : s.abandoned 0 = a at hi
    cases hi with
    | settled deeper saved kept _ =>
      refine .settled deeper saved kept fun aborted => hs ⟨ha, ?_⟩
      rw [Books.isAborted, hb]
      exact aborted
    | abandoned inside deeper saved => exact .abandoned inside deeper saved

theorem Doomed.block (hs : Doomed s) :
    ∃ b, s.server.books = ⟨s.server.books.durable, some b⟩ ∧ b.aborted = true := by
  have aborted := hs.2
  rw [Books.isAborted] at aborted
  cases hb : s.server.books.block with
  | none =>
    rw [hb] at aborted
    cases aborted
  | some b =>
    rw [hb] at aborted
    exact ⟨b, books_eq rfl hb, aborted⟩

theorem ends_doomed_discard (hs : Doomed s) (depth : Nat) :
    ((connection judge codecs).discard depth).Ends s fun r t => r = .ok () ∧ t = s :=
  Exclusive.ends_discard_none (by rw [hs.1]; rfl)

theorem ends_doomed_execute (hs : Doomed s) (depth : Nat) (st : Statement) :
    ((connection judge codecs).execute depth st).Ends s fun r t =>
      r = .error (.failed (.ofServer abortedRefusal)) ∧ t = s := by
  refine Ends.andThen (ends_doomed_discard hs depth) ?_
  have refused : (connection judge codecs).server.prepare (connection judge codecs).connection
      st.text s.server = (reply (.error abortedRefusal), s.server) := by
    change ((s.server.prepare judge st.text).map reply id) = _
    rw [Ledger.prepare, judged, if_pos hs.2]
    rfl
  exact Ends.stop (ends_ask refused ⟨rfl, rfl⟩) ⟨rfl, rfl⟩

theorem ends_doomed_enterInside (hs : Doomed s) (above : Nat) :
    ((connection judge codecs).enterInside (above + 1)).Ends s fun r t =>
      r = .error (.failed (.ofServer abortedRefusal)) ∧ t = s := by
  refine Ends.andThen (ends_doomed_discard hs _) ?_
  obtain ⟨b, hb, aborted⟩ := hs.block
  have refused : runCommand ⟨.begin, above + 2⟩ s.server.books =
      (.error abortedRefusal, s.server.books) := by
    rw [hb]
    exact run_savepoint_aborted aborted
  refine (ends_enter_refused refused).mono ?_
  rintro r t ⟨rfl, rfl⟩
  exact ⟨rfl, ended_savepoint above _⟩

theorem run_release_aborted {above : Nat} {durable : List Write} {b : Block}
    (aborted : b.aborted = true) : runCommand ⟨.commit, above + 2⟩ ⟨durable, some b⟩ =
      (.error abortedRefusal, ⟨durable, some b⟩) := by
  rw [runCommand_eq, ScopeCommand.controls, if_neg (by simp)]
  cases b
  simp_all [runControls, control, changeBlock, Books.abort]

/-- A savepoint is not released in an aborted transaction, and its scope is over all the same. -/
theorem ends_doomed_release (hs : Doomed s) (above : Nat) :
    ((connection judge codecs).finish .commit (above + 2)).Ends s fun r t =>
      r = .error (.failed (.ofServer abortedRefusal)) ∧ t = s := by
  refine (ends_doomed_discard hs _).cleanUp_ok.andThen ?_
  obtain ⟨b, hb, aborted⟩ := hs.block
  have refused : runCommand ⟨.commit, above + 2⟩ s.server.books =
      (.error abortedRefusal, s.server.books) := by
    rw [hb]
    exact run_release_aborted aborted
  refine Ends.stop (Ends.cleanUp_failed (ends_batch refused ⟨rfl, rfl⟩)) ⟨rfl, ?_⟩
  exact ended_savepoint above _

/-- The commit of an aborted transaction is answered as any other. -/
theorem ends_doomed_commit (hs : Doomed s) :
    ((connection judge codecs).finish .commit 1).Ends s fun r t =>
      r = .ok () ∧ t.keeping.owned = false ∧ t.abandoned 0 = .none ∧
        t.server.books = ⟨s.server.books.durable, none⟩ := by
  refine (ends_doomed_discard hs 1).cleanUp_ok.andThen ?_
  obtain ⟨b, hb, aborted⟩ := hs.block
  have rolled : runCommand ⟨.commit, 1⟩ s.server.books =
      (.ok (), ⟨s.server.books.durable, none⟩) := by
    rw [hb, runCommand_eq]
    simp [ScopeCommand.controls, runControls, control, aborted]
  refine Ends.andThen (ends_batch_ok rolled).cleanUp_ok ?_
  exact ends_changeState ⟨rfl, rfl, hs.1, rfl⟩

/-- What is pending in a scope is what was kept there, unless it can only be rolled back. -/
structure Place.Accounts (place : Place) (writes : List Write) (done : List Statement)
    (s : Line (Ledger γ) Ownership) : Prop where
  holds : place.Holds writes true s
  carries : place.handle?.isSome → ¬Doomed s → List.Forall₂ Carries writes done

def Place.Stuck (place : Place) (s : Line (Ledger γ) Ownership) : Prop :=
  place.handle?.isSome ∧ Doomed s

theorem Place.Accounts.known (h : place.Accounts writes done s) (hs : ¬place.Stuck s)
    (inside : place.handle?.isSome) : List.Forall₂ Carries writes done :=
  h.carries inside fun doomed => hs ⟨inside, doomed⟩

theorem Place.Ran.accounts {st : Statement} {x : Except SqlError ResultSet}
    (h : place.Ran writes true st x t)
    (known : place.handle?.isSome → List.Forall₂ Carries writes done) :
    ∃ writes', place.Accounts writes' (done ++ Ledger.kept st x) t := by
  cases h with
  | @carried w hx hw h =>
    refine ⟨writes ++ [w], h, fun inside _ => ?_⟩
    rw [Ledger.kept, if_pos hx]
    exact List.rel_append (known inside) (.cons hw .nil)
  | failed hx h =>
    refine ⟨writes, h, fun inside _ => ?_⟩
    simpa [Ledger.kept, hx] using known inside

theorem ends_accounts_query {st : Statement} (hc : At judge codecs c place)
    (h : place.Accounts writes done s) : (c.query st).Ends s fun r t =>
      ∃ x, r = x.mapError .failed ∧ ∃ writes', place.Accounts writes' (done ++ kept st x) t := by
  -- what is said of statements elsewhere leaves open whether they fail in an aborted transaction
  by_cases hs : place.Stuck s
  · obtain ⟨inside, doomed⟩ := hs
    have asked : (c.driver.execute c.scope st).Ends s fun r t =>
        r = .error (.failed (.ofServer abortedRefusal)) ∧ t = s := by
      rw [hc.driver, hc.scope]
      cases place with
      | free base => cases inside
      | scope above below durable base =>
        have refused : ((connection judge codecs).execute (above + 1) st).Ends s _ :=
          ends_doomed_execute doomed _ st
        exact refused
    refine Client.ends_query asked (fun _ _ h => nomatch h.1) ?_
    rintro _ t ⟨he, rfl⟩
    cases he
    exact ⟨.error _, rfl, writes, h.holds, fun _ alive => absurd doomed alive⟩
  · refine (ends_query hc h.holds).mono ?_
    rintro r t ⟨x, rfl, ran⟩
    exact ⟨x, rfl, ran.accounts (h.known hs)⟩

def Place.Started (place : Place) (writes : List Write) (done : List Statement)
    (r : Except (Stop SqlError) OpenScope) (t : Line (Ledger γ) Ownership) : Prop :=
  match r with
  | .ok opened => opened = ⟨0, place.depth + 1⟩ ∧
    (place.handle?.isSome → List.Forall₂ Carries writes done) ∧
      ∃ inner, place.Opens writes inner ∧ inner.Accounts [] [] t
  | .error (.failed _) => place.Accounts writes done t
  | .error (.dropped _) => False

theorem ends_started (hc : At judge codecs c place) (h : place.Accounts writes done s) :
    (c.driver.begin c.scope).Ends s (place.Started writes done) := by
  by_cases hs : place.Stuck s
  · obtain ⟨inside, doomed⟩ := hs
    rw [hc.driver, hc.scope]
    cases place with
    | free base => cases inside
    | scope above below durable base =>
      have refused : ((connection judge codecs).enterInside (above + 1)).Ends s _ :=
        ends_doomed_enterInside doomed above
      refine refused.mono ?_
      rintro r t ⟨rfl, rfl⟩
      exact h
  · refine (hc.begin h.holds).mono ?_
    intro r t begun
    cases begun with
    | @opened inner _ ho opened =>
      exact ⟨rfl, h.known hs, inner, ho, opened.failing fun _ => rfl, fun _ _ => .nil⟩
    | refused holds => exact ⟨holds, fun inside _ => h.known hs inside⟩

section Ending

variable {doneIn : List Statement}

/-- What the answer to a commit says of the scope: all that was kept in it is now at the place
around it, or nothing of an aborted transaction, if that was a transaction and not a savepoint. -/
def Place.Answered (place : Place) (writes : List Write) (done doneIn : List Statement)
    (s : Line (Ledger γ) Ownership) (r : Except (Stop SqlError) Unit)
    (t : Line (Ledger γ) Ownership) : Prop :=
  match r with
  | .ok () => ∃ kept, place.Holds (writes ++ kept) true t ∧
    (Doomed s → place.handle? = none ∧ kept = []) ∧ (¬Doomed s → List.Forall₂ Carries kept doneIn)
  | .error (.failed _) => ∃ writes', place.Accounts writes' done t
  | .error (.dropped _) => False

theorem Place.Accounts.free {base : List Write} (h : (Place.free base).Holds writes true s) :
    (Place.free base).Accounts writes done s :=
  ⟨h, nofun⟩

/-- A scope that is over and could not be released has left its writes in the one around it. -/
theorem holds_unreleased (ho : place.Opens writes inner) (inside : place.handle?.isSome)
    (h : inner.Holds added true s) (doomed : Doomed s) :
    place.Holds (writes ++ added) true s := by
  cases ho with
  | transaction base writes => cases inside
  | @savepoint above below upper durable base writes deeper =>
    obtain ⟨owned, hd, b, hb, hi⟩ := h
    refine ⟨owned, hd, b, hb, ?_⟩
    rw [doomed.1] at hi ⊢
    cases hi with
    | @settled top _ within saved kept alive =>
      have stays : ∀ p ∈ top ++ ⟨ScopeCommand.savepointName (above + 2), base ++ writes⟩ :: upper,
          Deeper (above + 1) p := deeper_append within rfl deeper
      exact .settled stays (by simp [saved]) (by simp [kept]) alive

theorem ends_answered (hc : At judge codecs c place) (ho : place.Opens writes inner)
    (h : inner.Accounts added doneIn s) :
    (c.driver.commit ⟨0, place.depth + 1⟩).Ends s (place.Answered writes done doneIn s) := by
  by_cases doomed : Doomed s
  -- the server refuses to release a savepoint of an aborted transaction, but not to commit it
  · rw [hc.driver]
    cases place with
    | free base =>
      have committed : ((connection judge codecs).finish .commit 1).Ends s _ :=
        ends_doomed_commit doomed
      refine committed.mono ?_
      rintro r t ⟨rfl, owned, settled, books⟩
      refine ⟨[], ⟨owned, ?_⟩, fun _ => ⟨rfl, rfl⟩, fun alive => absurd doomed alive⟩
      cases ho with
      | transaction base writes =>
        obtain ⟨hd, -⟩ := h.holds.stands
        rw [books, settled, List.append_nil]
        exact ⟨hd, .inl ⟨rfl, rfl⟩⟩
    | scope above below durable base =>
      have refused : ((connection judge codecs).finish .commit (above + 2)).Ends s _ :=
        ends_doomed_release doomed above
      refine refused.mono ?_
      rintro r t ⟨rfl, rfl⟩
      exact ⟨_, holds_unreleased ho rfl h.holds doomed, fun _ alive => absurd doomed alive⟩
  · have opened : inner.handle?.isSome := by rw [ho.handle?]; rfl
    have alive : inner.Holds added false s := h.holds.failing fun hs => absurd hs doomed
    have committed : (c.driver.commit ⟨0, place.depth + 1⟩).Ends s fun r t =>
        r = .ok () ∧ place.Holds (writes ++ added) true t := hc.commit ho alive
    refine committed.mono ?_
    rintro r t ⟨rfl, holds⟩
    exact ⟨added, holds, fun hs => absurd hs doomed, fun _ => h.carries opened doomed⟩

theorem Place.Answered.accounts {t : Line (Ledger γ) Ownership}
    (h : place.Answered writes done doneIn s (.ok ()) t)
    (known : place.handle?.isSome → List.Forall₂ Carries writes done) :
    ∃ writes', place.Accounts writes' (done ++ doneIn) t := by
  obtain ⟨kept, holds, nothing, all⟩ := h
  refine ⟨_, holds, fun inside _ => List.rel_append (known inside) (all fun doomed => ?_)⟩
  rw [(nothing doomed).1] at inside
  cases inside

def Place.Kept (place : Place) (r : Except (Stop ε) (α × List Statement))
    (t : Line (Ledger γ) Ownership) : Prop :=
  ∃ writes done, place.Accounts writes done t ∧ ∀ a kept, r = .ok (a, kept) → kept = done

def Place.Inside (place : Place) (writes : List Write) (done : List Statement) (scope : OpenScope)
    (r : Except (Stop ε) (α × List Statement)) (t : Line (Ledger γ) Ownership) : Prop :=
  scope = ⟨0, place.depth + 1⟩ ∧ (place.handle?.isSome → List.Forall₂ Carries writes done) ∧
    ∃ inner, place.Opens writes inner ∧ inner.Kept r t

def Place.Resumed (place : Place) (done : List Statement)
    (r : Except (Stop ε) (α × List Statement)) (t : Line (Ledger γ) Ownership) : Prop :=
  ∃ writes, place.Accounts writes (done ++ keptIn r) t

theorem Place.Accounts.resumed {stop : Stop ε} (h : place.Accounts writes done s) :
    place.Resumed done (.error stop : Except (Stop ε) (α × List Statement)) s :=
  ⟨writes, by simpa [keptIn] using h⟩

theorem ends_transaction_kept [CallerError ε]
    {body : Client (Line (Ledger γ) Ownership) OpenScope →
      Act (Line (Ledger γ) Ownership) ε (α × List Statement)}
    (hc : At judge codecs c place) (h : place.Accounts writes done s)
    (hbody : ∀ client inner t, At judge codecs client inner → inner.Accounts [] [] t →
      (body client).Ends t inner.Kept) :
    (c.transaction body).Ends s (place.Resumed done) := by
  have inside (scope : OpenScope) (t : Line (Ledger γ) Ownership)
      (ht : place.Started writes done (.ok scope) t) :
      (body (c.inside scope)).Ends t (place.Inside writes done scope) := by
    obtain ⟨rfl, known, inner, ho, h⟩ := ht
    exact (hbody _ inner t (hc.inside ho) h).mono fun r t kept => ⟨rfl, known, inner, ho, kept⟩
  refine Client.ends_transaction (ends_started hc h) ?_ ?_ inside ?_ ?_ ?_
  · exact fun e t ht => Place.Accounts.resumed ht
  · exact fun l t ht => ht.elim
  · rintro scope start ⟨a, kept⟩ t ⟨rfl, known, inner, ho, added, doneIn, h, returned⟩
    obtain rfl := returned a kept rfl
    have answered : (c.driver.commit ⟨0, place.depth + 1⟩).Ends t
        (place.Answered writes done kept t) := ends_answered hc ho h
    refine Client.ends_finishReturned answered ?_ ?_ ?_
    · exact fun t ht => Place.Answered.accounts ht known
    · exact fun e t ⟨writes, ht⟩ => ht.resumed
    · exact fun l t ht => ht.elim
  · rintro scope start e t ⟨rfl, known, inner, ho, added, doneIn, h, -⟩
    have rolled : (c.driver.rollback ⟨0, place.depth + 1⟩).Ends t fun r t =>
        r = .ok () ∧ place.Holds writes true t := hc.rollback ho h.holds
    refine Client.ends_finishFailed rolled ?_ ?_ ?_
    · exact fun t ht => Place.Accounts.resumed ⟨ht.2, fun inside _ => known inside⟩
    · exact fun e t ht => nomatch ht.1
    · exact fun l t ht => nomatch ht.1
  · rintro scope level p ⟨rfl, known, inner, ho, added, doneIn, h, -⟩
    exact Place.Accounts.resumed ⟨hc.drop ho h.holds, fun inside _ => known inside⟩

end Ending

/-- At every place a callback returns what it kept there, whatever errors it passes over. -/
theorem ends_keeping [CallerError ε] {body : Callback ε α} (hc : At judge codecs c place)
    (h : place.Accounts writes done s) : ((body.keeping done).run c).Ends s place.Kept := by
  induction body generalizing c place writes done s with
  | returns a =>
    refine ends_pure ⟨writes, done, h, ?_⟩
    rintro _ _ ⟨⟩
    rfl
  | fails error => exact ends_fail ⟨writes, done, h, nofun⟩
  | drop level => exact ends_drop ⟨writes, done, h, nofun⟩
  | statement st next ih =>
    refine (ends_accounts_query hc h).goesOn ?_ ?_ ?_ ?_
    · rintro r t ⟨x, hx, writes', h'⟩
      obtain rfl := mapError_failed_inj (x := .ok r) hx
      exact ih _ hc h'
    · rintro e t ⟨x, hx, writes', h'⟩
      obtain rfl := mapError_failed_inj (x := .error e) hx
      exact ih _ hc h'
    · rintro t ⟨_ | _, hx, -⟩ <;> cases hx
    · rintro l t ⟨_ | _, hx, -⟩ <;> cases hx
  | scope body next ihbody ihnext =>
    have resumed : (c.transaction (body.keeping []).run).Ends s (place.Resumed done) :=
      ends_transaction_kept hc h fun client inner t hc' h' => ihbody hc' h'
    refine resumed.goesOn ?_ ?_ ?_ ?_
    · exact fun r t ⟨writes', h'⟩ => ihnext _ hc h'
    · exact fun e t ⟨writes', h'⟩ => ihnext _ hc h'
    · exact fun t ⟨writes', h'⟩ => ihnext _ hc h'
    · exact fun l t ⟨writes', h'⟩ => ⟨writes', _, h', nofun⟩

inductive Idle (judge : Judge γ) (codecs : Wire.Codecs) : Line (Ledger γ) Ownership → Prop where
  | start (memory : γ) : Idle judge codecs (Exclusive.start (Ledger.new memory))
  | ran {ε α : Type} [CallerError ε] {context : Context} {body : Callback ε α}
      {r : Except (Stop ε) α} {p q : Progress (Line (Ledger γ) Ownership)}
      (before : Idle judge codecs p.state)
      (call : (body.run (root judge codecs context)).run p = (r, q)) : Idle judge codecs q.state

theorem Idle.holds (h : Idle judge codecs s) :
    ∃ writes, (Place.free []).Holds writes true s := by
  induction h with
  | start memory => exact ⟨[], rfl, rfl, .inl ⟨rfl, rfl⟩⟩
  | @ran ε α _ context body r p q before call ih =>
    obtain ⟨writes, h⟩ := ih
    have kept : ((body.keeping []).run (root judge codecs context)).Ends p.state
        (Place.free []).Kept := ends_keeping (at_root context) (.free h)
    have plain : (body.run (root judge codecs context)).Ends p.state
        fun _ t => ∃ writes, (Place.free []).Holds writes true t := by
      rw [← body.run_keeping _ []]
      exact kept.map fun r t ⟨writes, done, h, _⟩ => ⟨writes, h.holds⟩
    have ended := plain p rfl
    rwa [call] at ended

/-- What was made of a transaction whose commit was answered without an error: it is durable with
all that its callback kept, or it was found aborted and has left nothing. -/
def Concluded [CallerError ε] (c : Client (Line (Ledger γ) Ownership) OpenScope)
    (body : Callback ε α) (s : Line (Ledger γ) Ownership) (a : α)
    (done : List Statement) (t : Line (Ledger γ) Ownership) : Prop :=
  ∃ opened left kept, (c.driver.begin c.scope).Leads s (.ok ⟨0, 1⟩) opened ∧
    ((body.keeping []).run (c.inside ⟨0, 1⟩)).Leads opened (.ok (a, done)) left ∧
    (c.driver.commit ⟨0, 1⟩).Leads left (.ok ()) t ∧
    t.server.books.durable = s.server.books.durable ++ kept ∧
    (Doomed left → kept = []) ∧ (¬Doomed left → List.Forall₂ Carries kept done)

theorem ends_concluded [CallerError ε] {base : List Write} {body : Callback ε α}
    (hc : At judge codecs c (.free base)) (h : (Place.free base).Holds writes true s) :
    (c.transaction (body.keeping []).run).Ends s fun r t =>
      ∀ a done, r = .ok (a, done) → Concluded c body s a done t := by
  have begun : (c.driver.begin c.scope).Ends s fun r t =>
      (Place.free base).Started writes [] r t ∧ (c.driver.begin c.scope).Leads s r t :=
    (ends_started hc (.free h)).leads
  have inside (scope : OpenScope) (opened : Line (Ledger γ) Ownership)
      (ht : (Place.free base).Started writes [] (.ok scope) opened ∧
        (c.driver.begin c.scope).Leads s (.ok scope) opened) :
      ((body.keeping []).run (c.inside scope)).Ends opened fun r t => scope = ⟨0, 1⟩ ∧
        ∃ inner, (Place.free base).Opens writes inner ∧ inner.Kept r t ∧
        ∃ opened, (c.driver.begin c.scope).Leads s (.ok ⟨0, 1⟩) opened ∧
          ((body.keeping []).run (c.inside scope)).Leads opened r t := by
    obtain ⟨⟨rfl, -, inner, ho, hi⟩, begin⟩ := ht
    refine (ends_keeping (hc.inside ho) hi).leads.mono ?_
    rintro r t ⟨kept, run⟩
    exact ⟨rfl, inner, ho, kept, opened, begin, run⟩
  refine Client.ends_transaction begun ?_ ?_ inside ?_ ?_ ?_
  · exact fun e t _ => nofun
  · exact fun l t _ => nofun
  · rintro scope start ⟨a, done⟩ left ⟨rfl, inner, ho, ⟨added, doneIn, hi, returned⟩, opened,
      begin, run⟩
    obtain rfl := returned a done rfl
    have answered : (c.driver.commit ⟨0, 1⟩).Ends left
        ((Place.free base).Answered writes [] done left) := ends_answered hc ho hi
    refine Client.ends_finishReturned answered.leads ?_ ?_ ?_
    · rintro t ⟨⟨kept, holds, nothing, all⟩, commit⟩ _ _ ⟨⟩
      refine ⟨opened, left, kept, begin, run, commit, ?_, fun hs => (nothing hs).2, all⟩
      rw [h.stands.1, holds.stands.1, List.append_assoc]
    · exact fun e t _ => nofun
    · exact fun l t _ => nofun
  · rintro scope start e left ⟨rfl, inner, ho, ⟨added, doneIn, hi, -⟩, -⟩
    have rolled : (c.driver.rollback ⟨0, 1⟩).Ends left fun r t =>
        r = .ok () ∧ (Place.free base).Holds writes true t := hc.rollback ho hi.holds
    exact Client.ends_finishFailed rolled (fun t _ => nofun) (fun e t _ => nofun)
      (fun l t _ => nofun)
  · exact fun scope level p _ => nofun

/-- A transaction that returned is durable as a whole, or it was aborted when it was committed and
left nothing. -/
theorem concluded_of_returned [CallerError ε] {context : Context} {body : Callback ε α} {a : α}
    {p q : Progress (Line (Ledger γ) Ownership)} (idle : Idle judge codecs p.state)
    (call : ((root judge codecs context).transaction body.run).run p = (.ok a, q)) :
    ∃ done, Concluded (root judge codecs context) body p.state a done q.state := by
  obtain ⟨writes, h⟩ := idle.holds
  have concluded : ((root judge codecs context).transaction (body.keeping []).run).Ends p.state _ :=
    ends_concluded (at_root context) h
  rw [← body.transaction_keeping] at call
  obtain ⟨r, t, run, ended⟩ := concluded.outcome rfl
  have call' : (Prod.fst <$> (root judge codecs context).transaction (body.keeping []).run) p =
      (.ok a, q) := call
  rw [map_apply, run] at call'
  cases r with
  | error stop => cases call'
  | ok kept =>
    cases call'
    exact ⟨kept.2, ended _ _ rfl⟩

end Link

def watched : Client (Line (Ledger Unit) Ownership) OpenScope :=
  root (refusing "INSERT") ⟨[], .text⟩ { hook := some (.observer (.recorder "log" {})) }

def mended : Callback SqlError Unit :=
  .statement (insertInto "a") fun _ =>
    .scope (.statement (insertInto "b") fun _ => .statement ⟨"INSERT", []⟩ fun _ =>
      .fails (.other "b is not complete")) fun _ => .returns ()

theorem concluded_of_returned_mended :
    Idle (refusing "INSERT") ⟨[], .text⟩ fresh.state ∧ ∃ q,
      (watched.transaction mended.run).run fresh = (.ok (), q) ∧
      q.state.server.books.durable.map Write.sql = ["INSERT INTO a DEFAULT VALUES"] ∧
      ∃ done, Concluded watched mended fresh.state () done q.state := by
  have idle : Idle (refusing "INSERT") ⟨[], .text⟩ fresh.state := .start ()
  have returned : ((watched.transaction mended.run).run fresh).1.isOk = true := by decide +kernel
  have durable : ((watched.transaction mended.run).run fresh).2.state.server.books.durable.map
      Write.sql = ["INSERT INTO a DEFAULT VALUES"] := by decide +kernel
  rcases call : (watched.transaction mended.run).run fresh with ⟨stop | _, q⟩
  · rw [call] at returned
    cases returned
  · rw [call] at durable
    exact ⟨idle, q, rfl, durable, concluded_of_returned idle call⟩

def unworried : Callback SqlError Unit :=
  .statement (insertInto "a") fun _ => .statement ⟨"INSERT", []⟩ fun _ => .returns ()

def transactKept (body : Callback SqlError Unit) :
    Except (Stop SqlError) (Unit × List Statement) × Progress (Line (Ledger Unit) Ownership) :=
  (watched.transaction (body.keeping []).run).run fresh

/-- The first statement was carried out and is lost, though the call returned and its hook was told
of a commit. -/
theorem aborted_commit_reported :
    ¬∀ (body : Callback SqlError Unit) (done : List Statement)
      (q : Progress (Line (Ledger Unit) Ownership)),
      transactKept body = (.ok ((), done), q) →
      ("COMMIT", 1) ∈ (Monitor.heard "log" q.log).map Monitor.Event.sign →
      List.Forall₂ Carries q.state.server.books.durable done := by
  intro claim
  have returned : (transactKept unworried).1.toOption.map (·.2.map Statement.text) =
      some ["INSERT INTO a DEFAULT VALUES"] := by decide +kernel
  have told : ("COMMIT", 1) ∈
      (Monitor.heard "log" (transactKept unworried).2.log).map Monitor.Event.sign := by
    decide +kernel
  have lost : (transactKept unworried).2.state.server.books.durable = [] := by decide +kernel
  rcases ran : transactKept unworried with ⟨stop | ⟨_, done⟩, q⟩
  · rw [ran] at returned
    cases returned
  · rw [ran] at returned told lost
    have carried := claim unworried done q ran told
    rw [lost] at carried
    cases carried
    cases returned

end Ledger

end SqlClient
