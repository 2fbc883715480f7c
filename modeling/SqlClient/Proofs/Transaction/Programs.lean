import Mathlib.Data.List.Forall2
import SqlClient.Proofs.Client.Calls
import SqlClient.Proofs.Transaction.Scopes
/-!
# Programs on one connection

A program makes statements and opens scopes one after the other, and so does each of its scopes. It
goes on from every result, so it is a tree. What it leaves on the server is what it kept: a
statement that was carried out, unless a scope around it was rolled back or dropped.
-/
namespace SqlClient.Ledger

open SqlClient.Sql Act

/-- What a scope does on its own handle, and how it ends. After a statement or a scope inside it
goes on as the result says; a scope inside that was dropped has none. -/
inductive Program (ε : Type) where
  /-- The scope returns; one in which a statement has failed ends by that error instead. -/
  | returns
  | fails (error : ε)
  /-- The call at that level is dropped, with all inside. -/
  | drop (level : Nat)
  | statement (st : Statement) (next : Except SqlError ResultSet → Program ε)
  | scope (body : Program ε) (next : Option (Except ε Unit) → Program ε)

def kept (st : Statement) (x : Except SqlError ResultSet) : List Statement :=
  if carriedOut x then [st] else []

def failure? {ε : Type} [CallerError ε] : Except SqlError ResultSet → Option ε
  | .ok _ => none
  | .error e => if carriedOut (.error e) then none else some (CallerError.ofSql e)

/-- Run a program on a client, after a `failure` in its scope if there was one. It returns the
statements of `done` and those it kept: those carried out here, and what a scope inside returned. -/
def Program.run {σ η ε : Type} [CallerError ε] :
    Program ε → Client σ η → Option ε → List Statement → Act σ ε (List Statement)
  | .returns, _, none, done => pure done
  | .returns, _, some e, _ => Act.fail e
  | .fails e, _, _, _ => Act.fail e
  | .drop level, _, _, _ => Act.drop level
  | .statement st next, c, failure, done => do
    let x ← attempt (c.query st)
    (next x).run c (failure.or (failure? x)) (done ++ kept st x)
  | .scope body next, c, failure, done => do
    let call := c.transaction fun inner => body.run inner none []
    match ← unlessDropped (c.context.depth + 1) (attempt call) with
    | some (.ok added) => (next (some (.ok ()))).run c failure (done ++ added)
    | some (.error e) => (next (some (.error e))).run c failure done
    | none => (next none).run c failure done

def Program.scoped {σ η ε : Type} [CallerError ε] (body : Program ε) (c : Client σ η) :
    Act σ ε (List Statement) :=
  c.transaction fun inner => body.run inner none []

section Link

variable {γ ε : Type} {judge : Judge γ} {codecs : Wire.Codecs} {s : Line (Ledger γ) Ownership}
  {place inner : Place} {writes added : List Write} {failed : Bool}
  {c : Client (Line (Ledger γ) Ownership) OpenScope}

structure At (judge : Judge γ) (codecs : Wire.Codecs)
    (c : Client (Line (Ledger γ) Ownership) OpenScope) (place : Place) : Prop where
  driver : c.driver = Exclusive.driver (server judge) codecs
  scope : c.scope = place.handle?

theorem At.inside (h : At judge codecs c place) (ho : place.Opens writes inner) :
    At judge codecs (c.inside ⟨0, place.depth + 1⟩) inner :=
  ⟨h.driver, ho.handle?.symm⟩

theorem At.execute (hc : At judge codecs c place) (st : Statement)
    (h : place.Holds writes failed s) :
    (c.driver.execute c.scope st).Ends s fun r t =>
      ∃ x, r = x.mapError .failed ∧ place.Ran writes failed st x t := by
  rw [hc.driver, hc.scope]
  exact ends_driver_execute st h

theorem At.begin (hc : At judge codecs c place) (h : place.Holds writes failed s) :
    (c.driver.begin c.scope).Ends s (place.Begun writes failed) := by
  rw [hc.driver, hc.scope]
  exact ends_driver_begin h

theorem At.commit (hc : At judge codecs c place) (ho : place.Opens writes inner)
    (h : inner.Holds added false s) :
    (c.driver.commit ⟨0, place.depth + 1⟩).Ends s fun r t =>
      r = .ok () ∧ place.Holds (writes ++ added) failed t := by
  rw [hc.driver]
  exact ends_driver_commit ho h

theorem At.rollback {broken : Bool} (hc : At judge codecs c place) (ho : place.Opens writes inner)
    (h : inner.Holds added broken s) :
    (c.driver.rollback ⟨0, place.depth + 1⟩).Ends s fun r t =>
      r = .ok () ∧ place.Holds writes failed t := by
  rw [hc.driver]
  exact ends_driver_rollback ho h

theorem At.drop {broken : Bool} {p : Progress (Line (Ledger γ) Ownership)}
    (hc : At judge codecs c place) (ho : place.Opens writes inner)
    (h : inner.Holds added broken p.state) :
    place.Holds writes failed (c.driver.drop ⟨0, place.depth + 1⟩ p).state := by
  rw [hc.driver]
  exact holds_letGo ho h

theorem Place.Ran.converted {st : Statement} {r r' : ResultSet} {t : Line (Ledger γ) Ownership}
    (h : place.Ran writes failed st (.ok r) t) : place.Ran writes failed st (.ok r') t := by
  cases h with
  | carried _ hw h => exact .carried rfl hw h
  | failed hx => cases hx

theorem ends_query {st : Statement} (hc : At judge codecs c place)
    (h : place.Holds writes failed s) :
    (c.query st).Ends s fun r t =>
      ∃ x, r = x.mapError .failed ∧ place.Ran writes failed st x t := by
  refine Client.ends_query (hc.execute st h) ?_ ?_
  · intro r t hr
    obtain ⟨x, hx, ran⟩ := hr
    cases x with
    | error e => cases hx
    | ok r' =>
      cases hx
      exact ⟨.ok _, rfl, ran.converted⟩
  · intro stop t ran
    exact ran

/-- The program is told of the result, which is never a drop. -/
theorem ends_attempt {st : Statement} (hc : At judge codecs c place)
    (h : place.Holds writes failed s) :
    (attempt (c.query st) : Act _ ε _).Ends s fun r t =>
      ∃ x, r = .ok x ∧ place.Ran writes failed st x t := by
  refine (ends_query hc h).attempt ?_ ?_ ?_
  · intro r t hr
    obtain ⟨x, hx, ran⟩ := hr
    cases x with
    | error e => cases hx
    | ok r' =>
      cases hx
      exact ⟨_, rfl, ran⟩
  · intro e t hr
    obtain ⟨x, hx, ran⟩ := hr
    cases x with
    | error e' =>
      cases hx
      exact ⟨_, rfl, ran⟩
    | ok r' => cases hx
  · intro l t hr
    obtain ⟨x, hx, -⟩ := hr
    cases x with
    | error e => cases hx
    | ok r' => cases hx

theorem Place.Ran.kept {st : Statement} {x : Except SqlError ResultSet}
    {t : Line (Ledger γ) Ownership} {done : List Statement}
    (h : place.Ran writes failed st x t) (hd : List.Forall₂ Carries writes done) :
    ∃ writes', place.Holds writes' (failed || !carriedOut x) t ∧
      List.Forall₂ Carries writes' (done ++ Ledger.kept st x) := by
  cases h with
  | @carried w hx hw h =>
    refine ⟨writes ++ [w], ?_, ?_⟩
    · rwa [hx, Bool.not_true, Bool.or_false]
    · rw [Ledger.kept, if_pos hx]
      exact List.rel_append hd (.cons hw .nil)
  | failed hx h =>
    refine ⟨writes, ?_, ?_⟩
    · simpa [hx] using h
    · simpa [Ledger.kept, hx] using hd

inductive Place.Ended (place : Place) :
    Except (Stop ε) (List Statement) → Line (Ledger γ) Ownership → Prop where
  | returned {done : List Statement} {added : List Write} {t : Line (Ledger γ) Ownership}
      (carries : List.Forall₂ Carries added done) (h : place.Holds added false t) :
      place.Ended (.ok done) t
  | stopped {stop : Stop ε} {added : List Write} {broken : Bool} {t : Line (Ledger γ) Ownership}
      (h : place.Holds added broken t) : place.Ended (.error stop) t

inductive Place.Closed (place : Place) (writes : List Write) (failed : Bool) :
    Except (Stop ε) (List Statement) → Line (Ledger γ) Ownership → Prop where
  | committed {done : List Statement} {added : List Write} {t : Line (Ledger γ) Ownership}
      (carries : List.Forall₂ Carries added done) (h : place.Holds (writes ++ added) failed t) :
      place.Closed writes failed (.ok done) t
  | undone {stop : Stop ε} {t : Line (Ledger γ) Ownership} (h : place.Holds writes failed t) :
      place.Closed writes failed (.error stop) t

def Place.Left (place : Place) (writes : List Write) (scope : OpenScope)
    (r : Except (Stop ε) (List Statement)) (t : Line (Ledger γ) Ownership) : Prop :=
  scope = ⟨0, place.depth + 1⟩ ∧ ∃ inner, place.Opens writes inner ∧ inner.Ended r t

theorem ends_finishReturned [CallerError ε] {start : Calendar.Instant} {done : List Statement}
    (hc : At judge codecs c place) (ho : place.Opens writes inner)
    (h : inner.Ended (.ok done : Except (Stop ε) (List Statement)) s) :
    (c.finishReturned ⟨0, place.depth + 1⟩ start done : Act _ ε _).Ends s
      (place.Closed writes failed) := by
  cases h with
  | @returned _ added _ carries h =>
    have committed : (c.driver.commit ⟨0, place.depth + 1⟩).Ends s fun r t =>
        r = .ok () ∧ place.Holds (writes ++ added) failed t := hc.commit ho h
    refine Client.ends_finishReturned committed ?_ ?_ ?_
    · intro t ht
      exact .committed carries ht.2
    · intro e t ht
      cases ht.1
    · intro l t ht
      cases ht.1

theorem ends_finishFailed [CallerError ε] {start : Calendar.Instant} {error : ε}
    (hc : At judge codecs c place) (ho : place.Opens writes inner)
    (h : inner.Ended (.error (.failed error)) s) :
    (c.finishFailed ⟨0, place.depth + 1⟩ start error).Ends s (place.Closed writes failed) := by
  cases h with
  | stopped h =>
    have rolled : (c.driver.rollback ⟨0, place.depth + 1⟩).Ends s fun r t =>
        r = .ok () ∧ place.Holds writes failed t := hc.rollback ho h
    refine Client.ends_finishFailed rolled ?_ ?_ ?_
    · intro t ht
      exact .undone ht.2
    · intro e t ht
      cases ht.1
    · intro l t ht
      cases ht.1

/-- A scope is closed around a body that ends as it should wherever it is opened. -/
theorem ends_transaction [CallerError ε]
    {body : Client (Line (Ledger γ) Ownership) OpenScope →
      Act (Line (Ledger γ) Ownership) ε (List Statement)}
    (hc : At judge codecs c place) (h : place.Holds writes failed s)
    (hbody : ∀ client inner t, At judge codecs client inner → inner.Holds [] false t →
      (body client).Ends t inner.Ended) :
    (c.transaction body).Ends s (place.Closed writes failed) := by
  have inside (scope : OpenScope) (t : Line (Ledger γ) Ownership)
      (ht : place.Begun writes failed (.ok scope) t) :
      (body (c.inside scope)).Ends t (place.Left writes scope) := by
    cases ht with
    | @opened inner _ ho h =>
      exact (hbody _ inner t (hc.inside ho) h).mono fun r t hr => ⟨rfl, inner, ho, hr⟩
  refine Client.ends_transaction (hc.begin h) ?_ ?_ inside ?_ ?_ ?_
  · intro e t hr
    cases hr with
    | refused h => exact .undone h
  · intro l t hr
    cases hr
  · intro scope start done t hr
    obtain ⟨rfl, inner, ho, ended⟩ := hr
    exact ends_finishReturned hc ho ended
  · intro scope start e t hr
    obtain ⟨rfl, inner, ho, ended⟩ := hr
    exact ends_finishFailed hc ho ended
  · intro scope level p hr
    obtain ⟨rfl, inner, ho, ended⟩ := hr
    cases ended with
    | stopped h => exact .undone (hc.drop ho h)

theorem isSome_failure? [CallerError ε] (x : Except SqlError ResultSet) :
    (failure? x : Option ε).isSome = !carriedOut x := by
  cases x with
  | ok r => rfl
  | error e =>
    rw [failure?]
    by_cases hx : carriedOut (.error e) = true
    · simp [hx]
    · simp [hx]

/-- At every place a program ends with what it kept pending there, however it ends. -/
theorem ends_program [CallerError ε] {prog : Program ε} {failure : Option ε}
    {done : List Statement} (hc : At judge codecs c place)
    (h : place.Holds writes failure.isSome s) (hd : List.Forall₂ Carries writes done) :
    (prog.run c failure done).Ends s place.Ended := by
  induction prog generalizing c place writes failure done s with
  | returns =>
    cases failure with
    | none => exact ends_pure (.returned hd h)
    | some e => exact ends_fail (.stopped h)
  | fails error => exact ends_fail (.stopped h)
  | drop level => exact ends_drop (.stopped h)
  | statement st next ih =>
    refine (ends_attempt hc h).bind ?_ ?_
    · intro x t hr
      obtain ⟨y, hy, ran⟩ := hr
      cases hy
      obtain ⟨writes', h', hd'⟩ := ran.kept hd
      refine ih x hc ?_ hd'
      rwa [Option.isSome_or, isSome_failure?]
    · intro e t hr
      obtain ⟨y, hy, -⟩ := hr
      cases hy
  | scope body next ihbody ihnext =>
    have closed : (c.transaction fun client => body.run client none []).Ends s
        (place.Closed writes failure.isSome) :=
      ends_transaction hc h fun client inner t hc' h' => ihbody hc' h' .nil
    rw [Program.run]
    refine ends_bind (ends_unlessDropped (closed.attempt ?_ ?_ ?_))
    · intro added t hr
      cases hr with
      | committed carries h' => exact ihnext _ hc h' (List.rel_append hd carries)
    · intro e t hr
      cases hr with
      | undone h' => exact ihnext _ hc h' hd
    · intro l t hr
      cases hr with
      | undone h' => exact ⟨fun _ => ihnext none hc h' hd, fun _ => .stopped h'⟩

theorem ends_scoped [CallerError ε] {body : Program ε} (hc : At judge codecs c place)
    (h : place.Holds writes failed s) : (body.scoped c).Ends s (place.Closed writes failed) :=
  ends_transaction hc h fun _ _ _ hc' h' => ends_program hc' h' .nil

def root (judge : Judge γ) (codecs : Wire.Codecs) (context : Context) :
    Client (Line (Ledger γ) Ownership) OpenScope :=
  { driver := Exclusive.driver (server judge) codecs, context }

def returned : Except (Stop ε) (List Statement) → List Statement
  | .ok done => done
  | .error _ => []

/-- The connection between two calls at the root, where no scope is live, and what was kept. -/
inductive Reached (judge : Judge γ) (codecs : Wire.Codecs) :
    List Statement → Line (Ledger γ) Ownership → Prop where
  | start (memory : γ) : Reached judge codecs [] (Exclusive.start (Ledger.new memory))
  | statement {done : List Statement} {context : Context} {st : Statement}
      {x : Except SqlError ResultSet} {p q : Progress (Line (Ledger γ) Ownership)}
      (before : Reached judge codecs done p.state)
      (call : ((root judge codecs context).query st).run p = (x.mapError .failed, q)) :
      Reached judge codecs (done ++ kept st x) q.state
  | transaction {ε : Type} [CallerError ε] {done : List Statement} {context : Context}
      {body : Program ε} {r : Except (Stop ε) (List Statement)}
      {p q : Progress (Line (Ledger γ) Ownership)} (before : Reached judge codecs done p.state)
      (call : (body.scoped (root judge codecs context)).run p = (r, q)) :
      Reached judge codecs (done ++ returned r) q.state

theorem Place.Closed.kept {r : Except (Stop ε) (List Statement)} {t : Line (Ledger γ) Ownership}
    {done : List Statement} (h : place.Closed writes failed r t)
    (hd : List.Forall₂ Carries writes done) : ∃ writes', place.Holds writes' failed t ∧
      List.Forall₂ Carries writes' (done ++ returned r) := by
  cases h with
  | @committed _ added _ carries h =>
    exact ⟨writes ++ added, h, List.rel_append hd carries⟩
  | undone h => exact ⟨writes, h, by simpa [returned] using hd⟩

theorem at_root (context : Context) : At judge codecs (root judge codecs context) (.free []) :=
  ⟨rfl, rfl⟩

theorem mapError_failed_inj {δ α : Type} {x y : Except δ α}
    (h : x.mapError Stop.failed = y.mapError Stop.failed) : x = y := by
  cases x <;> cases y <;> cases h <;> rfl

/-- Between two calls at the root all that was kept is durable, and nothing else. -/
theorem holds_reached {done : List Statement} (h : Reached judge codecs done s) :
    ∃ writes failed, (Place.free []).Holds writes failed s ∧ List.Forall₂ Carries writes done := by
  induction h with
  | start memory => exact ⟨[], false, ⟨rfl, rfl, .inl ⟨rfl, rfl⟩⟩, .nil⟩
  | @statement done context st x p q before call ih =>
    obtain ⟨writes, failed, h, hd⟩ := ih
    have queried : ((root judge codecs context).query st).Ends p.state fun r t =>
        ∃ x, r = x.mapError .failed ∧ (Place.free []).Ran writes failed st x t :=
      ends_query (at_root context) h
    obtain ⟨x', hx, ran⟩ := queried p rfl
    rw [call] at hx ran
    obtain rfl := mapError_failed_inj hx
    obtain ⟨writes', h', hd'⟩ := ran.kept hd
    exact ⟨writes', _, h', hd'⟩
  | @transaction ε _ done context body r p q before call ih =>
    obtain ⟨writes, failed, h, hd⟩ := ih
    have closed : (body.scoped (root judge codecs context)).Ends p.state
        ((Place.free []).Closed writes failed) := ends_scoped (at_root context) h
    have ended := closed p rfl
    rw [call] at ended
    obtain ⟨writes', h', hd'⟩ := ended.kept hd
    exact ⟨writes', failed, h', hd'⟩

theorem durable_carries_kept {done : List Statement} (h : Reached judge codecs done s) :
    List.Forall₂ Carries s.server.books.durable done := by
  obtain ⟨writes, failed, ⟨-, durable, -⟩, carries⟩ := holds_reached h
  rw [durable]
  exact carries

end Link

def refusing (sql : String) : Judge Unit where
  prepare _ text m := if text = sql then (.error syntaxError, m) else (.ok ⟨[], []⟩, m)
  execute _ _ m := (.ok [], m)

def insertInto (table : String) : Statement := ⟨"INSERT INTO " ++ table ++ " DEFAULT VALUES", []⟩

def vanishing : Program SqlError := .statement (insertInto "a") fun _ => .drop 1

def outing : Program SqlError :=
  .statement (insertInto "b") fun _ =>
    .scope (.statement (insertInto "c") fun _ => .drop 2) fun _ =>
      .scope (.statement (insertInto "d") fun _ => .statement ⟨"INSERT", []⟩ fun _ => .returns)
        fun _ => .scope (.statement (insertInto "e") fun _ => .returns) fun _ => .returns

def transact (body : Program SqlError) (p : Progress (Line (Ledger Unit) Ownership)) :
    Except (Stop SqlError) (List Statement) × Progress (Line (Ledger Unit) Ownership) :=
  (body.scoped (root (refusing "INSERT") ⟨[], .text⟩ {})).run p

theorem reached_transact (body : Program SqlError) {done : List Statement}
    {p : Progress (Line (Ledger Unit) Ownership)}
    (before : Reached (refusing "INSERT") ⟨[], .text⟩ done p.state) :
    Reached (refusing "INSERT") ⟨[], .text⟩ (done ++ returned (transact body p).1)
      (transact body p).2.state := by
  have call : (body.scoped (root (refusing "INSERT") ⟨[], .text⟩ {})).run p =
      ((transact body p).1, (transact body p).2) := rfl
  exact .transaction before call

def fresh : Progress (Line (Ledger Unit) Ownership) where
  state := Exclusive.start (new ())
  now := .ofDate ⟨2000, 1, 1, by decide, by decide, by decide, by decide, by decide, by decide⟩

def first : Except (Stop SqlError) (List Statement) × Progress (Line (Ledger Unit) Ownership) :=
  transact vanishing fresh

def second : Except (Stop SqlError) (List Statement) × Progress (Line (Ledger Unit) Ownership) :=
  transact outing first.2

theorem durable_carries_kept_outing :
    Reached (refusing "INSERT") ⟨[], .text⟩ (returned first.1 ++ returned second.1)
        second.2.state ∧
      (returned first.1 ++ returned second.1).map Statement.text =
        ["INSERT INTO b DEFAULT VALUES", "INSERT INTO e DEFAULT VALUES"] ∧
      List.Forall₂ Carries second.2.state.server.books.durable
        (returned first.1 ++ returned second.1) := by
  have start : Reached (refusing "INSERT") ⟨[], .text⟩ [] fresh.state := .start ()
  have before : Reached (refusing "INSERT") ⟨[], .text⟩ (returned first.1) first.2.state :=
    reached_transact vanishing start
  have after : Reached (refusing "INSERT") ⟨[], .text⟩ (returned first.1 ++ returned second.1)
      second.2.state := reached_transact outing before
  exact ⟨after, by decide +kernel, durable_carries_kept after⟩

end SqlClient.Ledger
