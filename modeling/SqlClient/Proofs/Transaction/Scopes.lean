import SqlClient.Proofs.Driver.Requests
import SqlClient.Proofs.Transaction.Ledger
import SqlClient.Proofs.Wire.Rows
/-!
# Scopes on a transactional server

What one request does to the books of the server, and what a single connection and its server agree
on between two calls. The scope in which calls are made has its savepoint on the server's stack;
above it stand only savepoints of deeper scopes, which were rolled back to and left there. A scope
that was dropped has not told the server yet: its savepoint still stands, with what was pending when
it was set.
-/
namespace SqlClient.Ledger

open Act ScopeCommand

section Link

variable {γ α : Type} (judge : Judge γ) (codecs : Wire.Codecs) {s : Line (Ledger γ) Ownership}

def connection : Link (Ledger γ) Ownership := Exclusive.link (server judge) codecs

variable {judge codecs}

/-- A reply is awaited with nothing going on meanwhile. -/
theorem ends_ask {request : Request} {f : Ledger γ → Reply α × Ledger γ}
    {x : Except ServerError α} {b : Ledger γ}
    {post : Except (Stop SqlError) α → Line (Ledger γ) Ownership → Prop}
    (hf : f s.server = (reply x, b))
    (h : post (x.mapError fun e => .failed (.ofServer e)) { s with server := b }) :
    ((connection judge codecs).ask request f).Ends s post := by
  refine Exclusive.ends_ask ?_
  rw [hf]
  cases x with
  | ok a => exact h
  | error e => exact h

theorem ends_batch {command : ScopeCommand} {b : Books} {x : Except ServerError Unit}
    {post : Except (Stop SqlError) Unit → Line (Ledger γ) Ownership → Prop}
    (hb : runCommand command s.server.books = (x, b))
    (h : post (x.mapError fun e => .failed (.ofServer e))
      { s with server := { s.server with books := b } }) :
    ((connection judge codecs).batch command).Ends s post := by
  refine ends_ask ?_ h
  change (reply (runCommand command s.server.books).1, _) = _
  rw [hb]

theorem ends_batch_ok {command : ScopeCommand} {b : Books}
    (hb : runCommand command s.server.books = (.ok (), b)) :
    ((connection judge codecs).batch command).Ends s fun r t =>
      r = .ok () ∧ t = { s with server := { s.server with books := b } } :=
  ends_batch hb ⟨rfl, rfl⟩

def Carries (w : Write) (st : Sql.Statement) : Prop :=
  w.sql = st.text ∧ ∃ types, encodeParams types st.params = .ok w.params

/-- Whether the server carried a statement out, which it also did when its rows cannot be read. -/
def carriedOut : Except SqlError ResultSet → Bool
  | .ok _ => true
  | .error (.decode ..) => true
  | .error _ => false

inductive Outcome (st : Sql.Statement) (b : Books) : Except SqlError ResultSet → Books → Prop where
  | carried {x : Except SqlError ResultSet} {w : Write} (hx : carriedOut x = true)
      (hw : Carries w st) (alive : b.isAborted = false) : Outcome st b x (b.record w)
  | refused {x : Except SqlError ResultSet} (hx : carriedOut x = false) : Outcome st b x b
  | aborted {x : Except SqlError ResultSet} (hx : carriedOut x = false) : Outcome st b x b.abort

theorem carriedOut_ofServer (e : ServerError) : carriedOut (.error (.ofServer e)) = false := by
  rw [SqlError.ofServer]
  split <;> rfl

theorem carriedOut_encodeParams {types : List Wire.PgType} {params : List Value} {e : SqlError}
    (h : encodeParams types params = .error e) : carriedOut (.error e) = false := by
  obtain ⟨fault, rfl⟩ := encodeParams_error h
  rfl

theorem carriedOut_decodeRows {columns : List Wire.Column} {rows : List (List (Option Bytes))}
    {e : SqlError} (h : codecs.decodeRows columns rows = .error e) :
    carriedOut (.error e) = true := by
  obtain ⟨name, message, rfl⟩ := Wire.Codecs.decodeRows_error h
  rfl

inductive Judged (b : Books) (done : Books → Books) : Except (Stop SqlError) α → Books → Prop where
  | refused (e : ServerError) {b' : Books} (hb : b' = b ∨ b' = b.abort) :
      Judged b done (.error (.failed (.ofServer e))) b'
  | answered (a : α) {b' : Books} (alive : b.isAborted = false) (hb : b' = done b) :
      Judged b done (.ok a) b'

theorem ends_judged {request : Request} {f : Ledger γ → Reply α × Ledger γ}
    {ask : List Write → γ → Except ServerError α × γ} {done : Books → Books}
    (hf : f s.server = (s.server.judged ask done).map reply id) :
    ((connection judge codecs).ask request f).Ends s fun r t =>
      Judged s.server.books done r t.server.books ∧ t.abandoned = s.abandoned ∧
        t.keeping = s.keeping := by
  rw [judged] at hf
  by_cases ha : s.server.books.isAborted = true
  · rw [if_pos ha] at hf
    exact ends_ask hf ⟨.refused abortedRefusal (.inl rfl), rfl, rfl⟩
  · rw [if_neg ha] at hf
    cases hj : ask s.server.books.visible s.server.memory with
    | mk x m =>
      rw [hj] at hf
      cases x with
      | error e => exact ends_ask hf ⟨.refused e (.inr rfl), rfl, rfl⟩
      | ok a => exact ends_ask hf ⟨.answered a (by simpa using ha) rfl, rfl, rfl⟩

theorem outcome_refused {st : Sql.Statement} {b b' : Books} (e : ServerError)
    (h : b' = b ∨ b' = b.abort) : Outcome st b (.error (.ofServer e)) b' := by
  rcases h with rfl | rfl
  · exact .refused (carriedOut_ofServer e)
  · exact .aborted (carriedOut_ofServer e)

theorem ends_prepare (sql : String) :
    ((connection judge codecs).ask (.prepare sql)
      ((connection judge codecs).server.prepare (connection judge codecs).connection sql)).Ends s
      fun r t => Judged s.server.books id r t.server.books ∧ t.abandoned = s.abandoned ∧
        t.keeping = s.keeping := by
  have asked : (connection judge codecs).server.prepare (connection judge codecs).connection sql
      s.server = (s.server.judged (fun seen m => judge.prepare seen sql m) id).map reply id := rfl
  exact ends_judged asked

theorem ends_send (sql : String) (params : List (Option Bytes)) :
    ((connection judge codecs).ask (.execute params)
      ((connection judge codecs).server.execute (connection judge codecs).connection sql
        params)).Ends s
      fun r t => Judged s.server.books (Books.record ⟨sql, params⟩) r t.server.books ∧
        t.abandoned = s.abandoned ∧ t.keeping = s.keeping := by
  have asked : (connection judge codecs).server.execute (connection judge codecs).connection sql
      params s.server = (s.server.judged (fun seen m => judge.execute seen ⟨sql, params⟩ m)
        (Books.record ⟨sql, params⟩)).map reply id := rfl
  exact ends_judged asked

theorem ends_run (st : Sql.Statement) : ((connection judge codecs).run st).Ends s fun r t =>
    ∃ x, r = x.mapError .failed ∧ Outcome st s.server.books x t.server.books ∧
      t.abandoned = s.abandoned ∧ t.keeping = s.keeping := by
  refine (ends_prepare st.text).bind ?_ ?_
  · intro prepared t ht
    obtain ⟨answer, abandoned, keeping⟩ := ht
    cases answer with
    | answered _ alive hb =>
      rw [← abandoned, ← keeping, ← id_eq s.server.books, ← hb]
      cases he : encodeParams prepared.params st.params with
      | error e =>
        refine Ends.stop (ends_fail ⟨rfl, rfl⟩) ?_
        exact ⟨.error e, rfl, .refused (carriedOut_encodeParams he), rfl, rfl⟩
      | ok params =>
        refine Ends.andThen (ends_pure ⟨rfl, rfl⟩) ((ends_send st.text params).bind ?_ ?_)
        · intro rows u hu
          obtain ⟨answer, abandoned, keeping⟩ := hu
          cases answer with
          | answered _ alive hb =>
            have carries : Carries ⟨st.text, params⟩ st := ⟨rfl, prepared.params, he⟩
            have recorded (x : Except SqlError ResultSet) (hx : carriedOut x = true) :
                Outcome st t.server.books x u.server.books := by
              rw [hb]
              exact .carried hx carries alive
            cases hd : (connection judge codecs).codecs.decodeRows prepared.columns rows with
            | error e =>
              refine Ends.stop (ends_fail ⟨rfl, rfl⟩) ?_
              exact ⟨.error e, rfl, recorded _ (carriedOut_decodeRows hd), abandoned, keeping⟩
            | ok rs =>
              refine Ends.andThen (ends_pure ⟨rfl, rfl⟩) (ends_pure ?_)
              exact ⟨.ok _, rfl, recorded _ rfl, abandoned, keeping⟩
        · intro stop u hu
          obtain ⟨answer, abandoned, keeping⟩ := hu
          cases answer with
          | refused e hb =>
            exact ⟨.error (.ofServer e), rfl, outcome_refused e hb, abandoned, keeping⟩
  · intro stop t ht
    obtain ⟨answer, abandoned, keeping⟩ := ht
    cases answer with
    | refused e hb => exact ⟨.error (.ofServer e), rfl, outcome_refused e hb, abandoned, keeping⟩

end Link

def Deeper (depth : Nat) (p : Savepoint) : Prop := ∃ d, depth < d ∧ p.name = savepointName d

theorem Deeper.ne {depth : Nat} {p : Savepoint} (h : Deeper depth p) :
    p.name ≠ savepointName depth := by
  obtain ⟨d, hd, hp⟩ := h
  intro he
  have same := savepointName_inj (hp.symm.trans he)
  omega

theorem Deeper.weaken {depth : Nat} {p : Savepoint} (h : Deeper (depth + 1) p) :
    Deeper depth p := by
  obtain ⟨d, hd, hp⟩ := h
  exact ⟨d, by omega, hp⟩

/-- All that stands on the savepoint of a deeper scope is deeper, and so is what is below it. -/
theorem deeper_append {depth : Nat} {inner outer : List Savepoint} {p : Savepoint}
    (inside : ∀ q ∈ inner, Deeper (depth + 1) q) (hp : p.name = savepointName (depth + 1))
    (deeper : ∀ q ∈ outer, Deeper depth q) : ∀ q ∈ inner ++ p :: outer, Deeper depth q := by
  intro q hq
  rcases List.mem_append.mp hq with hq | hq
  · exact (inside q hq).weaken
  · rcases List.mem_cons.mp hq with rfl | hq
    · exact ⟨depth + 1, by omega, hp⟩
    · exact deeper q hq

/-- Savepoints of deeper scopes do not hide the one of a scope. -/
theorem sinceSavepoint_eq {depth : Nat} {upper before : List Savepoint} {p : Savepoint} {t : Block}
    (hs : t.saved = upper ++ p :: before) (ho : ∀ q ∈ upper, Deeper depth q)
    (hp : p.name = savepointName depth) :
    sinceSavepoint (savepointName depth) t = p :: before := by
  have passed : ∀ q ∈ upper, (q.name != savepointName depth) = true :=
    fun q hq => bne_iff_ne.mpr (ho q hq).ne
  rw [sinceSavepoint, hs, List.dropWhile_append_of_pos passed,
    List.dropWhile_cons_of_neg (by simp [hp])]

section Commands

variable {above : Nat} {upper before : List Savepoint} {p : Savepoint} {t : Block}
  {durable : List Write}

theorem run_savepoint (ha : t.aborted = false) :
    runCommand ⟨.begin, above + 2⟩ ⟨durable, some t⟩ = (.ok (), ⟨durable,
      some { t with saved := ⟨savepointName (above + 2), t.pending⟩ :: t.saved }⟩) := by
  rw [runCommand_eq, controls, if_neg (by simp)]
  simp [runControls, control, changeBlock, ha]

theorem run_savepoint_aborted (ha : t.aborted = true) :
    runCommand ⟨.begin, above + 2⟩ ⟨durable, some t⟩ =
      (.error abortedRefusal, ⟨durable, some t⟩) := by
  rw [runCommand_eq, controls, if_neg (by simp)]
  cases t
  simp_all [runControls, control, changeBlock, Books.abort]

theorem run_release (hs : t.saved = upper ++ p :: before) (ho : ∀ q ∈ upper, Deeper (above + 2) q)
    (hp : p.name = savepointName (above + 2)) (ha : t.aborted = false) :
    runCommand ⟨.commit, above + 2⟩ ⟨durable, some t⟩ =
      (.ok (), ⟨durable, some { t with saved := before }⟩) := by
  rw [runCommand_eq, controls, if_neg (by simp)]
  simp [runControls, control, changeBlock, ha, sinceSavepoint_eq hs ho hp]

theorem run_rollbackTo (hs : t.saved = upper ++ p :: before)
    (ho : ∀ q ∈ upper, Deeper (above + 2) q) (hp : p.name = savepointName (above + 2)) :
    runCommand ⟨.rollback, above + 2⟩ ⟨durable, some t⟩ =
      (.ok (), ⟨durable, some ⟨p :: before, p.pending, false⟩⟩) := by
  rw [runCommand_eq, controls, if_neg (by simp)]
  simp [runControls, control, changeBlock, sinceSavepoint_eq hs ho hp]

theorem run_discard (hs : t.saved = upper ++ p :: before) (ho : ∀ q ∈ upper, Deeper (above + 2) q)
    (hp : p.name = savepointName (above + 2)) :
    runCommand ⟨.discard, above + 2⟩ ⟨durable, some t⟩ =
      (.ok (), ⟨durable, some ⟨before, p.pending, false⟩⟩) := by
  have found : sinceSavepoint (savepointName (above + 2)) ⟨p :: before, p.pending, false⟩ =
      p :: before := sinceSavepoint_eq (List.nil_append _).symm nofun hp
  rw [runCommand_eq, controls, if_neg (by simp)]
  simp [runControls, control, changeBlock, sinceSavepoint_eq hs ho hp, found]

end Commands

/-- What the server holds for the scope at `depth`, beside the savepoints `below` its own calls: all
that is pending, unless a scope inside it was dropped and has yet to be discarded. -/
inductive InBlock (depth : Nat) (below : List Savepoint) (pending : List Write) (failed : Bool) :
    Abandoned → Block → Prop where
  | settled {upper : List Savepoint} {t : Block} (deeper : ∀ p ∈ upper, Deeper depth p)
      (saved : t.saved = upper ++ below) (kept : t.pending = pending)
      (alive : t.aborted = true → failed = true) : InBlock depth below pending failed .none t
  | abandoned {inner outer : List Savepoint} {t : Block}
      (inside : ∀ p ∈ inner, Deeper (depth + 1) p) (deeper : ∀ p ∈ outer, Deeper depth p)
      (saved : t.saved = inner ++ ⟨savepointName (depth + 1), pending⟩ :: (outer ++ below)) :
      InBlock depth below pending failed ⟨some (depth + 1)⟩ t

theorem InBlock.clear {depth : Nat} {below : List Savepoint} {pending : List Write} {failed : Bool}
    {t : Block} (saved : t.saved = below) (kept : t.pending = pending)
    (alive : t.aborted = true → failed = true) : InBlock depth below pending failed .none t :=
  .settled (fun _ hp => absurd hp List.not_mem_nil) saved kept alive

/-- Where calls are made: outside of all scopes, or in the scope one deeper than `above`. The
writes of `base` were there before. -/
inductive Place where
  | free (base : List Write)
  | scope (above : Nat) (below : List Savepoint) (durable base : List Write)

namespace Place

def depth : Place → Nat
  | .free _ => 0
  | .scope above .. => above + 1

def handle? : Place → Option OpenScope
  | .free _ => none
  | .scope above .. => some ⟨0, above + 1⟩

/-- On the server nothing but `writes` was done since the place was entered. If the transaction is
aborted a statement has `failed` there. -/
def Stands (place : Place) (writes : List Write) (failed : Bool) (b : Books) (a : Abandoned) :
    Prop :=
  match place with
  | .free base => b.durable = base ++ writes ∧ (a = .none ∧ b.block = none ∨ a = ⟨some 1⟩)
  | .scope above below durable base => b.durable = durable ∧
      ∃ t, b.block = some t ∧ InBlock (above + 1) below (base ++ writes) failed a t

variable {γ : Type}

structure Holds (place : Place) (writes : List Write) (failed : Bool)
    (s : Line (Ledger γ) Ownership) : Prop where
  owned : s.keeping.owned = place.handle?.isSome
  stands : place.Stands writes failed s.server.books (s.abandoned 0)

inductive Opens : Place → List Write → Place → Prop where
  | transaction (base writes : List Write) :
      Opens (.free base) writes (.scope 0 [] (base ++ writes) [])
  | savepoint {above : Nat} {below upper : List Savepoint} {durable base writes : List Write}
      (deeper : ∀ p ∈ upper, Deeper (above + 1) p) :
      Opens (.scope above below durable base) writes
        (.scope (above + 1) (⟨savepointName (above + 2), base ++ writes⟩ :: (upper ++ below))
          durable (base ++ writes))

theorem Opens.handle? {place inner : Place} {writes : List Write} (h : place.Opens writes inner) :
    inner.handle? = some ⟨0, place.depth + 1⟩ := by
  cases h <;> rfl

theorem Opens.depth {place inner : Place} {writes : List Write} (h : place.Opens writes inner) :
    inner.depth = place.depth + 1 := by
  cases h <;> rfl

end Place

section Link

variable {γ : Type} {judge : Judge γ} {codecs : Wire.Codecs} {s : Line (Ledger γ) Ownership}
  {place inner : Place} {writes added : List Write} {failed : Bool}

theorem books_eq {b : Books} {durable : List Write} {t : Block} (hd : b.durable = durable)
    (hb : b.block = some t) : b = ⟨durable, some t⟩ := by
  rw [← hd, ← hb]

theorem ends_discard_some {depth d : Nat} {b : Books}
    (h : (s.abandoned 0).below? depth = some d)
    (back : runCommand ⟨.discard, d⟩ s.server.books = (.ok (), b)) :
    ((connection judge codecs).discard depth).Ends s fun r t =>
      r = .ok () ∧ t.server.books = b ∧ t.abandoned 0 = (s.abandoned 0).settle d ∧
        t.keeping = s.keeping := by
  refine Exclusive.ends_discard_some h ((ends_batch_ok back).mono ?_)
  rintro r t ⟨rfl, rfl⟩
  exact ⟨rfl, rfl, rfl, rfl⟩

/-- Whatever was dropped inside is gone before anything else happens at the place. -/
theorem ends_discard (h : place.Stands writes failed s.server.books (s.abandoned 0)) :
    ((connection judge codecs).discard place.depth).Ends s fun r t =>
      r = .ok () ∧ place.Stands writes failed t.server.books .none ∧ t.abandoned 0 = .none ∧
        t.keeping = s.keeping := by
  cases place with
  | free base =>
    obtain ⟨hd, ⟨ha, hb⟩ | ha⟩ := h
    · refine (Exclusive.ends_discard_none (by rw [ha]; rfl)).mono ?_
      intro r u ends
      obtain ⟨hr, rfl⟩ := ends
      exact ⟨hr, ⟨hd, .inl ⟨rfl, hb⟩⟩, ha, rfl⟩
    · have back : runCommand ⟨.discard, 1⟩ s.server.books =
          (.ok (), { s.server.books with block := none }) := by
        rw [runCommand_eq]
        rfl
      refine (ends_discard_some (by rw [ha]; rfl) back).mono ?_
      intro r t ends
      obtain ⟨hr, hb, settled, keeping⟩ := ends
      rw [hb, settled, ha]
      exact ⟨hr, ⟨hd, .inl ⟨rfl, rfl⟩⟩, rfl, keeping⟩
  | scope above below durable base =>
    obtain ⟨hd, t, hb, hi⟩ := h
    generalize ha : s.abandoned 0 = a at hi
    cases hi with
    | settled deeper saved kept alive =>
      refine (Exclusive.ends_discard_none (by rw [ha]; rfl)).mono ?_
      intro r u ends
      obtain ⟨hr, rfl⟩ := ends
      exact ⟨hr, ⟨hd, t, hb, .settled deeper saved kept alive⟩, ha, rfl⟩
    | @abandoned inner outer _ inside deeper saved =>
      have here : (s.abandoned 0).below? (above + 1) = some (above + 2) := by
        rw [ha]
        simp [Abandoned.below?]
      have back : runCommand ⟨.discard, above + 2⟩ s.server.books =
          (.ok (), ⟨durable, some ⟨outer ++ below, base ++ writes, false⟩⟩) := by
        rw [books_eq hd hb]
        exact run_discard saved inside rfl
      have gone : (⟨some (above + 2)⟩ : Abandoned).settle (above + 2) = .none := if_pos rfl
      have stands : InBlock (above + 1) below (base ++ writes) failed .none
          ⟨outer ++ below, base ++ writes, false⟩ :=
        .settled deeper rfl rfl fun ha => absurd ha Bool.false_ne_true
      refine (ends_discard_some here back).mono ?_
      intro r u ends
      obtain ⟨hr, hb, settled, keeping⟩ := ends
      rw [hb, settled, ha, gone]
      exact ⟨hr, ⟨rfl, _, rfl, stands⟩, rfl, keeping⟩

inductive Place.Ran (place : Place) (writes : List Write) (failed : Bool) (st : Sql.Statement) :
    Except SqlError ResultSet → Line (Ledger γ) Ownership → Prop where
  | carried {x : Except SqlError ResultSet} {t : Line (Ledger γ) Ownership} {w : Write}
      (hx : carriedOut x = true) (hw : Carries w st) (h : place.Holds (writes ++ [w]) failed t) :
      place.Ran writes failed st x t
  | failed {x : Except SqlError ResultSet} {t : Line (Ledger γ) Ownership}
      (hx : carriedOut x = false) (h : place.Holds writes true t) : place.Ran writes failed st x t

theorem stands_record {b : Books} (w : Write) (h : place.Stands writes failed b .none) :
    place.Stands (writes ++ [w]) failed (b.record w) .none := by
  cases place with
  | free base =>
    obtain ⟨hd, ⟨-, hb⟩ | ha⟩ := h
    · exact ⟨by simp [Books.record, hb, hd], .inl ⟨rfl, by simp [Books.record, hb]⟩⟩
    · cases ha
  | scope above below durable base =>
    obtain ⟨hd, t, hb, hi⟩ := h
    cases hi with
    | settled deeper saved kept alive =>
      exact ⟨by simp [Books.record, hb, hd], { t with pending := t.pending ++ [w] },
        by simp [Books.record, hb], .settled deeper saved (by simp [kept]) alive⟩

theorem stands_failed {b : Books} (h : place.Stands writes failed b .none) :
    place.Stands writes true b .none ∧ place.Stands writes true b.abort .none := by
  cases place with
  | free base =>
    obtain ⟨hd, ⟨-, hb⟩ | ha⟩ := h
    · exact ⟨⟨hd, .inl ⟨rfl, hb⟩⟩, hd, .inl ⟨rfl, by simp [Books.abort, hb]⟩⟩
    · cases ha
  | scope above below durable base =>
    obtain ⟨hd, t, hb, hi⟩ := h
    cases hi with
    | settled deeper saved kept alive =>
      exact ⟨⟨hd, t, hb, .settled deeper saved kept fun _ => rfl⟩, hd, { t with aborted := true },
        by simp [Books.abort, hb], .settled deeper saved kept fun _ => rfl⟩

theorem ends_execute (st : Sql.Statement) (h : place.Holds writes failed s) :
    ((connection judge codecs).execute place.depth st).Ends s fun r t =>
      ∃ x, r = x.mapError .failed ∧ place.Ran writes failed st x t := by
  refine (ends_discard h.stands).returning ?_
  intro t ends
  obtain ⟨stands, settled, keeping⟩ := ends
  refine (ends_run st).mono ?_
  intro r u ends
  obtain ⟨x, rfl, outcome, abandoned, kept⟩ := ends
  have owned : u.keeping.owned = place.handle?.isSome := by rw [kept, keeping, h.owned]
  have here : u.abandoned 0 = .none := by rw [abandoned, settled]
  refine ⟨x, rfl, ?_⟩
  generalize hb : u.server.books = b at outcome
  cases outcome with
  | @carried w hx hw _ => exact .carried hx hw ⟨owned, here ▸ hb ▸ stands_record w stands⟩
  | refused hx => exact .failed hx ⟨owned, here ▸ hb ▸ (stands_failed stands).1⟩
  | aborted hx => exact .failed hx ⟨owned, here ▸ hb ▸ (stands_failed stands).2⟩

theorem ends_driver_execute (st : Sql.Statement) (h : place.Holds writes failed s) :
    ((Exclusive.driver (server judge) codecs).execute place.handle? st).Ends s fun r t =>
      ∃ x, r = x.mapError .failed ∧ place.Ran writes failed st x t := by
  have inside : ((connection judge codecs).execute place.depth st).Ends s _ := ends_execute st h
  cases place with
  | free base => exact Ends.andThen (Exclusive.ends_requireFree h.owned) inside
  | scope above below durable base => exact inside

inductive Place.Begun (place : Place) (writes : List Write) (failed : Bool) :
    Except (Stop SqlError) OpenScope → Line (Ledger γ) Ownership → Prop where
  | opened {inner : Place} {t : Line (Ledger γ) Ownership} (ho : place.Opens writes inner)
      (h : inner.Holds [] false t) : place.Begun writes failed (.ok ⟨0, place.depth + 1⟩) t
  | refused {e : SqlError} {t : Line (Ledger γ) Ownership} (h : place.Holds writes failed t) :
      place.Begun writes failed (.error (.failed e)) t

theorem ends_enter_ok {depth : Nat} {b : Books}
    (hb : runCommand ⟨.begin, depth⟩ s.server.books = (.ok (), b)) :
    ((connection judge codecs).enter depth).Ends s fun r t =>
      r = .ok ⟨0, depth⟩ ∧ t = { s with server := { s.server with books := b } } :=
  Ends.andThen (ends_batch_ok hb).cleanUp_ok (ends_pure ⟨rfl, rfl⟩)

theorem ends_enter_refused {depth : Nat} {e : ServerError} {b : Books}
    (hb : runCommand ⟨.begin, depth⟩ s.server.books = (.error e, b)) :
    ((connection judge codecs).enter depth).Ends s fun r t =>
      r = .error (.failed (.ofServer e)) ∧
        t = Exclusive.ended depth { s with server := { s.server with books := b } } :=
  Ends.stop (Ends.cleanUp_failed (ends_batch hb ⟨rfl, rfl⟩)) ⟨rfl, rfl⟩

theorem ended_savepoint (above : Nat) (t : Line (Ledger γ) Ownership) :
    Exclusive.ended (above + 2) t = t := if_neg (by omega)

theorem ends_begin_free {base : List Write} (h : (Place.free base).Holds writes failed s) :
    (Exclusive.begin (connection judge codecs)).Ends s
      ((Place.free base).Begun writes failed) := by
  refine Ends.andThen (Exclusive.ends_requireFree h.owned) ?_
  refine Ends.andThen (ends_changeState ⟨rfl, rfl⟩) ?_
  have stands : (Place.free base).Stands writes failed
      (Exclusive.setOwned true s).server.books ((Exclusive.setOwned true s).abandoned 0) := h.stands
  refine (ends_discard stands).cleanUp_ok.returning ?_
  intro t ends
  obtain ⟨⟨hd, hb⟩, settled, keeping⟩ := ends
  have noBlock : t.server.books.block = none := by
    rcases hb with ⟨-, hb⟩ | ha
    · exact hb
    · cases ha
  have opened : runCommand ⟨.begin, 1⟩ t.server.books =
      (.ok (), { t.server.books with block := some ⟨[], [], false⟩ }) := by
    rw [runCommand_eq]
    simp [ScopeCommand.controls, runControls, control, noBlock]
  refine (ends_enter_ok opened).mono ?_
  intro r u ends
  obtain ⟨rfl, rfl⟩ := ends
  refine .opened (.transaction base writes) ⟨by rw [keeping]; rfl, hd, _, rfl, ?_⟩
  rw [settled]
  exact .clear rfl rfl fun ha => absurd ha Bool.false_ne_true

/-- A savepoint cannot be set in an aborted transaction; otherwise it is the one on top. -/
theorem ends_begin_scope {above : Nat} {below : List Savepoint} {durable base : List Write}
    (h : (Place.scope above below durable base).Holds writes failed s) :
    ((connection judge codecs).enterInside (above + 1)).Ends s
      ((Place.scope above below durable base).Begun writes failed) := by
  refine (ends_discard h.stands).returning ?_
  intro t ends
  obtain ⟨⟨hd, b, hb, hi⟩, settled, keeping⟩ := ends
  have owned : t.keeping.owned = true := by rw [keeping, h.owned]; rfl
  cases hi with
  | @settled upper _ deeper saved kept alive =>
    by_cases ha : b.aborted = true
    · have refused : runCommand ⟨.begin, above + 2⟩ t.server.books =
          (.error abortedRefusal, ⟨durable, some b⟩) := by
        rw [books_eq hd hb]
        exact run_savepoint_aborted ha
      refine (ends_enter_refused refused).mono ?_
      intro r u ends
      obtain ⟨rfl, rfl⟩ := ends
      rw [ended_savepoint]
      refine .refused ⟨owned, rfl, b, rfl, ?_⟩
      rw [settled]
      exact .settled deeper saved kept alive
    · have opened : runCommand ⟨.begin, above + 2⟩ t.server.books = (.ok (), ⟨durable,
          some { b with saved := ⟨savepointName (above + 2), b.pending⟩ :: b.saved }⟩) := by
        rw [books_eq hd hb]
        exact run_savepoint (by simpa using ha)
      refine (ends_enter_ok opened).mono ?_
      intro r u ends
      obtain ⟨rfl, rfl⟩ := ends
      refine .opened (.savepoint deeper) ⟨owned, rfl, _, rfl, ?_⟩
      rw [settled]
      refine .clear ?_ ?_ ?_
      · simp [saved, kept]
      · simp [kept]
      · exact fun he => absurd he ha

theorem ends_driver_begin (h : place.Holds writes failed s) :
    ((Exclusive.driver (server judge) codecs).begin place.handle?).Ends s
      (place.Begun writes failed) := by
  cases place with
  | free base =>
    have opened : (Exclusive.begin (connection judge codecs)).Ends s _ := ends_begin_free h
    exact opened
  | scope above below durable base =>
    have opened : ((connection judge codecs).enterInside (above + 1)).Ends s _ := ends_begin_scope h
    exact opened

theorem runs_commit (ho : place.Opens writes inner) {b : Books}
    (h : inner.Stands added false b .none) :
    ∃ b', runCommand ⟨.commit, inner.depth⟩ b = (.ok (), b') ∧
      place.Stands (writes ++ added) failed b' .none := by
  cases ho with
  | transaction base writes =>
    obtain ⟨hd, t, hb, hi⟩ := h
    cases hi with
    | settled deeper saved kept alive =>
      have ha : t.aborted = false := by simpa using alive
      refine ⟨⟨b.durable ++ t.pending, none⟩, ?_, ?_, .inl ⟨rfl, rfl⟩⟩
      · rw [runCommand_eq]
        simp [Place.depth, ScopeCommand.controls, runControls, control, hb, ha]
      · simp [hd, kept]
  | @savepoint above below upper durable base writes deeper =>
    obtain ⟨hd, t, hb, hi⟩ := h
    cases hi with
    | settled inside saved kept alive =>
      have ha : t.aborted = false := by simpa using alive
      have released : runCommand ⟨.commit, above + 2⟩ b =
          (.ok (), ⟨durable, some { t with saved := upper ++ below }⟩) := by
        rw [books_eq hd hb]
        exact run_release saved inside rfl ha
      exact ⟨_, released, rfl, _, rfl,
        .settled deeper rfl (by simp [kept]) fun he => absurd (ha.symm.trans he) (by decide)⟩

theorem runs_rollback (ho : place.Opens writes inner) {b : Books} {broken : Bool}
    (h : inner.Stands added broken b .none) :
    ∃ b', runCommand ⟨.rollback, inner.depth⟩ b = (.ok (), b') ∧
      place.Stands writes failed b' .none := by
  cases ho with
  | transaction base writes =>
    obtain ⟨hd, t, hb, -⟩ := h
    refine ⟨⟨b.durable, none⟩, ?_, hd, .inl ⟨rfl, rfl⟩⟩
    rw [runCommand_eq]
    rfl
  | @savepoint above below upper durable base writes deeper =>
    obtain ⟨hd, t, hb, hi⟩ := h
    cases hi with
    | settled inside saved kept alive =>
      -- the savepoint stays on the stack, above those that were left there before
      have stays : ∀ p ∈ ⟨savepointName (above + 2), base ++ writes⟩ :: upper,
          Deeper (above + 1) p := by
        rw [← List.nil_append (_ :: upper)]
        exact deeper_append nofun rfl deeper
      have back : runCommand ⟨.rollback, above + 2⟩ b = (.ok (), ⟨durable,
          some ⟨⟨savepointName (above + 2), base ++ writes⟩ :: (upper ++ below), base ++ writes,
            false⟩⟩) := by
        rw [books_eq hd hb]
        exact run_rollbackTo saved inside rfl
      exact ⟨_, back, rfl, _, rfl, .settled stays rfl rfl fun ha => absurd ha Bool.false_ne_true⟩

/-- A scope that ends by a command which is carried out gives its place back. -/
theorem ends_finish {action : ScopeAction} {broken : Bool} {kept : List Write}
    (ho : place.Opens writes inner) (h : inner.Holds added broken s)
    (runs : ∀ b, inner.Stands added broken b .none → ∃ b',
      runCommand ⟨action, inner.depth⟩ b = (.ok (), b') ∧ place.Stands kept failed b' .none) :
    ((connection judge codecs).finish action inner.depth).Ends s fun r t =>
      r = .ok () ∧ place.Holds kept failed t := by
  refine (ends_discard h.stands).cleanUp_ok.returning ?_
  intro t ends
  obtain ⟨stands, settled, keeping⟩ := ends
  obtain ⟨b, ran, after⟩ := runs _ stands
  refine Ends.andThen (ends_batch_ok ran).cleanUp_ok ?_
  refine ends_changeState ⟨rfl, ?_⟩
  cases ho with
  | transaction base writes => exact ⟨rfl, settled ▸ after⟩
  | savepoint deeper =>
    rw [show (connection judge codecs).ended = Exclusive.ended from rfl, Place.depth,
      ended_savepoint]
    exact ⟨keeping ▸ h.owned, settled ▸ after⟩

theorem ends_driver_commit (ho : place.Opens writes inner) (h : inner.Holds added false s) :
    ((Exclusive.driver (server judge) codecs).commit ⟨0, place.depth + 1⟩).Ends s fun r t =>
      r = .ok () ∧ place.Holds (writes ++ added) failed t := by
  have finished : ((connection judge codecs).finish .commit inner.depth).Ends s fun r t =>
      r = .ok () ∧ place.Holds (writes ++ added) failed t :=
    ends_finish ho h fun _ => runs_commit ho
  rw [ho.depth] at finished
  exact finished

theorem ends_driver_rollback {broken : Bool} (ho : place.Opens writes inner)
    (h : inner.Holds added broken s) :
    ((Exclusive.driver (server judge) codecs).rollback ⟨0, place.depth + 1⟩).Ends s fun r t =>
      r = .ok () ∧ place.Holds writes failed t := by
  have finished : ((connection judge codecs).finish .rollback inner.depth).Ends s fun r t =>
      r = .ok () ∧ place.Holds writes failed t := ends_finish ho h fun _ => runs_rollback ho
  rw [ho.depth] at finished
  exact finished

/-- All that stands above a scope's savepoint belongs to deeper scopes. -/
theorem InBlock.stack {depth : Nat} {below : List Savepoint} {pending : List Write} {broken : Bool}
    {a : Abandoned} {t : Block} (h : InBlock depth below pending broken a t) :
    ∃ upper, t.saved = upper ++ below ∧ ∀ p ∈ upper, Deeper depth p := by
  cases h with
  | settled deeper saved => exact ⟨_, saved, deeper⟩
  | @abandoned inner outer _ inside deeper saved =>
    refine ⟨inner ++ ⟨savepointName (depth + 1), pending⟩ :: outer, by simp [saved], ?_⟩
    exact deeper_append inside rfl deeper

theorem InBlock.abandon {depth : Nat} {below : List Savepoint} {pending : List Write}
    {broken : Bool} {a : Abandoned} {t : Block} (h : InBlock depth below pending broken a t) :
    a.abandon depth = ⟨some depth⟩ := by
  cases h with
  | settled => rfl
  | abandoned => simp [Abandoned.abandon]

/-- A scope that is dropped leaves its savepoint on the server, to be discarded later. -/
theorem holds_letGo {broken : Bool} (ho : place.Opens writes inner)
    (h : inner.Holds added broken s) :
    place.Holds writes failed (Exclusive.letGo (place.depth + 1) s) := by
  obtain ⟨owned, stands⟩ := h
  cases ho with
  | transaction base writes =>
    obtain ⟨hd, t, hb, hi⟩ := stands
    exact ⟨rfl, hd, .inr hi.abandon⟩
  | savepoint deeper =>
    obtain ⟨hd, t, hb, hi⟩ := stands
    obtain ⟨upper, saved, inside⟩ := hi.stack
    rw [Exclusive.letGo, Place.depth, ended_savepoint]
    refine ⟨owned, hd, t, hb, ?_⟩
    change InBlock _ _ _ _ ((s.abandoned 0).abandon _) t
    rw [hi.abandon]
    exact .abandoned inside deeper saved

end Link

end SqlClient.Ledger
