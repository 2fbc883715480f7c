import SqlClient.Driver.Exclusive
import SqlClient.Proofs.Action
/-!
# Requests on one connection

How requests end that are made on a connection of its own, whatever server it leads to. A call on
the connection itself that finds something abandoned has it discarded and starts again; that is done
at most once, since nothing is left to be found.
-/
namespace SqlClient

open Act

def Reply.outcome {α : Type} : Reply α → Except (Stop SqlError) α
  | .answered a => .ok a
  | .refused e => .error (.failed (.ofServer e))
  | .unanswered level => .error (.dropped level)

/-- Only a refusal fails a call. -/
theorem Reply.refused_of_outcome {α : Type} {reply : Reply α} {e : SqlError}
    (h : reply.outcome = .error (.failed e)) : ∃ cause, reply = .refused cause := by
  cases reply with
  | answered a => cases h
  | refused cause => exact ⟨cause, rfl⟩
  | unanswered level => cases h

theorem mapM_eq_error {α δ ε : Type} {f : α → Except ε δ} {xs : List α} {e : ε}
    (h : xs.mapM f = .error e) : ∃ x ∈ xs, f x = .error e := by
  induction xs with
  | nil => cases h
  | cons x xs ih =>
    rw [List.mapM_cons] at h
    cases hx : f x with
    | error e' =>
      rw [hx] at h
      cases h
      exact ⟨x, List.mem_cons_self, hx⟩
    | ok a =>
      cases hxs : xs.mapM f with
      | ok as =>
        rw [hx, hxs] at h
        cases h
      | error e' =>
        rw [hx, hxs] at h
        cases h
        obtain ⟨y, hy, he⟩ := ih hxs
        exact ⟨y, List.mem_cons_of_mem x hy, he⟩

/-- Parameters fail only by a parameter that cannot be written, or by their number. -/
theorem encodeParams_error {types : List Wire.PgType} {params : List Value} {e : SqlError}
    (h : encodeParams types params = .error e) : ∃ fault, e = .query fault := by
  rw [encodeParams] at h
  split at h
  · obtain ⟨⟨⟨type, v⟩, i⟩, -, he⟩ := mapM_eq_error h
    cases hx : Wire.encode type v with
    | error cause =>
      simp only [hx] at he
      cases he
      exact ⟨_, rfl⟩
    | ok bytes =>
      simp only [hx] at he
      cases he
  · cases h
    exact ⟨_, rfl⟩

namespace Exclusive

variable {β α : Type} {server : Server β} {codecs : Wire.Codecs} {s : Line β Ownership}

/-- A reply is awaited with nothing going on meanwhile. -/
theorem ends_ask {request : Request} {f : β → Reply α × β}
    {post : Except (Stop SqlError) α → Line β Ownership → Prop}
    (h : post (f s.server).1.outcome { s with server := (f s.server).2 }) :
    ((link server codecs).ask request f).Ends s post := by
  refine Ends.andThen (ends_append ⟨rfl, rfl⟩) ?_
  refine Ends.andThen (ends_pure ⟨rfl, rfl⟩) ?_
  refine Ends.andThen (ends_onState ⟨rfl, rfl⟩) ?_
  generalize f s.server = reply at h
  obtain ⟨a | e | level, b⟩ := reply
  · exact ends_pure h
  · exact ends_fail h
  · exact ends_drop h

theorem ends_ask_answered {request : Request} {f : β → Reply α × β} {a : α} {b : β}
    (h : f s.server = (.answered a, b)) :
    ((link server codecs).ask request f).Ends s fun r t =>
      r = .ok a ∧ t = { s with server := b } := by
  refine ends_ask ?_
  rw [h]
  exact ⟨rfl, rfl⟩

theorem ends_discard_none {depth : Nat} (h : (s.abandoned 0).below? depth = none) :
    ((link server codecs).discard depth).Ends s fun r t => r = .ok () ∧ t = s := by
  refine ends_progress_bind fun p hp => ?_
  have here : (p.state.abandoned (link server codecs).connection).below? depth = none := by
    rw [hp]
    exact h
  simp only [here]
  exact ends_pure ⟨rfl, rfl⟩

/-- What was abandoned is settled once its discarding was answered. -/
theorem ends_discard_some {depth d : Nat}
    {post : Except (Stop SqlError) Unit → Line β Ownership → Prop}
    (h : (s.abandoned 0).below? depth = some d)
    (sent : ((link server codecs).batch ⟨.discard, d⟩).Ends s fun r t =>
      match r with
      | .ok () => post (.ok ()) (t.changeAbandoned 0 (·.settle d))
      | .error e => post (.error e) t) : ((link server codecs).discard depth).Ends s post := by
  refine ends_progress_bind fun p hp => ?_
  have here : (p.state.abandoned (link server codecs).connection).below? depth = some d := by
    rw [hp]
    exact h
  simp only [here]
  refine Ends.andThen (ends_append ⟨rfl, rfl⟩) (ends_bind (sent.mono ?_))
  rintro (e | _) t ht
  · exact ht
  · exact ends_changeState ht

theorem ends_requireFree (h : s.keeping.owned = false) :
    (requireFree : Act (Line β Ownership) SqlError Unit).Ends s fun r t => r = .ok () ∧ t = s := by
  refine ends_progress_bind fun p hp => ?_
  rw [hp, h]
  exact ends_pure ⟨rfl, rfl⟩

section Run

variable {st : Sql.Statement} {prepared : Prepared} {params : List (Option Bytes)}
  {cells : List (List (Option Bytes))} {b b' : β}

/-- A statement that is answered ends as its rows are decoded. -/
theorem ends_run_executed (hp : server.prepare 0 st.text s.server = (.answered prepared, b))
    (he : encodeParams prepared.params st.params = .ok params)
    (hx : server.execute 0 st.text params b = (.answered cells, b')) :
    ((link server codecs).run st).Ends s fun r t =>
      r = ((codecs.decodeRows prepared.columns cells).map
        (ResultSet.mk (prepared.columns.map (·.name)))).mapError .failed ∧
      t = { s with server := b' } := by
  refine Ends.andThen (ends_ask_answered hp) ?_
  rw [he]
  refine Ends.andThen (ends_pure ⟨rfl, rfl⟩) ?_
  refine Ends.andThen (ends_ask_answered hx) ?_
  change Ends (ofExcept (codecs.decodeRows prepared.columns cells) >>= _) _ _
  cases codecs.decodeRows prepared.columns cells with
  | ok rows => exact Ends.andThen (ends_pure ⟨rfl, rfl⟩) (ends_pure ⟨rfl, rfl⟩)
  | error e => exact Ends.stop (ends_fail ⟨rfl, rfl⟩) ⟨rfl, rfl⟩

theorem ends_run_answered {rows : List Record}
    (hp : server.prepare 0 st.text s.server = (.answered prepared, b))
    (he : encodeParams prepared.params st.params = .ok params)
    (hx : server.execute 0 st.text params b = (.answered cells, b'))
    (hd : codecs.decodeRows prepared.columns cells = .ok rows) :
    ((link server codecs).run st).Ends s fun r t =>
      r = .ok ⟨prepared.columns.map (·.name), rows⟩ ∧ t = { s with server := b' } := by
  have run : ((link server codecs).run st).Ends s _ := ends_run_executed hp he hx
  rw [hd] at run
  exact run

end Run

def Ready (scope : Option OpenScope) (s : Line β Ownership) : Prop :=
  match scope with
  | none => s.keeping.owned = false ∧ (s.abandoned 0).below? 0 = none
  | some scope => (s.abandoned 0).below? scope.depth = none

/-- Refused or not, nothing has changed. -/
theorem ends_requireFree_same :
    (requireFree : Act (Line β Ownership) SqlError Unit).Ends s fun _ t => t = s := by
  refine ends_progress_bind fun p hp => ?_
  split
  · exact ends_fail rfl
  · exact ends_pure rfl

theorem ends_execute_ready {scope : Option OpenScope} {st : Sql.Statement}
    {post : Except (Stop SqlError) ResultSet → Line β Ownership → Prop} (hs : Ready scope s)
    (h : ((link server codecs).run st).Ends s post) :
    ((driver server codecs).execute scope st).Ends s post := by
  cases scope with
  | none =>
    obtain ⟨free, settled⟩ := hs
    exact Ends.andThen (ends_requireFree free) (Ends.andThen (ends_discard_none settled) h)
  | some scope => exact Ends.andThen (ends_discard_none hs) h

/-- The server once what was abandoned inside the scope at `depth` has been discarded. -/
inductive Discarded (server : Server β) (s : Line β Ownership) (depth : Nat) : β → Prop where
  | nothing : (s.abandoned 0).below? depth = none → Discarded server s depth s.server
  | answered {d : Nat} {b : β} : (s.abandoned 0).below? depth = some d →
      server.batch 0 ⟨.discard, d⟩ s.server = (.answered (), b) → Discarded server s depth b

structure Executes (server : Server β) (scope : Option OpenScope) (st : Sql.Statement)
    (columns : List Wire.Column) (wire : List (List (Option Bytes))) (s : Line β Ownership) :
    Prop where
  free : scope = none → s.keeping.owned = false
  answered : ∃ types params b b₁ b₂, Discarded server s (scope.elim 0 OpenScope.depth) b ∧
    server.prepare 0 st.text b = (.answered ⟨types, columns⟩, b₁) ∧
    encodeParams types st.params = .ok params ∧
    server.execute 0 st.text params b₁ = (.answered wire, b₂)

theorem Discarded.ends_discard {depth : Nat} {b : β} (h : Discarded server s depth b) :
    ((link server codecs).discard depth).Ends s fun r t => r = .ok () ∧ t.server = b := by
  cases h with
  | nothing none =>
    refine (ends_discard_none none).mono ?_
    rintro _ _ ⟨rfl, rfl⟩
    exact ⟨rfl, rfl⟩
  | answered some sent =>
    refine ends_discard_some some ((ends_ask_answered sent).mono ?_)
    rintro _ _ ⟨rfl, rfl⟩
    exact ⟨rfl, rfl⟩

/-- The call ends as its rows are decoded. -/
theorem Executes.ends_execute {scope : Option OpenScope} {st : Sql.Statement}
    {columns : List Wire.Column} {wire : List (List (Option Bytes))}
    (h : Executes server scope st columns wire s) :
    ((driver server codecs).execute scope st).Ends s fun r _ =>
      r = ((codecs.decodeRows columns wire).map
        (ResultSet.mk (columns.map (·.name)))).mapError .failed := by
  obtain ⟨types, params, b, b₁, b₂, discarded, prepared, encoded, executed⟩ := h.answered
  have run : ((link server codecs).execute (scope.elim 0 OpenScope.depth) st).Ends s fun r _ =>
      r = ((codecs.decodeRows columns wire).map
        (ResultSet.mk (columns.map (·.name)))).mapError .failed := by
    refine discarded.ends_discard.returning ?_
    rintro t rfl
    refine (ends_run_executed prepared encoded executed).mono ?_
    rintro r _ ⟨hr, -⟩
    exact hr
  cases scope with
  | none => exact Ends.andThen (ends_requireFree (h.free rfl)) run
  | some scope => exact run

theorem run_requireFree (p : Progress (Line β Ownership)) :
    requireFree.run p = (if p.state.keeping.owned then .error (.failed pinned) else .ok (), p) := by
  rw [requireFree, run_bind]
  change Act.run (if p.state.keeping.owned = true then Act.fail pinned else pure ()) p = _
  split <;> rfl

/-- What was found is gone once it was discarded. -/
theorem ends_discard_clears {depth : Nat} :
    ((link server codecs).discard depth).Ends s fun r t =>
      r = .ok () → t.keeping = s.keeping ∧ (t.abandoned 0).below? depth = none := by
  cases found : (s.abandoned 0).below? depth with
  | none =>
    refine (ends_discard_none found).mono ?_
    rintro _ _ ⟨-, rfl⟩ -
    exact ⟨rfl, found⟩
  | some d =>
    have shallowest : (s.abandoned 0).shallowest = some d := (Option.filter_eq_some_iff.mp found).1
    refine ends_discard_some found (ends_ask ?_)
    split
    · rintro -
      exact ⟨rfl, by simp [Line.changeAbandoned, Abandoned.settle, shallowest, Abandoned.below?,
        Abandoned.none]⟩
    · rintro ⟨⟩

/-- One round of a call on the connection itself; `again` is what it does to start again. -/
def round (server : Server β) (codecs : Wire.Codecs) (st : Sql.Statement)
    (again : Act (Line β Ownership) SqlError ResultSet) :
    Act (Line β Ownership) SqlError ResultSet := do
  requireFree
  if (((← Act.progress).state.abandoned 0).below? 0).isNone then (link server codecs).run st
  else do (link server codecs).discard 0; again

section Round

variable {st : Sql.Statement} {again : Act (Line β Ownership) SqlError ResultSet}
  {p : Progress (Line β Ownership)}

theorem run_round (p : Progress (Line β Ownership)) : (round server codecs st again).run p =
    if p.state.keeping.owned then (.error (.failed pinned), p)
    else if ((p.state.abandoned 0).below? 0).isNone then ((link server codecs).run st).run p
    else ((link server codecs).discard 0 >>= fun _ => again).run p := by
  rw [round, run_bind, run_requireFree]
  cases p.state.keeping.owned with
  | true => rfl
  | false =>
    change Act.run (progress >>= _) p = _
    rw [run_bind]
    change Act.run (if _ then _ else _) p = _
    split <;> rfl

theorem run_execute (p : Progress (Line β Ownership)) :
    ((driver server codecs).execute none st).run p =
      if p.state.keeping.owned then (.error (.failed pinned), p)
      else ((link server codecs).discard 0 >>= fun _ => (link server codecs).run st).run p := by
  change (requireFree >>= fun _ => (link server codecs).execute 0 st).run p = _
  rw [run_bind, run_requireFree]
  cases p.state.keeping.owned <;> rfl

theorem run_discard_none {depth : Nat} {p : Progress (Line β Ownership)}
    (nothing : (p.state.abandoned 0).below? depth = none) :
    ((link server codecs).discard depth).run p = (.ok (), p) := by
  have here : (p.state.abandoned (link server codecs).connection).below? depth = none := nothing
  rw [Link.discard, run_bind]
  simp only [Act.run, progress, ofRun, here]
  rfl

/-- It only matters what starting again comes to where nothing is abandoned. -/
theorem round_eq_execute (h : ∀ q : Progress (Line β Ownership), q.state.keeping.owned = false →
      (q.state.abandoned 0).below? 0 = none →
      again.run q = ((link server codecs).run st).run q) :
    round server codecs st again = (driver server codecs).execute none st := by
  have same (p : Progress (Line β Ownership)) : (round server codecs st again).run p =
      ((driver server codecs).execute none st).run p := by
    rw [run_round, run_execute]
    cases free : p.state.keeping.owned with
    | true => rfl
    | false =>
      cases found : (p.state.abandoned 0).below? 0 with
      | none =>
        change ((link server codecs).run st).run p = Act.run (_ >>= _) p
        rw [run_bind, run_discard_none found]
      | some d =>
        change Act.run (_ >>= _) p = Act.run (_ >>= _) p
        rw [run_bind, run_bind]
        have clears := @ends_discard_clears _ server codecs p.state 0 p rfl
        generalize ((link server codecs).discard 0).run p = discarded at clears
        obtain ⟨stop | ⟨⟩, q⟩ := discarded
        · rfl
        · obtain ⟨keeping, nothing⟩ := clears rfl
          exact h q ((congrArg Ownership.owned keeping).trans free) nothing
  exact funext same

/-- The call that starts again as long as something is abandoned is the one that discards once. -/
theorem eq_round_iff : again = round server codecs st again ↔
    again = (driver server codecs).execute none st := by
  constructor
  · intro starts
    refine starts.trans (round_eq_execute fun q free nothing => ?_)
    rw [starts, run_round, free, nothing]
    rfl
  · rintro rfl
    refine (round_eq_execute fun q free nothing => ?_).symm
    rw [run_execute, free]
    change Act.run (_ >>= _) q = _
    rw [run_bind, run_discard_none nothing]

end Round

end Exclusive

end SqlClient
