import SqlClient.Proofs.Client.Calls
import SqlClient.Proofs.Driver.Requests
import SqlClient.Proofs.Wire.Rows
/-!
# What a call sends

A call over one connection has one statement, or none if its input is refused. It is prepared and
executed at most once, behind the discarding of a scope that was abandoned there, whatever the
server answers and at whatever point the call fails; and nothing else is sent.
-/
namespace SqlClient

open SqlClient.Casing SqlClient.Monitor SqlClient.Sql SqlClient.Wire Act

def Entry.request? : Entry → Option (Nat × Request)
  | .request connection r => some (connection, r)
  | .call _ | .observed .. | .trace _ | .note _ => none

def sent (log : List Entry) : List (Nat × Request) := log.filterMap Entry.request?

theorem sent_append (before after : List Entry) :
    sent (before ++ after) = sent before ++ sent after := List.filterMap_append

def sending (σ : Type) : Account σ (Nat × Request) where
  Grows p w q := sent q.log = sent p.log ++ w
  still _ _ := (List.append_nil _).symm
  append first second := by rw [second, first, List.append_assoc]

theorem sent_observe {σ : Type} (o : Observer) (e : Event) (p : Progress σ) :
    sent (o.observe e p).log = sent p.log := by
  cases o with
  | recorder label watched =>
    rw [Observer.observe]
    split
    · exact (sent_append _ _).trans (List.append_nil _)
    · rfl
  | counter i => rfl
  | tracer t =>
    have traces : sent ((t.trace? e).toList.map .trace) = [] := by
      cases t.trace? e <;> rfl
    rw [Observer.observe, sent_append, traces, List.append_nil]
  | silent => rfl

/-- What a call sends does not come from hooks. -/
theorem sent_tell {σ : Type} (os : List Observer) (e : Event) (p : Progress σ) :
    sent (Hook.tell os e p).log = sent p.log := by
  induction os generalizing p with
  | nil => rfl
  | cons o os ih => exact (ih (o.observe e p)).trans (sent_observe o e p)

def discards (pending : Option Nat) : List (Nat × Request) :=
  pending.toList.map fun depth => (0, .batch ⟨.discard, depth⟩)

/-- The statement was prepared and executed with its parameters, each once. -/
def Executed (pending : Option Nat) (st : Statement) (w : List (Nat × Request)) : Prop :=
  ∃ types params, encodeParams types st.params = .ok params ∧
    w = discards pending ++ [(0, .prepare st.text), (0, .execute params)]

/-- It was executed, or what was sent ends before that. -/
def Sends (pending : Option Nat) (st : Statement) (w : List (Nat × Request)) : Prop :=
  w <+: discards pending ++ [(0, .prepare st.text)] ∨ Executed pending st w

def SqlError.isVerdict (e : SqlError) : Bool := e.isInvalidInput || e.isNotFound

def Unjudged {α : Type} (r : Except (Stop SqlError) α) : Prop :=
  ∀ e, r = .error (.failed e) → e.isVerdict = false

def Accepted {α : Type} (r : Except (Stop SqlError) α) : Prop :=
  ∀ message, r ≠ .error (.failed (.invalidInput message))

structure Spent {α : Type} (pending : Option Nat) (st : Statement) (r : Except (Stop SqlError) α)
    (w : List (Nat × Request)) : Prop where
  sends : Sends pending st w
  rejected : ∀ message, r = .error (.failed (.invalidInput message)) → w = []
  executed : (∃ a, r = .ok a) ∨ (∃ message, r = .error (.failed (.notFound message))) →
    Executed pending st w

section Spent

variable {α β : Type} {pending : Option Nat} {st : Statement} {r : Except (Stop SqlError) α}
  {w : List (Nat × Request)}

theorem unjudged_ok (a : α) : Unjudged (.ok a : Except (Stop SqlError) α) := nofun

theorem unjudged_dropped (level : Nat) :
    Unjudged (.error (.dropped level) : Except (Stop SqlError) α) := nofun

theorem unjudged_failed {e : SqlError} (h : e.isVerdict = false) :
    Unjudged (.error (.failed e) : Except (Stop SqlError) α) := by
  rintro _ ⟨⟩
  exact h

theorem Unjudged.stop {stop : Stop SqlError}
    (h : Unjudged (.error stop : Except (Stop SqlError) α)) :
    Unjudged (.error stop : Except (Stop SqlError) β) := by
  rintro e ⟨⟩
  exact h e rfl

/-- Of a call that failed no check only a result is evidence that its statement was executed. -/
theorem Unjudged.spent (h : Unjudged r) (sends : Sends pending st w)
    (executed : ∀ a, r = .ok a → Executed pending st w) : Spent pending st r w where
  sends
  rejected _ hr := nomatch h _ hr
  executed
    | .inl ⟨a, hr⟩ => executed a hr
    | .inr ⟨_, hr⟩ => nomatch h _ hr

/-- After a result the input is not refused any more, whatever else is made of it. -/
theorem Executed.spent (h : Executed pending st w) (accepted : Accepted r) :
    Spent pending st r w where
  sends := .inr h
  rejected message hr := absurd hr (accepted message)
  executed _ := h

theorem Spent.stop {stop : Stop SqlError}
    (h : Spent pending st (.error stop : Except (Stop SqlError) α) w) :
    Spent pending st (.error stop : Except (Stop SqlError) β) w where
  sends := h.sends
  rejected := by
    rintro message ⟨⟩
    exact h.rejected message rfl
  executed := by
    rintro (⟨a, ⟨⟩⟩ | ⟨message, ⟨⟩⟩)
    exact h.executed (.inr ⟨message, rfl⟩)

theorem Executed.behind (h : Executed none st w) (pending : Option Nat) :
    Executed pending st (discards pending ++ w) := by
  obtain ⟨types, params, encoded, rfl⟩ := h
  exact ⟨types, params, encoded, rfl⟩

theorem Sends.behind (h : Sends none st w) (pending : Option Nat) :
    Sends pending st (discards pending ++ w) :=
  h.imp (List.prefix_append_right_inj _).mpr (·.behind pending)

/-- The discarding failed. -/
theorem sends_discards (pending : Option Nat) (st : Statement) :
    Sends pending st (discards pending) := .inl (List.prefix_append _ _)

end Spent

theorem SqlError.isVerdict_ofServer (e : ServerError) :
    (SqlError.ofServer e).isVerdict = false := by
  rw [SqlError.ofServer]
  split <;> rfl

def Act.Spends {σ α : Type} (act : Act σ SqlError α) (s : σ) (pending : Option Nat)
    (st : Statement) : Prop :=
  act.Accounts (sending σ) s fun r w _ => Spent pending st r w

namespace Exclusive

variable {α β : Type} {server : Server β} {codecs : Codecs} {s : Line β Ownership} {st : Statement}

def pending (s : Line β Ownership) (scope : Option OpenScope) : Option Nat :=
  (s.abandoned 0).below? (scope.elim 0 OpenScope.depth)

theorem accounts_ask (request : Request) (f : β → Reply α × β) :
    ((link server codecs).ask request f).Accounts (sending _) s fun r w _ =>
      Unjudged r ∧ w = [(0, request)] := by
  refine accounts_bind (accounts_change (fun p => sent_append p.log _) ?_)
  rintro p rfl
  refine accounts_bind (accounts_pure (accounts_bind (accounts_onState ?_)))
  match (f p.state.server).1 with
  | .answered a => exact accounts_pure ⟨unjudged_ok a, rfl⟩
  | .refused e => exact accounts_fail ⟨unjudged_failed (SqlError.isVerdict_ofServer e), rfl⟩
  | .unanswered level => exact accounts_drop ⟨unjudged_dropped level, rfl⟩

theorem accounts_discard (depth : Nat) :
    ((link server codecs).discard depth).Accounts (sending _) s fun r w _ =>
      Unjudged r ∧ w = discards ((s.abandoned 0).below? depth) := by
  refine accounts_progress_bind ?_
  rintro p rfl
  cases pending : (p.state.abandoned 0).below? depth with
  | none =>
    simp only [link, pending]
    exact accounts_pure ⟨unjudged_ok (), rfl⟩
  | some d =>
    simp only [link, pending]
    refine accounts_bind (accounts_change (fun p => sent_append p.log _) ?_)
    rintro q -
    refine accounts_bind ((accounts_ask (.batch ⟨.discard, d⟩) _).mono ?_)
    rintro (stop | ⟨⟩) _ t ⟨unjudged, rfl⟩
    · exact ⟨unjudged, rfl⟩
    · exact accounts_changeState ⟨unjudged, rfl⟩

theorem accounts_run :
    ((link server codecs).run st).Accounts (sending _) s fun r w _ =>
      Unjudged r ∧ Sends none st w ∧ ∀ a, r = .ok a → Executed none st w := by
  have first : Sends none st [(0, .prepare st.text)] := .inl List.prefix_rfl
  refine accounts_bind ((accounts_ask (.prepare st.text) _).mono ?_)
  rintro (stop | prepared) _ t ⟨unjudged, rfl⟩
  · exact ⟨unjudged.stop, first, nofun⟩
  refine accounts_bind (accounts_ofExcept ?_ ?_)
  · intro params encoded
    refine accounts_bind ((accounts_ask (.execute params) _).mono ?_)
    have executed : Executed none st [(0, .prepare st.text), (0, .execute params)] :=
      ⟨prepared.params, params, encoded, rfl⟩
    rintro (stop | rows) _ t ⟨unjudged, rfl⟩
    · exact ⟨unjudged.stop, .inr executed, fun _ _ => executed⟩
    refine accounts_bind (accounts_ofExcept ?_ ?_)
    · intro records _
      exact accounts_pure ⟨unjudged_ok _, .inr executed, fun _ _ => executed⟩
    · intro e undecoded
      obtain ⟨column, message, rfl⟩ := Codecs.decodeRows_error undecoded
      exact ⟨unjudged_failed rfl, .inr executed, fun _ _ => executed⟩
  · intro e unencoded
    obtain ⟨fault, rfl⟩ := encodeParams_error unencoded
    exact ⟨unjudged_failed rfl, first, nofun⟩

/-- Only a call on the connection itself is ever refused for its input. -/
theorem spends_execute (scope : Option OpenScope) (st : Statement) :
    ((driver server codecs).execute scope st).Spends s (pending s scope) st := by
  have inside (depth : Nat) :
      ((link server codecs).execute depth st).Spends s ((s.abandoned 0).below? depth) st := by
    refine accounts_bind ((accounts_discard depth).mono ?_)
    rintro (stop | ⟨⟩) _ t ⟨unjudged, rfl⟩
    · exact unjudged.stop.spent (sends_discards _ st) nofun
    refine accounts_run.mono ?_
    rintro r w u ⟨unjudged, sends, executed⟩
    exact unjudged.spent (sends.behind _) fun a hr => (executed a hr).behind _
  cases scope with
  | some scope => exact inside scope.depth
  | none =>
    refine accounts_bind (accounts_progress_bind ?_)
    rintro p rfl
    split
    · refine accounts_fail ⟨.inl List.nil_prefix, fun _ _ => rfl, ?_⟩
      rintro (⟨_, ⟨⟩⟩ | ⟨_, ⟨⟩⟩)
    · exact accounts_pure (inside 0)

end Exclusive

namespace Client

variable {σ η ε : Type} {c : Client σ η} {s : σ}

theorem sent_told (c : Client σ η) (e : Event) (p : Progress σ) :
    sent (c.told e p).log = sent p.log := by
  rw [told_eq, sent_tell]

/-- Hooks send nothing. -/
theorem accounts_notify_unsent {e : Event}
    {post : Except (Stop ε) Unit → List (Nat × Request) → σ → Prop} (h : post (.ok ()) [] s) :
    (c.notify e : Act σ ε Unit).Accounts (sending σ) s post := by
  rw [notify_eq]
  refine accounts_change (fun p => (sent_told c e p).trans (List.append_nil _).symm) ?_
  rintro p rfl
  rw [state_told]
  exact h

variable {pending : Option Nat} {st : Statement}

theorem spends_query (h : (c.driver.execute c.scope st).Spends s pending st) :
    (c.query st).Spends s pending st := by
  refine accounts_now_bind fun start => accounts_bind (Accounts.attempt (h.mono ?_))
  rintro ((e | level) | r) w t spent
  · refine accounts_now_bind fun stop => accounts_bind (accounts_notify_unsent ?_)
    refine accounts_bind (accounts_notify_unsent (accounts_fail ?_))
    rw [List.append_nil, List.append_nil, List.append_nil]
    exact spent.stop
  · exact spent.stop
  · refine accounts_now_bind fun stop => accounts_bind (accounts_notify_unsent (accounts_pure ?_))
    rw [List.append_nil, List.append_nil]
    exact (spent.executed (.inl ⟨r, rfl⟩)).spent nofun

end Client

section Settles

variable {σ α β : Type} {s : σ} {pending : Option Nat} {st : Statement}

def Act.Settles (act : Act σ SqlError α) : Prop :=
  ∀ s, act.Accounts (sending σ) s fun r w _ => w = [] ∧ Accepted r

theorem settles_pure (a : α) : (pure a : Act σ SqlError α).Settles :=
  fun _ => accounts_pure ⟨rfl, nofun⟩

theorem settles_fail {e : SqlError} (h : e.isInvalidInput = false) :
    (fail e : Act σ SqlError α).Settles := by
  refine fun _ => accounts_fail ⟨rfl, ?_⟩
  rintro message ⟨⟩
  cases h

theorem Act.Settles.bind {act : Act σ SqlError α} {f : α → Act σ SqlError β} (h : act.Settles)
    (hf : ∀ a, (f a).Settles) : (act >>= f).Settles := by
  refine fun s => accounts_bind ((h s).mono ?_)
  rintro (stop | a) _ t ⟨rfl, accepted⟩
  · refine ⟨rfl, ?_⟩
    rintro message ⟨⟩
    exact accepted message rfl
  · exact hf a t

theorem settles_mapM {f : β → Act σ SqlError α} (hf : ∀ b, (f b).Settles) (bs : List β) :
    (bs.mapM f).Settles := by
  induction bs with
  | nil => exact settles_pure _
  | cons b bs ih =>
    rw [List.mapM_cons]
    exact (hf b).bind fun a => ih.bind fun as => settles_pure _

theorem settles_decoded [OfJson α] (row : Record) :
    (Client.decoded row : Act σ SqlError α).Settles := by
  rw [Client.decoded]
  cases (row.decode : Except ReadFault α) with
  | ok a => exact settles_pure a
  | error fault => exact settles_fail rfl

/-- Once a statement was executed, nothing that is made of its rows sends anything. -/
theorem spends_settled {act : Act σ SqlError β} {f : β → Act σ SqlError α}
    (h : act.Spends s pending st)
    (hf : ∀ b, (f b).Settles) :
    (act >>= f).Spends s pending st := by
  refine accounts_bind (h.mono ?_)
  rintro (stop | b) w t spent
  · exact spent.stop
  · refine (hf b t).mono ?_
    rintro r _ u ⟨rfl, accepted⟩
    rw [List.append_nil]
    exact (spent.executed (.inl ⟨b, rfl⟩)).spent accepted

end Settles

/-- The calls that run at most one statement of their own, by what they return. -/
inductive Inquiry : Type → Type 1 where
  | query (st : Statement) : Inquiry ResultSet
  | any (st : Statement) : Inquiry (List Record)
  | many (st : Statement) : Inquiry (List Record)
  | maybeOne (st : Statement) : Inquiry (Option Record)
  | one (st : Statement) : Inquiry Record
  | anyAs {α : Type} [OfJson α] (st : Statement) : Inquiry (List α)
  | manyAs {α : Type} [OfJson α] (st : Statement) : Inquiry (List α)
  | maybeOneAs {α : Type} [OfJson α] (st : Statement) : Inquiry (Option α)
  | oneAs {α : Type} [OfJson α] (st : Statement) : Inquiry α
  | byUnique (table : IdentPath) (column : String) (v : Value) : Inquiry Record
  | manyByUnique (table : IdentPath) (column : String) (values : List Value) :
      Inquiry (List Record)
  | byId (table : IdentPath) (v : Value) : Inquiry Record
  | manyById (table : IdentPath) (values : List Value) : Inquiry (List Record)
  | insertOne (table : IdentPath) (row : Record) (returning : List String) : Inquiry Record
  | insertMany (table : IdentPath) (rows : List Record) (returning : List String) :
      Inquiry (List Record)

namespace Inquiry

variable {σ η α : Type}

def run (c : Client σ η) : Inquiry α → Act σ SqlError α
  | .query st => c.query st
  | .any st => c.any st
  | .many st => c.many st
  | .maybeOne st => c.maybeOne st
  | .one st => c.one st
  | @anyAs _ _ st => c.anyAs st
  | @manyAs _ _ st => c.manyAs st
  | @maybeOneAs _ _ st => c.maybeOneAs st
  | @oneAs _ _ st => c.oneAs st
  | .byUnique table column v => c.byUnique table column v
  | .manyByUnique table column values => c.manyByUnique table column values
  | .byId table v => c.byId table v
  | .manyById table values => c.manyById table values
  | .insertOne table row returning => c.insertOne table row returning
  | .insertMany table rows returning => c.insertMany table rows returning

def lookup (table : IdentPath) (column : String) (values : List Value) :
    Except SqlError Statement :=
  if values.isEmpty then .error (.invalidInput "You must supply at least one id")
  else .ok (lookupStatement table column values)

section Lookup

variable {table : IdentPath} {column : String} {values : List Value}

theorem lookup_ok {st : Statement} (h : lookup table column values = .ok st) :
    ¬ values.isEmpty ∧ st = lookupStatement table column values := by
  unfold lookup at h
  split at h
  · cases h
  · rename_i some
    exact ⟨some, (Except.ok.inj h).symm⟩

theorem lookup_error {e : SqlError} (h : lookup table column values = .error e) :
    values.isEmpty ∧ e = .invalidInput "You must supply at least one id" := by
  unfold lookup at h
  split at h
  · rename_i none
    exact ⟨none, (Except.error.inj h).symm⟩
  · cases h

end Lookup

/-- An insert is refused only for its rows. -/
theorem isInvalidInput_of_insert {table : IdentPath} {rows : List Record}
    {returning : List String} {casing : RowCasing} {e : SqlError}
    (h : Insert.statement table rows returning casing = .error e) : e.isInvalidInput = true := by
  rw [Insert.statement, Insert.fragment, Insert.build] at h
  split at h
  · obtain rfl := Except.error.inj h
    rfl
  · split at h
    · obtain rfl := Except.error.inj h
      rfl
    · cases h

def statement (casing : RowCasing) : Inquiry α → Except SqlError Statement
  | .query st | .any st | .many st | .maybeOne st | .one st => .ok st
  | @anyAs _ _ st | @manyAs _ _ st | @maybeOneAs _ _ st | @oneAs _ _ st => .ok st
  | .byUnique table column v => lookup table column [v]
  | .manyByUnique table column values => lookup table column values
  | .byId table v => lookup table Client.idColumn [v]
  | .manyById table values => lookup table Client.idColumn values
  | .insertOne table row returning => Insert.statement table [row] returning casing
  | .insertMany table rows returning => Insert.statement table rows returning casing

end Inquiry

section Sends

variable {σ η α : Type} {c : Client σ η} {s : σ} {pending : Option Nat} {st : Statement}

namespace Client

theorem spends_any (h : (c.query st).Spends s pending st) :
    (c.any st).Spends s pending st :=
  spends_settled h fun _ => settles_pure _

theorem spends_many (h : (c.query st).Spends s pending st) :
    (c.many st).Spends s pending st := by
  refine spends_settled (spends_any h) fun rows => ?_
  split
  · exact settles_fail rfl
  · exact settles_pure _

theorem spends_maybeOne (h : (c.query st).Spends s pending st) :
    (c.maybeOne st).Spends s pending st :=
  spends_settled h fun _ => settles_pure _

theorem spends_one (h : (c.query st).Spends s pending st) :
    (c.one st).Spends s pending st := by
  refine spends_settled (spends_maybeOne h) fun row => ?_
  cases row with
  | none => exact settles_fail rfl
  | some row => exact settles_pure row

theorem spends_manyByUnique {table : IdentPath} {column : String} {values : List Value}
    (hs : Inquiry.lookup table column values = .ok st)
    (h : (c.query st).Spends s pending st) :
    (c.manyByUnique table column values).Spends s pending st := by
  obtain ⟨some, rfl⟩ := Inquiry.lookup_ok hs
  rw [manyByUnique, if_neg some]
  refine spends_settled (spends_many h) fun rows => ?_
  split
  · exact settles_pure _
  · exact settles_fail rfl

theorem run_manyByUnique_refused {table : IdentPath} {column : String} {values : List Value}
    {e : SqlError} (hs : Inquiry.lookup table column values = .error e) (p : Progress σ) :
    (c.manyByUnique table column values).run p = (.error (.failed e), p) := by
  obtain ⟨none, rfl⟩ := Inquiry.lookup_error hs
  rw [manyByUnique, if_pos none]
  rfl

theorem spends_byUnique {table : IdentPath} {column : String} {v : Value}
    (hs : Inquiry.lookup table column [v] = .ok st)
    (h : (c.query st).Spends s pending st) :
    (c.byUnique table column v).Spends s pending st := by
  refine spends_settled (spends_manyByUnique hs h) fun rows => ?_
  cases rows with
  | nil => exact settles_fail rfl
  | cons row rows => exact settles_pure row

theorem spends_insertMany {table : IdentPath} {rows : List Record} {returning : List String}
    (hs : Insert.statement table rows returning c.context.casing = .ok st)
    (h : (c.query st).Spends s pending st) :
    (c.insertMany table rows returning).Spends s pending st := by
  rw [insertMany, hs]
  exact accounts_bind (accounts_pure (spends_any h))

theorem run_insertMany_refused {table : IdentPath} {rows : List Record}
    {returning : List String} {e : SqlError}
    (hs : Insert.statement table rows returning c.context.casing = .error e) (p : Progress σ) :
    (c.insertMany table rows returning).run p = (.error (.failed e), p) := by
  rw [insertMany, hs]
  rfl

theorem spends_insertOne {table : IdentPath} {row : Record} {returning : List String}
    (hs : Insert.statement table [row] returning c.context.casing = .ok st)
    (h : (c.query st).Spends s pending st) :
    (c.insertOne table row returning).Spends s pending st := by
  refine spends_settled (spends_insertMany hs h) fun rows => ?_
  cases rows with
  | nil => exact settles_fail rfl
  | cons row rows => exact settles_pure row

end Client

namespace Inquiry

theorem spends_run {i : Inquiry α} (hs : i.statement c.context.casing = .ok st)
    (h : (c.query st).Spends s pending st) :
    (i.run c).Spends s pending st := by
  cases i with
  | query st' =>
    cases hs
    exact h
  | any st' =>
    cases hs
    exact Client.spends_any h
  | many st' =>
    cases hs
    exact Client.spends_many h
  | maybeOne st' =>
    cases hs
    exact Client.spends_maybeOne h
  | one st' =>
    cases hs
    exact Client.spends_one h
  | anyAs st' =>
    cases hs
    exact spends_settled (Client.spends_any h) (settles_mapM settles_decoded)
  | manyAs st' =>
    cases hs
    exact spends_settled (Client.spends_many h) (settles_mapM settles_decoded)
  | maybeOneAs st' =>
    cases hs
    refine spends_settled (Client.spends_maybeOne h) fun row => ?_
    cases row with
    | none => exact settles_pure none
    | some row =>
      rw [Option.mapM_some, ← bind_pure_comp]
      exact (settles_decoded row).bind fun a => settles_pure _
  | oneAs st' =>
    cases hs
    exact spends_settled (Client.spends_one h) settles_decoded
  | byUnique => exact Client.spends_byUnique hs h
  | manyByUnique => exact Client.spends_manyByUnique hs h
  | byId => exact Client.spends_byUnique hs h
  | manyById => exact Client.spends_manyByUnique hs h
  | insertOne => exact Client.spends_insertOne hs h
  | insertMany => exact Client.spends_insertMany hs h

theorem isInvalidInput_of_statement {casing : RowCasing} {i : Inquiry α} {e : SqlError}
    (hs : i.statement casing = .error e) : e.isInvalidInput = true := by
  cases i with
  | query | any | many | maybeOne | one | anyAs | manyAs | maybeOneAs | oneAs => cases hs
  | byUnique | manyByUnique | byId | manyById =>
    obtain ⟨-, rfl⟩ := lookup_error hs
    rfl
  | insertOne | insertMany => exact isInvalidInput_of_insert hs

/-- Where there is no statement, nothing happens at all. -/
theorem run_refused {i : Inquiry α} {e : SqlError} (hs : i.statement c.context.casing = .error e)
    (p : Progress σ) : (i.run c).run p = (.error (.failed e), p) := by
  cases i with
  | query | any | many | maybeOne | one | anyAs | manyAs | maybeOneAs | oneAs => cases hs
  | manyByUnique => exact Client.run_manyByUnique_refused hs p
  | manyById => exact Client.run_manyByUnique_refused hs p
  | byUnique => rw [run, Client.byUnique, run_bind, Client.run_manyByUnique_refused hs]
  | byId =>
    rw [run, Client.byId, Client.byUnique, run_bind, Client.run_manyByUnique_refused hs]
  | insertMany => exact Client.run_insertMany_refused hs p
  | insertOne => rw [run, Client.insertOne, run_bind, Client.run_insertMany_refused hs]

/-- A call over one connection sends what is pending and its own statement, at most once and in
this order, and nothing if its input is refused; all of it, if it gets as far as the rows. -/
theorem sends_once {β : Type} (server : Server β) (codecs : Codecs) (scope : Option OpenScope)
    (context : Context) (i : Inquiry α) (p : Progress (Line β Ownership)) :
    let c : Client (Line β Ownership) OpenScope :=
      ⟨Exclusive.driver server codecs, scope, context⟩
    let pending := Exclusive.pending p.state scope
    let result := (i.run c).run p
    ∃ w, sent result.2.log = sent p.log ++ w ∧
      (∀ message, result.1 = .error (.failed (.invalidInput message)) → w = []) ∧
      match i.statement c.context.casing with
      | .error e => result.1 = .error (.failed e) ∧ e.isInvalidInput ∧ w = []
      | .ok st =>
        Sends pending st w ∧
          ((∃ a, result.1 = .ok a) ∨
              (∃ message, result.1 = .error (.failed (.notFound message))) →
            Executed pending st w) := by
  intro c pending result
  cases hs : i.statement c.context.casing with
  | error e =>
    have refused : result = (.error (.failed e), p) := run_refused hs p
    have why := isInvalidInput_of_statement hs
    rw [refused]
    exact ⟨[], (List.append_nil _).symm, fun _ _ => rfl, rfl, why, rfl⟩
  | ok st =>
    have asked : (c.query st).Spends p.state pending st :=
      Client.spends_query (Exclusive.spends_execute scope st)
    have spends : (i.run c).Spends p.state pending st := spends_run hs asked
    obtain ⟨w, grows, spent⟩ := spends p rfl
    exact ⟨w, grows, spent.rejected, spent.sends, spent.executed⟩

end Inquiry

end Sends

/-- The parameter is one too many, so the statement stays prepared behind the discarding. -/
example (codecs : Codecs) :
    let left : Abandoned := Abandoned.none.abandon 1
    let line : Line Script Ownership := { Exclusive.start {} with abandoned := fun _ => left }
    let c : Client (Line Script Ownership) OpenScope :=
      ⟨Exclusive.driver Script.server codecs, none, {}⟩
    sent ((Inquiry.run c (.one ⟨"SELECT 1", [.int 1]⟩)).run (.new line)).2.log =
      [(0, .batch ⟨.discard, 1⟩), (0, .prepare "SELECT 1")] := by
  intros
  rfl

end SqlClient
