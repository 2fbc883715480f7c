import SqlClient.Proofs.Client.Calls
import SqlClient.Proofs.Sql.Inserts
import SqlClient.Session
/-!
# Texts that reach a driver

A driver with a tape keeps the text of every statement it is asked for, in order, and is the driver
that it was in all else. What a call puts on the tape is what it would send, whatever the driver,
its state, the hooks and the clock. Lookups and sessions put texts there that names alone decide.
-/
namespace SqlClient

open SqlClient.Calendar SqlClient.Sql

variable {σ η ε α β : Type}

namespace Act

def besideTape (act : Act σ ε α) : Act (σ × List String) ε α :=
  ofRun fun p =>
    let (r, q) := act.run { p with state := p.state.1 }
    (r, { q with state := (q.state, p.state.2) })

/-- However it ends, the action adds these texts to the tape. -/
def Tapes (act : Act (σ × List String) ε α) (texts : List String) : Prop :=
  ∀ s tape, act.Ends (s, tape) fun _ t => t.2 = tape ++ texts

section Tapes

variable {act : Act (σ × List String) ε α} {texts : List String}

theorem tapes_besideTape (act : Act σ ε α) : act.besideTape.Tapes [] := by
  intro s tape p hp
  change p.state.2 = _
  rw [hp, List.append_nil]

theorem tapes_pure (a : α) : (pure a : Act (σ × List String) ε α).Tapes [] :=
  fun _ _ => ends_pure (List.append_nil _).symm

theorem tapes_fail (e : ε) : (fail e : Act (σ × List String) ε α).Tapes [] :=
  fun _ _ => ends_fail (List.append_nil _).symm

theorem tapes_ofExcept (r : Except ε α) : (ofExcept r : Act (σ × List String) ε α).Tapes [] := by
  cases r with
  | ok a => exact tapes_pure a
  | error e => exact tapes_fail e

/-- What follows a call that sends is silent. -/
theorem Tapes.bind {f : α → Act (σ × List String) ε β} (h : act.Tapes texts)
    (hf : ∀ a, (f a).Tapes []) : (act >>= f).Tapes texts := by
  intro s tape
  refine (h s tape).bind ?_ ?_
  · intro a t ht
    obtain ⟨u, kept⟩ := t
    refine (hf a u kept).mono ?_
    intro r v hv
    rw [hv, List.append_nil]
    exact ht
  · intro e t ht
    exact ht

theorem tapes_now_bind {f : Instant → Act (σ × List String) ε α} (h : ∀ t, (f t).Tapes texts) :
    (now >>= f).Tapes texts :=
  fun s tape => ends_now_bind fun t => h t s tape

end Tapes

end Act

open Act

namespace Driver

def taped (d : Driver σ η) : Driver (σ × List String) η where
  execute scope s := do
    Act.changeState fun t => (t.1, t.2 ++ [s.text])
    (d.execute scope s).besideTape
  begin scope := (d.begin scope).besideTape
  commit scope := (d.commit scope).besideTape
  rollback scope := (d.rollback scope).besideTape
  drop scope p :=
    let q := d.drop scope { p with state := p.state.1 }
    { q with state := (q.state, p.state.2) }

theorem tapes_execute (d : Driver σ η) (scope : Option η) (st : Statement) :
    (d.taped.execute scope st).Tapes [st.text] := by
  intro s tape
  have asked : (Act.changeState fun t : σ × List String => (t.1, t.2 ++ [st.text]) :
      Act (σ × List String) SqlError Unit).Ends (s, tape) fun r t =>
        r = .ok () ∧ t = (s, tape ++ [st.text]) := ends_changeState ⟨rfl, rfl⟩
  refine asked.andThen ?_
  refine (tapes_besideTape (d.execute scope st) s _).mono ?_
  intro r t ht
  rw [ht, List.append_nil]

end Driver

namespace Client

def taped (c : Client σ η) : Client (σ × List String) η :=
  { driver := c.driver.taped, scope := c.scope, context := c.context }

variable (c : Client σ η)

theorem tapes_query (st : Statement) : (c.taped.query st).Tapes [st.text] :=
  fun s tape => ends_query (c.driver.tapes_execute c.scope st s tape) (fun _ _ h => h)
    fun _ _ h => h

theorem tapes_any (st : Statement) : (c.taped.any st).Tapes [st.text] :=
  (c.tapes_query st).bind fun _ => tapes_pure _

theorem tapes_many (st : Statement) : (c.taped.many st).Tapes [st.text] := by
  apply (c.tapes_any st).bind
  intro rows
  split
  · exact tapes_fail _
  · exact tapes_pure rows

theorem tapes_maybeOne (st : Statement) : (c.taped.maybeOne st).Tapes [st.text] :=
  (c.tapes_query st).bind fun _ => tapes_pure _

theorem text_lookupStatement (table : IdentPath) (column : String) (values : List Value) :
    (lookupStatement table column values).text = (lookupStatement table column []).text :=
  (Fragment.Alike.bind _ (.array values) (.array []) (.text _)).text_eq

theorem tapes_manyByUnique (table : IdentPath) (column : String) (values : List Value) :
    (c.taped.manyByUnique table column values).Tapes
      (if values.isEmpty then [] else [(lookupStatement table column []).text]) := by
  rw [manyByUnique]
  split
  · exact tapes_fail _
  · rw [← text_lookupStatement table column values]
    apply (c.tapes_many _).bind
    intro rows
    split
    · exact tapes_pure rows
    · exact tapes_fail _

end Client

namespace SessionStore

def taped (store : SessionStore σ η) : SessionStore (σ × List String) η :=
  { client := store.client.taped, table := store.table, lifetime := store.lifetime }

section Texts

variable (table : String) (sid other : String)

theorem text_getStatement : (getStatement table sid).text = (getStatement table other).text :=
  (Fragment.Alike.bind _ (.text sid) (.text other) (.text _)).text_eq

theorem text_setStatement (session session' : Json) (expire expire' : Instant) :
    (setStatement table sid session expire).text =
      (setStatement table other session' expire').text :=
  (Fragment.Alike.bind _ (.text sid) (.text other) (.bind _ (.ofJson session) (.ofJson session')
    (.bind _ (.timestamp expire) (.timestamp expire') (.text _)))).text_eq

theorem text_touchStatement (expire expire' : Instant) :
    (touchStatement table sid expire).text = (touchStatement table other expire').text :=
  (Fragment.Alike.bind _ (.timestamp expire) (.timestamp expire')
    (.bind _ (.text sid) (.text other) (.text _))).text_eq

theorem text_destroyStatement :
    (destroyStatement table sid).text = (destroyStatement table other).text :=
  (Fragment.Alike.bind _ (.text sid) (.text other) (.text _)).text_eq

end Texts

section Tapes

variable (store : SessionStore σ η) (sid : String)

theorem tapes_get : (store.taped.get sid).Tapes [(getStatement store.table sid).text] := by
  apply (store.client.tapes_maybeOne _).bind
  intro row
  cases row with
  | none => exact tapes_pure none
  | some row => exact tapes_ofExcept _

theorem tapes_set (session : Json) (expires : Option Instant) (expire : Instant) :
    (store.taped.set sid session expires).Tapes
      [(setStatement store.table sid session expire).text] := by
  cases expires with
  | none =>
    simp only [SessionStore.set, expiry, bind_assoc, pure_bind]
    apply tapes_now_bind
    intro t
    rw [text_setStatement store.table sid sid session session expire]
    exact (store.client.tapes_query _).bind fun _ => tapes_pure ()
  | some t =>
    simp only [SessionStore.set, pure_bind]
    rw [text_setStatement store.table sid sid session session expire t]
    exact (store.client.tapes_query _).bind fun _ => tapes_pure ()

theorem tapes_touch (expire : Instant) :
    (store.taped.touch sid).Tapes [(touchStatement store.table sid expire).text] := by
  simp only [touch, expiry, bind_assoc, pure_bind]
  apply tapes_now_bind
  intro t
  rw [text_touchStatement store.table sid sid expire]
  exact (store.client.tapes_query _).bind fun _ => tapes_pure ()

theorem tapes_destroy :
    (store.taped.destroy sid).Tapes [(destroyStatement store.table sid).text] :=
  (store.client.tapes_query _).bind fun _ => tapes_pure ()

end Tapes

end SessionStore

/-- Bound values never reach a text. Trees that differ in them alone compile to one text, with the
values of each slot at its position; an insert's text is decided by names and the keys of the rows;
whatever else two runs differ in, a lookup sends one text for a table and a column, and each
operation on sessions one text for a table. -/
theorem text_without_values :
    (∀ (f g : Fragment) (ps : List (Value × Value)), f.Alike g ps →
      f.compile.text = g.compile.text ∧
        f.compile.params = ps.map Prod.fst ∧ g.compile.params = ps.map Prod.snd) ∧
    (∀ (table : IdentPath) (returning : List String) (casing : Casing.RowCasing)
      (rows others : List Record), rows.map Record.keys = others.map Record.keys →
      (Insert.statement table rows returning casing).map Statement.text =
        (Insert.statement table others returning casing).map Statement.text) ∧
    (∀ (table : IdentPath) (column : String), ∃ text, ∀ (σ η : Type) (c : Client σ η)
      (values : List Value), (c.taped.manyByUnique table column values).Tapes
        (if values.isEmpty then [] else [text])) ∧
    (∀ table : String, ∃ get set touch destroy, ∀ (σ η : Type) (store : SessionStore σ η),
      store.table = table → ∀ sid : String,
        (store.taped.get sid).Tapes [get] ∧
        (∀ session expires, (store.taped.set sid session expires).Tapes [set]) ∧
        (store.taped.touch sid).Tapes [touch] ∧
        (store.taped.destroy sid).Tapes [destroy]) := by
  refine ⟨?_, ?_, ?_, ?_⟩
  · intro f g ps h
    refine ⟨h.text_eq, ?_, ?_⟩
    · rw [Fragment.params_compile, h.values.1]
    · rw [Fragment.params_compile, h.values.2]
  · intro table returning casing rows others h
    exact (Insert.sameKeys_iff.mpr h).text_statement table returning casing
  · intro table column
    exact ⟨_, fun σ η c values => c.tapes_manyByUnique table column values⟩
  · intro table
    have day : Instant := .ofDate ⟨1970, 1, 1, by decide, by decide, by decide, by decide,
      by decide, by decide⟩
    refine ⟨(SessionStore.getStatement table "").text,
      (SessionStore.setStatement table "" .null day).text,
      (SessionStore.touchStatement table "" day).text,
      (SessionStore.destroyStatement table "").text, ?_⟩
    rintro σ η store rfl sid
    refine ⟨?_, ?_, ?_, ?_⟩
    · rw [SessionStore.text_getStatement store.table "" sid]
      exact store.tapes_get sid
    · intro session expires
      rw [SessionStore.text_setStatement store.table "" sid .null session day day]
      exact store.tapes_set sid session expires day
    · rw [SessionStore.text_touchStatement store.table "" sid day day]
      exact store.tapes_touch sid day
    · rw [SessionStore.text_destroyStatement store.table "" sid]
      exact store.tapes_destroy sid

/-- A quote and a comment sign bound in a nested fragment, rows of the same two keys, and two
sessions that live for different times. -/
theorem text_without_values_quoted :
    let tree (a b : Value) : Fragment :=
      .bind "a = " a (.splice " AND " (.bind "b = " b (.text "")) (.text "\n"))
    let rows (v : Value) : List Record :=
      [.ofList [("userId", v), ("b", .null)], .ofList [("b", v)]]
    let store (lifetime : Int) : SessionStore Recording Nat :=
      { client := { driver := Recording.driver }, lifetime }
    (tree (.int 1) (.text "' --")).compile.text = (tree .null (.text "$1")).compile.text ∧
      (Insert.statement (.name "t") (rows .null) [] .camel).map Statement.text =
        (Insert.statement (.name "t") (rows (.text "DEFAULT")) [] .camel).map Statement.text ∧
      ∃ text, ((store 1).taped.touch "a").Tapes [text] ∧
        ((store 60).taped.touch "'").Tapes [text] := by
  intro tree rows store
  have alike : (tree (.int 1) (.text "' --")).Alike (tree .null (.text "$1"))
      [(.int 1, .null), (.text "' --", .text "$1")] :=
    .bind _ _ _ (.splice _ (.bind _ _ _ (.text _)) (.text _))
  obtain ⟨trees, inserts, -, sessions⟩ := text_without_values
  obtain ⟨_, _, touch, _, same⟩ := sessions "session"
  refine ⟨(trees _ _ _ alike).1, inserts _ _ _ _ _ rfl, touch, ?_, ?_⟩
  · exact (same _ _ (store 1) rfl "a").2.2.1
  · exact (same _ _ (store 60) rfl "'").2.2.1

end SqlClient
