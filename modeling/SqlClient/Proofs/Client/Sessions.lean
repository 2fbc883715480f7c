import SqlClient.Proofs.Client.Texts
import SqlClient.Proofs.Driver.Requests
import SqlClient.Proofs.Value.Bindings
import SqlClient.Proofs.Wire.Accepted
/-!
# Sessions that are read back

A session that was written is found again, as the document that was sent for it, as long as the
server keeps its row. What is sent is the session itself but for three kinds of documents: null is
sent as `NULL`, a text that is a document as that document, and an integer too large for 64 bits as
a float.
-/
namespace SqlClient

open Act
open SqlClient.Calendar SqlClient.Casing SqlClient.Wire

namespace Wire

/-- Every instant of the calendar fits the eight bytes. -/
theorem fitsSigned_serverMicros (t : Instant) : fitsSigned 8 (serverMicros t) = true := by
  obtain ⟨low, high, -⟩ := serverMicros_bounds t
  have first := t.date.le_dayNumber
  have last := t.date.dayNumber_le
  have least := t.date.year_ge
  have greatest := t.date.year_le
  have second := t.second_lt
  have day : epochDay = 10957 := rfl
  have limit : signedLimit 8 = 2 ^ 63 := rfl
  unfold leastYear at least
  unfold greatestYear at greatest
  unfold Instant.unixSeconds at low high
  rw [fitsSigned_iff, limit]
  omega

theorem encode_timestamptz (t : Instant) :
    encode .timestamptz (.timestamp t) = .ok (some (signedBytes 8 (serverMicros t))) := by
  have written : write .timestamptz (.timestamp t) = writeInstant t := rfl
  rw [encode, written, writeInstant, if_pos (fitsSigned_serverMicros t)]
  rfl

end Wire

namespace SessionStore

def setTypes : List PgType := [.text, .jsonb, .timestamptz]

def columns : List Column := [⟨"sid", .text⟩, ⟨"sess", .text⟩, ⟨"expire", .timestamptz⟩]

def setCells (sid : String) (session : Json) (expire : Instant) : List (Option Bytes) :=
  [some (utf8 sid), session.sent?.map fun doc => 1 :: utf8 doc.text,
    some (signedBytes 8 (serverMicros expire))]

def foundCells (sid : String) (raw : Option String) (expire : Instant) : List (Option Bytes) :=
  [some (utf8 sid), raw.map utf8, some (signedBytes 8 (serverMicros expire))]

def foundRow (sid : String) (raw : Option String) (v : Value) : Record where
  fields := [("sid", .text sid), ("sess", (raw.map .text).getD .null), ("expire", v)]
  distinct := (by decide : ["sid", "sess", "expire"].Nodup)

section Cells

variable {table sid : String} {raw : Option String} {session : Json} {expire : Instant}
  {codecs : Codecs}

theorem params_setStatement : (setStatement table sid session expire).params =
    [.text sid, .ofJson session, .timestamp expire] :=
  Sql.Fragment.params_compile _

theorem params_getStatement : (getStatement table sid).params = [.text sid] :=
  Sql.Fragment.params_compile _

theorem encodeParams_set (h : session.Proper) :
    encodeParams setTypes (setStatement table sid session expire).params =
      .ok (setCells sid session expire) := by
  have name : encode .text (.text sid) = .ok (some (utf8 sid)) := rfl
  have document := h.encode_ofJson
  have time := encode_timestamptz expire
  rw [params_setStatement]
  simp [encodeParams, setTypes, name, document, time]
  rfl

theorem encodeParams_get :
    encodeParams [.text] (getStatement table sid).params = .ok [some (utf8 sid)] := by
  rw [params_getStatement]
  rfl

/-- The columns of the row that was written; what the end is read as does not matter. -/
theorem decodeRow_found (text : codecs.decoder? .text = some (.scalar readText))
    (time : codecs.decoder? .timestamptz = some (.scalar readInstant)) (he : ¬ expire.PastEnd) :
    ∃ v, codecs.decodeRow columns (foundCells sid raw expire) = .ok (foundRow sid raw v) := by
  obtain ⟨v, read⟩ := readInstant_isSome he (fitsSigned_serverMicros expire)
  have name := Codecs.decodeCell_scalar text (readText_utf8 sid) 0 "sid"
  have document : codecs.decodeCell 1 ⟨"sess", .text⟩ (raw.map utf8) =
      .ok ((raw.map .text).getD .null) := by
    cases raw with
    | none => exact Codecs.decodeCell_eq_ok text rfl "sess"
    | some raw => exact Codecs.decodeCell_scalar text (readText_utf8 raw) 1 "sess"
  have stop := Codecs.decodeCell_scalar time read 2 "expire"
  refine ⟨v, ?_⟩
  rw [Codecs.decodeRow, columns, foundCells]
  simp [Codecs.decodeCells, name, document, stop, Record.insert, Fields.insert, Record.empty,
    foundRow]

/-- The keys of the row are spelled alike on both sides. -/
theorem get?_inbound (casing : RowCasing) (v : Value) :
    (casing.inbound (foundRow sid raw v)).get? "sess" = some ((raw.map .text).getD .null) := by
  cases casing with
  | preserve => rfl
  | camel =>
    have keys : applicationKey "sid" = "sid" ∧ applicationKey "sess" = "sess" ∧
        applicationKey "expire" = "expire" := by decide +kernel
    have document : renameKeys applicationKey ((raw.map .text).getD .null) =
        (raw.map .text).getD .null := by
      cases raw <;> rfl
    rw [RowCasing.inbound, renameRecord, foundRow]
    simp [renameFields, keys, document, Record.ofList, Record.get?_insert]

theorem sessionOf_inbound (casing : RowCasing) (v : Value) {found : Option Json}
    (h : raw.map Json.parse = found.map some) :
    sessionOf (casing.inbound (foundRow sid raw v)) = .ok found := by
  rw [sessionOf, get?_inbound]
  cases raw with
  | none =>
    obtain rfl := Option.map_eq_none_iff.mp h.symm
    rfl
  | some raw =>
    obtain ⟨doc, rfl, read⟩ := Option.map_eq_some_iff.mp h.symm
    dsimp only [Option.map, Option.getD]
    rw [← read]

end Cells

section Calls

variable {σ η : Type} {store : SessionStore σ η} {sid : String} {session : Json} {s : σ}
  {left : σ → Prop}

/-- When a session ends that is written at `now`: as given, or a lifetime later. -/
inductive EndsAt (store : SessionStore σ η) (now : Instant) : Option Instant → Instant → Prop where
  | given (t : Instant) : store.EndsAt now (some t) t
  | lifetime {t : Instant} : Instant.ofUnix? (now.unixSeconds + store.lifetime) now.nano = some t →
      store.EndsAt now none t

/-- The end of the session is told before anything else is done. -/
theorem run_set {p : Progress σ} {expires : Option Instant} {expire : Instant}
    (h : store.EndsAt p.now expires expire) : (store.set sid session expires).run p =
      (store.client.query (setStatement store.table sid session expire) >>= fun _ => pure ()).run
        p := by
  cases h with
  | given => simp only [SessionStore.set, pure_bind]
  | lifetime h =>
    have later : p.now.plusSeconds store.lifetime = expire := by
      rw [Instant.plusSeconds, h]
      rfl
    simp only [SessionStore.set, expiry, bind_assoc, pure_bind]
    rw [run_now_bind, later]

/-- A session is found in the one row that is answered. -/
theorem ends_get {row : Record} {names : List String} {found : Option Json}
    (h : (store.client.driver.execute store.client.scope (getStatement store.table sid)).Ends s
      fun r t => r = .ok ⟨names, [row]⟩ ∧ left t)
    (hr : sessionOf (store.client.context.casing.inbound row) = .ok found) :
    (store.get sid).Ends s fun r t => r = .ok found ∧ left t := by
  have asked : (store.client.query (getStatement store.table sid)).Ends s fun r t =>
      r = .ok (store.client.context.casing.inboundResult ⟨names, [row]⟩) ∧ left t := by
    refine Client.ends_query h ?_ ?_
    · rintro _ t ⟨⟨⟩, ht⟩
      exact ⟨rfl, ht⟩
    · rintro _ t ⟨⟨⟩, _⟩
  have first : (store.client.maybeOne (getStatement store.table sid)).Ends s fun r t =>
      r = .ok (some (store.client.context.casing.inbound row)) ∧ left t :=
    asked.returning fun t ht => ends_pure ⟨rfl, ht⟩
  refine first.returning fun t ht => ?_
  dsimp only
  rw [hr]
  exact ends_pure ⟨rfl, ht⟩

end Calls

end SessionStore

/-- The server stores what is sent for a session. While it keeps the row, the session is found as a
text that reads as the document that was sent. -/
structure Server.KeepsSession {β : Type} (server : Server β) (table sid : String) (session : Json)
    (expire : Instant) (kept : β → Prop) (b : β) : Prop where
  stores : ∃ b₁ b₂, server.prepare 0 (SessionStore.setStatement table sid session expire).text b =
      (.answered ⟨SessionStore.setTypes, []⟩, b₁) ∧
    server.execute 0 (SessionStore.setStatement table sid session expire).text
      (SessionStore.setCells sid session expire) b₁ = (.answered [], b₂) ∧ kept b₂
  finds : ∀ b, kept b → ∃ raw b₁ b₂, server.prepare 0 (SessionStore.getStatement table sid).text b =
      (.answered ⟨[.text], SessionStore.columns⟩, b₁) ∧
    server.execute 0 (SessionStore.getStatement table sid).text [some (utf8 sid)] b₁ =
      (.answered [SessionStore.foundCells sid raw expire], b₂) ∧
    raw.map Json.parse = session.sent?.map some ∧ kept b₂

namespace SessionStore

section Kept

variable {β : Type} {server : Server β} {codecs : Codecs} {sid : String} {session : Json}
  {expire : Instant} {kept : β → Prop} {store : SessionStore (Line β Ownership) OpenScope}

/-- Writing a session does not depend on when it ends. -/
theorem set_kept {p : Progress (Line β Ownership)} {expires : Option Instant}
    (hd : store.client.driver = Exclusive.driver server codecs) (proper : session.Proper)
    (ends : store.EndsAt p.now expires expire)
    (keeps : server.KeepsSession store.table sid session expire kept p.state.server)
    (hp : Exclusive.Ready store.client.scope p.state) :
    ∃ q, (store.set sid session expires).run p = (.ok (), q) ∧ kept q.state.server ∧
      Exclusive.Ready store.client.scope q.state := by
  obtain ⟨b₁, b₂, prepared, stored, hk⟩ := keeps.stores
  have nothing : codecs.decodeRows [] [] = .ok [] := rfl
  have run := Exclusive.ends_execute_ready hp
    (Exclusive.ends_run_answered prepared (encodeParams_set proper) stored nothing)
  rw [← hd] at run
  have wrote : (store.client.query (setStatement store.table sid session expire) >>=
      fun _ => (pure () : Act (Line β Ownership) SqlError Unit)).Ends p.state fun r t =>
        r = .ok () ∧ kept t.server ∧ Exclusive.Ready store.client.scope t := by
    refine ends_bind (Client.ends_query run ?_ ?_)
    · rintro r t ⟨-, rfl⟩
      exact ends_pure ⟨rfl, hk, hp⟩
    · rintro _ t ⟨⟨⟩, _⟩
  rw [run_set ends]
  obtain ⟨r, q, ran, rfl, hq⟩ := wrote.outcome rfl
  exact ⟨q, ran, hq⟩

theorem get_kept {p : Progress (Line β Ownership)} {b : β}
    (hd : store.client.driver = Exclusive.driver server codecs)
    (text : codecs.decoder? .text = some (.scalar readText))
    (time : codecs.decoder? .timestamptz = some (.scalar readInstant)) (he : ¬ expire.PastEnd)
    (keeps : server.KeepsSession store.table sid session expire kept b)
    (hk : kept p.state.server) (hp : Exclusive.Ready store.client.scope p.state) :
    ∃ q, (store.get sid).run p = (.ok session.sent?, q) ∧ kept q.state.server ∧
      Exclusive.Ready store.client.scope q.state := by
  obtain ⟨raw, b₁, b₂, prepared, found, read, hk⟩ := keeps.finds p.state.server hk
  obtain ⟨v, row⟩ : ∃ v, codecs.decodeRow columns (foundCells sid raw expire) =
    .ok (foundRow sid raw v) := decodeRow_found text time he
  have rows : codecs.decodeRows columns [foundCells sid raw expire] = .ok [foundRow sid raw v] := by
    rw [Codecs.decodeRows, row]
    rfl
  have run := Exclusive.ends_execute_ready hp
    (Exclusive.ends_run_answered prepared encodeParams_get found rows)
  rw [← hd] at run
  have answered : (store.client.driver.execute store.client.scope
      (getStatement store.table sid)).Ends p.state fun r t =>
        r = .ok ⟨columns.map (·.name), [foundRow sid raw v]⟩ ∧
          kept t.server ∧ Exclusive.Ready store.client.scope t := by
    refine run.mono ?_
    rintro r t ⟨hr, rfl⟩
    exact ⟨hr, hk, hp⟩
  obtain ⟨r, q, ran, rfl, hq⟩ := (ends_get answered (sessionOf_inbound _ v read)).outcome rfl
  exact ⟨q, ran, hq⟩

end Kept

end SessionStore

def Server.shelf : Server (List (Option Bytes)) where
  connect _ row := (.ok (), row)
  prepare _ sql row :=
    (.answered (if sql = (SessionStore.getStatement "session" "").text then
      ⟨[.text], SessionStore.columns⟩ else ⟨SessionStore.setTypes, []⟩), row)
  execute _ _ params row :=
    match params with
    | [_, document, stop] => (.answered [], [document.map (·.drop 1), stop])
    | sid => (.answered [sid ++ row], row)
  batch _ _ row := (.answered (), row)

theorem Server.prepare_shelf (sql : String) (row : List (Option Bytes)) :
    shelf.prepare 0 sql row =
      (.answered (if sql = (SessionStore.getStatement "session" "").text then
        ⟨[.text], SessionStore.columns⟩ else ⟨SessionStore.setTypes, []⟩), row) := rfl

theorem Server.execute_shelf (sql : String) (sid document stop : Option Bytes)
    (row : List (Option Bytes)) : shelf.execute 0 sql [sid, document, stop] row =
      (.answered [], [document.map (·.drop 1), stop]) := rfl

namespace SessionStore

/-- What was sent stays on the shelf. -/
theorem keepsSession_shelf {sid : String} {session : Json} {expire : Instant}
    (h : ∀ doc ∈ session.sent?, Json.parse doc.text = some doc) (row : List (Option Bytes)) :
    Server.shelf.KeepsSession "session" sid session expire
      (· = [session.sent?.map (utf8 ·.text), some (signedBytes 8 (serverMicros expire))]) row where
  stores := by
    have other : (setStatement "session" sid session expire).text ≠
        (getStatement "session" "").text := by
      rw [text_setStatement "session" sid "" session .null expire (Progress.new ()).now]
      decide +kernel
    refine ⟨row, _, ?_, Server.execute_shelf _ _ _ _ row, ?_⟩
    · rw [Server.prepare_shelf, if_neg other]
    · rw [Option.map_map]
      rfl
  finds := by
    intro row hk
    refine ⟨session.sent?.map Json.text, row, row, ?_, ?_, ?_, hk⟩
    · rw [Server.prepare_shelf, if_pos (text_getStatement "session" sid "")]
    · rw [foundCells, Option.map_map, hk]
      rfl
    · rw [Option.map_map]
      exact Option.map_congr h

def onShelf (casing : RowCasing) :
    SessionStore (Line (List (Option Bytes)) Ownership) OpenScope where
  client := { driver := Exclusive.driver .shelf .standard, context := { casing } }

def twoWeeks : Instant := (Instant.ofUnix? 1209600 0).get rfl

def reread (session : Json) (expire : Instant) : Except (Stop SqlError) (Option Json) :=
  let store := onShelf .preserve
  ((store.set "a" session (some expire) >>= fun _ => store.get "a").run
    (Progress.new (Exclusive.start []))).1

theorem reread_eq {session : Json} (proper : session.Proper)
    (h : ∀ doc ∈ session.sent?, Json.parse doc.text = some doc) :
    reread session twoWeeks = .ok session.sent? := by
  have text := Codecs.decoder?_scalar .decimal (by decide : PgType.text ∈ tableScalars)
  have time := Codecs.decoder?_scalar .decimal (by decide : PgType.timestamptz ∈ tableScalars)
  have keeps := @keepsSession_shelf "a" session twoWeeks h []
  let p : Progress (Line (List (Option Bytes)) Ownership) := .new (Exclusive.start [])
  obtain ⟨q, wrote, hk, hq⟩ : ∃ q, ((onShelf .preserve).set "a" session (some twoWeeks)).run p =
      (.ok (), q) ∧ _ := set_kept rfl proper (.given twoWeeks) keeps ⟨rfl, rfl⟩
  obtain ⟨q', found, -⟩ : ∃ q', ((onShelf .preserve).get "a").run q = (.ok session.sent?, q') ∧ _ :=
    get_kept rfl text time (by decide +kernel) keeps hk hq
  rw [reread, run_bind, wrote]
  exact congrArg Prod.fst found

section ReadBack

variable {β : Type} {server : Server β} {codecs : Codecs} {sid : String} {session : Json}
  {expire : Instant} {kept : β → Prop} {store : SessionStore (Line β Ownership) OpenScope}

/-- A session that was written is found again while the server keeps its row, as the document that
was sent for it. That is the session itself, unless it is a text that is a document or has integers
too large for 64 bits. -/
theorem get_after_set {p : Progress (Line β Ownership)} {expires : Option Instant}
    (hd : store.client.driver = Exclusive.driver server codecs)
    (text : codecs.decoder? .text = some (.scalar readText))
    (time : codecs.decoder? .timestamptz = some (.scalar readInstant))
    (proper : session.Proper)
    (ends : store.EndsAt p.now expires expire) (he : ¬ expire.PastEnd)
    (keeps : server.KeepsSession store.table sid session expire kept p.state.server)
    (hp : Exclusive.Ready store.client.scope p.state) :
    (∃ q, (store.set sid session expires).run p = (.ok (), q) ∧ kept q.state.server ∧
      Exclusive.Ready store.client.scope q.state) ∧
    (∀ q, kept q.state.server → Exclusive.Ready store.client.scope q.state →
      ∃ q', (store.get sid).run q = (.ok session.sent?, q') ∧ kept q'.state.server ∧
        Exclusive.Ready store.client.scope q'.state) ∧
    (session.Signed → session ≠ .null → (∀ s, session = .string s → Json.parse s = none) →
      session.sent? = some session) := by
  refine ⟨set_kept hd proper ends keeps hp, ?_, Json.Signed.sent?_eq⟩
  intro q hk hq
  exact get_kept hd text time he keeps hk hq

end ReadBack

/-- A document whose keys look like both casings, kept for the lifetime of the store. -/
theorem get_after_set_nested :
    let session : Json := .object
      [("userName", .array [.null, .string "5"]), ("user_id", .integer (-7))]
    let store := onShelf .camel
    ∃ q q', (store.set "a" session none).run (Progress.new (Exclusive.start [])) = (.ok (), q) ∧
      (store.get "a").run q = (.ok (some session), q') := by
  intro session store
  have ordered : Json.Increasing
      [("userName", .array [.null, .string "5"]), ("user_id", .integer (-7))] :=
    List.pairwise_pair.mpr (by decide)
  have proper : session.Proper := by
    have items : (Json.array [.null, .string "5"]).Proper :=
      .array (List.forall_mem_cons.mpr ⟨.null, List.forall_mem_singleton.mpr (.string "5")⟩)
    refine .object ordered (List.forall_mem_cons.mpr ⟨items, List.forall_mem_singleton.mpr ?_⟩)
    exact .integer (by decide) (by decide)
  have signed : session.Signed := by
    have items : (Json.array [.null, .string "5"]).Signed :=
      .array (List.forall_mem_cons.mpr ⟨.null, List.forall_mem_singleton.mpr (.string "5")⟩)
    refine .object (List.forall_mem_cons.mpr ⟨items, List.forall_mem_singleton.mpr ?_⟩)
    exact .integer rfl
  have read : Json.parse session.text = some session := by
    have items : Json.ReadsAs 126 (.array [.null, .string "5"]) (.array [.null, .string "5"]) :=
      Json.readsAs_array (.cons Json.readsAs_null (.cons (Json.readsAs_string "5") .nil))
    have members : List.Forall₂ (Json.MemberReadsAs 126)
        [("userName", .array [.null, .string "5"]), ("user_id", .integer (-7))]
        [("userName", .array [.null, .string "5"]), ("user_id", .integer (-7))] :=
      .cons ⟨rfl, items⟩ (.cons ⟨rfl, Json.readsAs_integer (by decide) (by decide)⟩ .nil)
    have whole := Json.readsAs_object members
    rw [Json.ofMembers_eq, Json.sorted_of_increasing ordered] at whole
    exact Json.parse_text whole
  have sent : session.sent? = some session := signed.sent?_eq nofun fun _ => nofun
  let p : Progress (Line (List (Option Bytes)) Ownership) := .new (Exclusive.start [])
  have ends : store.EndsAt p.now none twoWeeks := by
    have start : p.now.unixSeconds + store.lifetime = 1209600 ∧ p.now.nano = 0 := by decide +kernel
    refine .lifetime ?_
    rw [start.1, start.2]
    exact (Option.some_get _).symm
  have keeps := @keepsSession_shelf "a" session twoWeeks (by rw [sent]; rintro _ ⟨⟩; exact read) []
  have text := Codecs.decoder?_scalar .decimal (by decide : PgType.text ∈ tableScalars)
  have time := Codecs.decoder?_scalar .decimal (by decide : PgType.timestamptz ∈ tableScalars)
  obtain ⟨⟨q, wrote, kept, ready⟩, found, -⟩ :=
    get_after_set rfl text time proper ends (by decide +kernel) keeps ⟨rfl, rfl⟩
  obtain ⟨q', found, -⟩ := found q kept ready
  rw [sent] at found
  exact ⟨q, q', wrote, found⟩

def asFloat? : Json → Option Number.Double
  | .float x => some x
  | .null | .bool _ | .integer _ | .string _ | .array _ | .object _ => none

theorem asFloat?_eq_some {j : Json} {x : Number.Double} (h : asFloat? j = some x) :
    j = .float x := by
  cases j with
  | float y => exact congrArg Json.float (Option.some.inj h)
  | _ => cases h

theorem parse_large :
    Json.parse (Json.float (.ofInt (2 ^ 63))).text = some (.float (.ofInt (2 ^ 63))) := by
  have read : (Json.parse (Json.float (.ofInt (2 ^ 63))).text).bind asFloat? =
      some (.ofInt (2 ^ 63)) := by decide +kernel
  obtain ⟨doc, read, float⟩ := Option.bind_eq_some_iff.mp read
  rw [read, asFloat?_eq_some float]

/-- What does not come back: a text that is a document, an integer too large for 64 bits, null, and
anything that ends with the leap second at the end of the calendar. -/
theorem not_read_back :
    let late : Instant := ⟨Date.last, 86399, 1000000000, by decide, by decide⟩
    ∀ p ∈ [(Json.string "5", twoWeeks), (.integer (2 ^ 63), twoWeeks), (.null, twoWeeks),
      (.bool true, late)], p.1.Proper ∧
        (∃ kept, Server.shelf.KeepsSession "session" "a" p.1 p.2 kept []) ∧
          reread p.1 p.2 ≠ .ok (some p.1) := by
  intro late p hp
  have five : ∀ doc ∈ (Json.string "5").sent?, Json.parse doc.text = some doc := by
    rintro _ ⟨⟩
    rfl
  have large : ∀ doc ∈ (Json.integer (2 ^ 63)).sent?, Json.parse doc.text = some doc := by
    rintro _ ⟨⟩
    exact parse_large
  have null : ∀ doc ∈ Json.null.sent?, Json.parse doc.text = some doc := by
    rintro _ ⟨⟩
  have yes : ∀ doc ∈ (Json.bool true).sent?, Json.parse doc.text = some doc := by
    rintro _ ⟨⟩
    exact Json.parse_text (Json.readsAs_bool true)
  simp only [List.mem_cons, List.not_mem_nil, or_false] at hp
  rcases hp with rfl | rfl | rfl | rfl
  · refine ⟨.string "5", ⟨_, keepsSession_shelf five []⟩, ?_⟩
    rw [reread_eq (.string "5") five]
    nofun
  · have proper : (Json.integer (2 ^ 63)).Proper := .integer (by decide) (by decide)
    refine ⟨proper, ⟨_, keepsSession_shelf large []⟩, ?_⟩
    rw [reread_eq proper large]
    nofun
  · refine ⟨.null, ⟨_, keepsSession_shelf null []⟩, ?_⟩
    rw [reread_eq .null null]
    nofun
  · refine ⟨.bool true, ⟨_, keepsSession_shelf yes []⟩, ?_⟩
    have failed : (reread (.bool true) late).toOption.isNone = true := by decide +kernel
    intro found
    rw [found] at failed
    cases failed

end SessionStore

end SqlClient
