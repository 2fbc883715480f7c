import SqlClient.Proofs.Wire.RoundTrip
/-!
# What is sent is accepted

Whatever is written for a value, the decoder of the column's type takes. A value that does not go
with the type is refused; its bytes never stand for another one. The only exception is a leap second
at the end of the calendar, which is sent as a time on a day that there is not.
-/
namespace SqlClient.Wire

open SqlClient.Calendar SqlClient.Number Writer

def Sound (w : Writing) (read : CellReader) : Prop :=
  ∀ cell, w.result = .ok cell → ∃ b x, cell = some b ∧ read b = some x

theorem sound_throw (e : EncodeError) (read : CellReader) : Sound (throw e) read := nofun

theorem sound_send {b : Bytes} {x : Value} {read : CellReader} (h : read b = some x) :
    Sound (send b) read := by
  intro cell hc
  cases hc
  exact ⟨b, x, rfl, h⟩

theorem Sound.ite {c : Prop} [Decidable c] {w w' : Writing} {read : CellReader}
    (h : c → Sound w read) (h' : ¬ c → Sound w' read) : Sound (if c then w else w') read := by
  by_cases hc : c
  · rw [if_pos hc]
    exact h hc
  · rw [if_neg hc]
    exact h' hc

theorem sound_sized {width : Nat} {b : Bytes} {f : Bytes → Option Value} {x : Value}
    (hl : b.length = width) (hf : f b = some x) : Sound (send b) (sized width f) := by
  apply sound_send (x := x)
  rw [sized, if_pos hl, hf]

theorem sound_writeInt (width : Nat) (i : Int) : Sound (writeInt width i) (readInt width) :=
  .ite (fun _ => sound_sized (length_signedBytes width i) rfl) fun _ => sound_throw _ _

theorem sound_writeOid (i : Int) : Sound (writeOid i) readOid :=
  .ite (fun _ => sound_sized (length_bigEndian 4 _) rfl) fun _ => sound_throw _ _

theorem sound_writeSingle (x : Single) : Sound (writeSingle x) readFloat4 :=
  sound_sized (length_bigEndian 4 _) rfl

theorem sound_writeDouble (x : Double) : Sound (writeDouble x) readFloat8 :=
  sound_sized (length_bigEndian 8 _) rfl

theorem sound_writeText (s : String) : Sound (writeText s) readText := sound_send (readText_utf8 s)

theorem sound_writeChars (cs : List Char) : Sound (writeChars cs) readText := sound_writeText _

theorem sound_writeBool (b : Bool) : Sound (writeBool b) readBool := sound_sized rfl rfl

theorem sound_writeDate (d : Date) : Sound (writeDate d) readDate :=
  .ite (fun fits => sound_send (readDate_signedBytes fits)) fun _ => sound_throw _ _

/-- Truncated toward zero, a quotient is at most one above the rounded down one. -/
theorem tdiv_thousand (n : Int) : ∃ carry, n.tdiv 1000 = n / 1000 + carry ∧
    (0 ≤ n ∧ carry = 0 ∨ n < 0 ∧ 0 ≤ carry ∧ carry ≤ 1 ∧ (n % 1000 = 0 → carry = 0)) := by
  refine ⟨_, Int.tdiv_eq_ediv, ?_⟩
  by_cases positive : 0 ≤ n
  · exact .inl ⟨positive, if_pos (.inl positive)⟩
  · right
    by_cases whole : (1000 : Int) ∣ n
    · rw [if_pos (.inr whole)]
      omega
    · rw [if_neg (by omega)]
      have sign : Int.sign 1000 = 1 := rfl
      omega

/-- Times before 2000 are truncated to a later one, and a leap second counts as the one after. -/
theorem serverMicros_bounds (t : Instant) :
    t.unixSeconds ≤ serverMicros t / 1000000 + epochDay * 86400 ∧
      serverMicros t / 1000000 + epochDay * 86400 ≤ t.unixSeconds + 2 ∧
      (epochDay * 86400 ≤ t.unixSeconds →
        serverMicros t / 1000000 + epochDay * 86400 =
          t.unixSeconds + if 1000000000 ≤ t.nano then 1 else 0) := by
  have nano := t.nano_lt
  have day : epochDay = 10957 := rfl
  obtain ⟨carry, quotient, bounds⟩ := tdiv_thousand (t.unixNanos - epochDay * 86400 * 1000000000)
  rw [serverMicros, quotient]
  unfold Instant.unixNanos at bounds ⊢
  refine ⟨by omega, by omega, ?_⟩
  intro late
  by_cases leap : 1000000000 ≤ t.nano
  · rw [if_pos leap]
    omega
  · rw [if_neg leap]
    omega

theorem readInstant_isSome {t : Instant} (ht : ¬ t.PastEnd)
    (h : fitsSigned 8 (serverMicros t) = true) :
    ∃ x, readInstant (signedBytes 8 (serverMicros t)) = some x := by
  obtain ⟨low, high, late⟩ := serverMicros_bounds t
  have second := t.second_lt
  have lastDay : Date.last.dayNumber = 95026236 := by decide
  have day : epochDay = 10957 := rfl
  obtain ⟨d, hd⟩ := Instant.exists_day low high fun last => by
    have seconds : t.unixSeconds = 95026236 * 86400 + t.second := by
      rw [Instant.unixSeconds, last, lastDay]
    rw [late (by omega), lastDay]
    by_cases leap : 1000000000 ≤ t.nano
    · have before : t.second ≠ 86399 := fun he => ht ⟨last, he, leap⟩
      rw [if_pos leap]
      omega
    · rw [if_neg leap]
      omega
  have nano : (serverMicros t % 1000000).toNat * 1000 < 2000000000 := by omega
  obtain ⟨t', ht'⟩ := Option.isSome_iff_exists.mp (Instant.ofUnix?_isSome hd nano)
  refine ⟨.timestamp t', ?_⟩
  rw [readInstant, sized, if_pos (length_signedBytes 8 _), intOfBytes_signedBytes (by decide) h]
  dsimp only
  rw [ht']
  rfl

theorem sound_writeInstant {t : Instant} (ht : ¬ t.PastEnd) :
    Sound (writeInstant t) readInstant := by
  apply Sound.ite
  · intro fits
    obtain ⟨x, read⟩ := readInstant_isSome ht fits
    exact sound_send read
  · intro _
    exact sound_throw _ _

theorem sound_writeJson {type : PgType} (ht : type.isJson) {j : Json} (h : j.Printable 127) :
    Sound (writeJson type j) (reader type) := by
  obtain ⟨j', read⟩ := h.readsAs
  rw [writeJson_eq]
  apply sound_send (x := .ofJson j')
  rw [reader_writeJson ht, Json.parse_text read]
  rfl

theorem sound_writeNumeric {n : Numeric} (h : n.Sendable) :
    Sound (writeNumeric n) (reader .numeric) := by
  rw [writeNumeric_eq h]
  apply sound_send (x := .text (String.ofList n.text))
  change (readNumericText n.bytes).map _ = _
  rw [readNumericText, Numeric.ofBytes_bytes h]
  rfl

theorem sound_writeDecimal (d : Decimal) : Sound (writeDecimal d) (reader .numeric) :=
  sound_writeNumeric (Numeric.sendable_ofDecimal d)

theorem sound_writeNumericText (cs : List Char) :
    Sound (writeNumericText cs) (reader .numeric) := by
  rw [writeNumericText]
  cases hn : Numeric.ofText cs with
  | error fault => exact sound_throw _ _
  | ok n => exact sound_writeNumeric (Numeric.sendable_ofTrimmed hn)

section Kinds

variable (type : PgType)

theorem sound_writeBoolAs (b : Bool) : Sound (writeBoolAs type b) (reader type) := by
  unfold writeBoolAs
  split
  · exact sound_writeBool b
  iterate 4 exact sound_writeChars _
  · exact sound_throw _ _

theorem sound_writeIntAs (i : Int64) : Sound (writeIntAs type i) (reader type) := by
  unfold writeIntAs
  split
  · exact sound_writeInt 2 _
  · exact sound_writeInt 4 _
  · exact sound_writeInt 8 _
  · exact sound_writeOid _
  · exact sound_writeSingle _
  · exact sound_writeDouble _
  · exact sound_writeDecimal _
  iterate 4 exact sound_writeChars _
  · exact sound_throw _ _

theorem sound_writeFloatAs (x : Double) : Sound (writeFloatAs type x) (reader type) := by
  unfold writeFloatAs
  split
  · exact sound_writeSingle _
  · exact sound_writeDouble x
  iterate 3
    split
    · exact sound_writeIntAs _ _
    · exact sound_throw _ _
  · refine .ite (fun _ => ?_) fun _ => sound_writeNumericText _
    split
    · exact sound_writeDecimal _
    · exact sound_throw _ _
  iterate 4 exact sound_writeChars _
  · exact sound_throw _ _

theorem sound_writeDecimalAs (d : Decimal) : Sound (writeDecimalAs type d) (reader type) := by
  unfold writeDecimalAs
  split
  iterate 2 exact sound_writeFloatAs _ _
  iterate 3
    split
    · exact sound_throw _ _
    · exact .ite (fun _ => sound_writeIntAs _ _) fun _ => sound_throw _ _
  · exact sound_writeDecimal d
  iterate 4 exact sound_writeChars _
  · exact sound_throw _ _

theorem sound_writeTimestampAs {t : Instant}
    (ht : type = .timestamp ∨ type = .timestamptz → ¬ t.PastEnd) :
    Sound (writeTimestampAs type t) (reader type) := by
  unfold writeTimestampAs
  split
  · exact sound_writeInstant (ht (.inl rfl))
  · exact sound_writeInstant (ht (.inr rfl))
  · exact sound_writeDate _
  iterate 4 exact sound_writeChars _
  · exact sound_throw _ _

theorem not_pastEnd_ofDate (d : Date) : ¬ (Instant.ofDate d).PastEnd := by
  rintro ⟨-, late, -⟩
  cases late

theorem sound_writeDateAs (d : Date) : Sound (writeDateAs type d) (reader type) := by
  unfold writeDateAs
  split
  · exact sound_writeDate d
  iterate 2 exact sound_writeInstant (not_pastEnd_ofDate d)
  iterate 4 exact sound_writeChars _
  · exact sound_throw _ _

theorem sound_writeUuidAs (u : Uuid) : Sound (writeUuidAs type u) (reader type) := by
  have read : readUuid u.bytes = some (.uuid u) := by
    rw [readUuid, Uuid.ofBytes?, dif_pos u.length_eq]
    rfl
  unfold writeUuidAs
  split
  · exact sound_send read
  iterate 4 exact sound_writeChars _
  · exact sound_throw _ _

theorem sound_writeBytesAs (b : Bytes) : Sound (writeBytesAs type b) (reader type) := by
  unfold writeBytesAs
  split
  · exact sound_send rfl
  · exact sound_throw _ _

/-- A text that is JSON is parsed before, and any other becomes a string. -/
theorem printable_document (s : String) :
    ((Json.parse s).getD (.string s)).Printable 127 := by
  cases h : Json.parse s with
  | none => exact .string s
  | some j => exact Json.printable_of_parse h

def columnScalars : List PgType := tableScalars ++ [.numeric]

theorem sound_writeTextAs (ht : type ∈ columnScalars) (s : String) :
    Sound (writeTextAs type s) (reader type) := by
  unfold writeTextAs
  dsimp only
  split
  · split
    · exact sound_writeUuidAs _ _
    · exact sound_throw _ _
  · exact sound_writeNumericText _
  iterate 3
    split
    · exact sound_writeIntAs _ _
    · exact sound_throw _ _
  iterate 2
    split
    · exact sound_writeFloatAs _ _
    · exact sound_throw _ _
  · exact .ite (fun _ => sound_writeBool true) fun _ =>
      .ite (fun _ => sound_writeBool false) fun _ => sound_throw _ _
  iterate 2
    split
    · rename_i ht
      exact sound_writeInstant (Instant.not_pastEnd_of_ofText? ht)
    · exact sound_throw _ _
  · split
    · exact sound_writeDate _
    · exact sound_throw _ _
  iterate 2 exact sound_writeJson rfl (printable_document s)
  iterate 5 exact sound_writeText s
  · simp [columnScalars, tableScalars] at ht
  · simp [columnScalars, tableScalars] at ht
  · exact sound_throw _ _

end Kinds

inductive PastEnd : PgType → Value → Prop where
  | timestamp {t : Instant} : t.PastEnd → PastEnd .timestamp (.timestamp t)
  | timestamptz {t : Instant} : t.PastEnd → PastEnd .timestamptz (.timestamp t)
  | array {items : List Value} {v : Value} : v ∈ items → PastEnd .timestamptz v →
      PastEnd .timestamptzArray (.array items)

variable {type member : PgType} {v : Value}

theorem reader_of_isText (h : type.isText) : reader type = readText := by
  cases type <;> first | rfl | cases h

theorem sound_write (ht : type ∈ columnScalars) (hv : v ≠ .null) (hn : v.nesting < 128)
    (he : ¬ PastEnd type v) : Sound (write type v) (reader type) := by
  have document : v.toJson.Printable 127 := v.printable_toJson (Nat.le_of_lt_succ hn)
  cases v with
  | null => exact absurd rfl hv
  | text s => exact sound_writeTextAs type ht s
  | array items =>
    unfold write
    refine .ite (fun json => sound_writeJson json document) fun _ => ?_
    split
    · simp [columnScalars, tableScalars] at ht
    · exact sound_throw _ _
  | map fields =>
    unfold write
    refine .ite (fun json => sound_writeJson json document) fun _ => ?_
    refine .ite (fun text => ?_) fun _ => sound_throw _ _
    rw [reader_of_isText text]
    exact sound_writeChars _
  | bool b =>
    unfold write
    exact .ite (fun json => sound_writeJson json document) fun _ => sound_writeBoolAs type b
  | int i =>
    unfold write
    exact .ite (fun json => sound_writeJson json document) fun _ => sound_writeIntAs type i
  | float x =>
    unfold write
    exact .ite (fun json => sound_writeJson json document) fun _ => sound_writeFloatAs type x
  | decimal d =>
    unfold write
    exact .ite (fun json => sound_writeJson json document) fun _ => sound_writeDecimalAs type d
  | bytes b =>
    unfold write
    exact .ite (fun json => sound_writeJson json document) fun _ => sound_writeBytesAs type b
  | timestamp t =>
    have before : type = .timestamp ∨ type = .timestamptz → ¬ t.PastEnd := by
      rintro (rfl | rfl) late
      · exact he (.timestamp late)
      · exact he (.timestamptz late)
    unfold write
    exact .ite (fun json => sound_writeJson json document) fun _ =>
      sound_writeTimestampAs type before
  | date d =>
    unfold write
    exact .ite (fun json => sound_writeJson json document) fun _ => sound_writeDateAs type d
  | uuid u =>
    unfold write
    exact .ite (fun json => sound_writeJson json document) fun _ => sound_writeUuidAs type u

def columnArrays : List (PgType × PgType) := tableArrays ++ [(.numericArray, .numeric)]

def columnTypes : List PgType := columnScalars ++ columnArrays.map Prod.fst

def textCodecs : Codecs := Codecs.standard.withNumeric .text

/-- These are all the types of the table, which knows them by their numbers. -/
theorem columnTypes_perm :
    (columnTypes.map PgType.number).Perm (textCodecs.decoders.map Prod.fst) := by decide

theorem decoder?_columnScalar (h : type ∈ columnScalars) :
    textCodecs.decoder? type = some (.scalar (reader type)) := by
  rcases List.mem_append.mp h with h | h
  · exact Codecs.decoder?_scalar .text h
  · rw [List.mem_singleton.mp h]
    exact Numeric.decoder?_numeric Codecs.standard

theorem decoder?_columnArray (h : (type, member) ∈ columnArrays) :
    textCodecs.decoder? type = some (.array (reader member)) := by
  rcases List.mem_append.mp h with h | h
  · exact Codecs.decoder?_array .text h
  · cases List.mem_singleton.mp h
    rw [textCodecs, Codecs.decoder?_withNumeric, if_pos rfl]
    rfl

/-- Arrays have members with a decoder of their own; only one of them has times. -/
theorem member_of_columnArrays (h : (type, member) ∈ columnArrays) : member ∈ columnScalars ∧
    (∃ id, type = .array id member) ∧ member ≠ .timestamp ∧
      (member = .timestamptz → type = .timestamptzArray) := by
  simp only [columnArrays, tableArrays, List.cons_append, List.nil_append, List.mem_cons,
    Prod.mk.injEq, List.not_mem_nil, or_false] at h
  rcases h with ⟨rfl, rfl⟩ | ⟨rfl, rfl⟩ | ⟨rfl, rfl⟩ | ⟨rfl, rfl⟩ | ⟨rfl, rfl⟩ | ⟨rfl, rfl⟩ |
    ⟨rfl, rfl⟩ | ⟨rfl, rfl⟩ | ⟨rfl, rfl⟩ | ⟨rfl, rfl⟩ | ⟨rfl, rfl⟩ | ⟨rfl, rfl⟩ | ⟨rfl, rfl⟩
  all_goals exact ⟨by decide, ⟨_, rfl⟩, by decide, by decide⟩

theorem isScalar_of_mem (h : type ∈ columnScalars) : type.isScalar = true := by
  revert type
  decide

/-- How writing a value for a column into a buffer may end: refused, and then only an array may
have been written in part; as `NULL`, which only `NULL` is; or as bytes that the column's decoder
takes. -/
inductive Outcome (type : PgType) (v : Value) (out : Bytes) :
    Except EncodeError Written × Bytes → Prop where
  | refused (e : EncodeError) {b : Bytes} : (v.asArray? = none → b = out) →
      Outcome type v out (.error e, b)
  | null : v = .null → Outcome type v out (.ok .null, out)
  | sent {b : Bytes} : (∀ position name, ∃ w,
      textCodecs.decodeCell position ⟨name, type⟩ (some b) = .ok w) →
      Outcome type v out (.ok .bytes, out ++ b)

theorem outcome_scalar (ht : type ∈ columnScalars) (hn : v.nesting < 128) (he : ¬ PastEnd type v)
    (out : Bytes) : Outcome type v out ((write type v).run out) := by
  rw [whole_write (.inl (isScalar_of_mem ht)) out]
  cases hr : (write type v).result with
  | error e => exact .refused e fun _ => rfl
  | ok cell =>
    by_cases hv : v = .null
    · subst hv
      cases hr
      exact .null rfl
    · obtain ⟨b, x, rfl, read⟩ := sound_write ht hv hn he cell hr
      exact .sent fun position name =>
        ⟨x, Codecs.decodeCell_scalar (decoder?_columnScalar ht) read position name⟩

/-- Each element is sent as `NULL` or as bytes that the reader of elements takes. -/
theorem elements_accepted {items : List Value} {cells : List (Option Bytes)}
    (ht : member ∈ columnScalars) (hs : List.Forall₂ (SentAs member) items cells)
    (hn : ∀ v ∈ items, v.nesting < 128) (he : ∀ v ∈ items, ¬ PastEnd member v) :
    ∃ as, List.Forall₂ (ReadAs (reader member)) cells as := by
  induction hs with
  | nil => exact ⟨[], .nil⟩
  | @cons v cell items cells sent _ ih =>
    obtain ⟨as, later⟩ := ih (fun v hv => hn v (List.mem_cons_of_mem _ hv))
      fun v hv => he v (List.mem_cons_of_mem _ hv)
    by_cases hv : v = .null
    · subst hv
      obtain rfl : none = cell := Except.ok.inj sent.1
      exact ⟨none :: as, .cons rfl later⟩
    · obtain ⟨b, x, rfl, read⟩ := sound_write ht hv (hn v List.mem_cons_self)
        (he v List.mem_cons_self) cell sent.1
      exact ⟨some x :: as, .cons ⟨x, read, rfl⟩ later⟩

/-- Only arrays are sent as arrays of the server. -/
theorem write_array_of_not_array {id : TypeName} (ha : v.asArray? = none) (hv : v ≠ .null) :
    ∃ e, write (.array id member) v = throw e := by
  cases v with
  | null => exact absurd rfl hv
  | array items => cases ha
  | _ => exact ⟨_, rfl⟩

theorem outcome_array (ht : (type, member) ∈ columnArrays) (hn : v.nesting < 128)
    (he : ¬ PastEnd type v) (out : Bytes) : Outcome type v out ((write type v).run out) := by
  obtain ⟨known, ⟨id, rfl⟩, notTime, zoned⟩ := member_of_columnArrays ht
  have scalar := isScalar_of_mem known
  rcases hw : (write (.array id member) v).run out with ⟨e | r, b⟩
  · refine .refused e fun ha => ?_
    exact write_refused ha hw
  · cases ha : v.asArray? with
    | none =>
      by_cases hv : v = .null
      · subst hv
        cases hw
        exact .null rfl
      · obtain ⟨e, refused⟩ := @write_array_of_not_array member v id ha hv
        rw [refused] at hw
        cases hw
    | some items =>
      obtain rfl : v = .array items := by
        cases v <;> cases ha
        rfl
      obtain ⟨short, cells, sent, rfl, rfl⟩ := run_array scalar hw
      have nesting : ∀ v ∈ items, v.nesting < 128 := by
        rw [Value.nesting] at hn
        intro v hv
        have := Value.itemsNesting_le_iff.mp (Nat.le_refl _) v hv
        omega
      have times : ∀ v ∈ items, ¬ PastEnd member v := by
        intro v hv late
        cases late with
        | timestamp => exact notTime rfl
        | timestamptz late =>
          rw [zoned rfl] at he
          exact he (.array hv (.timestamptz late))
        | array => cases scalar
      obtain ⟨as, read⟩ := elements_accepted known sent nesting times
      rw [sent.length_eq] at short ⊢
      exact .sent fun position name => ⟨_, Codecs.decodeCell_array (decoder?_columnArray ht)
        (readArray_frames short (framable_of_sent sent) read) position name⟩

/-- Whatever is written for a value is accepted by the decoder of the column's type. -/
theorem refused_or_accepted (ht : type ∈ columnTypes) (hn : v.nesting < 128)
    (he : ¬ PastEnd type v) (out : Bytes) : Outcome type v out ((write type v).run out) := by
  rcases List.mem_append.mp ht with ht | ht
  · exact outcome_scalar ht hn he out
  · obtain ⟨⟨array, member⟩, entry, rfl⟩ := List.mem_map.mp ht
    exact outcome_array entry hn he out

/-- The leap second at the end of 2016 in an array, behind a byte that was there before. -/
theorem refused_or_accepted_leap_second :
    let t : Instant := ⟨⟨2016, 12, 31, by decide, by decide, by decide, by decide, by decide,
      by decide⟩, 86399, 1000000000, by decide, by decide⟩
    let written := (write .timestamptzArray (.array [.null, .timestamp t])).run [7]
    written.1.toOption = some .bytes ∧
      Outcome .timestamptzArray (.array [.null, .timestamp t]) [7] written := by
  intro t written
  have early : ¬ PastEnd .timestamptzArray (.array [.null, .timestamp t]) := by
    rintro (_ | _ | ⟨inside, late⟩)
    rcases List.mem_cons.mp inside with rfl | inside
    · cases late
    · rw [List.mem_singleton.mp inside] at late
      cases late with
      | timestamptz late => exact absurd late (by decide)
  exact ⟨by decide, refused_or_accepted (by decide) (by decide) early [7]⟩

/-- The last leap second is counted as midnight of a day that no date stands for. -/
theorem leap_second_past_end :
    let t : Instant := ⟨Date.last, 86399, 1000000000, by decide, by decide⟩
    let b : Bytes := [0x71, 0xed, 0x5d, 0x38, 0x43, 0x9a, 0, 0]
    (write .timestamp (.timestamp t)).run [] = (.ok .bytes, b) ∧
      textCodecs.decodeCell 0 ⟨"at", .timestamp⟩ (some b) =
        .error (.decode "at" "error deserializing column 0") ∧
      ¬ Outcome .timestamp (.timestamp t) [] ((write .timestamp (.timestamp t)).run []) := by
  intro t b
  have written : (write .timestamp (.timestamp t)).run [] = (.ok .bytes, b) := by
    have fits : fitsSigned 8 (serverMicros t) = true := by decide +kernel
    have bytes : signedBytes 8 (serverMicros t) = b := by decide +kernel
    change (writeInstant t).run [] = _
    rw [writeInstant, if_pos fits, bytes]
    rfl
  have refused : textCodecs.decodeCell 0 ⟨"at", .timestamp⟩ (some b) =
      .error (.decode "at" "error deserializing column 0") := by
    have none : (readInstant b).isNone = true := by decide +kernel
    rw [Codecs.decodeCell, decoder?_columnScalar (by decide)]
    change ((Decoder.scalar readInstant 0 (some b)).mapError DecodeFault.message).mapError _ = _
    rw [Decoder.scalar, Option.isNone_iff_eq_none.mp none]
    rfl
  refine ⟨written, refused, ?_⟩
  rw [written, ← List.nil_append b]
  intro outcome
  cases outcome with
  | sent accepted =>
    obtain ⟨w, accepted⟩ := accepted 0 "at"
    rw [refused] at accepted
    cases accepted

end SqlClient.Wire
