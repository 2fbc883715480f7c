import SqlClient.Proofs.Calendar.Days
import SqlClient.Proofs.Numeric.WireForm
import SqlClient.Proofs.Value.Documents
import SqlClient.Proofs.Wire.Arrays
import SqlClient.Proofs.Wire.Integers
/-!
# Values that come back as they were sent

Every type of the standard table has a reader for its own columns and one for the elements of its
arrays, and reads its own kind of values back as they were sent, arrays of them element by element.
-/
namespace SqlClient

open SqlClient.Calendar SqlClient.Number SqlClient.Wire

namespace Wire

def reader : PgType → CellReader
  | .bool => readBool
  | .int2 => readInt 2
  | .int4 => readInt 4
  | .int8 => readInt 8
  | .oid => readOid
  | .float4 => readFloat4
  | .float8 => readFloat8
  | .text | .varchar | .bpchar | .name | .unknown => readText
  | .bytea => readBytes
  | .date => readDate
  | .timestamp | .timestamptz => readInstant
  | .uuid => readUuid
  | .json => readJson
  | .jsonb => readJsonb
  | .numeric => fun b => (readNumericText b).map fun cs => .text (String.ofList cs)
  | _ => fun _ => none

def tableScalars : List PgType := [.bool, .int2, .int4, .int8, .oid, .float4, .float8, .text,
  .varchar, .bpchar, .name, .unknown, .bytea, .date, .timestamp, .timestamptz, .uuid, .json, .jsonb]

def tableArrays : List (PgType × PgType) := [(.boolArray, .bool), (.int2Array, .int2),
  (.int4Array, .int4), (.int8Array, .int8), (.float4Array, .float4), (.float8Array, .float8),
  (.textArray, .text), (.varcharArray, .varchar), (.uuidArray, .uuid), (.dateArray, .date),
  (.timestamptzArray, .timestamptz), (.jsonbArray, .jsonb)]

theorem scalarReaders_eq : Codecs.scalarReaders = tableScalars.map fun t => (t, reader t) := rfl

theorem elementReaders_eq :
    Codecs.elementReaders = tableArrays.map fun p => (p.1, reader p.2) := rfl

namespace Codecs

def base : List (Nat × Decoder) :=
  (scalarReaders.map fun (t, read) => (t.number, Decoder.scalar read)) ++
    elementReaders.map fun (t, read) => (t.number, Decoder.array read)

theorem decoder?_withNumeric (mode : NumericMode) (type : PgType) :
    (standard.withNumeric mode).decoder? type =
      if type.number = PgType.numericArray.number then some (numericArray mode)
      else if type.number = PgType.number .numeric then some (numericScalar mode)
      else base.lookup type.number := by
  have table : (standard.withNumeric mode).decoders =
      putDecoder PgType.numericArray.number (numericArray mode)
        (putDecoder (PgType.number .numeric) (numericScalar mode)
          (putDecoder PgType.numericArray.number (numericArray .decimal)
            (putDecoder (PgType.number .numeric) (numericScalar .decimal) base))) := rfl
  rw [decoder?, table]
  simp only [Numeric.lookup_putDecoder]
  by_cases ha : type.number = PgType.numericArray.number
  · rw [if_pos ha, if_pos ha]
  · simp only [if_neg ha]
    by_cases hn : type.number = PgType.number .numeric
    · rw [if_pos hn, if_pos hn]
    · simp only [if_neg hn]

theorem withNumeric_standard : standard.withNumeric .decimal = standard := rfl

theorem nodup_base : (base.map Prod.fst).Nodup := by decide

theorem decoder?_scalar (mode : NumericMode) {type : PgType} (h : type ∈ tableScalars) :
    (standard.withNumeric mode).decoder? type = some (.scalar (reader type)) := by
  have apart : ∀ t ∈ tableScalars, t.number ≠ PgType.numericArray.number ∧
      t.number ≠ PgType.number .numeric := by decide
  have entry : (type.number, Decoder.scalar (reader type)) ∈ base := by
    rw [base, scalarReaders_eq, List.map_map]
    exact List.mem_append_left _ (List.mem_map_of_mem h)
  rw [decoder?_withNumeric, if_neg (apart type h).1, if_neg (apart type h).2]
  exact Json.lookup_of_mem nodup_base entry

theorem decoder?_array (mode : NumericMode) {type member : PgType}
    (h : (type, member) ∈ tableArrays) :
    (standard.withNumeric mode).decoder? type = some (.array (reader member)) := by
  have apart : ∀ p ∈ tableArrays, p.1.number ≠ PgType.numericArray.number ∧
      p.1.number ≠ PgType.number .numeric := by decide
  have entry : (type.number, Decoder.array (reader member)) ∈ base := by
    rw [base, elementReaders_eq, List.map_map]
    exact List.mem_append_right _ (List.mem_map_of_mem h)
  rw [decoder?_withNumeric, if_neg (apart _ h).1, if_neg (apart _ h).2]
  exact Json.lookup_of_mem nodup_base entry

variable {c : Codecs} {type : PgType} {decode : Decoder}

theorem decodeCell_eq_ok (h : c.decoder? type = some decode) {position : Nat} {cell : Option Bytes}
    {v : Value} (hv : decode position cell = .ok v) (name : String) :
    c.decodeCell position ⟨name, type⟩ cell = .ok v := by
  rw [decodeCell, h]
  dsimp only
  rw [hv]
  rfl

/-- A column whose bytes the reader of its type takes. -/
theorem decodeCell_scalar {read : CellReader} (h : c.decoder? type = some (.scalar read))
    {b : Bytes} {v : Value} (hb : read b = some v) (position : Nat) (name : String) :
    c.decodeCell position ⟨name, type⟩ (some b) = .ok v := by
  refine decodeCell_eq_ok h ?_ name
  rw [Decoder.scalar, hb]

/-- A column of frames each of which the reader of the member takes. -/
theorem decodeCell_array {read : CellReader} (h : c.decoder? type = some (.array read))
    {b : Bytes} {items : List (Option Value)} (hb : readArray read b = some items)
    (position : Nat) (name : String) : c.decodeCell position ⟨name, type⟩ (some b) =
      .ok (.array (items.map (·.getD .null))) := by
  refine decodeCell_eq_ok h ?_ name
  rw [Decoder.array, hb]

end Codecs

end Wire

/-- Whole microseconds, not in a leap second. -/
def Calendar.Instant.Exact (t : Instant) : Prop := t.nano < 1000000000 ∧ t.nano % 1000 = 0

namespace Wire

theorem readUtf8_utf8 (s : String) : readUtf8 (utf8 s) = some s := by
  rw [readUtf8, utf8, Array.toArray_toList, String.fromUTF8?]
  exact dif_pos s.isValidUTF8

theorem readText_utf8 (s : String) : readText (utf8 s) = some (.text s) := by
  rw [readText, readUtf8_utf8]
  rfl

theorem readInt_signedBytes {width : Nat} (hw : 0 < width) {i : Int64}
    (h : fitsSigned width i.toInt = true) :
    readInt width (signedBytes width i.toInt) = some (.int i) := by
  rw [readInt, sized, if_pos (length_signedBytes width _), intOfBytes_signedBytes hw h,
    Int64.ofInt_toInt]

theorem readOid_signedBytes {i : Int64} (hl : 0 ≤ i.toInt) (hu : i.toInt < 2 ^ 32) :
    readOid (signedBytes 4 i.toInt) = some (.int i) := by
  have value : natOfBytes (signedBytes 4 i.toInt) = i.toInt.toNat := by
    have := natOfBytes_signedBytes 4 i.toInt
    omega
  have back : Int64.ofNat i.toInt.toNat = i := by
    rw [← Int64.ofInt_eq_ofNat, Int.toNat_of_nonneg hl, Int64.ofInt_toInt]
  rw [readOid, sized, if_pos (length_signedBytes 4 _), value, back]

theorem readDate_signedBytes {d : Date} (h : fitsSigned 4 (d.dayNumber - epochDay) = true) :
    readDate (signedBytes 4 (d.dayNumber - epochDay)) = some (.date d) := by
  rw [readDate, sized, if_pos (length_signedBytes 4 _), intOfBytes_signedBytes (by decide) h,
    Int.sub_add_cancel, Date.ofDayNumber?_dayNumber]
  rfl

theorem serverMicros_of_exact {t : Instant} (h : t.Exact) :
    serverMicros t = (t.unixSeconds - epochDay * 86400) * 1000000 + (t.nano / 1000 : Nat) := by
  obtain ⟨-, whole⟩ := h
  have nanos : t.unixNanos - epochDay * 86400 * 1000000000 =
      1000 * ((t.unixSeconds - epochDay * 86400) * 1000000 + (t.nano / 1000 : Nat)) := by
    unfold Instant.unixNanos
    omega
  rw [serverMicros, nanos, Int.mul_tdiv_cancel_left _ (by decide)]

theorem readInstant_signedBytes {t : Instant} (ht : t.Exact)
    (h : fitsSigned 8 (serverMicros t) = true) :
    readInstant (signedBytes 8 (serverMicros t)) = some (.timestamp t) := by
  have micros := serverMicros_of_exact ht
  obtain ⟨low, whole⟩ := ht
  have seconds : serverMicros t / 1000000 + epochDay * 86400 = t.unixSeconds := by omega
  have rest : (serverMicros t % 1000000).toNat * 1000 = t.nano := by omega
  rw [readInstant, sized, if_pos (length_signedBytes 8 _), intOfBytes_signedBytes (by decide) h]
  dsimp only
  rw [seconds, rest, Instant.ofUnix?_unixSeconds]
  rfl

theorem readJson_text (j : Json) : readJson (utf8 j.text) = (Json.parse j.text).map .ofJson := by
  rw [readJson, readUtf8_utf8]
  rfl

theorem reader_writeJson {type : PgType} (ht : type.isJson) (j : Json) :
    reader type (if type = .jsonb then 1 :: utf8 j.text else utf8 j.text) =
      (Json.parse j.text).map .ofJson := by
  cases type <;> first | (cases ht; done) | exact readJson_text j

inductive OwnKind : PgType → Value → Prop where
  | bool (b : Bool) : OwnKind .bool (.bool b)
  | int {type : PgType} (ht : type ∈ [.int2, .int4, .int8, .oid]) (i : Int64) :
      OwnKind type (.int i)
  | text {type : PgType} (ht : type ∈ [.text, .varchar, .bpchar, .name, .unknown]) (s : String) :
      OwnKind type (.text s)
  | bytes (b : Bytes) : OwnKind .bytea (.bytes b)
  | date (d : Date) : OwnKind .date (.date d)
  | timestamp {type : PgType} (ht : type ∈ [.timestamp, .timestamptz]) {t : Instant} :
      t.Exact → OwnKind type (.timestamp t)
  | uuid (u : Uuid) : OwnKind .uuid (.uuid u)
  | array {type : PgType} (ht : type ∈ [.json, .jsonb]) {items : List Value} :
      (Value.array items).Plain → (Value.array items).nesting < 128 → OwnKind type (.array items)
  | map {type : PgType} (ht : type ∈ [.json, .jsonb]) {fields : List (String × Value)} :
      (Value.map fields).Plain → (Value.map fields).nesting < 128 → OwnKind type (.map fields)

def ownArrays : List (PgType × PgType) := [(.boolArray, .bool), (.int2Array, .int2),
  (.int4Array, .int4), (.int8Array, .int8), (.textArray, .text), (.varcharArray, .varchar),
  (.uuidArray, .uuid), (.dateArray, .date), (.timestamptzArray, .timestamptz),
  (.jsonbArray, .jsonb)]

/-- Values that come back as they were sent: of the own kind of a type, and arrays of such values
and `NULL`. -/
inductive Own : PgType → Value → Prop where
  | scalar {type : PgType} {v : Value} : OwnKind type v → Own type v
  | array {type member : PgType} {items : List Value} : (type, member) ∈ ownArrays →
      (∀ v ∈ items, v = .null ∨ OwnKind member v) → Own type (.array items)

theorem OwnKind.mem_tableScalars {type : PgType} {v : Value} (h : OwnKind type v) :
    type ∈ tableScalars := by
  have ints : ∀ t ∈ [PgType.int2, .int4, .int8, .oid], t ∈ tableScalars := by decide
  have texts : ∀ t ∈ [PgType.text, .varchar, .bpchar, .name, .unknown], t ∈ tableScalars := by
    decide
  have times : ∀ t ∈ [PgType.timestamp, .timestamptz], t ∈ tableScalars := by decide
  have documents : ∀ t ∈ [PgType.json, .jsonb], t ∈ tableScalars := by decide
  cases h with
  | int ht => exact ints type ht
  | text ht => exact texts type ht
  | timestamp ht => exact times type ht
  | array ht => exact documents type ht
  | map ht => exact documents type ht
  | _ => decide

theorem encode_int {type : PgType} {i : Int64} {cell : Option Bytes}
    (ht : type ∈ [PgType.int2, .int4, .int8, .oid]) (he : encode type (.int i) = .ok cell) :
    ∃ b, cell = some b ∧ reader type b = some (.int i) := by
  have ranges : ∃ width least past, IntegerType type width least past := by
    simp only [List.mem_cons, List.not_mem_nil, or_false] at ht
    rcases ht with rfl | rfl | rfl | rfl
    · exact ⟨_, _, _, .int2⟩
    · exact ⟨_, _, _, .int4⟩
    · exact ⟨_, _, _, .int8⟩
    · exact ⟨_, _, _, .oid⟩
  obtain ⟨width, least, past, range⟩ := ranges
  rw [encode, write_int range, writeIntAs_eq range] at he
  by_cases within : least ≤ i.toInt ∧ i.toInt < past
  · rw [if_pos within] at he
    cases he
    refine ⟨_, rfl, ?_⟩
    cases range with
    | int2 => exact readInt_signedBytes (by decide) (fitsSigned_iff.mpr within)
    | int4 => exact readInt_signedBytes (by decide) (fitsSigned_iff.mpr within)
    | int8 => exact readInt_signedBytes (by decide) (fitsSigned_iff.mpr within)
    | oid => exact readOid_signedBytes within.1 within.2
  · rw [if_neg within] at he
    cases he

/-- Documents come back up to the order of keys. -/
theorem encode_document {type : PgType} {v : Value} {cell : Option Bytes}
    (ht : type ∈ [PgType.json, .jsonb]) (hw : write type v = writeJson type v.toJson)
    (plain : v.Plain) (hn : v.nesting < 128) (he : encode type v = .ok cell) :
    ∃ b w, cell = some b ∧ reader type b = some w ∧ v.numEq w = true := by
  have json : type.isJson = true := by
    simp only [List.mem_cons, List.not_mem_nil, or_false] at ht
    rcases ht with rfl | rfl <;> rfl
  have back := Json.parse_text (plain.floatFree.readsAs (Nat.le_of_lt_succ hn))
  rw [encode, hw, writeJson_eq, result_send] at he
  cases he
  refine ⟨_, _, rfl, ?_, plain.lossless.numEq_ofJson.1⟩
  rw [reader_writeJson json, back]
  rfl

theorem OwnKind.reads_back {type : PgType} {v : Value} {cell : Option Bytes}
    (h : OwnKind type v) (he : encode type v = .ok cell) :
    ∃ b w, cell = some b ∧ reader type b = some w ∧ v.numEq w = true := by
  cases h with
  | bool b =>
    cases he
    cases b <;> exact ⟨_, _, rfl, rfl, rfl⟩
  | int ht i =>
    obtain ⟨b, rfl, read⟩ := encode_int ht he
    exact ⟨b, _, rfl, read, beq_self_eq_true i⟩
  | text ht s =>
    refine ⟨utf8 s, .text s, ?_, ?_, beq_self_eq_true s⟩
    · simp only [List.mem_cons, List.not_mem_nil, or_false] at ht
      rcases ht with rfl | rfl | rfl | rfl | rfl <;> cases he <;> rfl
    · simp only [List.mem_cons, List.not_mem_nil, or_false] at ht
      rcases ht with rfl | rfl | rfl | rfl | rfl <;> exact readText_utf8 s
  | bytes b =>
    cases he
    exact ⟨b, .bytes b, rfl, rfl, beq_self_eq_true b⟩
  | date d =>
    change Writing.result (writeDate d) = .ok cell at he
    rw [writeDate] at he
    by_cases fits : fitsSigned 4 (d.dayNumber - epochDay) = true
    · rw [if_pos fits] at he
      cases he
      exact ⟨_, _, rfl, readDate_signedBytes fits, beq_self_eq_true d⟩
    · rw [if_neg fits] at he
      cases he
  | @timestamp _ ht t exact =>
    have written : write type (.timestamp t) = writeInstant t := by
      simp only [List.mem_cons, List.not_mem_nil, or_false] at ht
      rcases ht with rfl | rfl <;> rfl
    have read : reader type = readInstant := by
      simp only [List.mem_cons, List.not_mem_nil, or_false] at ht
      rcases ht with rfl | rfl <;> rfl
    rw [encode, written, writeInstant] at he
    by_cases fits : fitsSigned 8 (serverMicros t) = true
    · rw [if_pos fits] at he
      cases he
      refine ⟨_, .timestamp t, rfl, ?_, beq_self_eq_true t⟩
      rw [read]
      exact readInstant_signedBytes exact fits
    · rw [if_neg fits] at he
      cases he
  | uuid u =>
    cases he
    refine ⟨u.bytes, .uuid u, rfl, ?_, beq_self_eq_true u⟩
    change (Uuid.ofBytes? u.bytes).map Value.uuid = _
    rw [Uuid.ofBytes?, dif_pos u.length_eq]
    rfl
  | array ht plain hn =>
    refine encode_document ht ?_ plain hn he
    simp only [List.mem_cons, List.not_mem_nil, or_false] at ht
    rcases ht with rfl | rfl <;> rfl
  | map ht plain hn =>
    refine encode_document ht ?_ plain hn he
    simp only [List.mem_cons, List.not_mem_nil, or_false] at ht
    rcases ht with rfl | rfl <;> rfl

theorem elements_read_back {member : PgType} {items : List Value} {cells : List (Option Bytes)}
    (hs : List.Forall₂ (SentAs member) items cells)
    (hv : ∀ v ∈ items, v = .null ∨ OwnKind member v) :
    ∃ as, List.Forall₂ (ReadAs (reader member)) cells as ∧
      Value.itemsEq items (as.map (·.getD .null)) = true := by
  induction hs with
  | nil => exact ⟨[], .nil, rfl⟩
  | @cons v cell items cells sent _ ih =>
    obtain ⟨as, read, equal⟩ := ih fun v hm => hv v (List.mem_cons_of_mem _ hm)
    rcases hv v List.mem_cons_self with rfl | own
    · obtain rfl : none = cell := Except.ok.inj sent.1
      exact ⟨none :: as, .cons rfl read, by simp [Value.itemsEq, Value.numEq, equal]⟩
    · obtain ⟨b, w, rfl, back, same⟩ := own.reads_back sent.1
      exact ⟨some w :: as, .cons ⟨w, back, rfl⟩ read, by simp [Value.itemsEq, same, equal]⟩

theorem ownArrays_sub : ∀ p ∈ ownArrays, p ∈ tableArrays ∧ p.2.isScalar = true ∧
    ∃ id, p.1 = .array id p.2 := by
  intro p hp
  simp only [ownArrays, List.mem_cons, List.not_mem_nil, or_false] at hp
  rcases hp with rfl | rfl | rfl | rfl | rfl | rfl | rfl | rfl | rfl | rfl
  all_goals exact ⟨by decide, rfl, _, rfl⟩

/-- What is sent for a value of a type's own kind is read back as that value. -/
theorem decoded_as_sent {type : PgType} {v : Value} {cell : Option Bytes} (h : Own type v)
    (he : encode type v = .ok cell) (position : Nat) (name : String) :
    ∃ w, Codecs.standard.decodeCell position ⟨name, type⟩ cell = .ok w ∧ v.numEq w = true := by
  rw [← Codecs.withNumeric_standard]
  cases h with
  | scalar own =>
    obtain ⟨b, w, rfl, read, equal⟩ := own.reads_back he
    exact ⟨w, Codecs.decodeCell_scalar (Codecs.decoder?_scalar .decimal own.mem_tableScalars) read
      position name, equal⟩
  | @array member items ht hv =>
    obtain ⟨inTable, scalar, id, array⟩ := ownArrays_sub _ ht
    obtain rfl : type = .array id member := array
    obtain ⟨short, cells, sent, rfl⟩ := encode_array scalar he
    obtain ⟨as, read, equal⟩ := elements_read_back sent hv
    refine ⟨.array (as.map (·.getD .null)), ?_, by rwa [Value.numEq]⟩
    rw [sent.length_eq] at short ⊢
    exact Codecs.decodeCell_array (Codecs.decoder?_array .decimal inTable)
      (readArray_frames short (framable_of_sent sent) read) position name

/-- An array of `NULL` and a document whose keys do not stand in order. -/
theorem decoded_as_sent_documents :
    let v : Value := .array [.null, .map [("b", .int (-1)), ("a", .array [.null, .text "é"])]]
    ∃ b w, encode .jsonbArray v = .ok (some b) ∧
      Codecs.standard.decodeCell 0 ⟨"at", .jsonbArray⟩ (some b) = .ok w ∧ v.numEq w = true := by
  intro v
  have plain : (Value.map [("b", .int (-1)), ("a", .array [.null, .text "é"])]).Plain := by
    have items : (Value.array [.null, .text "é"]).Plain :=
      .array (List.forall_mem_cons.mpr ⟨.null, List.forall_mem_singleton.mpr (.text _)⟩)
    exact .map (by decide) (List.forall_mem_cons.mpr ⟨.int _, List.forall_mem_singleton.mpr items⟩)
  have own : Own .jsonbArray v := by
    refine @Own.array .jsonbArray .jsonb _ (by decide) ?_
    refine List.forall_mem_cons.mpr ⟨.inl rfl, List.forall_mem_singleton.mpr (.inr ?_)⟩
    exact .map (by decide) plain (by decide)
  have sent : ∃ b, encode .jsonbArray v = .ok (some b) := ⟨_, rfl⟩
  obtain ⟨b, sent⟩ := sent
  obtain ⟨w, read, equal⟩ := decoded_as_sent own sent 0 "at"
  exact ⟨b, w, sent, read, equal⟩

end Wire

end SqlClient
