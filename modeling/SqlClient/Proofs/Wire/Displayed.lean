import Mathlib.Data.List.Basic
import SqlClient.Proofs.Calendar.Texts
import SqlClient.Proofs.Value.Documents
import SqlClient.Proofs.Wire.Integers
/-!
# Values and the texts that show them

Where a type is read from the text that shows a value, the text is sent exactly as the value is: the
same bytes, or the same refusal. Identifiers are read from their hexadecimal digits.
-/
namespace SqlClient

namespace Text

theorem hexValue?_hexDigit (n : Nat) : hexValue? (hexDigit n) = some (n % 16) := by
  have each : ∀ i : Fin 16, hexValue? (Nat.digitChar i) = some i.val := by decide
  exact each ⟨n % 16, Nat.mod_lt _ (by decide)⟩

theorem length_hex (bytes : List UInt8) : (hex bytes).length = 2 * bytes.length := by
  induction bytes with
  | nil => rfl
  | cons b bytes ih =>
    rw [hex, List.flatMap_cons, List.length_append, ← hex, ih, List.length_cons]
    change 2 + 2 * bytes.length = _
    omega

theorem bytesOfHex?_hex (bytes : List UInt8) : bytesOfHex? (hex bytes) = some bytes := by
  induction bytes with
  | nil => rfl
  | cons b bytes ih =>
    have split : hex (b :: bytes) = hexDigit (b.toNat / 16) :: hexDigit b.toNat :: hex bytes := rfl
    have small : b.toNat < 256 := b.toNat_lt
    have whole : b.toNat / 16 % 16 * 16 + b.toNat % 16 = b.toNat := by omega
    rw [split, bytesOfHex?, hexValue?_hexDigit, hexValue?_hexDigit, ih]
    dsimp only
    rw [whole, UInt8.ofNat_toNat]

end Text

namespace Uuid

/-- A group, the hyphen behind it, and what follows. -/
theorem cut_group {ds : List Char} {n : Nat} (h : ds.length = n) (rest : List Char) :
    (ds ++ '-' :: rest).take n = ds ∧ (ds ++ '-' :: rest)[n]? = some '-' ∧
      (ds ++ '-' :: rest).drop (n + 1) = rest := by
  refine ⟨List.take_left' h, ?_, ?_⟩
  · rw [List.getElem?_append_right (Nat.le_of_eq h), h, Nat.sub_self]
    rfl
  · rw [List.append_cons, List.drop_left' (by rw [List.length_append, h, List.length_singleton])]

/-- Groups of 8, 4, 4, 4 and 12 digits are found between their hyphens. -/
theorem hyphenated?_groups {a b c d e : List Char} (ha : a.length = 8) (hb : b.length = 4)
    (hc : c.length = 4) (hd : d.length = 4) (he : e.length = 12) :
    hyphenated? (a ++ '-' :: (b ++ '-' :: (c ++ '-' :: (d ++ '-' :: e)))) =
      (Text.bytesOfHex? (a ++ b ++ c ++ d ++ e)).bind ofBytes? := by
  have length : (a ++ '-' :: (b ++ '-' :: (c ++ '-' :: (d ++ '-' :: e)))).length = 36 := by
    simp only [List.length_append, List.length_cons, ha, hb, hc, hd, he]
  obtain ⟨first, hyphen₁, rest₁⟩ := cut_group ha (b ++ '-' :: (c ++ '-' :: (d ++ '-' :: e)))
  obtain ⟨second, hyphen₂, rest₂⟩ := cut_group hb (c ++ '-' :: (d ++ '-' :: e))
  obtain ⟨third, hyphen₃, rest₃⟩ := cut_group hc (d ++ '-' :: e)
  obtain ⟨fourth, hyphen₄, rest₄⟩ := cut_group hd e
  generalize a ++ '-' :: (b ++ '-' :: (c ++ '-' :: (d ++ '-' :: e))) = text at *
  -- each rest is the text without the groups before it
  rw [← rest₁, List.drop_drop] at rest₂
  rw [← rest₂, List.drop_drop] at rest₃
  rw [← rest₃, List.drop_drop] at rest₄
  rw [← rest₁, List.getElem?_drop] at hyphen₂
  rw [← rest₂, List.getElem?_drop] at hyphen₃
  rw [← rest₃, List.getElem?_drop] at hyphen₄
  rw [hyphenated?, if_pos ⟨length, hyphen₁, hyphen₂, hyphen₃, hyphen₄⟩, first, rest₁, second, rest₂,
    third, rest₃, fourth, rest₄]

/-- A piece of a list and what follows it. -/
theorem take_append_drop_add {α : Type} (l : List α) (m n : Nat) :
    (l.drop m).take n ++ l.drop (m + n) = l.drop m := by
  rw [← List.drop_drop, List.take_append_drop]

theorem ofText?_text (u : Uuid) : ofText? u.text = some u := by
  obtain ⟨bytes, sixteen⟩ := u
  have digits : (Text.hex bytes).length = 32 := by rw [Text.length_hex, sixteen]
  have back : ofBytes? bytes = some ⟨bytes, sixteen⟩ := dif_pos sixteen
  have whole : (Text.hex bytes).take 8 ++ ((Text.hex bytes).drop 8).take 4 ++
      ((Text.hex bytes).drop 12).take 4 ++ ((Text.hex bytes).drop 16).take 4 ++
      (Text.hex bytes).drop 20 = Text.hex bytes := by
    simp only [List.append_assoc]
    rw [take_append_drop_add _ 16 4, take_append_drop_add _ 12 4, take_append_drop_add _ 8 4,
      List.take_append_drop]
  have read := hyphenated?_groups (a := (Text.hex bytes).take 8)
    (b := ((Text.hex bytes).drop 8).take 4) (c := ((Text.hex bytes).drop 12).take 4)
    (d := ((Text.hex bytes).drop 16).take 4) (e := (Text.hex bytes).drop 20)
    (by simp [digits]) (by simp [digits]) (by simp [digits]) (by simp [digits]) (by simp [digits])
  rw [whole, Text.bytesOfHex?_hex, Option.bind_some, back] at read
  have text : text ⟨bytes, sixteen⟩ = (Text.hex bytes).take 8 ++
      '-' :: (((Text.hex bytes).drop 8).take 4 ++ '-' :: (((Text.hex bytes).drop 12).take 4 ++
        '-' :: (((Text.hex bytes).drop 16).take 4 ++ '-' :: (Text.hex bytes).drop 20))) := by
    simp [Uuid.text, List.intercalate]
  have length : (Uuid.text ⟨bytes, sixteen⟩).length = 36 := by
    simp [text, digits]
  rw [ofText?, length, if_neg (by decide), if_neg (by decide), if_neg (by decide), text, read]

end Uuid

namespace Wire

open SqlClient.Calendar SqlClient.Number

theorem trim_integerText (n : Int) : Text.trim (integerText n) = integerText n := by
  refine Text.trim_eq_self_of_forall fun c hc => ?_
  have digit (hd : c ∈ decimalDigits n.natAbs) : Text.isBlank c = false :=
    Text.not_isBlank_of_isDigit (isDigit_decimalDigits _ c hd)
  rw [integerText] at hc
  split at hc
  · rcases List.mem_cons.mp hc with rfl | hc
    · decide
    · exact digit hc
  · exact digit hc

theorem readInt64_integerText (i : Int64) :
    readInt64 (Text.trim (integerText i.toInt)) = .ok i := by
  have low := i.le_toInt
  have high := i.toInt_lt
  obtain ⟨j, read, same⟩ := readInt64_eq_ok_iff.mpr
    ⟨integerText_spec i.toInt, by omega, by omega⟩
  rw [trim_integerText, read, Int64.toInt_inj.mp same]

inductive SentAsText : Value → Prop where
  | bool (b : Bool) : SentAsText (.bool b)
  | int (i : Int64) : SentAsText (.int i)
  | float (x : Double) : SentAsText (.float x)
  | decimal (d : Decimal) : SentAsText (.decimal d)
  | timestamp (t : Instant) : SentAsText (.timestamp t)
  | date (d : Date) : SentAsText (.date d)
  | uuid (u : Uuid) : SentAsText (.uuid u)
  | map (fields : Fields) : SentAsText (.map fields)

/-- The types that read a value from the text that shows it. -/
inductive ReadFromText : PgType → Value → Prop where
  | bool (b : Bool) : ReadFromText .bool (.bool b)
  | int {type : PgType} (i : Int64) : type ∈ [PgType.int2, .int4, .int8] →
      ReadFromText type (.int i)
  | uuid (u : Uuid) : ReadFromText .uuid (.uuid u)
  | date {d : Date} : d.FourDigits → ReadFromText .date (.date d)
  | timestamp {type : PgType} {t : Instant} : type ∈ [PgType.timestamp, .timestamptz] →
      t.Regular → ReadFromText type (.timestamp t)
  | array {type : PgType} {items : List Value} : type.isJson → (Value.array items).FloatFree →
      (Value.array items).nesting < 128 → ReadFromText type (.array items)
  | map {type : PgType} {fields : Fields} : type.isJson → (Value.map fields).FloatFree →
      (Value.map fields).nesting < 128 → ReadFromText type (.map fields)
  | text {type : PgType} {v : Value} : type.isText → SentAsText v → ReadFromText type v

variable {type : PgType} {v : Value}

theorem SentAsText.write_displayText (h : SentAsText v) (ht : type.isText) :
    write type (.text v.displayText) = write type v := by
  cases type <;> cases ht <;> cases h <;> rfl

/-- A text that is a document is sent as the document. -/
theorem write_text_of_parse (ht : type.isJson) {s : String} {j : Json} (h : Json.parse s = some j) :
    write type (.text s) = writeJson type j := by
  have read : write type (.text s) = writeJson type ((Json.parse s).getD (.string s)) := by
    cases type <;> cases ht <;> rfl
  rw [read, h, Option.getD_some]

theorem write_text_of_floatFree (ht : type.isJson) (h : v.FloatFree) (hn : v.nesting < 128) :
    write type (.text v.toJson.text) = writeJson type v.toJson :=
  write_text_of_parse ht (Json.parse_text (h.readsAs (Nat.le_of_lt_succ hn)))

/-- The text that shows a value is sent as the value is, or refused as the value is. -/
theorem displayed_text_sent_alike (h : ReadFromText type v) :
    write type (.text v.displayText) = write type v := by
  cases h with
  | bool b => cases b <;> rfl
  | @int type i ht =>
    have sent {width : Nat} {least past : Int} (range : IntegerType type width least past)
        (signed : type ≠ .oid) : write type (.text (Value.int i).displayText) =
          write type (.int i) := by
      rw [write_text range signed, write_int range, Value.displayText, String.toList_ofList,
        Value.display, readInt64_integerText]
    simp only [List.mem_cons, List.not_mem_nil, or_false] at ht
    rcases ht with rfl | rfl | rfl
    · exact sent .int2 (by decide)
    · exact sent .int4 (by decide)
    · exact sent .int8 (by decide)
  | uuid u =>
    have direct : write .uuid (.uuid u) = writeUuidAs .uuid u := rfl
    rw [direct, write, writeTextAs, Value.displayText, String.toList_ofList, Value.display,
      u.ofText?_text]
  | @date d four =>
    have direct : write .date (.date d) = writeDate d := rfl
    rw [direct, write, writeTextAs, Value.displayText, String.toList_ofList, Value.display,
      four.ofText?_text]
  | @timestamp type t ht regular =>
    simp only [List.mem_cons, List.not_mem_nil, or_false] at ht
    have direct : write type (.timestamp t) = writeInstant t := by
      rcases ht with rfl | rfl <;> rfl
    have read {s : String} (hs : Instant.ofText? s.toList = some t) :
        write type (.text s) = writeInstant t := by
      rcases ht with rfl | rfl <;> rw [write, writeTextAs, hs]
    have shown : Instant.ofText? (Value.timestamp t).displayText.toList = some t := by
      rw [Value.displayText, String.toList_ofList, Value.display, regular.ofText?_text]
    rw [direct, read shown]
  | array ht floatFree shallow =>
    refine (write_text_of_floatFree ht floatFree shallow).trans ?_
    cases type <;> cases ht <;> rfl
  | map ht floatFree shallow =>
    refine (write_text_of_floatFree ht floatFree shallow).trans ?_
    cases type <;> cases ht <;> rfl
  | text ht sent => exact sent.write_displayText ht

/-- A map whose bytes become a string, and an integer that is refused in either form. -/
theorem displayed_text_sent_alike_bytes :
    let v : Value := .map [("key", .bytes [1, 255]), ("at", .array [.int (-7), .null])]
    v.displayText = "\x7b\"at\":[-7,null],\"key\":\"\\\\x01ff\"\x7d" ∧
      write .jsonb (.text v.displayText) = write .jsonb v ∧
      encode .int2 (.int 32768) = .error .integerRange ∧
      write .int2 (.text (Value.int 32768).displayText) = write .int2 (.int 32768) := by
  intro v
  have items : ∀ w ∈ [Value.int (-7), .null], w.FloatFree :=
    List.forall_mem_cons.mpr ⟨.int _, List.forall_mem_singleton.mpr .null⟩
  have fields : ∀ f ∈ [("key", Value.bytes [1, 255]), ("at", .array [.int (-7), .null])],
      f.2.FloatFree :=
    List.forall_mem_cons.mpr ⟨.bytes _, List.forall_mem_singleton.mpr (.array items)⟩
  refine ⟨by decide +kernel, ?_, rfl, ?_⟩
  · exact displayed_text_sent_alike (.map rfl (.map fields) (by decide))
  · exact displayed_text_sent_alike (.int _ (by decide))

end Wire

end SqlClient
