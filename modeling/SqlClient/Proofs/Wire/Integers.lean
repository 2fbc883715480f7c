import Mathlib.Algebra.Order.Field.Basic
import Mathlib.Algebra.Order.Field.Rat
import Mathlib.Data.Rat.Cast.Order
import Mathlib.Tactic.Positivity
import SqlClient.Proofs.Wire.Writers
/-!
# Integer parameters

An integer, a decimal or a text that is sent as an integer type is sent as exactly the integer it
denotes, or refused with the buffer as it was.
-/
namespace SqlClient

open SqlClient.Number SqlClient.Wire

namespace Number

theorem Decimal.magnitude_eq_natCast_iff {m scale n : Nat} :
    (m : ℚ) / 10 ^ scale = n ↔ m = n * 10 ^ scale := by
  have unit : (10 : ℚ) ^ scale ≠ 0 := pow_ne_zero scale (by decide)
  rw [div_eq_iff unit, ← Nat.cast_ofNat, ← Nat.cast_pow, ← Nat.cast_mul, Nat.cast_inj]

/-- What is read off a decimal as an integer is the number that it is. -/
theorem Decimal.toInt?_eq_some_iff {d : Decimal} {n : Int} : d.toInt? = some n ↔ d.toRat = n := by
  have unit : 0 < 10 ^ d.scale := Nat.pow_pos (by decide)
  rw [toInt?, toRat]
  by_cases h : d.mantissa % 10 ^ d.scale = 0
  · have whole : (d.mantissa : ℚ) / 10 ^ d.scale = (d.mantissa / 10 ^ d.scale : Nat) :=
      magnitude_eq_natCast_iff.mpr (Nat.div_mul_cancel (Nat.dvd_of_mod_eq_zero h)).symm
    have read : d.mantissa % Nat.pow 10 d.scale = 0 := h
    dsimp only
    rw [if_pos read, whole, Option.some_inj]
    change (if d.negative then -((d.mantissa / 10 ^ d.scale : Nat) : Int) else
      ((d.mantissa / 10 ^ d.scale : Nat) : Int)) = n ↔ _
    generalize d.mantissa / 10 ^ d.scale = k
    rw [← @Int.cast_inj ℚ]
    cases d.negative <;> simp
  · have fraction : ¬ d.mantissa % Nat.pow 10 d.scale = 0 := h
    dsimp only
    rw [if_neg fraction]
    refine ⟨nofun, fun he => ?_⟩
    -- the magnitude would be a multiple of the unit
    have magnitude : (d.mantissa : ℚ) / 10 ^ d.scale = n.natAbs := by
      have positive : 0 ≤ (d.mantissa : ℚ) / 10 ^ d.scale := by positivity
      rw [Nat.cast_natAbs, Int.cast_abs, ← he]
      cases d.negative
      · simpa using (abs_of_nonneg positive).symm
      · simpa using (abs_of_nonneg positive).symm
    rw [magnitude_eq_natCast_iff.mp magnitude, Nat.mul_mod_left] at h
    exact absurd rfl h

end Number

namespace Wire

open Writer

inductive IntegerType : PgType → Nat → Int → Int → Prop where
  | int2 : IntegerType .int2 2 (-2 ^ 15) (2 ^ 15)
  | int4 : IntegerType .int4 4 (-2 ^ 31) (2 ^ 31)
  | int8 : IntegerType .int8 8 (-2 ^ 63) (2 ^ 63)
  | oid : IntegerType .oid 4 0 (2 ^ 32)

inductive Denotes : Value → Int → Prop where
  | int (i : Int64) : Denotes (.int i) i.toInt
  | decimal {d : Decimal} {n : Int} : d.toRat = n → Denotes (.decimal d) n
  | text {s : String} {n : Int} : IntegerText n (Text.trim s.toList) → -2 ^ 63 ≤ n → n < 2 ^ 63 →
      Denotes (.text s) n

/-- Kinds of values that are sent as integers; only integers are sent as object identifiers. -/
inductive Integral : PgType → Value → Prop where
  | int (type : PgType) (i : Int64) : Integral type (.int i)
  | decimal {type : PgType} (d : Decimal) : type ≠ .oid → Integral type (.decimal d)
  | text {type : PgType} (s : String) : type ≠ .oid → Integral type (.text s)

def TwosComplement (width : Nat) (n : Int) (b : Bytes) : Prop :=
  b.length = width ∧ (natOfBytes b : Int) = n % 256 ^ width

theorem twosComplement_signedBytes (width : Nat) (n : Int) :
    TwosComplement width n (signedBytes width n) := by
  refine ⟨length_signedBytes width n, ?_⟩
  rw [natOfBytes_signedBytes]
  norm_num

section Integers

variable {type : PgType} {width : Nat} {least past n : Int} {v : Value}

/-- An integer goes out in full or not at all. -/
theorem writeIntAs_eq (ht : IntegerType type width least past) (i : Int64) :
    writeIntAs type i = if least ≤ i.toInt ∧ i.toInt < past then send (signedBytes width i.toInt)
      else throw .integerRange := by
  have signed (width : Nat) (limit : Int) (hl : (signedLimit width : Int) = limit) :
      writeInt width i.toInt = if -limit ≤ i.toInt ∧ i.toInt < limit then
        send (signedBytes width i.toInt) else throw .integerRange := by
    rw [writeInt, ← hl]
    simp only [fitsSigned_iff]
  cases ht with
  | int2 => exact signed 2 (2 ^ 15) rfl
  | int4 => exact signed 4 (2 ^ 31) rfl
  | int8 => exact signed 8 (2 ^ 63) rfl
  | oid =>
    rw [writeIntAs, writeOid]
    have size : ((UInt32.size : Nat) : Int) = 2 ^ 32 := rfl
    rw [size]
    by_cases h : 0 ≤ i.toInt ∧ i.toInt < 2 ^ 32
    · have whole : ((Nat.pow 256 4 : Nat) : Int) = 2 ^ 32 := rfl
      rw [if_pos h, if_pos h, signedBytes, whole, Int.emod_eq_of_lt h.1 h.2]
    · rw [if_neg h, if_neg h]

theorem within_int64 (ht : IntegerType type width least past) (hl : least ≤ n) (hu : n < past) :
    -2 ^ 63 ≤ n ∧ n < 2 ^ 63 := by
  cases ht <;> omega

theorem toInt_ofInt (hl : -2 ^ 63 ≤ n) (hu : n < 2 ^ 63) : (Int64.ofInt n).toInt = n :=
  Int64.toInt_ofInt_of_le (by omega) (by omega)

theorem fitsInt64_iff : fitsInt64 n = true ↔ -2 ^ 63 ≤ n ∧ n < 2 ^ 63 := by
  have limit : (int64Limit : Int) = 2 ^ 63 := rfl
  rw [fitsInt64, Bool.and_eq_true, decide_eq_true_eq, decide_eq_true_eq, limit]

/-- What is read from a text without the blanks around it. -/
theorem readInt64_eq_ok_iff {cs : List Char} :
    (∃ i, readInt64 cs = .ok i ∧ i.toInt = n) ↔ IntegerText n cs ∧ -2 ^ 63 ≤ n ∧ n < 2 ^ 63 := by
  have limit : (int64Limit : Int) = 2 ^ 63 := rfl
  rw [← limit, ← readInt64_eq_some_iff]
  cases readInt64 cs <;> simp [Except.toOption]

theorem write_int (ht : IntegerType type width least past) (i : Int64) :
    write type (.int i) = writeIntAs type i := by
  cases ht <;> rfl

theorem write_decimal (ht : IntegerType type width least past) (hn : type ≠ .oid) (d : Decimal) :
    write type (.decimal d) = match d.toInt? with
      | none => throw (.decimalNotIntegral d)
      | some n => if fitsInt64 n then writeIntAs type (.ofInt n)
        else throw (.decimalOutOfRange d type) := by
  cases ht with
  | oid => exact absurd rfl hn
  | _ => rfl

theorem write_text (ht : IntegerType type width least past) (hn : type ≠ .oid) (s : String) :
    write type (.text s) = match readInt64 (Text.trim s.toList) with
      | .ok i => writeIntAs type i
      | .error fault => throw (.notAnInteger fault) := by
  cases ht with
  | oid => exact absurd rfl hn
  | _ => rfl

/-- A value that denotes an integer goes out as it or is refused. -/
theorem write_of_denotes (ht : IntegerType type width least past) (hv : Integral type v)
    (h : Denotes v n) : ∃ e, write type v =
      if least ≤ n ∧ n < past then send (signedBytes width n) else throw e := by
  cases h with
  | int i =>
    rw [write_int ht, writeIntAs_eq ht]
    exact ⟨_, rfl⟩
  | @decimal d _ he =>
    cases hv with
    | decimal _ hn =>
      rw [write_decimal ht hn, Decimal.toInt?_eq_some_iff.mpr he]
      by_cases hf : fitsInt64 n = true
      · obtain ⟨hl, hu⟩ := fitsInt64_iff.mp hf
        dsimp only
        rw [if_pos hf, writeIntAs_eq ht, toInt_ofInt hl hu]
        exact ⟨_, rfl⟩
      · have outside : ¬ (least ≤ n ∧ n < past) := by
          rintro ⟨hl, hu⟩
          exact hf (fitsInt64_iff.mpr (within_int64 ht hl hu))
        dsimp only
        rw [if_neg hf]
        exact ⟨_, (if_neg outside).symm⟩
  | @text s _ hs hl hu =>
    cases hv with
    | text _ hn =>
      obtain ⟨i, read, rfl⟩ := readInt64_eq_ok_iff.mpr ⟨hs, hl, hu⟩
      rw [write_text ht hn, read]
      dsimp only
      rw [writeIntAs_eq ht]
      exact ⟨_, rfl⟩

theorem write_of_not_denotes (ht : IntegerType type width least past) (hv : Integral type v)
    (h : ∀ n, ¬ Denotes v n) : ∃ e, write type v = throw e := by
  cases hv with
  | int i => exact absurd (.int i) (h _)
  | decimal d hn =>
    rw [write_decimal ht hn]
    cases he : d.toInt? with
    | none => exact ⟨_, rfl⟩
    | some n => exact absurd (.decimal (Decimal.toInt?_eq_some_iff.mp he)) (h n)
  | text s hn =>
    rw [write_text ht hn]
    cases he : readInt64 (Text.trim s.toList) with
    | error fault => exact ⟨_, rfl⟩
    | ok i =>
      obtain ⟨hs, hl, hu⟩ := readInt64_eq_ok_iff.mp ⟨i, he, rfl⟩
      exact absurd (.text hs hl hu) (h _)

/-- Integers, decimals and texts go out as the integer they denote where the type has it, as two's
complement at the end of the buffer; everything else is refused and leaves the buffer alone. -/
theorem integer_exact_or_refused (ht : IntegerType type width least past) (hv : Integral type v)
    (out : Bytes) :
    (∀ n, Denotes v n → least ≤ n → n < past →
      ∃ b, TwosComplement width n b ∧ (write type v).run out = (.ok .bytes, out ++ b)) ∧
    ((∀ n, Denotes v n → ¬ (least ≤ n ∧ n < past)) →
      ∃ e, (write type v).run out = (.error e, out)) := by
  constructor
  · intro n hd hl hu
    obtain ⟨e, written⟩ := write_of_denotes ht hv hd
    refine ⟨signedBytes width n, twosComplement_signedBytes width n, ?_⟩
    rw [written, if_pos ⟨hl, hu⟩]
    exact run_send _ _
  · intro outside
    by_cases hd : ∃ n, Denotes v n
    · obtain ⟨n, hd⟩ := hd
      obtain ⟨e, written⟩ := write_of_denotes ht hv hd
      rw [written, if_neg (outside n hd)]
      exact ⟨e, rfl⟩
    · obtain ⟨e, written⟩ := write_of_not_denotes ht hv (not_exists.mp hd)
      rw [written]
      exact ⟨e, rfl⟩

/-- A text with a sign, zeros and blanks is sent as its integer, and 2.5 is refused. -/
theorem integer_exact_or_refused_small :
    (∃ b, TwosComplement 2 (-300) b ∧
      (write .int2 (.text " -0300\n")).run [7] = (.ok .bytes, [7] ++ b)) ∧
    ∃ e, (write .int4 (.decimal { negative := false, mantissa := 25, scale := 1 })).run [7] =
      (.error e, [7]) := by
  constructor
  · have denotes : Denotes (.text " -0300\n") (-300) := by
      have digits : ∀ c ∈ "0300".toList, c.isDigit := List.all_eq_true.mp rfl
      exact .text ⟨true, ['-'], "0300".toList, .minus, rfl, by decide, digits, rfl⟩ (by decide)
        (by decide)
    have written := integer_exact_or_refused .int2 (.text " -0300\n" (by decide)) [7]
    exact written.1 (-300) denotes (by decide) (by decide)
  · have written := integer_exact_or_refused .int4
      (.decimal { negative := false, mantissa := 25, scale := 1 } (by decide)) [7]
    refine written.2 ?_
    rintro n ⟨⟩
    rename_i he
    have read := Decimal.toInt?_eq_some_iff.mpr he
    cases read

end Integers

end Wire

end SqlClient
