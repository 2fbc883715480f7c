import Mathlib.Algebra.Group.Nat.Defs
import SqlClient.Proofs.Numeric.Canonical
import SqlClient.Wire.Decode
/-!
# What writers leave in a buffer

A value that is no array of a server array type is written as a whole at the end of the buffer, or
nothing of it is. Elements of an array go there one after the other, each in a frame with its
length, so an array that is refused can leave some of them behind. Integers are so many bytes in
two's complement, most significant first, and the number that they stand for.
-/
namespace SqlClient

open SqlClient.Calendar SqlClient.Number SqlClient.Wire

namespace Wire

theorem length_bigEndian (width n : Nat) : (bigEndian width n).length = width := by
  induction width generalizing n with
  | zero => rfl
  | succ width ih => rw [bigEndian, List.length_append, ih, List.length_singleton]

theorem natOfBytes_append_singleton (b : Bytes) (c : UInt8) :
    natOfBytes (b ++ [c]) = natOfBytes b * 256 + c.toNat := by
  rw [natOfBytes, List.foldl_append]
  rfl

theorem natOfBytes_bigEndian (width n : Nat) :
    natOfBytes (bigEndian width n) = n % 256 ^ width := by
  induction width generalizing n with
  | zero => exact (Nat.mod_one n).symm
  | succ width ih =>
    have low : (UInt8.ofNat (n % 256)).toNat = n % 256 :=
      UInt8.toNat_ofNat_of_lt (Nat.mod_lt n (by decide))
    rw [bigEndian, natOfBytes_append_singleton, ih, low, Nat.pow_succ, Nat.mul_comm (256 ^ width),
      Nat.mod_mul]
    omega

theorem length_signedBytes (width : Nat) (i : Int) : (signedBytes width i).length = width :=
  length_bigEndian width _

section Signed

variable {width : Nat} {i : Int}

theorem fitsSigned_iff :
    fitsSigned width i = true ↔ -(signedLimit width : Int) ≤ i ∧ i < signedLimit width := by
  rw [fitsSigned, Bool.and_eq_true, decide_eq_true_eq, decide_eq_true_eq]

theorem two_mul_signedLimit (hw : 0 < width) : 2 * signedLimit width = 256 ^ width := by
  obtain ⟨width, rfl⟩ := Nat.exists_eq_succ_of_ne_zero (Nat.ne_of_gt hw)
  change 2 * (128 * 256 ^ width) = 256 ^ (width + 1)
  rw [Nat.pow_succ]
  omega

/-- The number that the bytes of `i` are without a sign. -/
theorem natOfBytes_signedBytes (width : Nat) (i : Int) :
    (natOfBytes (signedBytes width i) : Int) = i % (256 ^ width : Nat) := by
  have whole : (Nat.pow 256 width : Int) = (256 ^ width : Nat) := rfl
  have positive : (0 : Int) < (256 ^ width : Nat) := by
    have : 0 < 256 ^ width := Nat.pow_pos (by decide)
    omega
  have rest := Int.emod_nonneg i (Int.ne_of_gt positive)
  have below := Int.emod_lt_of_pos i positive
  rw [signedBytes, natOfBytes_bigEndian, whole, Nat.mod_eq_of_lt (by omega)]
  exact Int.toNat_of_nonneg rest

theorem intOfBytes_signedBytes (hw : 0 < width) (h : fitsSigned width i = true) :
    intOfBytes (signedBytes width i) = i := by
  obtain ⟨low, high⟩ := fitsSigned_iff.mp h
  have double := two_mul_signedLimit hw
  have value := natOfBytes_signedBytes width i
  have whole : (Nat.pow 256 width : Int) = (256 ^ width : Nat) := rfl
  rw [intOfBytes, length_signedBytes, signedOfNat]
  by_cases hi : 0 ≤ i
  · rw [Int.emod_eq_of_lt hi (by omega)] at value
    rw [if_pos (by omega), value]
  · have wrapped : i % (256 ^ width : Nat) = i + (256 ^ width : Nat) := by
      rw [← Int.add_emod_right]
      exact Int.emod_eq_of_lt (by omega) (by omega)
    rw [wrapped] at value
    rw [if_neg (by omega), whole]
    omega

end Signed

theorem takeInt_append {b rest : Bytes} (h : b.length = 4) :
    takeInt (b ++ rest) = some (intOfBytes b, rest) := by
  have room : 4 ≤ (b ++ rest).length := by
    rw [List.length_append]
    omega
  rw [takeInt, if_pos room, List.take_left' h, List.drop_left' h]

theorem takeInt_signedBytes {i : Int} (h : fitsSigned 4 i = true) (rest : Bytes) :
    takeInt (signedBytes 4 i ++ rest) = some (i, rest) := by
  rw [takeInt_append (length_signedBytes 4 i), intOfBytes_signedBytes (by decide) h]

end Wire

namespace Numeric

theorem length_groupsOfNat_le (fuel n : Nat) (acc : List Nat) :
    (groupsOfNat fuel n acc).length ≤ fuel + acc.length := by
  induction fuel generalizing n acc with
  | zero => exact Nat.le_of_eq (Nat.zero_add _).symm
  | succ fuel ih =>
    rw [groupsOfNat]
    split
    · omega
    · have := ih (n / 10000) (n % 10000 :: acc)
      rw [List.length_cons] at this
      omega

theorem groupsOfNat_lt (fuel n : Nat) {acc : List Nat} (h : ∀ g ∈ acc, g < 10000) :
    ∀ g ∈ groupsOfNat fuel n acc, g < 10000 := by
  induction fuel generalizing n acc with
  | zero => exact h
  | succ fuel ih =>
    rw [groupsOfNat]
    split
    · exact h
    · exact ih _ (List.forall_mem_cons.mpr ⟨Nat.mod_lt n (by decide), h⟩)

theorem dropZeroGroups_sublist (keep : Nat) (groups : List Nat) :
    (dropZeroGroups keep groups).Sublist groups := by
  have tail := (List.dropWhile_sublist (l := (groups.drop keep).reverse) (· = 0)).reverse
  rw [List.reverse_reverse] at tail
  have whole := (List.Sublist.refl (groups.take keep)).append tail
  rwa [List.take_append_drop] at whole

theorem sendable_ofDecimal (d : Decimal) : (ofDecimal d).Sendable := by
  have places := d.scale_le
  rw [ofDecimal]
  by_cases hm : d.mantissa = 0
  · rw [if_pos hm]
    exact ⟨by decide, by decide, by decide, by decide, List.forall_mem_nil _⟩
  · rw [if_neg hm]
    dsimp only
    have count := length_groupsOfNat_le 16
      (d.mantissa * Nat.pow 10 (4 * ((d.scale + 3) / 4) - d.scale)) []
    have small := groupsOfNat_lt 16
      (d.mantissa * Nat.pow 10 (4 * ((d.scale + 3) / 4) - d.scale))
      (List.forall_mem_nil (· < 10000))
    generalize groupsOfNat 16 _ [] = groups at count small
    rw [List.length_nil] at count
    split
    · exact ⟨by omega, by omega, by omega, by omega, small⟩
    · have kept := dropZeroGroups_sublist
        ((groups.length : Int) - ((d.scale + 3) / 4 : Nat) - 1 + 1).toNat groups
      have length := kept.length_le
      exact ⟨by omega, by omega, by omega, by omega, fun g hg => small g (kept.subset hg)⟩

end Numeric

namespace Wire

namespace Writer

variable {ε α β : Type}

theorem run_bind (w : Writer ε α) (f : α → Writer ε β) (out : Bytes) :
    (w >>= f).run out = match w.run out with
      | (.ok a, b) => (f a).run b
      | (.error e, b) => (.error e, b) := by
  change (ExceptT.bind w f) out = _
  rw [ExceptT.bind, ExceptT.mk]
  change ExceptT.bindCont f (w out).1 (w out).2 = _
  rw [run]
  rcases w out with ⟨_ | _, b⟩ <;> rfl

theorem run_send (b out : Bytes) : (send b : Writer ε Written).run out = (.ok .bytes, out ++ b) :=
  rfl

theorem put_bind_send (a b : Bytes) :
    (put a >>= fun _ => send b : Writer ε Written) = send (a ++ b) := by
  funext out
  change (send b : Writer ε Written).run (out ++ a) = (send (a ++ b) : Writer ε Written).run out
  rw [run_send, run_send, List.append_assoc]

end Writer

open Writer

def Encoded.after (r : Encoded) (out : Bytes) : Except EncodeError Written × Bytes :=
  match r with
  | .ok none => (.ok .null, out)
  | .ok (some b) => (.ok .bytes, out ++ b)
  | .error e => (.error e, out)

/-- What is written does not depend on the buffer, and a refusal leaves the buffer as it was. -/
def Writing.Whole (w : Writing) : Prop := ∀ out, w.run out = w.result.after out

@[simp] theorem result_send (b : Bytes) : Writing.result (send b) = bytesOf b := rfl

@[simp] theorem whole_send (b : Bytes) : Writing.Whole (send b) := fun _ => rfl

@[simp] theorem whole_throw (e : EncodeError) : Writing.Whole (throw e) := fun _ => rfl

@[simp] theorem whole_null : Writing.Whole (return .null) := fun _ => rfl

theorem Writing.Whole.ite {c : Prop} [Decidable c] {w w' : Writing} (h : w.Whole)
    (h' : w'.Whole) : Writing.Whole (if c then w else w') := by
  by_cases hc : c
  · rwa [if_pos hc]
  · rwa [if_neg hc]

theorem writeVersioned_eq (s : String) : writeVersioned s = send (1 :: utf8 s) :=
  put_bind_send [1] (utf8 s)

theorem writeJson_eq (type : PgType) (j : Json) :
    writeJson type j = send (if type = .jsonb then 1 :: utf8 j.text else utf8 j.text) := by
  rw [writeJson]
  by_cases ht : type = .jsonb
  · rw [if_pos ht, if_pos ht, writeVersioned_eq]
  · rw [if_neg ht, if_neg ht, writeText]

@[simp] theorem whole_writeSingle (x : Single) : (writeSingle x).Whole := whole_send _

@[simp] theorem whole_writeDouble (x : Double) : (writeDouble x).Whole := whole_send _

@[simp] theorem whole_writeText (s : String) : (writeText s).Whole := whole_send _

@[simp] theorem whole_writeChars (cs : List Char) : (writeChars cs).Whole := whole_send _

@[simp] theorem whole_writeBool (b : Bool) : (writeBool b).Whole := whole_send _

@[simp] theorem whole_writeVersioned (s : String) : (writeVersioned s).Whole := by
  rw [writeVersioned_eq]
  exact whole_send _

@[simp] theorem whole_writeInt (width : Nat) (i : Int) : (writeInt width i).Whole :=
  (whole_send _).ite (whole_throw _)

@[simp] theorem whole_writeOid (i : Int) : (writeOid i).Whole := (whole_send _).ite (whole_throw _)

@[simp] theorem whole_writeDate (d : Date) : (writeDate d).Whole :=
  (whole_send _).ite (whole_throw _)

@[simp] theorem whole_writeInstant (t : Instant) : (writeInstant t).Whole :=
  (whole_send _).ite (whole_throw _)

@[simp] theorem whole_writeJson (type : PgType) (j : Json) : (writeJson type j).Whole := by
  rw [writeJson_eq]
  exact whole_send _

/-- The words of a header that fits are put one by one into its bytes. -/
theorem writeNumeric_eq {n : Numeric} (h : n.Sendable) : writeNumeric n = send n.bytes := by
  have fits := h.fits
  have count : ¬ 65536 ≤ n.toHeader.count := Nat.not_le.mpr fits.count
  have weight : fitsSigned 2 n.toHeader.weight = true := by
    have low := fits.low
    have high := fits.high
    have limit : signedLimit 2 = 32768 := rfl
    rw [fitsSigned, Bool.and_eq_true, decide_eq_true_eq, decide_eq_true_eq, limit]
    omega
  rw [writeNumeric, weight, if_neg count]
  simp only [Bool.not_true, Bool.false_eq_true, if_false]
  change (put _ >>= fun _ => put _ >>= fun _ => put _ >>= fun _ => put _ >>= fun _ => send _) = _
  rw [put_bind_send, put_bind_send, put_bind_send, put_bind_send, Numeric.bytes,
    Numeric.Header.bytes]
  simp only [List.append_assoc]

@[simp] theorem whole_writeDecimal (d : Decimal) : (writeDecimal d).Whole := by
  rw [writeDecimal, writeNumeric_eq (Numeric.sendable_ofDecimal d)]
  exact whole_send _

/-- A text is refused for what it spells only: the numeric of any other text fits its header. -/
theorem writeNumericText_eq (cs : List Char) : writeNumericText cs =
    match Numeric.ofText cs with
    | .ok n => send n.bytes
    | .error fault => throw (.literal fault) := by
  rw [writeNumericText]
  cases hn : Numeric.ofText cs with
  | error fault => rfl
  | ok n => exact writeNumeric_eq (Numeric.sendable_ofTrimmed hn)

@[simp] theorem whole_writeNumericText (cs : List Char) : (writeNumericText cs).Whole := by
  rw [writeNumericText_eq]
  cases Numeric.ofText cs with
  | error fault => exact whole_throw _
  | ok n => exact whole_send _

section Kinds

variable (type : PgType)

@[simp] theorem whole_writeBoolAs (b : Bool) : (writeBoolAs type b).Whole := by
  unfold writeBoolAs
  split <;> simp

@[simp] theorem whole_writeIntAs (i : Int64) : (writeIntAs type i).Whole := by
  unfold writeIntAs
  split <;> simp

@[simp] theorem whole_writeFloatAs (x : Double) : (writeFloatAs type x).Whole := by
  unfold writeFloatAs
  split
  case h_6 =>
    apply Writing.Whole.ite
    · cases Decimal.ofDouble? x <;> simp
    · simp
  all_goals try split
  all_goals simp

@[simp] theorem whole_writeDecimalAs (d : Decimal) : (writeDecimalAs type d).Whole := by
  unfold writeDecimalAs
  split
  all_goals try cases d.toInt?
  all_goals try dsimp only
  all_goals try split
  all_goals simp

@[simp] theorem whole_writeTimestampAs (t : Instant) : (writeTimestampAs type t).Whole := by
  unfold writeTimestampAs
  split <;> simp

@[simp] theorem whole_writeDateAs (d : Date) : (writeDateAs type d).Whole := by
  unfold writeDateAs
  split <;> simp

@[simp] theorem whole_writeUuidAs (u : Uuid) : (writeUuidAs type u).Whole := by
  unfold writeUuidAs
  split <;> simp

@[simp] theorem whole_writeBytesAs (b : Bytes) : (writeBytesAs type b).Whole := by
  unfold writeBytesAs
  split <;> simp

@[simp] theorem whole_writeTextAs (s : String) : (writeTextAs type s).Whole := by
  unfold writeTextAs
  dsimp only
  split
  all_goals try split
  all_goals try split
  all_goals simp

end Kinds

def PgType.isScalar : PgType → Bool
  | .array .. => false
  | _ => true

variable {type : PgType} {v : Value}

/-- Only an array for an array type is written in parts. -/
theorem whole_write (h : type.isScalar ∨ v.asArray? = none) : (write type v).Whole := by
  cases v with
  | array items =>
    unfold write
    split
    · exact whole_writeJson _ _
    · split
      · simp [PgType.isScalar, Value.asArray?] at h
      · exact whole_throw _
  | null => exact whole_null
  | text s => exact whole_writeTextAs _ _
  | map fields =>
    unfold write
    split <;> (try split) <;> simp
  | _ =>
    unfold write
    split <;> simp

/-- A refused value that is no array leaves nothing behind. -/
theorem write_refused {out b : Bytes} {e : EncodeError} (hv : v.asArray? = none)
    (h : (write type v).run out = (.error e, b)) : b = out := by
  rw [whole_write (.inr hv) out] at h
  unfold Encoded.after at h
  split at h
  · cases h
  · cases h
  · exact (Prod.mk.inj h).2.symm

end Wire

end SqlClient
