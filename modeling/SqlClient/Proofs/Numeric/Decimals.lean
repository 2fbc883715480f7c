import SqlClient.Proofs.Numeric.Positional
/-!
# Decimals as numerics

A decimal is sent as groups that its mantissa is divided into, and its text as groups that its
digits are cut into. The groups are not always the same ones: zero groups are left out by one and
sent by the other. Both stand for the same number with the same places, so both are shown as one
text, the text that the decimal has.
-/
namespace SqlClient

open SqlClient.Number SqlClient.Wire

namespace Numeric

def unitsText (negative : Bool) (units places : Nat) : List Char :=
  plainText negative (decimalDigits (units / 10 ^ places))
    (fractionDigits places (units % 10 ^ places))

/-- Digits around a point are those of their number, unless zeros stand in front. -/
theorem plainText_eq_unitsText (negative : Bool) {whole fraction : List Char}
    (hf : ∀ c ∈ fraction, c.isDigit) (hw : whole = decimalDigits (digitsValue whole)) :
    plainText negative whole fraction =
      unitsText negative (digitsValue (whole ++ fraction)) fraction.length := by
  obtain ⟨above, below⟩ := digitsValue_append_div_mod whole hf
  rw [unitsText, above, below, fractionDigits_digitsValue hf, ← hw]

theorem decimalText_eq (d : Decimal) : d.text = unitsText d.negative d.mantissa d.scale := by
  have length := length_fractionDigits (mod_powTen_lt d.scale d.mantissa)
  have none : fractionDigits d.scale (d.mantissa % 10 ^ d.scale) = [] ↔ d.scale = 0 := by
    rw [← List.length_eq_zero_iff, length]
  rw [Decimal.text, paddedDigits_succ, List.length_append, length, Nat.add_sub_cancel,
    unitsText, plainText]
  simp only [none, List.take_left, List.drop_left]
  cases d.negative <;> by_cases hs : d.scale = 0 <;> simp [hs]

theorem integerText_eq (i : Int) : integerText i = unitsText (i < 0) i.natAbs 0 := by
  have whole : i.natAbs / 10 ^ 0 = i.natAbs := Nat.div_one _
  rw [integerText, unitsText, whole, plainText, fractionDigits, if_pos rfl, if_pos rfl,
    List.append_nil]
  by_cases hi : i < 0 <;> simp [hi]

section Units

variable (negative : Bool) (units places : Nat)

def Denotes (cs : List Char) (q : ℚ) : Prop :=
  ∃ l : Literal, l.Spells cs ∧ (if l.negative then -l.magnitude else l.magnitude) = q

theorem denotes_unitsText :
    Denotes (unitsText negative units places) ((signed negative units : ℚ) / 10 ^ places) := by
  refine ⟨_, spells_plainText (isDigit_decimalDigits _) Nat.toDigits_ne_nil
    (isDigit_fractionDigits _ _) negative, ?_⟩
  rw [Literal.magnitude, digitsValue_around_point,
    length_fractionDigits (mod_powTen_lt places units), signed]
  cases negative <;> simp [div_eq_mul_inv]

/-- What is sent for the text is shown as the text again, but a zero without its sign. -/
theorem ofText_unitsText (hw : (decimalDigits (units / 10 ^ places)).length ≤ maxWholeDigits)
    (hp : places ≤ maxScale) : ∃ n, ofText (unitsText negative units places) = .ok n ∧
      n.Sendable ∧ n.text = unitsText (negative && units != 0) units places := by
  have digits := isDigit_decimalDigits (units / 10 ^ places)
  have behind := isDigit_fractionDigits places (units % 10 ^ places)
  have room : (fractionDigits places (units % 10 ^ places)).length ≤ maxScale := by
    rwa [length_fractionDigits (mod_powTen_lt places units)]
  refine ⟨_, ofText_plainText digits Nat.toDigits_ne_nil behind negative hw room,
    sendable_ofDigits negative digits behind hw room, ?_⟩
  rw [text_ofDigits negative digits behind, digitsValue_around_point, digitsValue_decimalDigits,
    unitsText, plainText]
  simp only [Bool.and_eq_true, bne_iff_ne]

end Units

theorem natOfGroups_groupsOfNat {fuel n : Nat} (h : n < 10000 ^ fuel) (acc : List Nat) :
    natOfGroups (groupsOfNat fuel n acc) = n * 10000 ^ acc.length + natOfGroups acc := by
  induction fuel generalizing n acc with
  | zero =>
    obtain rfl : n = 0 := by omega
    rw [groupsOfNat, Nat.zero_mul, Nat.zero_add]
  | succ fuel ih =>
    rw [groupsOfNat]
    by_cases hn : n = 0
    · rw [if_pos hn, hn, Nat.zero_mul, Nat.zero_add]
    · have less : n / 10000 < 10000 ^ fuel := by
        rw [Nat.pow_succ] at h
        omega
      rw [if_neg hn, ih less, natOfGroups_cons, List.length_cons]
      calc n / 10000 * 10000 ^ (acc.length + 1) +
            (n % 10000 * 10000 ^ acc.length + natOfGroups acc)
          = (10000 * (n / 10000) + n % 10000) * 10000 ^ acc.length + natOfGroups acc := by ring
        _ = n * 10000 ^ acc.length + natOfGroups acc := by rw [Nat.div_add_mod]

theorem head_groupsOfNat {fuel n : Nat} {acc : List Nat} (h : n < 10000 ^ fuel)
    (ha : n = 0 → ∀ g ∈ acc.head?, g ≠ 0) : ∀ g ∈ (groupsOfNat fuel n acc).head?, g ≠ 0 := by
  induction fuel generalizing n acc with
  | zero => exact ha (by omega)
  | succ fuel ih =>
    rw [groupsOfNat]
    by_cases hn : n = 0
    · rw [if_pos hn]
      exact ha hn
    · rw [if_neg hn]
      refine ih (by rw [Nat.pow_succ] at h; omega) fun last g hg => ?_
      -- the group put in front last is what was left of the number
      obtain rfl := Option.some.inj hg
      omega

/-- Only zero groups are left out at the end. -/
theorem dropZeroGroups_append (keep : Nat) (groups : List Nat) :
    ∃ t, groups = dropZeroGroups keep groups ++ List.replicate t 0 := by
  have split := List.takeWhile_append_dropWhile (p := (· = 0)) (l := (groups.drop keep).reverse)
  have zeros := List.eq_replicate_of_mem (a := 0)
    (l := (groups.drop keep).reverse.takeWhile (· = 0)) fun g hg => by
      simpa using List.mem_takeWhile_imp hg
  refine ⟨((groups.drop keep).reverse.takeWhile (· = 0)).length, ?_⟩
  have back := congrArg List.reverse split
  rw [List.reverse_append, List.reverse_reverse, zeros, List.reverse_replicate] at back
  rw [dropZeroGroups, List.append_assoc, back, List.take_append_drop]

theorem groupsValue_append_replicate (weight : Int) (groups : List Nat) (t : Nat) :
    groupsValue weight (groups ++ List.replicate t 0) = groupsValue weight groups := by
  have base : (10000 : ℚ) ≠ 0 := by decide
  have exponent : weight + 1 - groups.length =
      t + (weight + 1 - (groups ++ List.replicate t 0).length) := by
    rw [List.length_append, List.length_replicate]
    omega
  rw [groupsValue_eq, groupsValue_eq, exponent, zpow_add₀ base, zpow_natCast, natOfGroups_append,
    natOfGroups_replicate, List.length_replicate]
  push_cast
  ring

/-- Without zero groups in front, no zeros stand in front of the digits before the point. -/
theorem wholeText_eq {groups : List Nat} (small : ∀ g ∈ groups, g < 10000) (some : groups ≠ [])
    (first : ∀ g ∈ groups.head?, g ≠ 0) (weight : Int) :
    wholeText weight groups = decimalDigits (digitsValue (wholeText weight groups)) := by
  have digits := isDigit_wholeText small weight
  have value := digitsValue_wholeText small weight
  have first := head_wholeGroups some first weight
  rw [wholeText] at digits value ⊢
  generalize wholeGroups weight groups = gs at digits value first
  cases gs with
  | nil => exact decimalDigits_zero.symm
  | cons g gs =>
    dsimp only at digits value ⊢
    have nonzero := first g rfl
    have positive : natOfGroups (g :: gs) ≠ 0 := by
      rw [natOfGroups_cons]
      exact Nat.ne_of_gt (Nat.add_pos_left
        (Nat.mul_pos (Nat.pos_of_ne_zero nonzero) (Nat.pow_pos (by decide))) _)
    rw [decimalDigits_digitsValue digits (by rwa [value]), dropWhile_decimalDigits_append nonzero]

structure StandsFor (units places : Nat) (weight : Int) (groups : List Nat) : Prop where
  small : ∀ g ∈ groups, g < 10000
  some : groups ≠ []
  first : ∀ g ∈ groups.head?, g ≠ 0
  value : groupsValue weight groups * 10 ^ places = units

namespace StandsFor

variable {units places t : Nat} {weight : Int} {all groups : List Nat}

/-- Zero groups at the end change nothing. -/
theorem of_append (h : StandsFor units places weight all)
    (ht : all = groups ++ List.replicate t 0) : StandsFor units places weight groups := by
  subst ht
  have some : groups ≠ [] := by
    rintro rfl
    cases t with
    | zero => exact h.some rfl
    | succ t => exact h.first 0 rfl rfl
  refine ⟨fun g hg => h.small g (List.mem_append_left _ hg), some, fun g hg => h.first g ?_, ?_⟩
  · rw [List.head?_append_of_ne_nil _ some]
    exact hg
  · rw [← h.value, groupsValue_append_replicate]

theorem text_eq (h : StandsFor units places weight groups) (negative : Bool) :
    text (.finite negative weight places groups) = unitsText negative units places := by
  have digits := digitsValue_shown h.small weight places
  rw [h.value, Int.floor_natCast, Nat.cast_inj] at digits
  rw [text_finite, plainText_eq_unitsText negative (isDigit_fractionText h.small weight places)
    (wholeText_eq h.small h.some h.first weight), digits, length_fractionText]

end StandsFor

/-- The mantissa is divided at the point, with zeros behind it up to a whole group. -/
theorem standsFor_groupsOfNat {units places count : Nat} (hu : units ≠ 0)
    (bound : units * 10 ^ (4 * count - places) < 10000 ^ 16) (hp : places ≤ 4 * count) :
    let groups := groupsOfNat 16 (units * 10 ^ (4 * count - places)) []
    StandsFor units places ((groups.length : Int) - count - 1) groups := by
  intro groups
  have positive : units * 10 ^ (4 * count - places) ≠ 0 :=
    Nat.mul_ne_zero hu (Nat.pow_pos (by decide)).ne'
  have value : natOfGroups groups = units * 10 ^ (4 * count - places) := by
    rw [natOfGroups_groupsOfNat bound]
    simp [natOfGroups]
  refine ⟨groupsOfNat_lt 16 _ (List.forall_mem_nil _), ?_,
    head_groupsOfNat bound fun zero => absurd zero positive, ?_⟩
  · intro none
    rw [none] at value
    exact positive value.symm
  · have exponent : (groups.length : Int) - count - 1 + 1 - groups.length = -(count : Int) := by
      omega
    have units_pow : (10 : ℚ) ^ (4 * count - places) * 10 ^ places = 10000 ^ count := by
      rw [← pow_add, Nat.sub_add_cancel hp, pow_mul]
      norm_num
    rw [groupsValue_eq, exponent, value, zpow_neg, zpow_natCast, mul_right_comm]
    push_cast
    rw [mul_assoc (units : ℚ), units_pow, mul_inv_cancel_right₀ (pow_ne_zero _ (by decide))]

/-- Whichever zero groups are left out at the end, the number is kept. -/
theorem standsFor_ofDecimal {d : Decimal} (hd : d.mantissa ≠ 0) : ∃ weight groups,
    ofDecimal d = .finite d.negative weight d.scale groups ∧
      StandsFor d.mantissa d.scale weight groups := by
  have bound : d.mantissa * 10 ^ (4 * ((d.scale + 3) / 4) - d.scale) < 10000 ^ 16 := by
    have power : 10 ^ (4 * ((d.scale + 3) / 4) - d.scale) ≤ 10 ^ 3 :=
      Nat.pow_le_pow_right (by decide) (by omega)
    have limit : mantissaLimit * 10 ^ 3 < 10000 ^ 16 := by decide
    exact (Nat.mul_le_mul d.mantissa_lt.le power).trans_lt limit
  have whole := standsFor_groupsOfNat hd bound (by omega)
  rw [ofDecimal, if_neg hd]
  simp only [Nat.pow_eq]
  split
  · exact ⟨_, _, rfl, whole⟩
  · obtain ⟨t, ht⟩ := dropZeroGroups_append _ _
    exact ⟨_, _, rfl, whole.of_append ht⟩

theorem text_ofDecimal {d : Decimal} (hd : d.mantissa ≠ 0) : (ofDecimal d).text = d.text := by
  obtain ⟨weight, groups, he, stands⟩ := standsFor_ofDecimal hd
  rw [he, stands.text_eq, decimalText_eq]

theorem text_ofDecimal_zero {d : Decimal} (hd : d.mantissa = 0) :
    (ofDecimal d).text = unitsText false 0 0 := by
  rw [ofDecimal, if_pos hd]
  rfl

/-- An integer has no places, so nothing is lost of a zero. -/
theorem text_ofInt64 (i : Int64) : (ofDecimal (.ofInt64 i)).text = integerText i.toInt := by
  rw [integerText_eq]
  by_cases hi : i.toInt = 0
  · have zero : (Decimal.ofInt64 i).mantissa = 0 := Int.natAbs_eq_zero.mpr hi
    rw [text_ofDecimal_zero zero, hi]
    rfl
  · have nonzero : (Decimal.ofInt64 i).mantissa ≠ 0 := Int.natAbs_ne_zero.mpr hi
    rw [text_ofDecimal nonzero, decimalText_eq]
    rfl

end Numeric

namespace Wire

open Numeric Writer

/-- A value is sent as a numeric, whatever the buffer holds, and its bytes are read as this text. -/
def ReadBackAs (v : Value) (cs : List Char) : Prop :=
  ∃ b, (∀ out, (write .numeric v).run out = (.ok .bytes, out ++ b)) ∧ readNumericText b = some cs

/-- A value that is read as the text it is displayed as, whether it or that text is sent. -/
def ShownAlike (v : Value) : Prop :=
  ReadBackAs v v.display ∧ ReadBackAs (.text v.displayText) v.display

theorem readNumericText_bytes {n : Numeric} (h : n.Sendable) :
    readNumericText n.bytes = some n.text := by
  rw [readNumericText, ofBytes_bytes h]
  rfl

theorem readBackAs_of_writeDecimal {v : Value} {d : Decimal}
    (h : write .numeric v = writeDecimal d) : ReadBackAs v (ofDecimal d).text := by
  have sendable := sendable_ofDecimal d
  refine ⟨(ofDecimal d).bytes, fun out => ?_, readNumericText_bytes sendable⟩
  rw [h, writeDecimal, writeNumeric_eq sendable, run_send]

theorem readBackAs_text (negative : Bool) {units places : Nat} (hu : units < mantissaLimit)
    (hp : places ≤ 28) : ReadBackAs (.text (String.ofList (unitsText negative units places)))
      (unitsText (negative && units != 0) units places) := by
  have room : (decimalDigits (units / 10 ^ places)).length ≤ 29 := by
    have limit : mantissaLimit ≤ 10 ^ 29 := by decide
    exact (Nat.length_toDigits_le_iff (by decide) (by decide)).mpr
      ((Nat.div_le_self _ _).trans_lt (hu.trans_le limit))
  obtain ⟨n, read, sendable, text⟩ := ofText_unitsText negative units places
    (room.trans (by decide)) (hp.trans (by decide))
  refine ⟨n.bytes, fun out => ?_, ?_⟩
  · rw [write, writeTextAs, String.toList_ofList, writeNumericText_eq, read]
    exact run_send _ _
  · rw [readNumericText_bytes sendable, text]

/-- Sent as a number or as the text that it is displayed as, an integer or a decimal that is not
zero is read as that text, with all zeros behind the point. A zero of any scale is read as a text
for zero. -/
theorem numeric_paths_agree :
    (∀ i : Int64, ShownAlike (.int i)) ∧
    (∀ d : Decimal, d.mantissa ≠ 0 → ShownAlike (.decimal d)) ∧
    ∀ d : Decimal, d.mantissa = 0 → ∃ cs cs', ReadBackAs (.decimal d) cs ∧
      ReadBackAs (.text (Value.decimal d).displayText) cs' ∧ Denotes cs 0 ∧ Denotes cs' 0 := by
  have decimal (d : Decimal) : ReadBackAs (.text (Value.decimal d).displayText)
      (unitsText (d.negative && d.mantissa != 0) d.mantissa d.scale) := by
    rw [Value.displayText, Value.display, decimalText_eq]
    exact readBackAs_text _ d.mantissa_lt d.scale_le
  refine ⟨fun i => ⟨?_, ?_⟩, fun d hd => ⟨?_, ?_⟩, fun d hd => ?_⟩
  · rw [Value.display, ← text_ofInt64]
    exact readBackAs_of_writeDecimal rfl
  · rw [Value.displayText, Value.display, integerText_eq]
    have text := readBackAs_text (i.toInt < 0) (Decimal.natAbs_toInt_lt i) (Nat.zero_le 28)
    have sign : (decide (i.toInt < 0) && i.toInt.natAbs != 0) = decide (i.toInt < 0) := by
      by_cases hi : i.toInt < 0 <;> simp [hi]
      omega
    rwa [sign] at text
  · rw [Value.display, ← text_ofDecimal hd]
    exact readBackAs_of_writeDecimal rfl
  · have text := decimal d
    rwa [bne_iff_ne.mpr hd, Bool.and_true, ← decimalText_eq] at text
  · have text := decimal d
    rw [hd] at text
    have places := denotes_unitsText (d.negative && (0 : Nat) != 0) 0 d.scale
    have plain := denotes_unitsText false 0 0
    refine ⟨_, _, text_ofDecimal_zero hd ▸ readBackAs_of_writeDecimal rfl, text, ?_, ?_⟩
    · simpa [signed] using plain
    · simpa [signed] using places

/-- Below one the decimal is sent with the zero group at its end and the text without it. -/
theorem numeric_paths_agree_below_one :
    let d : Decimal := { negative := true, mantissa := 12000000, scale := 8 }
    let zero : Decimal := { negative := true, mantissa := 0, scale := 8 }
    let text := "-0.12000000"
    ReadBackAs (.decimal d) text.toList ∧ ReadBackAs (.text text) text.toList ∧
      encode .numeric (.decimal d) ≠ encode .numeric (.text text) ∧
      ∃ cs cs', ReadBackAs (.decimal zero) cs ∧ ReadBackAs (.text "-0.00000000") cs' ∧
        Denotes cs 0 ∧ Denotes cs' 0 := by
  intro d zero text
  have shown : (Value.decimal d).display = text.toList := by decide
  have zeroShown : (Value.decimal zero).displayText = "-0.00000000" := by decide
  obtain ⟨sent, asText⟩ := numeric_paths_agree.2.1 d (by decide)
  have nothing := numeric_paths_agree.2.2 zero rfl
  rw [shown] at sent
  rw [Value.displayText, shown, String.ofList_toList] at asText
  rw [zeroShown] at nothing
  exact ⟨sent, asText, fun same => absurd (congrArg Except.toOption same) (by decide +kernel),
    nothing⟩

end Wire

end SqlClient
