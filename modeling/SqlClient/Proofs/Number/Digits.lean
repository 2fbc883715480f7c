import Mathlib.Algebra.Group.Nat.Defs
import Mathlib.Data.List.Induction
import Mathlib.Data.List.TakeWhile
import SqlClient.Number.Basic
/-!
# Digits and integers

Decimal digits and the numbers they stand for. Digits without leading zeros are those of their
value, and digits of a known count are those of their value padded to that count. What is read as an
integer is an optional sign and digits, at least one of them, whose value is in range.
-/
namespace SqlClient.Number

theorem toNat_of_isDigit {c : Char} (h : c.isDigit) : 48 ≤ c.toNat ∧ c.toNat ≤ 57 := by
  simp only [Char.isDigit, Bool.and_eq_true, decide_eq_true_eq, ge_iff_le, UInt32.le_iff_toNat_le]
    at h
  exact h

theorem digitChar_of_isDigit {c : Char} (h : c.isDigit) : (c.toNat - 48).digitChar = c := by
  obtain ⟨h₀, h₉⟩ := toNat_of_isDigit h
  apply Char.toNat_inj.mp
  rw [Nat.toNat_digitChar_of_lt_ten (by omega)]
  omega

theorem eq_zero_of_isDigit {c : Char} (h : c.isDigit) (hz : c.toNat - 48 = 0) : c = '0' := by
  rw [← digitChar_of_isDigit h, hz]
  rfl

theorem isDigit_zeros (n : Nat) : ∀ c ∈ List.replicate n '0', c.isDigit := by
  intro c hc
  rw [List.eq_of_mem_replicate hc]
  rfl

theorem digitsValue_append (as bs : List Char) :
    digitsValue (as ++ bs) = digitsValue as * 10 ^ bs.length + digitsValue bs := by
  rw [digitsValue, Nat.ofDigitChars_append, Nat.ofDigitChars_eq_ofDigitChars_zero, Nat.mul_comm]
  rfl

theorem digitsValue_snoc (ds : List Char) (c : Char) :
    digitsValue (ds ++ [c]) = 10 * digitsValue ds + (c.toNat - 48) := by
  rw [digitsValue_append, List.length_singleton, Nat.pow_one, Nat.mul_comm, digitsValue,
    digitsValue, Nat.ofDigitChars_cons, Nat.mul_zero, Nat.zero_add, Nat.ofDigitChars_nil]
  rfl

@[simp] theorem digitsValue_replicate (n : Nat) : digitsValue (List.replicate n '0') = 0 := by
  rw [digitsValue, Nat.ofDigitChars_replicate_zero, Nat.mul_zero]

theorem digitsValue_lt {ds : List Char} (h : ∀ c ∈ ds, c.isDigit) :
    digitsValue ds < 10 ^ ds.length := by
  induction ds using List.reverseRecOn with
  | nil => decide
  | append_singleton ds c ih =>
    have hv := ih fun d hd => h d (List.mem_append_left _ hd)
    have hc := toNat_of_isDigit (h c (by simp))
    rw [digitsValue_snoc, List.length_append, List.length_singleton, Nat.pow_succ]
    omega

theorem digitsValue_eq_zero_iff {ds : List Char} (h : ∀ c ∈ ds, c.isDigit) :
    digitsValue ds = 0 ↔ ds = List.replicate ds.length '0' := by
  constructor
  · intro hz
    rw [List.eq_replicate_iff]
    refine ⟨rfl, fun c hc => ?_⟩
    induction ds using List.reverseRecOn with
    | nil => exact absurd hc List.not_mem_nil
    | append_singleton ds d ih =>
      rw [digitsValue_snoc] at hz
      rcases List.mem_append.mp hc with hc | hc
      · exact ih (fun e he => h e (List.mem_append_left _ he)) (by omega) hc
      · obtain rfl := List.mem_singleton.mp hc
        exact eq_zero_of_isDigit (h c (by simp)) (by omega)
  · intro hr
    rw [hr, digitsValue_replicate]

/-- The digits of a value are those it was read from, without the zeros in front. -/
theorem decimalDigits_digitsValue {ds : List Char} (h : ∀ c ∈ ds, c.isDigit)
    (hn : digitsValue ds ≠ 0) : decimalDigits (digitsValue ds) = ds.dropWhile (· = '0') := by
  induction ds using List.reverseRecOn with
  | nil => exact absurd rfl hn
  | append_singleton ds c ih =>
    have hd : ∀ d ∈ ds, d.isDigit := fun d hd => h d (List.mem_append_left _ hd)
    have hc : c.isDigit := h c (by simp)
    have bound := toNat_of_isDigit hc
    rw [digitsValue_snoc] at hn ⊢
    rw [List.dropWhile_append]
    by_cases hz : digitsValue ds = 0
    · -- only the last digit counts
      have zeros : (ds.dropWhile (· = '0')).isEmpty = true := by
        rw [(digitsValue_eq_zero_iff hd).mp hz, List.isEmpty_iff, List.dropWhile_eq_nil_iff]
        intro d hd
        simpa using List.eq_of_mem_replicate hd
      have last : ¬ c = '0' := by
        rintro rfl
        exact hn (by simp [hz])
      rw [if_pos zeros, List.dropWhile_cons_of_neg (by simpa using last), hz, Nat.mul_zero,
        Nat.zero_add, decimalDigits, Nat.toDigits_of_lt_base (by omega), digitChar_of_isDigit hc]
    · have kept : ¬ (ds.dropWhile (· = '0')).isEmpty = true := by
        rw [← ih hd hz, List.isEmpty_iff]
        exact Nat.toDigits_ne_nil
      rw [if_neg kept, decimalDigits,
        ← Nat.toDigits_append_toDigits (by decide) (Nat.pos_of_ne_zero hz) (by omega),
        ← decimalDigits, ih hd hz, Nat.toDigits_of_lt_base (by omega), digitChar_of_isDigit hc]

/-- The digits of a value, padded to as many as it was read from. -/
theorem paddedDigits_digitsValue {ds : List Char} (h : ∀ c ∈ ds, c.isDigit) (hn : ds ≠ []) :
    paddedDigits ds.length (digitsValue ds) = ds := by
  by_cases hz : digitsValue ds = 0
  · have length_pos := List.length_pos_iff.mpr hn
    have zeros := (digitsValue_eq_zero_iff h).mp hz
    rw [hz, paddedDigits, decimalDigits, Nat.toDigits_zero, List.length_singleton]
    have snoc : List.replicate (ds.length - 1) '0' ++ ['0'] = List.replicate ds.length '0' := by
      rw [← List.replicate_succ', Nat.sub_add_cancel length_pos]
    rw [snoc, ← zeros]
  · have split := List.takeWhile_append_dropWhile (p := (· = '0')) (l := ds)
    have zeros : ds.takeWhile (· = '0') =
        List.replicate (ds.length - (ds.dropWhile (· = '0')).length) '0' := by
      rw [List.eq_replicate_iff]
      constructor
      · have hl := congrArg List.length split
        rw [List.length_append] at hl
        omega
      · intro c hc
        simpa using List.mem_takeWhile_imp hc
    rw [paddedDigits, decimalDigits_digitsValue h hz, ← zeros, split]

theorem isDigit_decimalDigits (n : Nat) : ∀ c ∈ decimalDigits n, c.isDigit := fun _ hc =>
  Nat.isDigit_of_mem_toDigits (by decide) (by decide) hc

theorem decimalDigits_zero : decimalDigits 0 = ['0'] := Nat.toDigits_zero 10

/-- There are no zeros in front of a number, nor of digits that begin with it. -/
theorem dropWhile_decimalDigits_append {n : Nat} (hn : n ≠ 0) (ds : List Char) :
    (decimalDigits n ++ ds).dropWhile (· = '0') = decimalDigits n ++ ds := by
  have kept := decimalDigits_digitsValue (isDigit_decimalDigits n)
    (by rwa [digitsValue_decimalDigits])
  rw [digitsValue_decimalDigits] at kept
  have some : ¬ ((decimalDigits n).dropWhile (· = '0')).isEmpty = true := by
    rw [← kept, List.isEmpty_iff]
    exact Nat.toDigits_ne_nil
  rw [List.dropWhile_append, if_neg some, ← kept]

/-- The digits at the end of others are what is left below their power of ten. -/
theorem digitsValue_append_div_mod (as : List Char) {bs : List Char} (h : ∀ c ∈ bs, c.isDigit) :
    digitsValue (as ++ bs) / 10 ^ bs.length = digitsValue as ∧
      digitsValue (as ++ bs) % 10 ^ bs.length = digitsValue bs := by
  have small := digitsValue_lt h
  have unit : 0 < 10 ^ bs.length := Nat.pow_pos (by decide)
  rw [digitsValue_append, Nat.mul_comm]
  constructor
  · rw [Nat.mul_add_div unit, Nat.div_eq_of_lt small, Nat.add_zero]
  · rw [Nat.mul_add_mod, Nat.mod_eq_of_lt small]

def fractionDigits (places n : Nat) : List Char :=
  if places = 0 then [] else paddedDigits places n

theorem fractionDigits_digitsValue {ds : List Char} (h : ∀ c ∈ ds, c.isDigit) :
    fractionDigits ds.length (digitsValue ds) = ds := by
  by_cases hn : ds = []
  · subst hn
    rfl
  · have some : ds.length ≠ 0 := fun he => hn (List.length_eq_zero_iff.mp he)
    rw [fractionDigits, if_neg some, paddedDigits_digitsValue h hn]

theorem isDigit_fractionDigits (places n : Nat) : ∀ c ∈ fractionDigits places n, c.isDigit := by
  rw [fractionDigits]
  split
  · exact List.forall_mem_nil _
  · exact List.forall_mem_append.mpr ⟨isDigit_zeros _, isDigit_decimalDigits n⟩

theorem length_fractionDigits {places n : Nat} (h : n < 10 ^ places) :
    (fractionDigits places n).length = places := by
  rw [fractionDigits]
  by_cases hp : places = 0
  · rw [if_pos hp, hp, List.length_nil]
  · have short : (decimalDigits n).length ≤ places :=
      (Nat.length_toDigits_le_iff (by decide) (Nat.pos_of_ne_zero hp)).mpr h
    rw [if_neg hp, paddedDigits, List.length_append, List.length_replicate]
    omega

theorem digitsValue_fractionDigits {places n : Nat} (h : n < 10 ^ places) :
    digitsValue (fractionDigits places n) = n := by
  rw [fractionDigits]
  by_cases hp : places = 0
  · rw [hp, Nat.pow_zero, Nat.lt_one_iff] at h
    rw [if_pos hp, h]
    rfl
  · rw [if_neg hp, paddedDigits, digitsValue_append, digitsValue_replicate, Nat.zero_mul,
      Nat.zero_add, digitsValue_decimalDigits]

section Padded

variable {width n : Nat} (hw : width ≠ 0)

include hw

theorem paddedDigits_eq (n : Nat) : paddedDigits width n = fractionDigits width n :=
  (if_neg hw).symm

theorem isDigit_paddedDigits (n : Nat) : ∀ c ∈ paddedDigits width n, c.isDigit := by
  rw [paddedDigits_eq hw]
  exact isDigit_fractionDigits width n

theorem length_paddedDigits (h : n < 10 ^ width) : (paddedDigits width n).length = width := by
  rw [paddedDigits_eq hw, length_fractionDigits h]

theorem digitsValue_paddedDigits (h : n < 10 ^ width) : digitsValue (paddedDigits width n) = n := by
  rw [paddedDigits_eq hw, digitsValue_fractionDigits h]

end Padded

section Around

variable (places n : Nat)

theorem mod_powTen_lt : n % 10 ^ places < 10 ^ places := Nat.mod_lt _ (Nat.pow_pos (by decide))

theorem digitsValue_around_point : digitsValue (decimalDigits (n / 10 ^ places) ++
    fractionDigits places (n % 10 ^ places)) = n := by
  have small := mod_powTen_lt places n
  rw [digitsValue_append, length_fractionDigits small, digitsValue_decimalDigits,
    digitsValue_fractionDigits small, Nat.mul_comm, Nat.div_add_mod]

/-- All digits of a number around a point, one at least before it. -/
theorem paddedDigits_succ : paddedDigits (places + 1) n =
    decimalDigits (n / 10 ^ places) ++ fractionDigits places (n % 10 ^ places) := by
  have length := length_fractionDigits (mod_powTen_lt places n)
  have value := digitsValue_around_point places n
  have digits : ∀ c ∈ decimalDigits (n / 10 ^ places) ++
      fractionDigits places (n % 10 ^ places), c.isDigit :=
    List.forall_mem_append.mpr ⟨isDigit_decimalDigits _, isDigit_fractionDigits _ _⟩
  by_cases hz : n / 10 ^ places = 0
  · have padded := paddedDigits_digitsValue digits
      (fun he => Nat.toDigits_ne_nil (List.append_eq_nil_iff.mp he).1)
    have number : (decimalDigits (n / 10 ^ places) ++
        fractionDigits places (n % 10 ^ places)).length = places + 1 := by
      rw [List.length_append, length, hz, decimalDigits_zero, List.length_singleton, Nat.add_comm]
    rwa [number, value] at padded
  · have some : n ≠ 0 := by
      rintro rfl
      exact hz (Nat.zero_div _)
    have same := decimalDigits_digitsValue digits (by rwa [value])
    rw [value, dropWhile_decimalDigits_append hz] at same
    have enough : places + 1 - (decimalDigits (n / 10 ^ places) ++
        fractionDigits places (n % 10 ^ places)).length = 0 := by
      have one : 0 < (decimalDigits (n / 10 ^ places)).length :=
        List.length_pos_iff.mpr Nat.toDigits_ne_nil
      rw [List.length_append, length]
      omega
    rw [paddedDigits, same, enough]
    rfl

end Around

inductive SignText : Bool → List Char → Prop where
  | minus : SignText true ['-']
  | plus : SignText false ['+']
  | none : SignText false []

def signed (negative : Bool) (n : Nat) : Int := if negative then -(n : Int) else n

def IntegerText (i : Int) (cs : List Char) : Prop :=
  ∃ (negative : Bool) (sign ds : List Char), SignText negative sign ∧ cs = sign ++ ds ∧ ds ≠ [] ∧
    (∀ c ∈ ds, c.isDigit) ∧ i = signed negative (digitsValue ds)

theorem integerText_spec (n : Int) : IntegerText n (integerText n) := by
  have digits := isDigit_decimalDigits n.natAbs
  have some : decimalDigits n.natAbs ≠ [] := Nat.toDigits_ne_nil
  have value := digitsValue_decimalDigits n.natAbs
  rw [integerText]
  by_cases negative : n < 0
  · rw [if_pos negative]
    refine ⟨true, ['-'], decimalDigits n.natAbs, .minus, rfl, some, digits, ?_⟩
    rw [value, signed, if_pos rfl]
    omega
  · rw [if_neg negative]
    refine ⟨false, [], decimalDigits n.natAbs, .none, rfl, some, digits, ?_⟩
    rw [value, signed, if_neg Bool.false_ne_true]
    omega

theorem le_ofDigitChars (cs : List Char) (acc : Nat) : acc ≤ Nat.ofDigitChars 10 cs acc := by
  rw [Nat.ofDigitChars_eq_ofDigitChars_zero]
  have hp : 0 < 10 ^ cs.length := Nat.pow_pos (by decide)
  exact Nat.le_trans (Nat.le_mul_of_pos_left acc hp) (Nat.le_add_right _ _)

theorem readDigits_eq_ok_iff {limit acc n : Nat} {overflow : IntegerFault} {cs : List Char}
    (ha : acc ≤ limit) : readDigits limit overflow acc cs = .ok n ↔
      (∀ c ∈ cs, c.isDigit) ∧ n = Nat.ofDigitChars 10 cs acc ∧ n ≤ limit := by
  induction cs generalizing acc with
  | nil =>
    rw [readDigits, Nat.ofDigitChars_nil]
    constructor
    · rintro ⟨⟩
      exact ⟨by simp, rfl, ha⟩
    · rintro ⟨-, rfl, -⟩
      rfl
  | cons c cs ih =>
    rw [readDigits, Nat.ofDigitChars_cons, Nat.mul_comm 10 acc]
    by_cases hc : c.isDigit = true
    · rw [if_pos hc]
      by_cases hl : limit < acc * 10 + (c.toNat - '0'.toNat)
      · -- the value only grows from here on
        rw [if_pos hl]
        refine ⟨nofun, ?_⟩
        rintro ⟨-, rfl, hn⟩
        exact absurd (Nat.le_trans (le_ofDigitChars cs _) hn) (Nat.not_le.mpr hl)
      · rw [if_neg hl, ih (Nat.not_lt.mp hl)]
        simp [hc]
    · rw [if_neg hc]
      exact ⟨nofun, fun h => absurd (h.1 c List.mem_cons_self) hc⟩

theorem map_readDigits_eq_ok_iff (below above : Nat) (negative : Bool) (overflow : IntegerFault)
    (cs : List Char) (i : Int) :
    (readDigits (if negative then below else above) overflow 0 cs).map (signed negative) = .ok i ↔
      (∀ c ∈ cs, c.isDigit) ∧ i = signed negative (digitsValue cs) ∧
        -(below : Int) ≤ i ∧ i ≤ above := by
  have value : Nat.ofDigitChars 10 cs 0 = digitsValue cs := rfl
  cases hr : readDigits (if negative then below else above) overflow 0 cs with
  | error e =>
    refine ⟨nofun, ?_⟩
    rintro ⟨hd, rfl, hl, hu⟩
    have bound : digitsValue cs ≤ if negative then below else above := by
      cases negative <;> simp [signed] at hl hu ⊢ <;> omega
    rw [(readDigits_eq_ok_iff (Nat.zero_le _)).mpr ⟨hd, value.symm, bound⟩] at hr
    cases hr
  | ok n =>
    obtain ⟨hd, rfl, hl⟩ := (readDigits_eq_ok_iff (Nat.zero_le _)).mp hr
    rw [value] at hl ⊢
    constructor
    · rintro ⟨⟩
      refine ⟨hd, rfl, ?_⟩
      cases negative <;> simp [signed] at hl ⊢ <;> omega
    · rintro ⟨-, rfl, -⟩
      rfl

section Text

variable {i : Int} {c : Char} {cs : List Char}

theorem integerText_minus_iff : IntegerText i ('-' :: cs) ↔
    cs ≠ [] ∧ (∀ c ∈ cs, c.isDigit) ∧ i = signed true (digitsValue cs) := by
  constructor
  · rintro ⟨negative, sign, ds, hs, he, hn, hd, rfl⟩
    cases hs with
    | minus =>
      obtain rfl := (List.cons.inj he).2
      exact ⟨hn, hd, rfl⟩
    | plus => exact absurd (List.cons.inj he).1 (by decide)
    | none =>
      obtain rfl : '-' :: cs = ds := he
      exact absurd (hd '-' List.mem_cons_self) (by decide)
  · rintro ⟨hn, hd, rfl⟩
    exact ⟨true, ['-'], cs, .minus, rfl, hn, hd, rfl⟩

theorem integerText_plus_iff : IntegerText i ('+' :: cs) ↔
    cs ≠ [] ∧ (∀ c ∈ cs, c.isDigit) ∧ i = signed false (digitsValue cs) := by
  constructor
  · rintro ⟨negative, sign, ds, hs, he, hn, hd, rfl⟩
    cases hs with
    | minus => exact absurd (List.cons.inj he).1 (by decide)
    | plus =>
      obtain rfl := (List.cons.inj he).2
      exact ⟨hn, hd, rfl⟩
    | none =>
      obtain rfl : '+' :: cs = ds := he
      exact absurd (hd '+' List.mem_cons_self) (by decide)
  · rintro ⟨hn, hd, rfl⟩
    exact ⟨false, ['+'], cs, .plus, rfl, hn, hd, rfl⟩

theorem integerText_unsigned_iff (hm : c ≠ '-') (hp : c ≠ '+') : IntegerText i (c :: cs) ↔
    (∀ d ∈ c :: cs, d.isDigit) ∧ i = signed false (digitsValue (c :: cs)) := by
  constructor
  · rintro ⟨negative, sign, ds, hs, he, -, hd, rfl⟩
    cases hs with
    | minus => exact absurd (List.cons.inj he).1 hm
    | plus => exact absurd (List.cons.inj he).1 hp
    | none =>
      obtain rfl : c :: cs = ds := he
      exact ⟨hd, rfl⟩
  · rintro ⟨hd, rfl⟩
    exact ⟨false, [], c :: cs, .none, rfl, List.cons_ne_nil _ _, hd, rfl⟩

theorem not_integerText_nil : ¬ IntegerText i [] := by
  rintro ⟨negative, sign, ds, -, he, hn, -⟩
  exact hn (List.append_eq_nil_iff.mp he.symm).2

/-- Exactly the texts of integers in range are read, each as its integer. -/
theorem readInteger_eq_ok_iff {below above : Nat} :
    readInteger below above cs = .ok i ↔ IntegerText i cs ∧ -(below : Int) ≤ i ∧ i ≤ above := by
  have digits {cs : List Char} : (readDigits above .tooLarge 0 cs).map Int.ofNat = .ok i ↔
      (∀ c ∈ cs, c.isDigit) ∧ i = signed false (digitsValue cs) ∧ -(below : Int) ≤ i ∧ i ≤ above :=
    map_readDigits_eq_ok_iff below above false .tooLarge cs i
  match cs with
  | [] => exact ⟨nofun, fun h => absurd h.1 not_integerText_nil⟩
  | [c] =>
    by_cases hc : c.isDigit = true
    · have hm : c ≠ '-' := by rintro rfl; exact absurd hc (by decide)
      have hp : c ≠ '+' := by rintro rfl; exact absurd hc (by decide)
      rw [readInteger, if_pos hc, digits, integerText_unsigned_iff hm hp, and_assoc]
    · rw [readInteger, if_neg hc]
      refine ⟨nofun, ?_⟩
      rintro ⟨⟨negative, sign, ds, hs, he, hn, hd, -⟩, -⟩
      obtain ⟨d, ds, rfl⟩ := List.exists_cons_of_ne_nil hn
      -- a single character cannot be both a sign and a digit
      cases hs with
      | minus => simp at he
      | plus => simp at he
      | none =>
        obtain rfl := (List.cons.inj he).1
        exact absurd (hd c List.mem_cons_self) hc
  | c :: d :: cs =>
    by_cases hm : c = '-'
    · subst hm
      have read : readInteger below above ('-' :: d :: cs) =
          (readDigits below .tooSmall 0 (d :: cs)).map (signed true) := by
        rw [readInteger]
        · cases readDigits below .tooSmall 0 (d :: cs) <;> rfl
        · simp
      have negated := map_readDigits_eq_ok_iff below above true .tooSmall (d :: cs) i
      rw [if_pos rfl] at negated
      rw [read, negated, integerText_minus_iff, and_assoc, and_assoc]
      simp
    · by_cases hp : c = '+'
      · subst hp
        have read : readInteger below above ('+' :: d :: cs) =
            (readDigits above .tooLarge 0 (d :: cs)).map Int.ofNat := by
          rw [readInteger]
          simp
        rw [read, digits, integerText_plus_iff, and_assoc, and_assoc]
        simp
      · have read : readInteger below above (c :: d :: cs) =
            (readDigits above .tooLarge 0 (c :: d :: cs)).map Int.ofNat := by
          rw [readInteger] <;> simp [hm, hp]
        rw [read, digits, integerText_unsigned_iff hm hp, and_assoc]

theorem readInt64_eq_some_iff : (readInt64 cs).toOption.map Int64.toInt = some i ↔
    IntegerText i cs ∧ -(int64Limit : Int) ≤ i ∧ i < int64Limit := by
  have limit : int64Limit = 9223372036854775808 := by decide
  have range : (IntegerText i cs ∧ -(int64Limit : Int) ≤ i ∧ i < int64Limit) ↔
      readInteger int64Limit (int64Limit - 1) cs = .ok i := by
    rw [readInteger_eq_ok_iff, limit]
    constructor <;> exact fun ⟨ht, hl, hu⟩ => ⟨ht, by omega, by omega⟩
  rw [range, readInt64]
  cases hr : readInteger int64Limit (int64Limit - 1) cs with
  | error e => simp [Except.map, Except.toOption]
  | ok j =>
    obtain ⟨-, hl, hu⟩ := readInteger_eq_ok_iff.mp hr
    rw [limit] at hl hu
    have exact_toInt : (Int64.ofInt j).toInt = j :=
      Int64.toInt_ofInt_of_le (by omega) (by omega)
    simp [Except.map, Except.toOption, exact_toInt]

end Text

theorem readUnsigned?_digits {limit : Nat} {ds : List Char} (h : ∀ c ∈ ds, c.isDigit)
    (hn : ds ≠ []) (hl : digitsValue ds ≤ limit) :
    readUnsigned? limit ds = some (digitsValue ds) := by
  have read : readDigits limit .tooLarge 0 ds = .ok (digitsValue ds) :=
    (readDigits_eq_ok_iff (Nat.zero_le _)).mpr ⟨h, rfl, hl⟩
  obtain ⟨c, rest, rfl⟩ := List.exists_cons_of_ne_nil hn
  have unsigned : c ≠ '+' := by
    rintro rfl
    exact absurd (h '+' List.mem_cons_self) (by decide)
  unfold readUnsigned?
  split
  · rename_i hc
    exact absurd (List.cons.inj hc).1 unsigned
  · rw [if_neg (by simp), read]
    rfl

end SqlClient.Number
