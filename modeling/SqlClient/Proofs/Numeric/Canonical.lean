import Mathlib.Algebra.Field.Rat
import Mathlib.Algebra.GroupWithZero.Units.Basic
import SqlClient.Proofs.Numeric.Groups
/-!
# Literals and their canonical text

The grammar of decimal literals, and that exactly its texts are taken apart: a sign, digits around a
point, and an exponent of 64 bits. The canonical text of a literal has as many digits after the
point as the literal has once its exponent is carried out, no zeros in front, and a minus only where
a digit is not zero.
-/
namespace SqlClient.Numeric

open SqlClient.Number SqlClient.Wire

inductive PointText : List Char → List Char → Prop where
  | point (fraction : List Char) : PointText fraction ('.' :: fraction)
  | none : PointText [] []

inductive ExponentText : Int → List Char → Prop where
  | mark (c : Char) (e : Int) (ds : List Char) : isExponentMark c → IntegerText e ds →
      -(int64Limit : Int) ≤ e → e < int64Limit → ExponentText e (c :: ds)
  | none : ExponentText 0 []

def Literal.Spells (l : Literal) (cs : List Char) : Prop :=
  ∃ sign point exponent : List Char, cs = sign ++ (l.whole ++ (point ++ exponent)) ∧
    SignText l.negative sign ∧ PointText l.fraction point ∧ ExponentText l.exponent exponent ∧
    (∀ c ∈ l.whole ++ l.fraction, c.isDigit) ∧ l.whole ++ l.fraction ≠ []

theorem signText_splitSign (cs : List Char) :
    ∃ sign, SignText (splitSign cs).1 sign ∧ cs = sign ++ (splitSign cs).2 := by
  match cs with
  | [] => exact ⟨[], .none, rfl⟩
  | c :: cs =>
    by_cases hm : c = '-'
    · subst hm
      exact ⟨['-'], .minus, rfl⟩
    · by_cases hp : c = '+'
      · subst hp
        exact ⟨['+'], .plus, rfl⟩
      · rw [splitSign]
        · exact ⟨[], .none, rfl⟩
        · exact fun _ he => hm (List.cons.inj he).1
        · exact fun _ he => hp (List.cons.inj he).1

theorem splitSign_append {negative : Bool} {sign body : List Char} (h : SignText negative sign)
    (hm : ∀ c ∈ body.head?, c ≠ '-') (hp : ∀ c ∈ body.head?, c ≠ '+') :
    splitSign (sign ++ body) = (negative, body) := by
  cases h with
  | minus => rfl
  | plus => rfl
  | none =>
    rw [List.nil_append, splitSign]
    · rintro rest rfl
      exact hm '-' rfl rfl
    · rintro rest rfl
      exact hp '+' rfl rfl

theorem pointText_dropWhile (m : List Char) :
    PointText ((m.dropWhile (· != '.')).drop 1) (m.dropWhile (· != '.')) := by
  cases h : m.dropWhile (· != '.') with
  | nil => exact .none
  | cons c rest =>
    have hc := List.head?_dropWhile_not (· != '.') m
    rw [h] at hc
    obtain rfl : c = '.' := by simpa using hc
    exact .point rest

theorem split_at_point {whole fraction point : List Char} (hw : ∀ c ∈ whole, c.isDigit)
    (hp : PointText fraction point) :
    (whole ++ point).takeWhile (· != '.') = whole ∧
      ((whole ++ point).dropWhile (· != '.')).drop 1 = fraction := by
  have before : ∀ c ∈ whole, (c != '.') = true := by
    intro c hc
    rw [bne_iff_ne]
    rintro rfl
    exact absurd (hw '.' hc) (by decide)
  rw [List.takeWhile_append_of_pos before, List.dropWhile_append_of_pos before]
  cases hp with
  | point => exact ⟨by simp, by simp⟩
  | none => exact ⟨by simp, rfl⟩

theorem exponent_not_mark {whole fraction point : List Char}
    (hd : ∀ c ∈ whole ++ fraction, c.isDigit) (hp : PointText fraction point) :
    ∀ c ∈ whole ++ point, (!isExponentMark c) = true := by
  have digit {c : Char} (hc : c.isDigit) : (!isExponentMark c) = true := by
    have bound := toNat_of_isDigit hc
    simp only [isExponentMark, Bool.not_eq_true', Bool.or_eq_false_iff, decide_eq_false_iff_not]
    constructor
    · rintro rfl
      exact absurd bound (by decide)
    · rintro rfl
      exact absurd bound (by decide)
  intro c hc
  rcases List.mem_append.mp hc with hc | hc
  · exact digit (hd c (List.mem_append_left _ hc))
  · cases hp with
    | point =>
      rcases List.mem_cons.mp hc with rfl | hc
      · rfl
      · exact digit (hd c (List.mem_append_right _ hc))
    | none => exact absurd hc List.not_mem_nil

theorem first_of_mantissa {whole fraction point exponent : List Char}
    (hd : ∀ c ∈ whole ++ fraction, c.isDigit) (hn : whole ++ fraction ≠ [])
    (hp : PointText fraction point) :
    ∀ c ∈ (whole ++ point ++ exponent).head?, c ≠ '-' ∧ c ≠ '+' := by
  cases whole with
  | cons d whole =>
    rintro c ⟨⟩
    have digit := hd d List.mem_cons_self
    constructor
    · rintro rfl
      exact absurd digit (by decide)
    · rintro rfl
      exact absurd digit (by decide)
  | nil =>
    cases hp with
    | point =>
      rintro c ⟨⟩
      decide
    | none => exact absurd rfl hn

def readExponent? : List Char → Option Int
  | [] => some 0
  | _ :: ds => (readInt64 ds).toOption.map Int64.toInt

theorem exponentText_iff {e : Int} {cs : List Char} :
    ExponentText e cs ↔
      readExponent? cs = some e ∧ ∀ c ∈ cs.head?, isExponentMark c = true := by
  constructor
  · intro h
    cases h with
    | none => exact ⟨rfl, nofun⟩
    | mark c _ ds hc ht hl hu =>
      refine ⟨readInt64_eq_some_iff.mpr ⟨ht, hl, hu⟩, ?_⟩
      rintro _ ⟨⟩
      exact hc
  · rintro ⟨hr, hm⟩
    cases cs with
    | nil =>
      obtain rfl : 0 = e := Option.some.inj hr
      exact .none
    | cons c ds =>
      obtain ⟨ht, hl, hu⟩ := readInt64_eq_some_iff.mp hr
      exact .mark c e ds (hm c rfl) ht hl hu

theorem head?_dropWhile_mark (cs : List Char) :
    ∀ c ∈ (cs.dropWhile (!isExponentMark ·)).head?, isExponentMark c = true := by
  intro c hc
  have h := List.head?_dropWhile_not (!isExponentMark ·) cs
  rw [Option.mem_def.mp hc] at h
  simpa using h

def Literal.ofParts? (negative : Bool) (mantissa : List Char) (exponent : Int) : Option Literal :=
  let whole := mantissa.takeWhile (· != '.')
  let fraction := (mantissa.dropWhile (· != '.')).drop 1
  if (whole.isEmpty && fraction.isEmpty) || !whole.all Char.isDigit || !fraction.all Char.isDigit
  then none
  else some ⟨negative, whole, fraction, exponent⟩

theorem Literal.ofText?_eq (cs : List Char) : Literal.ofText? cs =
    (readExponent? ((splitSign cs).2.dropWhile (!isExponentMark ·))).bind
      (ofParts? (splitSign cs).1 ((splitSign cs).2.takeWhile (!isExponentMark ·))) := by
  simp only [ofText?]
  cases (splitSign cs).2.dropWhile (!isExponentMark ·) <;> rfl

theorem Literal.ofParts?_eq_some_iff {negative : Bool} {mantissa : List Char} {e : Int}
    {l : Literal} : ofParts? negative mantissa e = some l ↔
      (negative = l.negative ∧ mantissa.takeWhile (· != '.') = l.whole ∧
        (mantissa.dropWhile (· != '.')).drop 1 = l.fraction ∧ e = l.exponent) ∧
      (∀ c ∈ l.whole ++ l.fraction, c.isDigit) ∧ l.whole ++ l.fraction ≠ [] := by
  have parts (whole fraction : List Char) :
      ((whole.isEmpty && fraction.isEmpty) || !whole.all Char.isDigit ||
        !fraction.all Char.isDigit) = false ↔
      (∀ c ∈ whole ++ fraction, c.isDigit) ∧ whole ++ fraction ≠ [] := by
    rw [Bool.or_eq_false_iff, Bool.or_eq_false_iff, Bool.not_eq_false', Bool.not_eq_false',
      List.all_eq_true, List.all_eq_true, Bool.and_eq_false_iff, List.isEmpty_eq_false_iff,
      List.isEmpty_eq_false_iff, List.forall_mem_append, ne_eq, ne_eq, ne_eq,
      List.append_eq_nil_iff, not_and_or]
    tauto
  rw [ofParts?]
  constructor
  · intro h
    split at h
    · cases h
    · rename_i hc
      cases h
      exact ⟨⟨rfl, rfl, rfl, rfl⟩, (parts _ _).mp (Bool.not_eq_true _ ▸ hc)⟩
  · rintro ⟨⟨hs, hw, hf, he⟩, hd⟩
    rw [hw, hf, if_neg (by rw [(parts _ _).mpr hd]; exact Bool.false_ne_true), hs, he]

/-- Exactly the texts of the grammar are taken apart, each in one way. -/
theorem Literal.ofText?_eq_some_iff {cs : List Char} {l : Literal} :
    Literal.ofText? cs = some l ↔ l.Spells cs := by
  rw [Literal.ofText?_eq, Option.bind_eq_some_iff]
  constructor
  · rintro ⟨e, he, h⟩
    obtain ⟨⟨hs, hw, hf, rfl⟩, hd, hn⟩ := Literal.ofParts?_eq_some_iff.mp h
    obtain ⟨sign, ht, hcs⟩ := signText_splitSign cs
    refine ⟨sign, ((splitSign cs).2.takeWhile (!isExponentMark ·)).dropWhile (· != '.'),
      (splitSign cs).2.dropWhile (!isExponentMark ·), ?_, hs ▸ ht, hf ▸ pointText_dropWhile _,
      exponentText_iff.mpr ⟨he, head?_dropWhile_mark _⟩, hd, hn⟩
    rw [← hw, ← List.append_assoc (List.takeWhile _ _), List.takeWhile_append_dropWhile,
      List.takeWhile_append_dropWhile, ← hcs]
  · rintro ⟨sign, point, exponent, rfl, hs, hp, he, hd, hn⟩
    obtain ⟨hr, hm⟩ := exponentText_iff.mp he
    have marks := exponent_not_mark hd hp
    have first : ∀ c ∈ (l.whole ++ (point ++ exponent)).head?, c ≠ '-' ∧ c ≠ '+' := by
      rw [← List.append_assoc]
      exact first_of_mantissa hd hn hp
    have split := splitSign_append hs (fun c hc => (first c hc).1) fun c hc => (first c hc).2
    have ends : exponent.takeWhile (!isExponentMark ·) = [] ∧
        exponent.dropWhile (!isExponentMark ·) = exponent := by
      cases exponent with
      | nil => exact ⟨rfl, rfl⟩
      | cons c ds => exact ⟨by simp [hm c rfl], by simp [hm c rfl]⟩
    obtain ⟨hw, hf⟩ := split_at_point (fun c hc => hd c (List.mem_append_left _ hc)) hp
    refine ⟨l.exponent, ?_, ?_⟩
    · rwa [split, ← List.append_assoc, List.dropWhile_append_of_pos marks, ends.2]
    · rw [split, ← List.append_assoc, List.takeWhile_append_of_pos marks, ends.1, List.append_nil]
      exact Literal.ofParts?_eq_some_iff.mpr ⟨⟨rfl, hw, hf, rfl⟩, hd, hn⟩

namespace Literal

/-- How many digits stand after the point once the exponent is carried out. -/
def places (l : Literal) : Nat := (l.fraction.length - l.exponent).toNat

def magnitude (l : Literal) : ℚ :=
  digitsValue (l.whole ++ l.fraction) * 10 ^ (l.exponent - l.fraction.length)

/-- The magnitude in units of the last place. -/
def units (l : Literal) : Nat :=
  digitsValue (l.whole ++ l.fraction) * 10 ^ (l.exponent - l.fraction.length).toNat

/-- The text of a literal's number with all its places. -/
def canonical (l : Literal) : List Char :=
  (if l.negative ∧ (l.whole ++ l.fraction).any (· != '0') then ['-'] else []) ++
    (decimalDigits (l.units / 10 ^ l.places) ++
      (if l.places = 0 then [] else '.' :: paddedDigits l.places (l.units % 10 ^ l.places)))

theorem units_eq (l : Literal) : (l.units : ℚ) = l.magnitude * 10 ^ l.places := by
  have ten : (10 : ℚ) ≠ 0 := by decide
  have exponents : ((l.exponent - l.fraction.length).toNat : ℤ) =
      (l.exponent - l.fraction.length) + (l.places : ℤ) := by
    rw [places]
    omega
  rw [units, magnitude, Nat.cast_mul, mul_assoc, ← zpow_natCast (10 : ℚ) l.places,
    ← zpow_add₀ ten, ← exponents, zpow_natCast, Nat.cast_pow]
  rfl

section Moved

variable {l : Literal} (hd : ∀ c ∈ l.whole ++ l.fraction, c.isDigit)

include hd in
theorem isDigit_movedDigits :
    (∀ c ∈ l.movedDigits.1, c.isDigit) ∧ ∀ c ∈ l.movedDigits.2, c.isDigit := by
  rw [movedDigits]
  by_cases hp : l.point ≤ 0
  · rw [if_pos hp]
    exact ⟨nofun, List.forall_mem_append.mpr ⟨isDigit_zeros _, hd⟩⟩
  · rw [if_neg hp]
    exact ⟨List.forall_mem_append.mpr
      ⟨fun c hc => hd c (List.mem_of_mem_take hc), isDigit_zeros _⟩,
      fun c hc => hd c (List.mem_of_mem_drop hc)⟩

theorem length_movedDigits (l : Literal) :
    l.movedDigits.1.length = l.point.toNat ∧ l.movedDigits.2.length = l.places := by
  rw [movedDigits]
  by_cases hp : l.point ≤ 0
  · rw [if_pos hp]
    simp only [point, places, List.length_nil, List.length_append, List.length_replicate] at hp ⊢
    omega
  · rw [if_neg hp]
    simp only [point, places, List.length_append, List.length_take, List.length_drop,
      List.length_replicate] at hp ⊢
    omega

theorem digitsValue_movedDigits (l : Literal) :
    digitsValue (l.movedDigits.1 ++ l.movedDigits.2) = l.units := by
  rw [movedDigits, units]
  by_cases hp : l.point ≤ 0
  · have exponent : (l.exponent - l.fraction.length).toNat = 0 := by
      rw [point] at hp
      omega
    rw [if_pos hp, exponent, List.nil_append, digitsValue_append, digitsValue_replicate]
    simp
  · rw [if_neg hp]
    dsimp only
    by_cases hl : (l.whole ++ l.fraction).length < l.point.toNat
    · -- the point moves past all digits
      have exponent : (l.exponent - l.fraction.length).toNat =
          l.point.toNat - (l.whole ++ l.fraction).length := by
        rw [point] at hp hl ⊢
        rw [List.length_append] at hl ⊢
        omega
      rw [List.take_of_length_le hl.le, List.drop_of_length_le hl.le, List.append_nil,
        digitsValue_append, digitsValue_replicate, List.length_replicate, exponent, Nat.add_zero]
    · have exponent : (l.exponent - l.fraction.length).toNat = 0 := by
        rw [point] at hp hl
        rw [List.length_append] at hl
        omega
      rw [Nat.sub_eq_zero_of_le (Nat.not_lt.mp hl), List.replicate_zero, List.append_nil,
        List.take_append_drop, exponent, Nat.pow_zero, Nat.mul_one]

include hd in
theorem units_ne_zero_iff : l.units ≠ 0 ↔ (l.whole ++ l.fraction).any (· != '0') = true := by
  have power : 10 ^ (l.exponent - l.fraction.length).toNat ≠ 0 := by simp
  rw [units, Nat.mul_ne_zero_iff, and_iff_left power, ne_eq, digitsValue_eq_zero_iff hd,
    List.eq_replicate_iff]
  simp [-List.mem_append, -List.any_append]

end Moved

theorem text_movedDigits {l : Literal} (hd : ∀ c ∈ l.whole ++ l.fraction, c.isDigit) :
    text (ofDigits l.negative l.movedDigits.1 l.movedDigits.2) = l.canonical := by
  obtain ⟨hw, hf⟩ := isDigit_movedDigits hd
  have places := (length_movedDigits l).2
  have value := digitsValue_movedDigits l
  obtain ⟨whole, fraction⟩ := digitsValue_append_div_mod l.movedDigits.1 hf
  rw [value, places] at whole fraction
  rw [text_ofDigits l.negative hw hf, value, ← whole, canonical, fraction]
  simp only [units_ne_zero_iff hd]
  by_cases hn : l.movedDigits.2 = []
  · have none : l.places = 0 := by
      rw [← places, hn]
      rfl
    rw [if_pos hn, if_pos none]
  · have some : l.places ≠ 0 := by
      rw [← places]
      exact fun he => hn (List.length_eq_zero_iff.mp he)
    rw [if_neg hn, if_neg some, ← places, paddedDigits_digitsValue hf hn]

end Literal

theorem sendable_ofDigits (negative : Bool) {whole fraction : List Char}
    (hw : ∀ c ∈ whole, c.isDigit) (hf : ∀ c ∈ fraction, c.isDigit)
    (hwl : whole.length ≤ maxWholeDigits) (hfl : fraction.length ≤ maxScale) :
    (ofDigits negative whole fraction).Sendable := by
  rw [maxWholeDigits] at hwl
  rw [maxScale] at hfl
  by_cases hz : digitsValue (whole ++ fraction) = 0
  · rw [ofDigits_of_zero negative hw hf hz]
    exact ⟨by decide, by decide, by decide, by omega, nofun⟩
  · obtain ⟨weight, groups, he, hp⟩ := ofDigits_of_ne_zero negative hw hf hz
    have before := length_groupsOfDigits (length_paddedWhole whole)
    have after := length_groupsOfDigits (length_paddedFraction fraction)
    have padBefore : (paddedWhole whole).length ≤ whole.length + 3 := by
      have shorter := (List.dropWhile_sublist (· = '0') (l := whole)).length_le
      have pad : padding (whole.dropWhile (· = '0')).length < 4 := Nat.mod_lt _ (by decide)
      rw [paddedWhole, List.length_append, List.length_replicate]
      omega
    have padAfter : (paddedFraction fraction).length ≤ fraction.length + 3 := by
      have pad : padding fraction.length < 4 := Nat.mod_lt _ (by decide)
      rw [paddedFraction, List.length_append, List.length_replicate]
      omega
    have count := hp.sublist.length_le
    have low := hp.low
    have high := hp.high
    rw [List.length_append] at count
    rw [he]
    refine ⟨by omega, by omega, by omega, by omega, fun g hg => ?_⟩
    rcases List.mem_append.mp (hp.sublist.mem hg) with hg | hg
    · exact groupsOfDigits_lt (isDigit_paddedWhole hw) g hg
    · exact groupsOfDigits_lt (isDigit_paddedFraction hf) g hg

/-- What an accepted text becomes: a special value, or the digits of its literal. -/
theorem ofTrimmed_eq_ok {cs : List Char} {n : Numeric} (h : ofTrimmed cs = .ok n) :
    special? cs = some n ∨ ∃ l : Literal, l.Spells cs ∧
      n = ofDigits l.negative l.movedDigits.1 l.movedDigits.2 ∧
      l.movedDigits.1.length ≤ maxWholeDigits ∧ l.movedDigits.2.length ≤ maxScale := by
  rw [ofTrimmed] at h
  cases hs : special? cs with
  | some v =>
    rw [hs] at h
    cases h
    exact .inl rfl
  | none =>
    rw [hs] at h
    cases hl : Literal.ofText? cs with
    | none =>
      rw [hl] at h
      cases h
    | some l =>
      simp only [hl] at h
      split at h
      · cases h
      · split at h
        · cases h
        · rename_i hr
          split at h
          · cases h
          · rename_i hf
            have hn := (Except.ok.inj h).symm
            simp only [Bool.or_eq_true, decide_eq_true_eq, not_or, Int.not_lt] at hr
            have whole := (Literal.length_movedDigits l).1
            exact .inr ⟨l, Literal.ofText?_eq_some_iff.mp hl, hn, by omega, Nat.not_lt.mp hf⟩

def infinityWords : List (List Char) :=
  ["infinity".toList, "+infinity".toList, "inf".toList, "+inf".toList]

def negativeInfinityWords : List (List Char) := ["-infinity".toList, "-inf".toList]

def specialWords : List (List Char) := "nan".toList :: (infinityWords ++ negativeInfinityWords)

section Special

variable {cs : List Char}

theorem special?_nan (h : cs.map Char.toLower = "nan".toList) : special? cs = some .nan := by
  rw [special?, h]
  decide

theorem special?_infinity (h : cs.map Char.toLower ∈ infinityWords) :
    special? cs = some (.infinity false) := by
  simp only [infinityWords, List.mem_cons, List.not_mem_nil, or_false] at h
  rcases h with h | h | h | h
  all_goals
    rw [special?, h]
    decide

theorem special?_negativeInfinity (h : cs.map Char.toLower ∈ negativeInfinityWords) :
    special? cs = some (.infinity true) := by
  simp only [negativeInfinityWords, List.mem_cons, List.not_mem_nil, or_false] at h
  rcases h with h | h
  all_goals
    rw [special?, h]
    decide

theorem special?_eq_none (h : cs.map Char.toLower ∉ specialWords) : special? cs = none := by
  simp only [specialWords, infinityWords, negativeInfinityWords, List.cons_append, List.nil_append,
    List.mem_cons, List.not_mem_nil, or_false, not_or] at h
  simp only [special?, h, if_false, decide_false, Bool.or_false, Bool.false_eq_true]

theorem sendable_special {n : Numeric} (h : special? cs = some n) : n.Sendable := by
  rw [special?] at h
  split at h
  · cases h
    trivial
  · split at h
    · cases h
      trivial
    · split at h
      · cases h
        trivial
      · cases h

end Special

theorem sendable_ofTrimmed {cs : List Char} {n : Numeric} (h : ofTrimmed cs = .ok n) :
    n.Sendable := by
  rcases ofTrimmed_eq_ok h with hs | ⟨l, hl, hn, hw, hf⟩
  · exact sendable_special hs
  · obtain ⟨-, -, -, -, -, -, -, hd, -⟩ := hl
    rw [hn]
    obtain ⟨digitsWhole, digitsFraction⟩ := Literal.isDigit_movedDigits hd
    exact sendable_ofDigits l.negative digitsWhole digitsFraction hw hf

theorem ofTrimmed_of_special {cs : List Char} {n v : Numeric} (h : ofTrimmed cs = .ok n)
    (hv : special? cs = some v) : n = v := by
  rw [ofTrimmed, hv] at h
  exact (Except.ok.inj h).symm

end SqlClient.Numeric
