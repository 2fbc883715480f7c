import Mathlib.Algebra.Order.Field.Basic
import Mathlib.Algebra.Order.Field.Power
import Mathlib.Data.Rat.Floor
import Mathlib.Tactic.Linarith
import Mathlib.Tactic.NormNum
import Mathlib.Tactic.Positivity
import Mathlib.Tactic.Ring
import SqlClient.Proofs.Number.Digits
/-!
# Rounding to doubles

What the nearest double of a rational is worth, that a larger rational has no smaller one, and how
large a rational must be to overflow. A shortest decimal lies among the reals that round to its
number; but for the largest double, whose decimal is known, that keeps it below the reals that round
to the largest double.
-/
namespace SqlClient.Number

open BinaryFormat

theorem roundHalfEven_eq (q : ℚ) : roundHalfEven q =
    if q - ⌊q⌋ < 1 / 2 then ⌊q⌋ else if 1 / 2 < q - ⌊q⌋ then ⌊q⌋ + 1
    else if ⌊q⌋ % 2 = 0 then ⌊q⌋ else ⌊q⌋ + 1 := rfl

theorem roundHalfEven_intCast (n : ℤ) : roundHalfEven n = n := by
  rw [roundHalfEven_eq, Int.floor_intCast, sub_self, if_pos (by norm_num)]

theorem floor_le_roundHalfEven (q : ℚ) : ⌊q⌋ ≤ roundHalfEven q := by
  rw [roundHalfEven_eq]
  split_ifs <;> omega

theorem roundHalfEven_le_floor_add_one (q : ℚ) : roundHalfEven q ≤ ⌊q⌋ + 1 := by
  rw [roundHalfEven_eq]
  split_ifs <;> omega

theorem roundHalfEven_mono {a b : ℚ} (h : a ≤ b) : roundHalfEven a ≤ roundHalfEven b := by
  rcases (Int.floor_mono h).lt_or_eq with hlt | heq
  · calc roundHalfEven a ≤ ⌊a⌋ + 1 := roundHalfEven_le_floor_add_one a
      _ ≤ ⌊b⌋ := hlt
      _ ≤ roundHalfEven b := floor_le_roundHalfEven b
  · -- from the same integer on, only the rest decides
    rw [roundHalfEven_eq, roundHalfEven_eq, heq]
    split_ifs <;> first | omega | linarith

theorem roundHalfEven_le {q : ℚ} {n : ℤ} (h : q < n + 1 / 2) : roundHalfEven q ≤ n := by
  by_cases hn : n ≤ ⌊q⌋
  · have low := Int.floor_le q
    have same : ⌊q⌋ = n := by
      refine le_antisymm (Int.le_of_lt_add_one ?_) hn
      rw [Int.floor_lt]
      push_cast
      linarith
    rw [roundHalfEven_eq, same, if_pos (by linarith)]
  · have := roundHalfEven_le_floor_add_one q
    omega

theorem roundHalfEven_le_intCast {q : ℚ} {n : ℤ} (h : q ≤ n) : roundHalfEven q ≤ n :=
  roundHalfEven_intCast n ▸ roundHalfEven_mono h

theorem le_roundHalfEven {q : ℚ} {n : ℤ} (h : n ≤ q) : n ≤ roundHalfEven q :=
  roundHalfEven_intCast n ▸ roundHalfEven_mono h

namespace BinaryFormat

theorem two_zpow_pos (n : ℤ) : (0 : ℚ) < 2 ^ n := by positivity

section Exponent

variable {q : ℚ} (h : 0 < q)

include h

/-- The quotient of numerator and denominator lies between two powers around the guess. -/
theorem guess_bounds : (2 : ℚ) ^ ((Nat.log2 q.num.natAbs : ℤ) - Nat.log2 q.den - 1) < q ∧
    q < 2 ^ ((Nat.log2 q.num.natAbs : ℤ) - Nat.log2 q.den + 1) := by
  have positive := Rat.num_pos.mpr h
  have num : q.num.natAbs ≠ 0 := Int.natAbs_ne_zero.mpr positive.ne'
  have numLow : (2 : ℚ) ^ Nat.log2 q.num.natAbs ≤ q.num.natAbs :=
    mod_cast Nat.log2_self_le num
  have numHigh : (q.num.natAbs : ℚ) < 2 ^ (Nat.log2 q.num.natAbs + 1) := mod_cast Nat.lt_log2_self
  have denLow : (2 : ℚ) ^ Nat.log2 q.den ≤ q.den := mod_cast Nat.log2_self_le q.den_nz
  have denHigh : (q.den : ℚ) < 2 ^ (Nat.log2 q.den + 1) := mod_cast Nat.lt_log2_self
  have value : q = q.num.natAbs / q.den := by
    rw [Nat.cast_natAbs, abs_of_pos positive]
    exact (Rat.num_div_den q).symm
  have den : (0 : ℚ) < q.den := mod_cast q.den_pos
  generalize Nat.log2 q.num.natAbs = a at *
  generalize Nat.log2 q.den = b at *
  have split₁ : (2 : ℚ) ^ ((a : ℤ) - b - 1) = 2 ^ a / 2 ^ (b + 1) := by
    rw [sub_sub, zpow_sub₀ (by norm_num), zpow_natCast]
    norm_cast
  have split₂ : (2 : ℚ) ^ ((a : ℤ) - b + 1) = 2 ^ (a + 1) / 2 ^ b := by
    rw [sub_add_eq_add_sub, zpow_sub₀ (by norm_num), zpow_natCast]
    norm_cast
  rw [split₁, split₂]
  constructor
  · rw [value, div_lt_div_iff₀ (by positivity) den]
    calc (2 : ℚ) ^ a * q.den < 2 ^ a * 2 ^ (b + 1) := by gcongr
      _ ≤ q.num.natAbs * 2 ^ (b + 1) := by gcongr
  · rw [value, div_lt_div_iff₀ den (by positivity)]
    calc (q.num.natAbs : ℚ) * 2 ^ b < 2 ^ (a + 1) * 2 ^ b := by gcongr
      _ ≤ 2 ^ (a + 1) * q.den := by gcongr

theorem two_zpow_binaryExponent_le : (2 : ℚ) ^ binaryExponent q ≤ q := by
  obtain ⟨low, -⟩ := guess_bounds h
  unfold binaryExponent
  extract_lets guess
  by_cases hg : (2 : ℚ) ^ guess ≤ q
  · rwa [if_pos hg]
  · rw [if_neg hg]
    exact low.le

theorem lt_two_zpow_binaryExponent : q < (2 : ℚ) ^ (binaryExponent q + 1) := by
  obtain ⟨-, high⟩ := guess_bounds h
  unfold binaryExponent
  extract_lets guess
  by_cases hg : (2 : ℚ) ^ guess ≤ q
  · rwa [if_pos hg]
  · rw [if_neg hg, sub_add_cancel]
    exact not_le.mp hg

end Exponent

theorem binaryExponent_mono {a b : ℚ} (ha : 0 < a) (h : a ≤ b) :
    binaryExponent a ≤ binaryExponent b := by
  have between : (2 : ℚ) ^ binaryExponent a < 2 ^ (binaryExponent b + 1) :=
    calc (2 : ℚ) ^ binaryExponent a ≤ a := two_zpow_binaryExponent_le ha
      _ ≤ b := h
      _ < _ := lt_two_zpow_binaryExponent (ha.trans_le h)
  exact Int.le_of_lt_add_one ((zpow_lt_zpow_iff_right₀ (by norm_num)).mp between)

def unitExponent (q : ℚ) : ℤ := max (binaryExponent q - 52) (-1074)

def significand (q : ℚ) : ℤ := roundHalfEven (q / 2 ^ unitExponent q)

/-- The nearest double, were there no largest one. -/
def nearest (q : ℚ) : ℚ := significand q * 2 ^ unitExponent q

theorem roundMagnitude_double {q : ℚ} (h : 0 < q) : double.roundMagnitude q =
    min (2047 * 2 ^ 52) ((unitExponent q + 1074).toNat * 2 ^ 52 + (significand q).toNat) := by
  rw [roundMagnitude, if_neg h.ne']
  rfl

section Significand

variable {q : ℚ} (h : 0 < q)

include h

theorem div_unit_lt : q / 2 ^ unitExponent q < 2 ^ (53 : ℤ) := by
  have high := lt_two_zpow_binaryExponent h
  rw [div_lt_iff₀ (two_zpow_pos _), ← zpow_add₀ (by norm_num)]
  refine high.trans_le (zpow_le_zpow_right₀ (by norm_num) ?_)
  unfold unitExponent
  omega

theorem le_div_unit (hu : -1074 < unitExponent q) :
    (2 : ℚ) ^ (52 : ℤ) ≤ q / 2 ^ unitExponent q := by
  have low := two_zpow_binaryExponent_le h
  rw [le_div_iff₀ (two_zpow_pos _), ← zpow_add₀ (by norm_num)]
  refine le_trans (zpow_le_zpow_right₀ (by norm_num) ?_) low
  unfold unitExponent at hu ⊢
  omega

theorem significand_nonneg : 0 ≤ significand q :=
  le_roundHalfEven (by exact_mod_cast (div_pos h (two_zpow_pos _)).le)

theorem significand_le : significand q ≤ 2 ^ 53 :=
  roundHalfEven_le_intCast (by exact_mod_cast (div_unit_lt h).le)

theorem le_significand (hu : -1074 < unitExponent q) : 2 ^ 52 ≤ significand q :=
  le_roundHalfEven (by exact_mod_cast le_div_unit h hu)

end Significand

theorem nearest_nonneg {q : ℚ} (h : 0 < q) : 0 ≤ nearest q :=
  mul_nonneg (mod_cast significand_nonneg h) (two_zpow_pos _).le

/-- A larger number has no smaller double. -/
theorem nearest_mono {a b : ℚ} (ha : 0 < a) (h : a ≤ b) : nearest a ≤ nearest b := by
  have hb := ha.trans_le h
  have exponents : unitExponent a ≤ unitExponent b :=
    max_le_max (Int.sub_le_sub_right (binaryExponent_mono ha h) _) le_rfl
  have unit := two_zpow_pos (unitExponent b)
  rcases exponents.lt_or_eq with hlt | heq
  · -- `b` has a whole significand at an exponent that `a` does not reach
    have low : -1074 < unitExponent b := lt_of_le_of_lt (le_max_right _ _) hlt
    have whole : (2 ^ 52 : ℚ) ≤ significand b := mod_cast le_significand hb low
    have most : (significand a : ℚ) ≤ 2 ^ 53 := mod_cast significand_le ha
    have step : (2 : ℚ) ^ unitExponent a * 2 ≤ 2 ^ unitExponent b := by
      rw [← zpow_add_one₀ (by norm_num)]
      exact zpow_le_zpow_right₀ (by norm_num) hlt
    calc nearest a ≤ 2 ^ 53 * 2 ^ unitExponent a :=
          mul_le_mul_of_nonneg_right most (two_zpow_pos _).le
      _ = 2 ^ 52 * (2 ^ unitExponent a * 2) := by ring
      _ ≤ 2 ^ 52 * 2 ^ unitExponent b := mul_le_mul_of_nonneg_left step (by positivity)
      _ ≤ nearest b := mul_le_mul_of_nonneg_right whole unit.le
  · rw [nearest, nearest, heq]
    refine mul_le_mul_of_nonneg_right (Int.cast_le.mpr ?_) unit.le
    rw [significand, significand, heq]
    exact roundHalfEven_mono (div_le_div_of_nonneg_right h unit.le)

/-- The first magnitude that overflows: half a last place past the largest double. -/
def overflow : ℚ := (2 ^ 53 - 1 / 2) * 2 ^ (971 : ℤ)

theorem roundMagnitude_lt {q : ℚ} (h : 0 < q) (hq : q < overflow) :
    double.roundMagnitude q < 2047 * 2 ^ 52 := by
  have nonneg := significand_nonneg h
  have most := significand_le h
  have exponent : unitExponent q ≤ 971 := by
    have below : (2 : ℚ) ^ binaryExponent q < 2 ^ (1024 : ℤ) :=
      calc (2 : ℚ) ^ binaryExponent q ≤ q := two_zpow_binaryExponent_le h
        _ < overflow := hq
        _ < 2 ^ (53 : ℤ) * 2 ^ (971 : ℤ) :=
          mul_lt_mul_of_pos_right (by norm_num) (two_zpow_pos _)
        _ = 2 ^ (1024 : ℤ) := (zpow_add₀ (by norm_num) 53 971).symm
    have := (zpow_lt_zpow_iff_right₀ (by norm_num)).mp below
    unfold unitExponent
    omega
  rw [roundMagnitude_double h]
  rcases exponent.lt_or_eq with hlt | heq
  · omega
  · -- at the largest exponent the significand cannot be rounded up to the next power
    have top : significand q ≤ 2 ^ 53 - 1 := by
      refine roundHalfEven_le ?_
      rw [heq, div_lt_iff₀ (two_zpow_pos _)]
      refine hq.trans_le (mul_le_mul_of_nonneg_right ?_ (two_zpow_pos _).le)
      norm_num
    omega

/-- Bits that count `s` last places above the `k`-th exponent are read as so many. -/
theorem read_double {k s : Nat} (hs : s ≤ 2 ^ 53) (hk : k ≠ 0 → 2 ^ 52 ≤ s)
    (hb : k * 2 ^ 52 + s < 2047 * 2 ^ 52) : ∃ m e,
      double.read (k * 2 ^ 52 + s) = .finite false m e ∧
        (m : ℚ) * 2 ^ e = s * 2 ^ (k - 1074 : ℤ) := by
  have sign : double.sign = 2 ^ 63 := rfl
  have infinity : double.infinity = 2047 * 2 ^ 52 := rfl
  have unit : double.fieldUnit = 2 ^ 52 := rfl
  have lowest : double.leastExponent = -1074 := rfl
  have positive : decide (2 ^ 63 ≤ k * 2 ^ 52 + s) = false := decide_eq_false (by omega)
  rw [read, sign, infinity, unit, lowest, positive, Nat.mod_eq_of_lt (by omega),
    if_neg (by omega), if_neg (by omega)]
  by_cases low : s < 2 ^ 52
  · -- below the least whole significand there is only the least exponent
    obtain rfl : k = 0 := by omega
    rw [Nat.zero_mul, Nat.zero_add, Nat.div_eq_of_lt low, if_pos rfl, Nat.mod_eq_of_lt low]
    exact ⟨_, _, rfl, rfl⟩
  · rcases hs.lt_or_eq with top | rfl
    · have field : (k * 2 ^ 52 + s) / 2 ^ 52 = k + 1 := by omega
      have stored : (k * 2 ^ 52 + s) % 2 ^ 52 + 2 ^ 52 = s := by omega
      rw [field]
      dsimp only
      rw [stored, if_neg (Nat.succ_ne_zero k)]
      refine ⟨_, _, rfl, ?_⟩
      congr 2
      push_cast
      omega
    · have field : (k * 2 ^ 52 + 2 ^ 53) / 2 ^ 52 = k + 2 := by omega
      have stored : (k * 2 ^ 52 + 2 ^ 53) % 2 ^ 52 + 2 ^ 52 = 2 ^ 52 := by omega
      rw [field]
      dsimp only
      rw [stored, if_neg (Nat.succ_ne_zero _)]
      refine ⟨_, _, rfl, ?_⟩
      have next : (-1074 + ((k + 2 : Nat) : ℤ) - 1) = (k - 1074 : ℤ) + 1 := by
        push_cast
        omega
      rw [next, zpow_add_one₀ (by norm_num)]
      push_cast
      ring

end BinaryFormat

namespace Double

open BinaryFormat

variable {q : ℚ}

theorem ofRat_of_pos (h : 0 < q) : ofRat q = ⟨UInt64.ofNat (double.roundMagnitude q)⟩ := by
  have sign : decide (q < 0) = false := decide_eq_false (not_lt.mpr h.le)
  have magnitude : q.abs = q := Rat.abs_of_nonneg h.le
  rw [ofRat, sign, magnitude, ofMagnitude, BinaryFormat.round, if_neg Bool.false_ne_true,
    Nat.zero_add]

theorem reading_ofRat (h : 0 < q) :
    (ofRat q).reading = double.read (double.roundMagnitude q) := by
  have bound : double.roundMagnitude q ≤ 2047 * 2 ^ 52 := by
    rw [roundMagnitude_double h]
    exact Nat.min_le_left _ _
  rw [reading, ofRat_of_pos h]
  exact congrArg _ (UInt64.toNat_ofNat_of_lt' (by rw [UInt64.size]; omega))

/-- Bits below infinity are read as the significand and exponent that they were rounded to. -/
theorem read_roundMagnitude (h : 0 < q) (hq : double.roundMagnitude q < 2047 * 2 ^ 52) :
    ∃ m e, double.read (double.roundMagnitude q) = .finite false m e ∧
      (m : ℚ) * 2 ^ e = nearest q := by
  have whole := le_significand h
  have most := significand_le h
  have least : -1074 ≤ unitExponent q := le_max_right _ _
  obtain ⟨s, hs⟩ := Int.eq_ofNat_of_zero_le (significand_nonneg h)
  obtain ⟨k, hk⟩ : ∃ k : Nat, unitExponent q = k - 1074 :=
    ⟨(unitExponent q + 1074).toNat, by omega⟩
  have bits : double.roundMagnitude q = min (2047 * 2 ^ 52) (k * 2 ^ 52 + s) := by
    have exponent : (unitExponent q + 1074).toNat = k := by omega
    have count : (significand q).toNat = s := by omega
    rw [roundMagnitude_double h, exponent, count]
  rw [bits] at hq
  rw [bits, Nat.min_eq_right (by omega), nearest, hs, hk]
  exact read_double (by omega) (by omega) (by omega)

theorem isFinite_ofRat (h : 0 < q) (hq : q < overflow) : (ofRat q).isFinite = true := by
  obtain ⟨m, e, read, -⟩ := read_roundMagnitude h (roundMagnitude_lt h hq)
  rw [isFinite, reading_ofRat h, read]

/-- What overflows counts as nothing here. -/
theorem toRat?_ofRat (h : 0 < q) :
    ((ofRat q).toRat?).getD 0 = nearest q ∨ ((ofRat q).toRat?).getD 0 = 0 := by
  by_cases hq : double.roundMagnitude q < 2047 * 2 ^ 52
  · obtain ⟨m, e, read, value⟩ := read_roundMagnitude h hq
    rw [toRat?, reading_ofRat h, read]
    exact .inl value
  · have full : double.roundMagnitude q = 2047 * 2 ^ 52 := by
      rw [roundMagnitude_double h] at hq ⊢
      omega
    have read : double.read (2047 * 2 ^ 52) = .infinite false := by decide
    rw [toRat?, reading_ofRat h, full, read]
    exact .inr rfl

end Double

def belowLargest : ℚ := (2 ^ 54 - 3) * 2 ^ (970 : ℤ)

def largestDecimal : Scientific := ⟨17976931348623157, 292⟩

def Scientific.InRange (s : Scientific) : Prop :=
  (s.coefficient : ℚ) * 10 ^ s.exponent ≤ belowLargest ∨ s = largestDecimal

/-- A double that is finite has at most 53 bits and the largest exponent. -/
theorem Double.reading_bounds {x : Double} {negative : Bool} {m : Nat} {e : Int}
    (h : x.reading = .finite negative m e) : m < 2 ^ 53 ∧ e ≤ 971 := by
  have sign : double.sign = 2 ^ 63 := rfl
  have infinity : double.infinity = 2047 * 2 ^ 52 := rfl
  have unit : double.fieldUnit = 2 ^ 52 := rfl
  have lowest : double.leastExponent = -1074 := rfl
  rw [Double.reading, BinaryFormat.read, sign, infinity, unit, lowest] at h
  generalize x.bits.toNat % 2 ^ 63 = magnitude at h
  dsimp only at h
  split_ifs at h with nan infinite zero
  all_goals
    cases h
    omega

section Grid

variable {tie : TieRule} {r : RoundingInterval} {q : ℚ} {s : Scientific}

theorem contains_nearestOnGrid {k : Int} {c : Nat} (h : nearestOnGrid tie r q k = some c) :
    r.contains (c * 10 ^ k) = true := by
  unfold nearestOnGrid at h
  extract_lets unit below above rest at h
  have one : c = below ∧ r.contains (below * unit) = true ∨
      c = above ∧ r.contains (above * unit) = true := by
    revert h
    cases r.contains (below * unit) <;> cases r.contains (above * unit)
    all_goals cases tie
    all_goals
      dsimp only
      intro h
      grind
  rcases one with ⟨rfl, inside⟩ | ⟨rfl, inside⟩
  · exact inside
  · exact inside

theorem contains_firstOnGrids {fuel : Nat} {k : Int} (h : firstOnGrids tie r q fuel k = some s) :
    r.contains (s.coefficient * 10 ^ s.exponent) = true := by
  induction fuel generalizing k with
  | zero => cases h
  | succ fuel ih =>
    rw [firstOnGrids] at h
    split at h
    · rename_i c hc
      cases h
      exact contains_nearestOnGrid hc
    · exact ih h

end Grid

theorem RoundingInterval.bounds_of_contains {r : RoundingInterval} {q : ℚ}
    (h : r.contains q = true) : r.low ≤ q ∧ q ≤ r.high := by
  rw [RoundingInterval.contains] at h
  split at h
  · simpa using h
  · simp only [Bool.and_eq_true, decide_eq_true_eq] at h
    exact ⟨h.1.le, h.2.le⟩

section Shortest

variable {m : Nat} {e : Int} (hm : m ≠ 0)

include hm

theorem low_pos : 0 < (double.roundingInterval m e).low := by
  have unit := two_zpow_pos e
  have one : (1 : ℚ) ≤ m := mod_cast Nat.one_le_iff_ne_zero.mpr hm
  have whole : (2 : ℚ) ^ e ≤ m * 2 ^ e := le_mul_of_one_le_left unit.le one
  simp only [roundingInterval]
  split_ifs <;> linarith

omit hm in
theorem high_le (hb : m < 2 ^ 53) (he : e ≤ 971) (hl : ¬ (m = 2 ^ 53 - 1 ∧ e = 971)) :
    (double.roundingInterval m e).high ≤ belowLargest := by
  have half : (m : ℚ) * 2 ^ e + 2 ^ e / 2 = (2 * m + 1) * 2 ^ (e - 1) := by
    rw [zpow_sub_one₀ (by norm_num)]
    ring
  have same : (double.roundingInterval m e).high = (2 * m + 1) * 2 ^ (e - 1) := half
  rw [same, belowLargest]
  rcases he.lt_or_eq with low | rfl
  · have most : (m : ℚ) + 1 ≤ 2 ^ 53 := mod_cast hb
    have step : (2 : ℚ) ^ (e - 1) * 2 ≤ 2 ^ (970 : ℤ) := by
      rw [← zpow_add_one₀ (by norm_num)]
      exact zpow_le_zpow_right₀ (by norm_num) (by omega)
    calc (2 * m + 1) * (2 : ℚ) ^ (e - 1) ≤ 2 ^ 54 * 2 ^ (e - 1) :=
          mul_le_mul_of_nonneg_right (by linarith) (two_zpow_pos _).le
      _ = 2 ^ 53 * (2 ^ (e - 1) * 2) := by ring
      _ ≤ 2 ^ 53 * 2 ^ (970 : ℤ) := mul_le_mul_of_nonneg_left step (by positivity)
      _ ≤ (2 ^ 54 - 3) * 2 ^ (970 : ℤ) :=
          mul_le_mul_of_nonneg_right (by norm_num) (two_zpow_pos _).le
  · have most : m + 2 ≤ 2 ^ 53 := by omega
    have most' : (m : ℚ) + 2 ≤ 2 ^ 53 := mod_cast most
    refine mul_le_mul_of_nonneg_right ?_ (two_zpow_pos _).le
    linarith

/-- The shortest decimal of a positive double, or zero when none was found. -/
theorem shortestOf_inRange (tie : TieRule) (hb : m < 2 ^ 53) (he : e ≤ 971) :
    shortestOf tie double m e = ⟨0, 0⟩ ∨
      (shortestOf tie double m e).coefficient ≠ 0 ∧ (shortestOf tie double m e).InRange := by
  by_cases largest : m = 2 ^ 53 - 1 ∧ e = 971
  · obtain ⟨rfl, rfl⟩ := largest
    have known : shortestOf tie double (2 ^ 53 - 1) 971 = largestDecimal := by
      cases tie <;> decide +kernel
    rw [known]
    exact .inr ⟨by decide, .inr rfl⟩
  · rw [shortestOf]
    cases found : firstOnGrids tie (double.roundingInterval m e) (m * 2 ^ e) 25
        (decimalCeiling (BinaryFormat.binaryExponent (m * 2 ^ e))) with
    | none => exact .inl (by rw [shortestOf.binaryExponent, found]; rfl)
    | some s =>
      have same : (firstOnGrids tie (double.roundingInterval m e) (m * 2 ^ e) 25
        (decimalCeiling (shortestOf.binaryExponent (m * 2 ^ e)))).getD ⟨0, 0⟩ = s := by
        rw [shortestOf.binaryExponent, found]
        rfl
      rw [same]
      obtain ⟨low, high⟩ := RoundingInterval.bounds_of_contains (contains_firstOnGrids found)
      refine .inr ⟨?_, .inl (high.trans (high_le hb he largest))⟩
      rintro zero
      rw [zero, Nat.cast_zero, zero_mul] at low
      exact absurd (low_pos hm) (not_lt.mpr low)

end Shortest

end SqlClient.Number
