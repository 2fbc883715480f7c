import SqlClient.Number.Basic
/-!
# Fixed-point decimals

A `Decimal` is a signed mantissa of at most 96 bits over a power of ten of at most 28 places. The
scale is part of the value and shows in its text; equality is numeric. A double `m * 2 ^ e` becomes
`m * 5 ^ -e` over `10 ^ -e`: factors of two are traded for factors of five and ten while the
mantissa stays within 96 bits.
-/
namespace SqlClient.Number

def mantissaLimit : Nat := Nat.pow 2 96

/-- `mantissa / 10 ^ scale`, negated when `negative`. A zero may carry a minus. -/
structure Decimal where
  negative : Bool
  mantissa : Nat
  scale : Nat
  mantissa_lt : mantissa < mantissaLimit := by decide
  scale_le : scale ≤ 28 := by decide
  deriving DecidableEq, Repr

namespace Decimal

def zero : Decimal := { negative := false, mantissa := 0, scale := 0 }

def ofParts? (negative : Bool) (mantissa scale : Nat) : Option Decimal :=
  if hm : mantissa < mantissaLimit then
    if hs : scale ≤ 28 then some ⟨negative, mantissa, scale, hm, hs⟩ else none
  else none

theorem natAbs_toInt_lt (i : Int64) : i.toInt.natAbs < mantissaLimit := by
  have h₁ := i.le_toInt
  have h₂ := i.toInt_lt
  have h₃ : mantissaLimit = 79228162514264337593543950336 := by decide
  omega

def ofInt64 (i : Int64) : Decimal :=
  { negative := i.toInt < 0, mantissa := i.toInt.natAbs, scale := 0,
    mantissa_lt := natAbs_toInt_lt i }

def toRat (d : Decimal) : Rat :=
  let magnitude := (d.mantissa : Rat) / 10 ^ d.scale
  if d.negative then -magnitude else magnitude

def numEq (a b : Decimal) : Bool := a.toRat == b.toRat

def withSign (negative : Bool) (d : Decimal) : Decimal := { d with negative }

def text (d : Decimal) : List Char :=
  let ds := paddedDigits (d.scale + 1) d.mantissa
  let whole := ds.take (ds.length - d.scale)
  let magnitude :=
    if d.scale = 0 then whole else whole ++ '.' :: ds.drop (ds.length - d.scale)
  if d.negative then '-' :: magnitude else magnitude

/-- Digits with an optional minus and point, when they fit. A zero has no sign. -/
def ofText? (cs : List Char) : Option Decimal :=
  let (negative, cs) := match cs with
    | '-' :: rest => (true, rest)
    | _ => (false, cs)
  let whole := cs.takeWhile (· != '.')
  let fraction := (cs.dropWhile (· != '.')).drop 1
  let ds := whole ++ fraction
  if ds.isEmpty || !ds.all Char.isDigit then none
  else
    let mantissa := digitsValue ds
    ofParts? (negative && mantissa != 0) mantissa fraction.length

def toInt? (d : Decimal) : Option Int :=
  let unit := Nat.pow 10 d.scale
  if d.mantissa % unit = 0 then
    let n := d.mantissa / unit
    some (if d.negative then -n else n)
  else none

/-- Divide by ten, an even half going to the even neighbour, until the mantissa has 96 bits or no
place is left to drop. -/
def fit (negative : Bool) : Nat → Rat → Option Decimal
  | 0, q => ofParts? negative (roundHalfEven q).toNat 0
  | scale + 1, q =>
    match ofParts? negative (roundHalfEven (q * 10 ^ (scale + 1))).toNat (scale + 1) with
    | some d => some d
    | none => fit negative scale q

/-- The sum of two magnitudes at the larger scale, or at the largest one at which it fits. -/
def addMagnitudes? (a b : Decimal) : Option Decimal :=
  fit false (max a.scale b.scale)
    ((a.mantissa : Rat) / 10 ^ a.scale + (b.mantissa : Rat) / 10 ^ b.scale)

def extend (d : Decimal) : Nat → Decimal
  | 0 => d
  | places + 1 =>
    match ofParts? d.negative (d.mantissa * 10) (d.scale + 1) with
    | some longer => extend longer places
    | none => d

def nearestQuotient (m unit : Nat) : Nat := (2 * m + unit) / (2 * unit)

theorem nearestQuotient_le {m unit : Nat} (h : 2 ≤ unit) : nearestQuotient m unit ≤ m := by
  rcases Nat.eq_zero_or_pos m with rfl | hm
  · exact Nat.le_of_eq (Nat.div_eq_of_lt (by omega))
  · apply Nat.div_le_of_le_mul
    have h₁ : 2 * m ≤ unit * m := Nat.mul_le_mul_right m h
    have h₂ : unit ≤ unit * m := Nat.le_mul_of_pos_right unit hm
    rw [Nat.mul_assoc]
    omega

theorem two_le_powTen (k : Nat) : 2 ≤ Nat.pow 10 (k + 1) := by
  have h : 0 < Nat.pow 10 k := Nat.pow_pos (by decide)
  change 2 ≤ Nat.pow 10 k * 10
  omega

/-- Change the scale: places that are dropped round half away from zero, places that are added
are zeros, as many as fit. -/
def rescale (d : Decimal) (scale : Nat) : Decimal :=
  match h : d.scale - scale with
  | 0 => d.extend (scale - d.scale)
  | k + 1 =>
    { negative := d.negative
      mantissa := nearestQuotient d.mantissa (Nat.pow 10 (k + 1))
      scale := scale
      mantissa_lt := Nat.lt_of_le_of_lt (nearestQuotient_le (two_le_powTen k)) d.mantissa_lt
      scale_le := by have := d.scale_le; omega }

/-- The nearest double by double arithmetic: the whole part and the fraction are converted apart,
added, and the sum rounded to the decimal's places. -/
def toDouble (d : Decimal) : Double :=
  if d.scale = 0 then
    .ofMagnitude (d.negative && d.mantissa != 0) d.mantissa
  else
    let unit := Nat.pow 10 d.scale
    let near (q : Rat) : Rat := ((Double.ofRat q).toRat?).getD 0
    let whole := near (d.mantissa / unit : Nat)
    let fraction := near (near (d.mantissa % unit : Nat) / near unit)
    if fraction = 0 then .ofMagnitude d.negative whole
    else
      let scaled : Int := roundHalfAway (near (near (whole + fraction) * near unit))
      .ofMagnitude d.negative (near scaled / near unit)

end Decimal

/-- Multiply by five `n` times, or halve and give up a factor of ten; the second component counts
powers of ten. -/
def absorbFives : Nat → Nat → Int → Nat × Int
  | 0, m, ten => (m, ten)
  | n + 1, m, ten =>
    if m % 2 = 1 && m * 5 < mantissaLimit then absorbFives n (m * 5) ten
    else absorbFives n (m / 2) (ten + 1)

def dropPlace (m : Nat) : Nat := if m % 10 < 5 then m / 10 else m / 10 + 1

def dropPlaces : Nat → Nat → Nat
  | 0, m => m
  | n + 1, m => if m / 10 = 0 then 0 else dropPlaces n (dropPlace m)

def narrow : Nat → Nat → Nat × Nat
  | 0, m => (m, 0)
  | scale + 1, m => if Nat.pow 2 52 ≤ m then narrow scale (dropPlace m) else (m, scale + 1)

def stripZeros : Nat → Nat → Nat × Nat
  | 0, m => (m, 0)
  | scale + 1, m => if m % 10 = 0 then stripZeros scale (m / 10) else (m, scale + 1)

/-- The decimal closest to what a double shows in 15 or 16 digits; `none` when it is too large or
not finite. A number too small for 28 places becomes zero. -/
def Decimal.ofDouble? (x : Double) : Option Decimal :=
  match x.reading with
  | .finite negative 0 _ => some { Decimal.zero with negative }
  | .finite negative m e =>
    if 0 ≤ e then Decimal.ofParts? negative (m * Nat.pow 2 e.toNat) 0
    else
      let (m, ten) := absorbFives e.natAbs m e
      let places := ten.natAbs
      let kept := dropPlaces (places - 28) m
      let (m, scale) := narrow (if kept = 0 then 0 else min places 28) kept
      let (m, scale) := stripZeros scale m
      Decimal.ofParts? negative m scale
  | _ => none

end SqlClient.Number
