/-!
# Numbers and their texts

Integers are read up to the first character that decides the outcome, so a text with two faults
reports the leftmost one. Binary formats are seen as rationals: `BinaryFormat.read` takes bits
apart, `BinaryFormat.round` gives the bits nearest to a rational, a tie going to the even
significand. A double is read from however many digits as the nearest one, and `Double.shortest`
gives the fewest digits that read back as the same number, and of those the nearest to it: grids of
decreasing powers of ten are tried, and on each grid only the two neighbours of the number can lie
among the reals that round to it.
-/
namespace SqlClient.Number

inductive IntegerFault where
  | empty
  | invalidDigit
  | tooLarge
  | tooSmall
  deriving DecidableEq, Repr

def IntegerFault.message : IntegerFault → String
  | .empty => "cannot parse integer from empty string"
  | .invalidDigit => "invalid digit found in string"
  | .tooLarge => "number too large to fit in target type"
  | .tooSmall => "number too small to fit in target type"

def decimalDigits (n : Nat) : List Char := Nat.toDigits 10 n

def digitsValue (ds : List Char) : Nat := Nat.ofDigitChars 10 ds 0

theorem digitsValue_decimalDigits (n : Nat) : digitsValue (decimalDigits n) = n :=
  Nat.ofDigitChars_ten_toDigits

/-- Accumulate digits onto `acc` while the value stays within `limit`. -/
def readDigits (limit : Nat) (overflow : IntegerFault) : Nat → List Char → Except IntegerFault Nat
  | acc, [] => .ok acc
  | acc, c :: cs =>
    if c.isDigit then
      let next := acc * 10 + (c.toNat - '0'.toNat)
      if limit < next then .error overflow else readDigits limit overflow next cs
    else .error .invalidDigit

def readInteger (below above : Nat) : List Char → Except IntegerFault Int
  | [] => .error .empty
  | [c] =>
    if c.isDigit then (readDigits above .tooLarge 0 [c]).map Int.ofNat else .error .invalidDigit
  | '-' :: cs => (readDigits below .tooSmall 0 cs).map fun n => -(n : Int)
  | '+' :: cs => (readDigits above .tooLarge 0 cs).map Int.ofNat
  | cs => (readDigits above .tooLarge 0 cs).map Int.ofNat

def int64Limit : Nat := Nat.pow 2 63

def fitsInt64 (n : Int) : Bool := -(int64Limit : Int) ≤ n && n < int64Limit

def readInt64 (cs : List Char) : Except IntegerFault Int64 :=
  (readInteger int64Limit (int64Limit - 1) cs).map Int64.ofInt

def readUnsigned? (limit : Nat) (cs : List Char) : Option Nat :=
  let ds := match cs with
    | '+' :: rest => rest
    | _ => cs
  if ds.isEmpty then none else (readDigits limit .tooLarge 0 ds).toOption

def integerText (i : Int) : List Char :=
  if i < 0 then '-' :: decimalDigits i.natAbs else decimalDigits i.natAbs

def paddedDigits (width n : Nat) : List Char :=
  let ds := decimalDigits n
  List.replicate (width - ds.length) '0' ++ ds

def roundHalfEven (q : Rat) : Int :=
  let low := q.floor
  let rest := q - low
  if rest < 1 / 2 then low
  else if 1 / 2 < rest then low + 1
  else if low % 2 = 0 then low else low + 1

def roundHalfAway (q : Rat) : Int :=
  if q < 0 then -(-q + 1 / 2).floor else (q + 1 / 2).floor

/-- An interchange format with `precision` bits of significand, the leading one implied. -/
structure BinaryFormat where
  precision : Nat
  exponentBits : Nat
  deriving DecidableEq, Repr

/-- What a bit pattern stands for; a finite one is `significand * 2 ^ exponent`. -/
inductive BinaryReading where
  | nan
  | infinite (negative : Bool)
  | finite (negative : Bool) (significand : Nat) (exponent : Int)
  deriving DecidableEq, Repr

namespace BinaryFormat

def double : BinaryFormat := ⟨53, 11⟩

def single : BinaryFormat := ⟨24, 8⟩

def leastExponent (f : BinaryFormat) : Int :=
  3 - (Nat.pow 2 (f.exponentBits - 1) : Int) - f.precision

def fieldUnit (f : BinaryFormat) : Nat := Nat.pow 2 (f.precision - 1)

def infinity (f : BinaryFormat) : Nat := (Nat.pow 2 f.exponentBits - 1) * f.fieldUnit

def sign (f : BinaryFormat) : Nat := Nat.pow 2 (f.exponentBits + f.precision - 1)

def read (f : BinaryFormat) (bits : Nat) : BinaryReading :=
  let negative := f.sign ≤ bits
  let magnitude := bits % f.sign
  if f.infinity < magnitude then .nan
  else if magnitude = f.infinity then .infinite negative
  else
    let field := magnitude / f.fieldUnit
    let stored := magnitude % f.fieldUnit
    if field = 0 then .finite negative stored f.leastExponent
    else .finite negative (stored + f.fieldUnit) (f.leastExponent + field - 1)

def binaryExponent (q : Rat) : Int :=
  let guess : Int := (Nat.log2 q.num.natAbs : Int) - Nat.log2 q.den
  if (2 : Rat) ^ guess ≤ q then guess else guess - 1

def roundMagnitude (f : BinaryFormat) (q : Rat) : Nat :=
  if q = 0 then 0
  else
    let exponent := max (binaryExponent q - (f.precision - 1)) f.leastExponent
    let significand := roundHalfEven (q / (2 : Rat) ^ exponent)
    min f.infinity ((exponent - f.leastExponent).toNat * f.fieldUnit + significand.toNat)

def round (f : BinaryFormat) (negative : Bool) (magnitude : Rat) : Nat :=
  (if negative then f.sign else 0) + f.roundMagnitude magnitude

/-- The quiet NaN of the given sign whose leading payload bits are those of `payload`. -/
def quietNaN (f : BinaryFormat) (negative : Bool) (payload : Nat) : Nat :=
  (if negative then f.sign else 0) + (f.infinity ||| f.fieldUnit / 2 ||| payload)

/-- Bits of format `f` as the nearest bits of format `g`. A NaN keeps its sign and the leading
bits of its payload. -/
def convert (f g : BinaryFormat) (bits : Nat) : Nat :=
  match f.read bits with
  | .nan => g.quietNaN (f.sign ≤ bits) (bits % f.fieldUnit * g.fieldUnit / f.fieldUnit)
  | .infinite negative => (if negative then g.sign else 0) + g.infinity
  | .finite negative m e => g.round negative (m * (2 : Rat) ^ e)

end BinaryFormat

structure Double where
  bits : UInt64
  deriving DecidableEq, Repr

structure Single where
  bits : UInt32
  deriving DecidableEq, Repr

namespace Double

def reading (x : Double) : BinaryReading := BinaryFormat.double.read x.bits.toNat

def ofMagnitude (negative : Bool) (magnitude : Rat) : Double :=
  ⟨UInt64.ofNat (BinaryFormat.double.round negative magnitude)⟩

def ofRat (q : Rat) : Double := ofMagnitude (q < 0) q.abs

def ofInt (i : Int) : Double := ofRat i

def infinity (negative : Bool) : Double :=
  ⟨UInt64.ofNat ((if negative then BinaryFormat.double.sign else 0) + BinaryFormat.double.infinity)⟩

def nan (negative : Bool) : Double := ⟨UInt64.ofNat (BinaryFormat.double.quietNaN negative 0)⟩

def isNaN (x : Double) : Bool := x.reading matches .nan

def isFinite (x : Double) : Bool := x.reading matches .finite ..

def toRat? (x : Double) : Option Rat :=
  match x.reading with
  | .finite negative m e =>
    let magnitude := m * (2 : Rat) ^ e
    some (if negative then -magnitude else magnitude)
  | _ => none

def toInt? (x : Double) : Option Int :=
  x.toRat?.bind fun q => if q.den = 1 then some q.num else none

/-- Numeric equality: zeros are equal, a NaN equals nothing. -/
def numEq (x y : Double) : Bool :=
  match x.reading, y.reading with
  | .nan, _ | _, .nan => false
  | _, _ => x.bits == y.bits || (x.toRat? == some 0 && y.toRat? == some 0)

def negate (x : Double) : Double := ⟨x.bits ^^^ UInt64.ofNat BinaryFormat.double.sign⟩

def toSingle (x : Double) : Single :=
  ⟨UInt32.ofNat (BinaryFormat.double.convert .single x.bits.toNat)⟩

def ofSingle (x : Single) : Double :=
  ⟨UInt64.ofNat (BinaryFormat.single.convert .double x.bits.toNat)⟩

end Double

def Single.ofInt (i : Int) : Single :=
  ⟨UInt32.ofNat (BinaryFormat.single.round (i < 0) (i : Rat).abs)⟩

inductive FloatFault where
  | empty
  | invalid
  deriving DecidableEq, Repr

def FloatFault.message : FloatFault → String
  | .empty => "cannot parse float from empty string"
  | .invalid => "invalid float literal"

/-- The double nearest to `coefficient * 10 ^ exponent`. Numbers of 400 or more digits before
the point overflow and numbers with 400 or more zeros after it vanish, whatever the digits. -/
def doubleOfDecimal (negative : Bool) (coefficient : Nat) (exponent : Int) : Double :=
  if coefficient = 0 then .ofMagnitude negative 0
  else
    let place := exponent + (decimalDigits coefficient).length
    if 400 < place then .infinity negative
    else if place < -400 then .ofMagnitude negative 0
    else .ofMagnitude negative (coefficient * (10 : Rat) ^ exponent)

def exponentLimit : Nat := 65536

/-- The value of the digits of an exponent, of which those past the limit are passed over. -/
def exponentValue (ds : List Char) : Nat :=
  ds.foldl (fun n c => if n < exponentLimit then 10 * n + (c.toNat - '0'.toNat) else n) 0

def readExponent : List Char → Option Int
  | [] => some 0
  | mark :: cs =>
    if mark = 'e' || mark = 'E' then
      let (negative, ds) := match cs with
        | '-' :: rest => (true, rest)
        | '+' :: rest => (false, rest)
        | _ => (false, cs)
      if ds.isEmpty || !ds.all Char.isDigit then none
      else some (if negative then -(exponentValue ds : Int) else exponentValue ds)
    else none

def readMagnitude? (negative : Bool) (cs : List Char) : Option Double :=
  let whole := cs.takeWhile Char.isDigit
  let rest := cs.dropWhile Char.isDigit
  let (fraction, rest) := match rest with
    | '.' :: after => (after.takeWhile Char.isDigit, after.dropWhile Char.isDigit)
    | _ => ([], rest)
  if whole.isEmpty && fraction.isEmpty then none
  else (readExponent rest).map fun e =>
    doubleOfDecimal negative (digitsValue (whole ++ fraction)) (e - fraction.length)

def readDouble (cs : List Char) : Except FloatFault Double :=
  match cs with
  | [] => .error .empty
  | _ =>
    let (negative, body) := match cs with
      | '-' :: rest => (true, rest)
      | '+' :: rest => (false, rest)
      | _ => (false, cs)
    let word := body.map Char.toLower
    if word = "inf".toList || word = "infinity".toList then .ok (.infinity negative)
    else if word = "nan".toList then .ok (.nan negative)
    else match readMagnitude? negative body with
      | some x => .ok x
      | none => .error .invalid

structure Scientific where
  coefficient : Nat
  exponent : Int
  deriving DecidableEq, Repr

inductive TieRule where
  | toEven
  | up
  deriving DecidableEq, Repr

/-- The reals that round to a number, the ends included when `closed`. -/
structure RoundingInterval where
  low : Rat
  high : Rat
  closed : Bool

def RoundingInterval.contains (r : RoundingInterval) (q : Rat) : Bool :=
  if r.closed then r.low ≤ q && q ≤ r.high else r.low < q && q < r.high

def BinaryFormat.roundingInterval (f : BinaryFormat) (m : Nat) (e : Int) : RoundingInterval :=
  let ulp := (2 : Rat) ^ e
  let below := if m = f.fieldUnit && f.leastExponent < e then ulp / 4 else ulp / 2
  { low := m * ulp - below, high := m * ulp + ulp / 2, closed := m % 2 = 0 }

def nearestOnGrid (tie : TieRule) (r : RoundingInterval) (q : Rat) (k : Int) : Option Nat :=
  let unit := (10 : Rat) ^ k
  let below := (q / unit).floor.toNat
  let above := below + 1
  match r.contains (below * unit), r.contains (above * unit) with
  | false, false => none
  | true, false => some below
  | false, true => some above
  | true, true =>
    let rest := q / unit - below
    if rest < 1 / 2 then some below
    else if 1 / 2 < rest then some above
    else match tie with
      | .up => some above
      | .toEven => some (if below % 2 = 0 then below else above)

def firstOnGrids (tie : TieRule) (r : RoundingInterval) (q : Rat) : Nat → Int → Option Scientific
  | 0, _ => none
  | fuel + 1, k =>
    match nearestOnGrid tie r q k with
    | some c => some ⟨c, k⟩
    | none => firstOnGrids tie r q fuel (k - 1)

def decimalCeiling (b : Int) : Int := ((b + 1) * 30103) / 100000 + 2

/-- The shortest decimal of a positive number `m * 2 ^ e`. Twenty-five grids reach past the
seventeen digits that tell any two doubles apart. -/
def shortestOf (tie : TieRule) (f : BinaryFormat) (m : Nat) (e : Int) : Scientific :=
  let q := m * (2 : Rat) ^ e
  let top := decimalCeiling (binaryExponent q)
  (firstOnGrids tie (f.roundingInterval m e) q 25 top).getD ⟨0, 0⟩
where
  binaryExponent (q : Rat) : Int := BinaryFormat.binaryExponent q

/-- How a finite number is laid out: which tie is taken, for which decimal exponents it is
written without an exponent, and whether a whole number keeps a fraction. -/
structure FloatLayout where
  tie : TieRule
  plain : Int → Bool
  wholeFraction : Bool

def pointedDigits (wholeFraction : Bool) (ds : List Char) (place : Int) : List Char :=
  let n := ds.length
  if place ≤ 0 then "0.".toList ++ List.replicate (-place).toNat '0' ++ ds
  else if n ≤ place.toNat then
    ds ++ List.replicate (place.toNat - n) '0' ++ (if wholeFraction then ".0".toList else [])
  else ds.take place.toNat ++ '.' :: ds.drop place.toNat

def exponentDigits (ds : List Char) (exponent : Int) : List Char :=
  let mantissa := match ds with
    | d :: e :: rest => d :: '.' :: e :: rest
    | _ => ds
  mantissa ++ 'e' :: (if exponent < 0 then '-' else '+') :: decimalDigits exponent.natAbs

def Scientific.text (layout : FloatLayout) (s : Scientific) : List Char :=
  let ds := decimalDigits s.coefficient
  let exponent := s.exponent + ds.length - 1
  if layout.plain exponent then pointedDigits layout.wholeFraction ds (exponent + 1)
  else exponentDigits ds exponent

namespace Double

def finiteText? (layout : FloatLayout) (x : Double) : Option (List Char) :=
  match x.reading with
  | .finite negative m e =>
    let magnitude :=
      if m = 0 then pointedDigits layout.wholeFraction ['0'] 1
      else (shortestOf layout.tie .double m e).text layout
    some (if negative then '-' :: magnitude else magnitude)
  | _ => none

def plainLayout : FloatLayout := ⟨.up, fun _ => true, false⟩

def plainText (x : Double) : List Char :=
  match x.reading with
  | .nan => "NaN".toList
  | .infinite negative => if negative then "-inf".toList else "inf".toList
  | .finite .. => (x.finiteText? plainLayout).getD []

/-- The magnitude with `places` digits after the point, a tie going to the even digit. -/
def fixedText (places : Nat) (x : Double) : List Char :=
  match x.reading with
  | .nan => "NaN".toList
  | .infinite negative => if negative then "-inf".toList else "inf".toList
  | .finite negative m e =>
    let scaled := (roundHalfEven (m * (2 : Rat) ^ e * 10 ^ places)).toNat
    let ds := paddedDigits (places + 1) scaled
    let whole := ds.take (ds.length - places)
    let text := if places = 0 then whole else whole ++ '.' :: ds.drop (ds.length - places)
    if negative then '-' :: text else text

end Double

end SqlClient.Number
