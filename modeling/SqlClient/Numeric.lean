import SqlClient.Number.Decimal
import SqlClient.Text.Quoted
import SqlClient.Wire.Basic
/-!
# Numerics

The server's arbitrary-precision decimals: groups of four digits counted from a weight, a sign and a
number of digits to show after the point, or one of three special values. On the wire a numeric is a
header of four words and then its groups. As text every digit and the scale are kept; a fixed-point
decimal is sent with its scale, and what comes back as one is rounded to 28 places and refused where
96 bits do not hold it.
-/
namespace SqlClient

open SqlClient.Wire

/-- The value of group `i` is multiplied by ten thousand to the power `weight - i`. -/
inductive Numeric where
  | nan
  | infinity (negative : Bool)
  | finite (negative : Bool) (weight : Int) (scale : Nat) (groups : List Nat)
  deriving DecidableEq, Repr

inductive NumericFault where
  | malformed
  | unknownSign (word : Nat)
  | countMismatch
  | groupOutOfRange
  deriving DecidableEq, Repr

def NumericFault.message : NumericFault → String
  | .malformed => "malformed numeric value"
  | .unknownSign word => "invalid numeric sign 0x" ++ String.ofList (Text.paddedHex 4 word)
  | .countMismatch => "numeric digit count does not match its header"
  | .groupOutOfRange => "numeric digit out of range"

namespace Numeric

def positiveSign : Nat := 0x0000
def negativeSign : Nat := 0x4000
def nanSign : Nat := 0xC000
def infinitySign : Nat := 0xD000
def negativeInfinitySign : Nat := 0xF000

def maxWholeDigits : Nat := 131072

def maxScale : Nat := 16383

structure Header where
  count : Nat
  weight : Int
  sign : Nat
  scale : Nat
  groups : List Nat
  deriving DecidableEq, Repr

/-- Four or more whole words; the weight is signed. -/
def Header.ofBytes? (bytes : Bytes) : Option Header :=
  if bytes.length % 2 ≠ 0 then none
  else match words bytes with
    | count :: weight :: sign :: scale :: groups =>
      some ⟨count, signedWord weight, sign, scale, groups⟩
    | _ => none

def Header.bytes (h : Header) : Bytes :=
  word h.count ++ signedBytes 2 h.weight ++ word h.sign ++ word h.scale ++ h.groups.flatMap word

def toHeader : Numeric → Header
  | .nan => ⟨0, 0, nanSign, 0, []⟩
  | .infinity negative => ⟨0, 0, if negative then negativeInfinitySign else infinitySign, 0, []⟩
  | .finite negative weight scale groups =>
    ⟨groups.length, weight, if negative then negativeSign else positiveSign, scale, groups⟩

def bytes (n : Numeric) : Bytes := n.toHeader.bytes

/-- The sign decides first: a special value may carry anything after it. -/
def ofHeader (h : Header) : Except NumericFault Numeric :=
  if h.sign = nanSign then .ok .nan
  else if h.sign = infinitySign then .ok (.infinity false)
  else if h.sign = negativeInfinitySign then .ok (.infinity true)
  else if h.sign ≠ positiveSign && h.sign ≠ negativeSign then .error (.unknownSign h.sign)
  else if h.groups.length ≠ h.count then .error .countMismatch
  else if h.groups.any (10000 ≤ ·) then .error .groupOutOfRange
  else .ok (.finite (h.sign = negativeSign) h.weight h.scale h.groups)

def ofBytes (raw : Bytes) : Except NumericFault Numeric :=
  match Header.ofBytes? raw with
  | some h => ofHeader h
  | none => .error .malformed

open SqlClient.Number SqlClient.Text

def groupDigits (g : Nat) : List Char := paddedDigits 4 g

/-- The groups before the point, with zeros for those not sent. -/
def wholeGroups (weight : Int) (groups : List Nat) : List Nat :=
  let count := (weight + 1).toNat
  let sent := groups.take count
  sent ++ List.replicate (count - sent.length) 0

def fractionGroups (weight : Int) (groups : List Nat) : List Nat :=
  List.replicate (-weight - 1).toNat 0 ++ groups.drop (weight + 1).toNat

def wholeText (weight : Int) (groups : List Nat) : List Char :=
  match wholeGroups weight groups with
  | [] => ['0']
  | g :: rest => decimalDigits g ++ rest.flatMap groupDigits

def fractionText (weight : Int) (scale : Nat) (groups : List Nat) : List Char :=
  let ds := ((fractionGroups weight groups).flatMap groupDigits).take scale
  ds ++ List.replicate (scale - ds.length) '0'

def text : Numeric → List Char
  | .nan => "NaN".toList
  | .infinity negative => if negative then "-Infinity".toList else "Infinity".toList
  | .finite negative weight scale groups =>
    let magnitude := wholeText weight groups ++
      (if scale = 0 then [] else '.' :: fractionText weight scale groups)
    if negative then '-' :: magnitude else magnitude

/-- Why a text is not a numeric; each carries the text without the blanks around it. -/
inductive LiteralFault where
  | invalid (literal : List Char)
  | outOfRange (literal : List Char)
  | tooManyFractionDigits (literal : List Char)
  deriving DecidableEq, Repr

def LiteralFault.message : LiteralFault → String
  | .invalid cs => "invalid numeric literal " ++ String.ofList (quoted cs)
  | .outOfRange cs => "numeric literal " ++ String.ofList (quoted cs) ++ " is out of range"
  | .tooManyFractionDigits cs =>
    "numeric literal " ++ String.ofList (quoted cs) ++ " has too many fractional digits"

structure Literal where
  negative : Bool
  whole : List Char
  fraction : List Char
  exponent : Int
  deriving DecidableEq, Repr

def special? (cs : List Char) : Option Numeric :=
  let word := cs.map Char.toLower
  if word = "nan".toList then some .nan
  else if word = "infinity".toList || word = "+infinity".toList || word = "inf".toList ||
      word = "+inf".toList then some (.infinity false)
  else if word = "-infinity".toList || word = "-inf".toList then some (.infinity true)
  else none

def splitSign : List Char → Bool × List Char
  | '-' :: rest => (true, rest)
  | '+' :: rest => (false, rest)
  | cs => (false, cs)

def isExponentMark (c : Char) : Bool := c = 'e' || c = 'E'

/-- Digits around a point, at least one of them, and an exponent of 64 bits. -/
def Literal.ofText? (cs : List Char) : Option Literal := do
  let (negative, body) := splitSign cs
  let mantissa := body.takeWhile (!isExponentMark ·)
  let exponent ← match body.dropWhile (!isExponentMark ·) with
    | [] => some 0
    | _ :: ds => (readInt64 ds).toOption.map Int64.toInt
  let whole := mantissa.takeWhile (· != '.')
  let fraction := (mantissa.dropWhile (· != '.')).drop 1
  if (whole.isEmpty && fraction.isEmpty) || !whole.all Char.isDigit || !fraction.all Char.isDigit
  then none
  else some ⟨negative, whole, fraction, exponent⟩

def Literal.point (l : Literal) : Int := l.whole.length + l.exponent

def Literal.movedDigits (l : Literal) : List Char × List Char :=
  let ds := l.whole ++ l.fraction
  if l.point ≤ 0 then ([], List.replicate (-l.point).toNat '0' ++ ds)
  else
    let p := l.point.toNat
    (ds.take p ++ List.replicate (p - ds.length) '0', ds.drop p)

def groupsOfDigits : List Char → List Nat
  | a :: b :: c :: d :: rest => digitsValue [a, b, c, d] :: groupsOfDigits rest
  | _ => []

def padding (length : Nat) : Nat := (4 - length % 4) % 4

/-- Groups aligned at the point, without zero groups at either end. -/
def ofDigits (negative : Bool) (whole fraction : List Char) : Numeric :=
  let whole := whole.dropWhile (· = '0')
  let before := List.replicate (padding whole.length) '0' ++ whole
  let after := fraction ++ List.replicate (padding fraction.length) '0'
  let all := groupsOfDigits (before ++ after)
  let groups := all.dropWhile (· = 0)
  let kept := (groups.reverse.dropWhile (· = 0)).reverse
  if kept.isEmpty then .finite false 0 fraction.length []
  else
    let weight : Int := (before.length / 4 : Nat) - 1 - (all.length - groups.length : Nat)
    .finite negative weight fraction.length kept

def ofTrimmed (cs : List Char) : Except LiteralFault Numeric :=
  match special? cs with
  | some n => .ok n
  | none =>
    match Literal.ofText? cs with
    | none => .error (.invalid cs)
    | some l =>
      if (int64Limit : Int) ≤ l.point then .error (.invalid cs)
      else if (maxWholeDigits : Int) < l.point || l.point < -(maxScale : Int) then
        .error (.outOfRange cs)
      else
        let (whole, fraction) := l.movedDigits
        if maxScale < fraction.length then .error (.tooManyFractionDigits cs)
        else .ok (ofDigits l.negative whole fraction)

def ofText (cs : List Char) : Except LiteralFault Numeric := ofTrimmed (trim cs)

/-- The groups of a number, most significant first, without leading zeros; `fuel` groups are
enough for a number below ten thousand to that power. -/
def groupsOfNat : Nat → Nat → List Nat → List Nat
  | 0, _, acc => acc
  | fuel + 1, n, acc => if n = 0 then acc else groupsOfNat fuel (n / 10000) (n % 10000 :: acc)

def dropZeroGroups (keep : Nat) (groups : List Nat) : List Nat :=
  groups.take keep ++ ((groups.drop keep).reverse.dropWhile (· = 0)).reverse

/-- The decimal as groups aligned at the point. Zero groups at the end go only when they follow
the point and the number is not below one. A zero has no scale. -/
def ofDecimal (d : Decimal) : Numeric :=
  if d.mantissa = 0 then .finite false 0 0 []
  else
    let fractionCount := (d.scale + 3) / 4
    let groups := groupsOfNat 16 (d.mantissa * Nat.pow 10 (4 * fractionCount - d.scale)) []
    let weight : Int := (groups.length : Int) - fractionCount - 1
    let kept := if weight < 0 then groups else dropZeroGroups (weight + 1).toNat groups
    .finite d.negative weight d.scale kept

def natOfGroups (groups : List Nat) : Nat := groups.foldl (fun n g => n * 10000 + g) 0

/-- Add group `g` whose last digit stands `place` places after the point. The digits past the 28th
place only decide whether that place is rounded up. -/
def addFractionGroup (d : Decimal) (g place : Nat) : Option Decimal :=
  if place ≤ 28 then (Decimal.ofParts? false g place).bind d.addMagnitudes?
  else if place = 32 && 5000 ≤ g then (Decimal.ofParts? false 1 28).bind d.addMagnitudes?
  else some d

def addFractionGroups (d : Decimal) (place : Nat) : List Nat → Option Decimal
  | [] => some d
  | g :: rest => (addFractionGroup d g place).bind fun d => addFractionGroups d (place + 4) rest

def wholePart (weight : Int) (groups : List Nat) : Option Decimal :=
  let count := (weight + 1).toNat
  let missing := count - groups.length
  if 7 < missing then none
  else Decimal.ofParts? false (natOfGroups (groups.take count) * Nat.pow 10000 missing) 0

/-- The decimal that bytes stand for: the groups are summed and the sum is rounded to the scale.
The groups themselves are not checked, nor is anything after them. -/
def readDecimal? (raw : Bytes) : Option Decimal :=
  match words raw with
  | count :: weight :: sign :: scale :: rest =>
    if sign &&& nanSign = nanSign || rest.length < count then none
    else
      let weight := signedWord weight
      let groups := rest.take count
      let place := 4 * ((-weight - 1).toNat + 1)
      (wholePart weight groups).bind fun whole =>
        (addFractionGroups whole place (groups.drop (weight + 1).toNat)).map fun d =>
          (d.withSign (sign = negativeSign)).rescale (min scale 28)
  | _ => none

end Numeric

end SqlClient
