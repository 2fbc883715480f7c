import SqlClient.Number.Basic
import SqlClient.Text.Basic
/-!
# Dates, instants and durations

The proleptic Gregorian calendar with a year zero. A `Date` is always a day that exists; day numbers
count from 1970-01-01. Instants are in UTC, to the nanosecond: nanoseconds from one to two thousand
million mean the leap second that follows the second shown.
-/
namespace SqlClient.Calendar

open SqlClient.Number

def isLeapYear (y : Int) : Bool := y % 4 = 0 && (y % 100 ≠ 0 || y % 400 = 0)

def daysInMonth (y : Int) (m : Nat) : Nat :=
  if m = 2 then (if isLeapYear y then 29 else 28)
  else if m = 4 || m = 6 || m = 9 || m = 11 then 30
  else 31

def leastYear : Int := -262143

def greatestYear : Int := 262142

structure Date where
  year : Int
  month : Nat
  day : Nat
  year_ge : leastYear ≤ year
  year_le : year ≤ greatestYear
  month_pos : 1 ≤ month
  month_le : month ≤ 12
  day_pos : 1 ≤ day
  day_le : day ≤ daysInMonth year month
  deriving DecidableEq, Repr

namespace Date

def ofParts? (year : Int) (month day : Nat) : Option Date :=
  if h : leastYear ≤ year ∧ year ≤ greatestYear ∧ 1 ≤ month ∧ month ≤ 12 ∧ 1 ≤ day ∧
      day ≤ daysInMonth year month then
    some ⟨year, month, day, h.1, h.2.1, h.2.2.1, h.2.2.2.1, h.2.2.2.2.1, h.2.2.2.2.2⟩
  else none

/-- Days from 1970-01-01 to this day. Years are counted from March, so that a leap day comes
last in its year, and in blocks of 400 years, which have the same number of days. -/
def dayNumber (d : Date) : Int :=
  let y := if d.month ≤ 2 then d.year - 1 else d.year
  let block := y / 400
  let yearOfBlock := y % 400
  let monthFromMarch : Int := (d.month + 9) % 12
  let dayOfYear := (153 * monthFromMarch + 2) / 5 + d.day - 1
  let dayOfBlock := yearOfBlock * 365 + yearOfBlock / 4 - yearOfBlock / 100 + dayOfYear
  block * 146097 + dayOfBlock - 719468

def ofDayNumber? (n : Int) : Option Date :=
  let z := n + 719468
  let block := z / 146097
  let dayOfBlock := z % 146097
  let yearOfBlock :=
    (dayOfBlock - dayOfBlock / 1460 + dayOfBlock / 36524 - dayOfBlock / 146096) / 365
  let dayOfYear := dayOfBlock - (365 * yearOfBlock + yearOfBlock / 4 - yearOfBlock / 100)
  let monthFromMarch := (5 * dayOfYear + 2) / 153
  let day := dayOfYear - (153 * monthFromMarch + 2) / 5 + 1
  let month := if monthFromMarch < 10 then monthFromMarch + 3 else monthFromMarch - 9
  let year := yearOfBlock + block * 400 + (if month ≤ 2 then 1 else 0)
  ofParts? year month.toNat day.toNat

/-- Four digits, or a sign and at least four outside 0 to 9999. -/
def yearText (y : Int) : List Char :=
  if 0 ≤ y && y ≤ 9999 then paddedDigits 4 y.natAbs
  else (if y < 0 then '-' else '+') :: paddedDigits 4 y.natAbs

def text (d : Date) : List Char :=
  yearText d.year ++ '-' :: paddedDigits 2 d.month ++ '-' :: paddedDigits 2 d.day

def readField (width : Nat) (cs : List Char) : Option (Nat × List Char) :=
  let ds := (cs.take width).takeWhile Char.isDigit
  if ds.isEmpty then none else some (digitsValue ds, cs.drop ds.length)

def readYear (cs : List Char) : Option (Int × List Char) :=
  match cs with
  | '-' :: rest => (readField rest.length rest).map fun (n, more) => (-(n : Int), more)
  | '+' :: rest => (readField rest.length rest).map fun (n, more) => ((n : Int), more)
  | _ => (readField 4 cs).map fun (n, more) => ((n : Int), more)

def readHyphen (cs : List Char) : Option (List Char) :=
  match Text.trimLeft cs with
  | '-' :: rest => some (Text.trimLeft rest)
  | _ => none

/-- Year, month and day between hyphens; months and days have one or two digits, and blanks may
stand around each field. -/
def ofText? (cs : List Char) : Option Date := do
  let (year, cs) ← readYear (Text.trimLeft cs)
  let cs ← readHyphen cs
  let (month, cs) ← readField 2 cs
  let cs ← readHyphen cs
  let (day, cs) ← readField 2 cs
  if (Text.trimLeft cs).isEmpty then ofParts? year month day else none

end Date

structure Instant where
  date : Date
  second : Nat
  nano : Nat
  second_lt : second < 86400
  nano_lt : nano < 2000000000
  deriving DecidableEq, Repr

namespace Instant

def ofParts? (date : Date) (second nano : Nat) : Option Instant :=
  if h : second < 86400 ∧ nano < 2000000000 then some ⟨date, second, nano, h.1, h.2⟩ else none

def ofDate (date : Date) : Instant := ⟨date, 0, 0, by decide, by decide⟩

def unixSeconds (t : Instant) : Int := t.date.dayNumber * 86400 + t.second

def ofUnix? (seconds : Int) (nano : Nat) : Option Instant :=
  (Date.ofDayNumber? (seconds / 86400)).bind fun date =>
    ofParts? date (seconds % 86400).toNat nano

/-- Nanoseconds since 1970; a leap second counts as the start of the next second. -/
def unixNanos (t : Instant) : Int := t.unixSeconds * 1000000000 + t.nano

/-- The fraction of a second in 3, 6 or 9 digits, or nothing when it is zero. -/
def fractionText (nano : Nat) : List Char :=
  if nano = 0 then []
  else if nano % 1000000 = 0 then '.' :: paddedDigits 3 (nano / 1000000)
  else if nano % 1000 = 0 then '.' :: paddedDigits 6 (nano / 1000)
  else '.' :: paddedDigits 9 nano

/-- Date, time and a suffix for the zone, as in RFC 3339; a leap second is second 60. -/
def text (zone : String) (t : Instant) : List Char :=
  let leap := 1000000000 ≤ t.nano
  let second := t.second % 60 + (if leap then 1 else 0)
  let nano := if leap then t.nano - 1000000000 else t.nano
  t.date.text ++ 'T' :: paddedDigits 2 (t.second / 3600) ++
    ':' :: paddedDigits 2 (t.second / 60 % 60) ++ ':' :: paddedDigits 2 second ++
    fractionText nano ++ zone.toList

def readDigitField (width : Nat) (cs : List Char) : Option (Nat × List Char) :=
  let ds := cs.take width
  if ds.length = width && ds.all Char.isDigit then some (digitsValue ds, cs.drop width) else none

def readMark (mark : Char) : List Char → Option (List Char)
  | c :: rest => if c = mark then some rest else none
  | [] => none

/-- A point and digits, of which nine count, as nanoseconds; nothing is zero. -/
def readFraction : List Char → Option (Nat × List Char)
  | '.' :: rest =>
    let ds := rest.takeWhile Char.isDigit
    let kept := ds.take 9
    if ds.isEmpty then none
    else some (digitsValue kept * Nat.pow 10 (9 - kept.length), rest.drop ds.length)
  | cs => some (0, cs)

def readOffset : List Char → Option (Int × List Char)
  | [] => none
  | c :: rest =>
    if c = 'Z' || c = 'z' then some (0, rest)
    else do
      let negative ←
        if c = '+' then some false else if c = '-' || c = '\u2212' then some true else none
      let (hours, cs) ← readDigitField 2 rest
      let cs ← readMark ':' cs
      let (minutes, cs) ← readDigitField 2 cs
      if hours < 24 && minutes < 60 then
        let seconds : Int := hours * 3600 + minutes * 60
        some (if negative then -seconds else seconds, cs)
      else none

def ofText? (cs : List Char) : Option Instant := do
  let (year, cs) ← readDigitField 4 cs
  let cs ← readMark '-' cs
  let (month, cs) ← readDigitField 2 cs
  let cs ← readMark '-' cs
  let (day, cs) ← readDigitField 2 cs
  let cs ← match cs with
    | c :: rest => if c = 'T' || c = 't' || c = ' ' then some rest else none
    | [] => none
  let (hour, cs) ← readDigitField 2 cs
  let cs ← readMark ':' cs
  let (minute, cs) ← readDigitField 2 cs
  let cs ← readMark ':' cs
  let (second, cs) ← readDigitField 2 cs
  let (nano, cs) ← readFraction cs
  let (offset, cs) ← readOffset cs
  let date ← Date.ofParts? year month day
  if cs.isEmpty && hour < 24 && minute < 60 && second ≤ 60 then
    let leap := second = 60
    let wall := hour * 3600 + minute * 60 + (if leap then 59 else second)
    ofUnix? (date.dayNumber * 86400 + wall - offset) (nano + (if leap then 1000000000 else 0))
  else none

end Instant

structure Duration where
  nanos : Nat
  deriving DecidableEq, Repr

namespace Duration

def zero : Duration := ⟨0⟩

def ofParts (seconds nanos : Nat) : Duration := ⟨seconds * 1000000000 + nanos⟩

/-- Milliseconds, from the seconds and their fraction, rounded after each of the steps. -/
def milliseconds (d : Duration) : Double :=
  let value (x : Double) : Rat := x.toRat?.getD 0
  let whole := Double.ofRat (d.nanos / 1000000000 : Nat)
  let fraction := Double.ofRat ((d.nanos % 1000000000 : Nat) / 1000000000)
  Double.ofRat (value (Double.ofRat (value whole + value fraction)) * 1000)

end Duration

namespace Instant

def elapsed (start finish : Instant) : Duration := ⟨(finish.unixNanos - start.unixNanos).toNat⟩

/-- The instant that many seconds later, or the same one where the calendar has none. -/
def plusSeconds (t : Instant) (seconds : Int) : Instant :=
  (ofUnix? (t.unixSeconds + seconds) t.nano).getD t

end Instant

end SqlClient.Calendar
