import SqlClient.Number.Basic
import SqlClient.Text.Basic
/-!
# JSON documents

Numbers keep the difference between integers and floating point. An object is the list of its
members; `Json.ofMembers` sorts them by key and keeps each key once. Texts are compact: no blanks,
only quotes, backslashes and control characters escaped. Each reader takes characters from the front
of a text and leaves the rest, containers nest below a limit, and an integer that fits 64 bits,
signed or unsigned, stays exact; any other number becomes a double by scaling its leading digits
with powers of ten.
-/
namespace SqlClient

open SqlClient.Number

inductive Json where
  | null
  | bool (b : Bool)
  | integer (n : Int)
  | float (x : Double)
  | string (s : String)
  | array (items : List Json)
  | object (members : List (String × Json))
  deriving Repr

namespace Json

instance : Inhabited Json := ⟨.null⟩

/-- Set a member, keeping the keys in increasing order. -/
def put (key : String) (value : Json) : List (String × Json) → List (String × Json)
  | [] => [(key, value)]
  | (k, v) :: rest =>
    if key = k then (key, value) :: rest
    else if key < k then (key, value) :: (k, v) :: rest
    else (k, v) :: put key value rest

def ofMembers (members : List (String × Json)) : Json :=
  .object (members.foldl (fun ms (k, v) => put k v ms) [])

def member? (key : String) : Json → Option Json
  | .object members => members.lookup key
  | _ => none

open SqlClient.Text

def escape (c : Char) : List Char :=
  if c = '"' then ['\\', '"']
  else if c = '\\' then ['\\', '\\']
  else if c.toNat = 8 then ['\\', 'b']
  else if c.toNat = 12 then ['\\', 'f']
  else if c = '\n' then ['\\', 'n']
  else if c = '\r' then ['\\', 'r']
  else if c = '\t' then ['\\', 't']
  else if c.toNat < 32 then '\\' :: 'u' :: paddedHex 4 c.toNat
  else [c]

def quoted (s : String) : List Char := '"' :: s.toList.flatMap escape ++ ['"']

/-- Positional from `0.00001` to below `10 ^ 16`, with a fraction always; of two equally short and
near decimals the even one. -/
def floatLayout : FloatLayout := ⟨.toEven, fun e => -5 ≤ e && e < 16, true⟩

def floatText (x : Double) : List Char := (x.finiteText? floatLayout).getD "null".toList

mutual

def chars : Json → List Char
  | .null => "null".toList
  | .bool b => if b then "true".toList else "false".toList
  | .integer n => integerText n
  | .float x => floatText x
  | .string s => quoted s
  | .array [] => ['[', ']']
  | .array (item :: items) => '[' :: item.chars ++ itemsChars items ++ [']']
  | .object [] => ['\x7b', '\x7d']
  | .object ((k, v) :: members) =>
    '\x7b' :: quoted k ++ ':' :: v.chars ++ membersChars members ++ ['\x7d']

def itemsChars : List Json → List Char
  | [] => []
  | item :: items => ',' :: item.chars ++ itemsChars items

def membersChars : List (String × Json) → List Char
  | [] => []
  | (k, v) :: members => ',' :: quoted k ++ ':' :: v.chars ++ membersChars members

end

def text (j : Json) : String := String.ofList j.chars

def isGap (c : Char) : Bool := c = ' ' || c = '\t' || c = '\n' || c = '\r'

def skipGaps (cs : List Char) : List Char := cs.dropWhile isGap

def significandLimit : Nat := UInt64.size - 1

/-- Digits taken into a significand until one does not fit. -/
structure DigitRun where
  significand : Nat
  taken : Nat
  rest : List Char

def takeDigits (significand taken : Nat) : List Char → DigitRun
  | [] => ⟨significand, taken, []⟩
  | c :: cs =>
    let next := significand * 10 + (c.toNat - '0'.toNat)
    if c.isDigit && next ≤ significandLimit then takeDigits next (taken + 1) cs
    else ⟨significand, taken, c :: cs⟩

/-- The nearest double to the product or quotient of a double and a power of ten; `none` when it
overflows. Below the least power of a double the scaling takes two steps. -/
def scale (significand : Nat) (exponent : Int) : Option Double :=
  let near (q : Rat) : Rat := ((Double.ofRat q).toRat?).getD 0
  let power (n : Nat) : Rat := near ((10 : Rat) ^ n)
  let s := near significand
  if exponent ≤ 308 && 0 ≤ exponent then
    let x := Double.ofRat (s * power exponent.natAbs)
    if x.isFinite then some x else none
  else if 308 < exponent then if significand = 0 then some (.ofRat 0) else none
  else scaleDown near power s exponent.natAbs
where
  /-- Divide by ten to the power `n`, at most 308 places at a time; three steps reach zero. -/
  scaleDown (near : Rat → Rat) (power : Nat → Rat) (s : Rat) (n : Nat) : Option Double :=
    if n ≤ 308 then some (.ofRat (s / power n))
    else
      let s := near (s / power 308)
      if n ≤ 616 then some (.ofRat (s / power (n - 308)))
      else some (.ofRat 0)

def signedFloat (negative : Bool) (x : Double) : Json := .float (if negative then x.negate else x)

/-- An exponent's digits; beyond 31 bits a positive one overflows and a negative one vanishes. -/
def readExponentPart (negative : Bool) (significand : Nat) (start : Int) (cs : List Char) :
    Option (Json × List Char) :=
  let (down, cs) := match cs with
    | '-' :: rest => (true, rest)
    | '+' :: rest => (false, rest)
    | _ => (false, cs)
  let ds := cs.takeWhile Char.isDigit
  let rest := cs.drop ds.length
  if ds.isEmpty then none
  else
    let n := digitsValue ds
    if UInt32.size / 2 ≤ n then
      if significand != 0 && !down then none
      else some (signedFloat negative (.ofRat 0), rest)
    else
      (scale significand (if down then start - n else start + n)).map fun x =>
        (signedFloat negative x, rest)

def finishFloat (negative : Bool) (significand : Nat) (exponent : Int) (cs : List Char) :
    Option (Json × List Char) :=
  match cs with
  | c :: rest =>
    if c = 'e' || c = 'E' then readExponentPart negative significand exponent rest
    else (scale significand exponent).map fun x => (signedFloat negative x, cs)
  | [] => (scale significand exponent).map fun x => (signedFloat negative x, [])

/-- The digits after a point; those that no longer fit the significand are dropped. -/
def readFractionPart (negative : Bool) (significand : Nat) (exponent : Int) (cs : List Char) :
    Option (Json × List Char) :=
  let run := takeDigits significand 0 cs
  match cs with
  | c :: _ =>
    if c.isDigit then
      finishFloat negative run.significand (exponent - run.taken)
        (run.rest.dropWhile Char.isDigit)
    else none
  | [] => none

def finishNumber (negative : Bool) (run : DigitRun) : Option (Json × List Char) :=
  let dropped := run.rest.takeWhile Char.isDigit
  let rest := run.rest.drop dropped.length
  match rest with
  | '.' :: after => readFractionPart negative run.significand dropped.length after
  | c :: _ =>
    if c = 'e' || c = 'E' then finishFloat negative run.significand dropped.length rest
    else whole dropped.length rest
  | [] => whole dropped.length rest
where
  /-- An integer; a negative zero and what 64 bits cannot hold are doubles. -/
  whole (dropped : Nat) (rest : List Char) : Option (Json × List Char) :=
    let n := run.significand
    if dropped ≠ 0 then finishFloat negative n dropped rest
    else if !negative then some (.integer n, rest)
    else if n = 0 || int64Limit < n then some (signedFloat true (.ofInt n), rest)
    else some (.integer (-n), rest)

def readNumber (negative : Bool) (cs : List Char) : Option (Json × List Char) :=
  match cs with
  | '0' :: rest =>
    match rest with
    | c :: _ => if c.isDigit then none else finishNumber negative ⟨0, 1, rest⟩
    | [] => finishNumber negative ⟨0, 1, rest⟩
  | c :: _ => if c.isDigit then finishNumber negative (takeDigits 0 0 cs) else none
  | [] => none

def readUnit : List Char → Option (Nat × List Char)
  | a :: b :: c :: d :: rest =>
    match hexValue? a, hexValue? b, hexValue? c, hexValue? d with
    | some w, some x, some y, some z => some (((w * 16 + x) * 16 + y) * 16 + z, rest)
    | _, _, _, _ => none
  | _ => none

/-- The character after a backslash and `u`; surrogates come in pairs. -/
def readUnicode (cs : List Char) : Option (Char × List Char) :=
  match readUnit cs with
  | none => none
  | some (high, rest) =>
    if 0xD800 ≤ high && high < 0xDC00 then
      match rest with
      | '\\' :: 'u' :: more =>
        match readUnit more with
        | some (low, rest) =>
          if 0xDC00 ≤ low && low < 0xE000 then
            some (Char.ofNat (0x10000 + (high - 0xD800) * 0x400 + (low - 0xDC00)), rest)
          else none
        | none => none
      | _ => none
    else if 0xDC00 ≤ high && high < 0xE000 then none
    else some (Char.ofNat high, rest)

def readEscape : List Char → Option (Char × List Char)
  | [] => none
  | c :: rest =>
    if c = '"' || c = '\\' || c = '/' then some (c, rest)
    else if c = 'b' then some (Char.ofNat 8, rest)
    else if c = 'f' then some (Char.ofNat 12, rest)
    else if c = 'n' then some ('\n', rest)
    else if c = 'r' then some ('\r', rest)
    else if c = 't' then some ('\t', rest)
    else if c = 'u' then readUnicode rest
    else none

/-- A string after its opening quote. Each step takes at least one character, so `fuel` characters
are enough for a text of that length. -/
def readString : Nat → List Char → List Char → Option (String × List Char)
  | 0, _, _ => none
  | _ + 1, _, [] => none
  | fuel + 1, acc, c :: rest =>
    if c = '"' then some (String.ofList acc.reverse, rest)
    else if c = '\\' then
      match readEscape rest with
      | some (e, rest) => readString fuel (e :: acc) rest
      | none => none
    else if c.toNat < 32 then none
    else readString fuel (c :: acc) rest

abbrev Reader := List Char → Option (Json × List Char)

def readItems (item : Reader) : Nat → List Json → List Char → Option (List Json × List Char)
  | 0, _, _ => none
  | fuel + 1, acc, cs =>
    match skipGaps cs with
    | ']' :: rest => some (acc.reverse, rest)
    | ',' :: rest =>
      match item (skipGaps rest) with
      | some (j, rest) => readItems item fuel (j :: acc) rest
      | none => none
    | _ => none

def readMember (item : Reader) (cs : List Char) : Option ((String × Json) × List Char) :=
  match cs with
  | '"' :: rest =>
    match readString (rest.length + 1) [] rest with
    | some (key, rest) =>
      match skipGaps rest with
      | ':' :: rest =>
        match item (skipGaps rest) with
        | some (j, rest) => some ((key, j), rest)
        | none => none
      | _ => none
    | none => none
  | _ => none

def readMembers (item : Reader) :
    Nat → List (String × Json) → List Char → Option (List (String × Json) × List Char)
  | 0, _, _ => none
  | fuel + 1, acc, cs =>
    match skipGaps cs with
    | '\x7d' :: rest => some (acc.reverse, rest)
    | ',' :: rest =>
      match readMember item (skipGaps rest) with
      | some (m, rest) => readMembers item fuel (m :: acc) rest
      | none => none
    | _ => none

def dropWord (word cs : List Char) : Option (List Char) :=
  if word.isPrefixOf cs then some (cs.drop word.length) else none

/-- A document that opens fewer than `depth` containers inside one another. -/
def readValue : Nat → List Char → Option (Json × List Char)
  | 0, _ => none
  | depth + 1, cs =>
    match cs with
    | [] => none
    | '"' :: rest => (readString (rest.length + 1) [] rest).map fun (s, rest) => (.string s, rest)
    | '[' :: rest =>
      match skipGaps rest with
      | ']' :: rest => if depth = 0 then none else some (.array [], rest)
      | rest =>
        match readValue depth rest with
        | some (j, rest) =>
          (readItems (readValue depth) (rest.length + 1) [j] rest).map fun (js, rest) =>
            (.array js, rest)
        | none => none
    | '\x7b' :: rest =>
      match skipGaps rest with
      | '\x7d' :: rest => if depth = 0 then none else some (.object [], rest)
      | rest =>
        match readMember (readValue depth) rest with
        | some (m, rest) =>
          if depth = 0 then none
          else (readMembers (readValue depth) (rest.length + 1) [m] rest).map fun (ms, rest) =>
            (ofMembers ms, rest)
        | none => none
    | '-' :: rest => readNumber true rest
    | c :: _ =>
      if c.isDigit then readNumber false cs
      else if c = 'n' then (dropWord "null".toList cs).map fun rest => (.null, rest)
      else if c = 't' then (dropWord "true".toList cs).map fun rest => (.bool true, rest)
      else if c = 'f' then (dropWord "false".toList cs).map fun rest => (.bool false, rest)
      else none

def parseWithin (depth : Nat) (s : String) : Option Json :=
  match readValue depth (skipGaps s.toList) with
  | some (j, rest) => if (skipGaps rest).isEmpty then some j else none
  | none => none

def parse (s : String) : Option Json := parseWithin 128 s

end Json

end SqlClient
