/-!
# Texts

Blank characters and trimming, the lines of SQL text in their normal form, parts of a text and
starts that fit into a number of bytes, and hexadecimal digits. Lengths are those of the UTF-8 form,
of which no character is split.
-/
namespace SqlClient.Text

/-- The Unicode property White_Space. -/
def isBlank (c : Char) : Bool :=
  let n := c.toNat
  (9 ≤ n && n ≤ 13) || n == 0x20 || n == 0x85 || n == 0xA0 || n == 0x1680 ||
    (0x2000 ≤ n && n ≤ 0x200A) || n == 0x2028 || n == 0x2029 || n == 0x202F ||
    n == 0x205F || n == 0x3000

def trimLeft (cs : List Char) : List Char := cs.dropWhile isBlank

def trimRight (cs : List Char) : List Char := (cs.reverse.dropWhile isBlank).reverse

def trim (cs : List Char) : List Char := trimRight (trimLeft cs)

def lines (cs : List Char) : List (List Char) := cs.splitOn '\n'

/-- Trim every line, drop the empty ones and join the rest with line feeds. -/
def tidyLines (cs : List Char) : List Char :=
  List.intercalate ['\n'] (((lines cs).map trim).filter (!·.isEmpty))

def tidy (s : String) : String := String.ofList (tidyLines s.toList)

def holds (part : List Char) : List Char → Bool
  | [] => part.isEmpty
  | c :: cs => part.isPrefixOf (c :: cs) || holds part cs

def byteLength : List Char → Nat
  | [] => 0
  | c :: cs => c.utf8Size + byteLength cs

/-- The most characters from the start that take at most `limit` bytes. -/
def takeBytes : Nat → List Char → List Char
  | _, [] => []
  | limit, c :: cs => if c.utf8Size ≤ limit then c :: takeBytes (limit - c.utf8Size) cs else []

def hexDigit (n : Nat) : Char := Nat.digitChar (n % 16)

def byteHex (b : UInt8) : List Char := [hexDigit (b.toNat / 16), hexDigit b.toNat]

def hex (bytes : List UInt8) : List Char := bytes.flatMap byteHex

def hexValue? (c : Char) : Option Nat :=
  if c.isDigit then some (c.toNat - '0'.toNat)
  else if 'a' ≤ c && c ≤ 'f' then some (c.toNat - 'a'.toNat + 10)
  else if 'A' ≤ c && c ≤ 'F' then some (c.toNat - 'A'.toNat + 10)
  else none

def bytesOfHex? : List Char → Option (List UInt8)
  | [] => some []
  | [_] => none
  | a :: b :: rest =>
    match hexValue? a, hexValue? b, bytesOfHex? rest with
    | some hi, some lo, some bytes => some (UInt8.ofNat (hi * 16 + lo) :: bytes)
    | _, _, _ => none

def paddedHex (width n : Nat) : List Char :=
  let ds := Nat.toDigits 16 n
  List.replicate (width - ds.length) '0' ++ ds

end SqlClient.Text
