import SqlClient.Numeric
import SqlClient.Value.Json
/-!
# Encoding parameters

A value is sent in the binary form of the type that the server expects. Conversions between kinds
are made where they are lossless or checked; any other pair of a kind and a type is refused.
Bytes of one type never stand for a value of another.
-/
namespace SqlClient.Wire

open SqlClient.Calendar SqlClient.Number

inductive EncodeError where
  | integerRange
  | notAnInteger (fault : IntegerFault)
  | notAFloat (fault : FloatFault)
  | notABool
  | notATime
  | notAUuid
  | notADecimal
  | mismatch (kind : String) (type : PgType)
  | floatNotIntegral (x : Double) (type : PgType)
  | decimalNotIntegral (d : Decimal)
  | decimalOutOfRange (d : Decimal) (type : PgType)
  | literal (fault : Numeric.LiteralFault)
  | tooLarge

def EncodeError.message : EncodeError → String
  | .integerRange => "integer out of range"
  | .notAnInteger fault => fault.message
  | .notAFloat fault => fault.message
  | .notABool => "not a bool"
  | .notATime => "not a date or time"
  | .notAUuid => "not a uuid"
  | .notADecimal => "not a decimal"
  | .mismatch kind type => "cannot encode " ++ kind ++ " as " ++ type.display
  | .floatNotIntegral x type =>
    "float " ++ String.ofList x.plainText ++ " is not an integer that fits in " ++ type.display
  | .decimalNotIntegral d => "decimal " ++ String.ofList d.text ++ " is not an integer"
  | .decimalOutOfRange d type =>
    "decimal " ++ String.ofList d.text ++ " does not fit in " ++ type.display
  | .literal fault => fault.message
  | .tooLarge => "value too large to transmit"

abbrev Encoded := Except EncodeError (Option Bytes)

def bytesOf (b : Bytes) : Encoded := .ok (some b)

abbrev Writing := Writer EncodeError Written

def Writing.result (w : Writing) : Encoded :=
  match w.run [] with
  | (.ok .null, _) => .ok none
  | (.ok .bytes, b) => .ok (some b)
  | (.error e, _) => .error e

open Writer

def utf8 (s : String) : Bytes := s.toUTF8.data.toList

def lengthLimit : Nat := signedLimit 4

def writeInt (width : Nat) (i : Int) : Writing :=
  if fitsSigned width i then send (signedBytes width i) else throw .integerRange

def writeOid (i : Int) : Writing :=
  if 0 ≤ i ∧ i < UInt32.size then send (bigEndian 4 i.toNat) else throw .integerRange

def writeSingle (x : Single) : Writing := send (bigEndian 4 x.bits.toNat)

def writeDouble (x : Double) : Writing := send (bigEndian 8 x.bits.toNat)

def writeText (s : String) : Writing := send (utf8 s)

def writeChars (cs : List Char) : Writing := writeText (String.ofList cs)

def writeVersioned (s : String) : Writing := do
  put [1]
  writeText s

def writeBool (b : Bool) : Writing := send [if b then 1 else 0]

/-- The day number of 2000-01-01, from which the server counts days. -/
def epochDay : Int := 10957

def writeDate (d : Date) : Writing :=
  let days := d.dayNumber - epochDay
  if fitsSigned 4 days then send (signedBytes 4 days) else throw .tooLarge

/-- Microseconds since 2000-01-01, truncated toward that day. -/
def serverMicros (t : Instant) : Int :=
  (t.unixNanos - epochDay * 86400 * 1000000000).tdiv 1000

def writeInstant (t : Instant) : Writing :=
  let micros := serverMicros t
  if fitsSigned 8 micros then send (signedBytes 8 micros) else throw .tooLarge

/-- The compact text; the binary form starts with a version. -/
def writeJson (type : PgType) (j : Json) : Writing :=
  if type = .jsonb then writeVersioned j.text else writeText j.text

/-- The words of the header, each when it is known to fit, and the groups. -/
def writeNumeric (n : Numeric) : Writing := do
  let h := n.toHeader
  if 65536 ≤ h.count then throw .integerRange
  put (word h.count)
  if !fitsSigned 2 h.weight then throw .integerRange
  put (signedBytes 2 h.weight)
  put (word h.sign)
  put (word h.scale)
  send (h.groups.flatMap word)

def writeDecimal (d : Decimal) : Writing := writeNumeric (Numeric.ofDecimal d)

def writeNumericText (cs : List Char) : Writing :=
  match Numeric.ofText cs with
  | .ok n => writeNumeric n
  | .error fault => throw (.literal fault)

def writeBoolAs (type : PgType) (b : Bool) : Writing :=
  match type with
  | .bool => writeBool b
  | .text | .varchar | .bpchar | .name => writeChars (Value.bool b).display
  | _ => throw (.mismatch "a bool" type)

def writeIntAs (type : PgType) (i : Int64) : Writing :=
  match type with
  | .int2 => writeInt 2 i.toInt
  | .int4 => writeInt 4 i.toInt
  | .int8 => writeInt 8 i.toInt
  | .oid => writeOid i.toInt
  | .float4 => writeSingle (.ofInt i.toInt)
  | .float8 => writeDouble (.ofInt i.toInt)
  | .numeric => writeDecimal (.ofInt64 i)
  | .text | .varchar | .bpchar | .name => writeChars (integerText i.toInt)
  | _ => throw (.mismatch "an integer" type)

def integral (type : PgType) (x : Double) : Except EncodeError Int64 :=
  match x.toInt? with
  | some n => if fitsInt64 n then .ok (.ofInt n) else .error (.floatNotIntegral x type)
  | none => .error (.floatNotIntegral x type)

def writeFloatAs (type : PgType) (x : Double) : Writing :=
  match type with
  | .float4 => writeSingle x.toSingle
  | .float8 => writeDouble x
  | .int2 | .int4 | .int8 =>
    match integral type x with
    | .ok i => writeIntAs type i
    | .error e => throw e
  | .numeric =>
    if x.isFinite then
      match Decimal.ofDouble? x with
      | some d => writeDecimal d
      | none => throw .notADecimal
    else writeNumericText x.plainText
  | .text | .varchar | .bpchar | .name => writeChars x.plainText
  | _ => throw (.mismatch "a float" type)

def writeDecimalAs (type : PgType) (d : Decimal) : Writing :=
  match type with
  | .float4 | .float8 => writeFloatAs type d.toDouble
  | .int2 | .int4 | .int8 =>
    match d.toInt? with
    | none => throw (.decimalNotIntegral d)
    | some n =>
      if fitsInt64 n then writeIntAs type (.ofInt n)
      else throw (.decimalOutOfRange d type)
  | .numeric => writeDecimal d
  | .text | .varchar | .bpchar | .name => writeChars d.text
  | _ => throw (.mismatch "a decimal" type)

def writeTimestampAs (type : PgType) (t : Instant) : Writing :=
  match type with
  | .timestamp | .timestamptz => writeInstant t
  | .date => writeDate t.date
  | .text | .varchar | .bpchar | .name => writeChars (t.text "+00:00")
  | _ => throw (.mismatch "a timestamp" type)

def writeDateAs (type : PgType) (d : Date) : Writing :=
  match type with
  | .date => writeDate d
  | .timestamp | .timestamptz => writeInstant (.ofDate d)
  | .text | .varchar | .bpchar | .name => writeChars d.text
  | _ => throw (.mismatch "a date" type)

def writeUuidAs (type : PgType) (u : Uuid) : Writing :=
  match type with
  | .uuid => send u.bytes
  | .text | .varchar | .bpchar | .name => writeChars u.text
  | _ => throw (.mismatch "a uuid" type)

def writeBytesAs (type : PgType) (b : Bytes) : Writing :=
  match type with
  | .bytea => send b
  | _ => throw (.mismatch "bytes" type)

def isVersionedText (name : String) : Bool :=
  name = "ltree" || name = "lquery" || name = "ltxtquery"

/-- Text is read as what the type holds: numbers with blanks around them ignored, everything else
as it stands. A text that is not JSON is sent as a JSON string. -/
def writeTextAs (type : PgType) (s : String) : Writing :=
  let cs := s.toList
  match type with
  | .uuid => match Uuid.ofText? cs with
    | some u => writeUuidAs .uuid u
    | none => throw .notAUuid
  | .numeric => writeNumericText cs
  | .int2 | .int4 | .int8 => match readInt64 (Text.trim cs) with
    | .ok i => writeIntAs type i
    | .error fault => throw (.notAnInteger fault)
  | .float4 | .float8 => match readDouble (Text.trim cs) with
    | .ok x => writeFloatAs type x
    | .error fault => throw (.notAFloat fault)
  | .bool =>
    if s = "true" then writeBool true
    else if s = "false" then writeBool false
    else throw .notABool
  | .timestamp | .timestamptz => match Instant.ofText? cs with
    | some t => writeInstant t
    | none => throw .notATime
  | .date => match Date.ofText? cs with
    | some d => writeDate d
    | none => throw .notATime
  | .json | .jsonb => writeJson type ((Json.parse s).getD (.string s))
  | .text | .varchar | .bpchar | .name | .unknown | .enumeration _ => writeText s
  | .other id =>
    if id.name = "citext" then writeText s
    else if isVersionedText id.name then writeVersioned s
    else throw (.mismatch "text" type)
  | _ => throw (.mismatch "text" type)

/-- The length of what a writer writes in front of it; `NULL` is the length minus one. The length
is filled in afterwards, when it is known. -/
def framed (w : Writing) : Writing := do
  let start ← position
  put (signedBytes 4 0)
  match ← w with
  | .null =>
    patch start (signedBytes 4 (-1))
    return .null
  | .bytes =>
    let length := (← position) - start - 4
    if lengthLimit ≤ length then throw .tooLarge
    patch start (signedBytes 4 length)
    return .bytes

def arrayHeader (type member : PgType) (hasNulls : Bool) (length : Nat) : Bytes :=
  let lowerBound := if type = .int2Vector || type = .oidVector then 0 else 1
  signedBytes 4 1 ++ signedBytes 4 (if hasNulls then 1 else 0) ++ bigEndian 4 member.number ++
    signedBytes 4 length ++ signedBytes 4 lowerBound

/-- A header and the elements, which tell whether one of them was `NULL`; the header says so in
the end. -/
def writeArray (type member : PgType) (length : Nat) (elements : Writer EncodeError Bool) :
    Writing := do
  if lengthLimit ≤ length then throw .tooLarge
  let start ← position
  put (arrayHeader type member false length)
  let hasNulls ← elements
  patch start (arrayHeader type member hasNulls length)
  return .bytes

mutual

def write (type : PgType) (v : Value) : Writing :=
  match v with
  | .null => return .null
  | .text s => writeTextAs type s
  | .array items =>
    if type.isJson then writeJson type v.toJson
    else match type with
      | .array _ member => writeArray type member items.length (writeItems member items)
      | _ => throw (.mismatch "an array" type)
  | .map _ =>
    if type.isJson then writeJson type v.toJson
    else if type.isText then writeChars v.toJson.chars
    else throw (.mismatch "a mapping" type)
  | .bool b => if type.isJson then writeJson type v.toJson else writeBoolAs type b
  | .int i => if type.isJson then writeJson type v.toJson else writeIntAs type i
  | .float x => if type.isJson then writeJson type v.toJson else writeFloatAs type x
  | .decimal d => if type.isJson then writeJson type v.toJson else writeDecimalAs type d
  | .bytes b => if type.isJson then writeJson type v.toJson else writeBytesAs type b
  | .timestamp t => if type.isJson then writeJson type v.toJson else writeTimestampAs type t
  | .date d => if type.isJson then writeJson type v.toJson else writeDateAs type d
  | .uuid u => if type.isJson then writeJson type v.toJson else writeUuidAs type u

def writeItems (member : PgType) (items : List Value) : Writer EncodeError Bool :=
  match items with
  | [] => return false
  | v :: vs => do
    let written ← framed (write member v)
    let hasNulls ← writeItems member vs
    return written = .null || hasNulls

end

def encode (type : PgType) (v : Value) : Encoded := (write type v).result

end SqlClient.Wire
