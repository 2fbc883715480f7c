import SqlClient.Error
/-!
# Decoding columns

Each type has a reader for its binary form; a reader refuses bytes that are not a whole value. A
table maps types to decoders and can be changed for one connection without touching another.
-/
namespace SqlClient.Wire

open SqlClient.Calendar SqlClient.Number

abbrev CellReader := Bytes → Option Value

def sized (width : Nat) (f : Bytes → Option Value) : CellReader :=
  fun b => if b.length = width then f b else none

def readBool : CellReader := sized 1 fun b => some (.bool (b.any (· != 0)))

def readInt (width : Nat) : CellReader := sized width fun b => some (.int (.ofInt (intOfBytes b)))

def readOid : CellReader := sized 4 fun b => some (.int (.ofNat (natOfBytes b)))

def readFloat4 : CellReader :=
  sized 4 fun b => some (.float (.ofSingle ⟨UInt32.ofNat (natOfBytes b)⟩))

def readFloat8 : CellReader := sized 8 fun b => some (.float ⟨UInt64.ofNat (natOfBytes b)⟩)

def readUtf8 (b : Bytes) : Option String := String.fromUTF8? ⟨b.toArray⟩

def readText : CellReader := fun b => (readUtf8 b).map .text

def readBytes : CellReader := fun b => some (.bytes b)

def readDate : CellReader :=
  sized 4 fun b => (Date.ofDayNumber? (intOfBytes b + epochDay)).map .date

def readInstant : CellReader :=
  sized 8 fun b =>
    let micros := intOfBytes b
    (Instant.ofUnix? (micros / 1000000 + epochDay * 86400)
      ((micros % 1000000).toNat * 1000)).map .timestamp

def readUuid : CellReader := fun b => (Uuid.ofBytes? b).map .uuid

def readJson : CellReader := fun b => ((readUtf8 b).bind Json.parse).map .ofJson

def readJsonb : CellReader
  | v :: b => if v = 1 then readJson b else none
  | [] => none

def readNumericDecimal : CellReader := fun b => (Numeric.readDecimal? b).map .decimal

def readNumericText (b : Bytes) : Option (List Char) :=
  (Numeric.ofBytes b).toOption.map Numeric.text

def takeInt (b : Bytes) : Option (Int × Bytes) :=
  if 4 ≤ b.length then some (intOfBytes (b.take 4), b.drop 4) else none

/-- `count` elements, after which nothing may be left. A negative length stands for `NULL`. -/
def readElements {α : Type} (read : Bytes → Option α) : Nat → Bytes → Option (List (Option α))
  | 0, b => if b.isEmpty then some [] else none
  | count + 1, b => do
    let (length, b) ← takeInt b
    if length < 0 then return none :: (← readElements read count b)
    else if b.length < length.toNat then none
    else
      let a ← read (b.take length.toNat)
      return some a :: (← readElements read count (b.drop length.toNat))

def readArray {α : Type} (read : Bytes → Option α) (b : Bytes) : Option (List (Option α)) := do
  let (dimensions, b) ← takeInt b
  let (_, b) ← takeInt b
  let (_, b) ← takeInt b
  if dimensions = 0 then readElements read 0 b
  else if dimensions = 1 then
    let (length, b) ← takeInt b
    let (_, b) ← takeInt b
    if length < 0 then none else readElements read length.toNat b
  else none

inductive DecodeFault where
  | malformed (column : Nat)
  | notAFloat (text : List Char) (fault : FloatFault)
  | refused (message : String)

def DecodeFault.message : DecodeFault → String
  | .malformed column => "error deserializing column " ++ toString column
  | .notAFloat text fault =>
    "numeric " ++ String.ofList text ++ " is not a float: " ++ fault.message
  | .refused message => message

abbrev Decoder := Nat → Option Bytes → Except DecodeFault Value

namespace Decoder

def scalar (read : CellReader) : Decoder := fun column cell =>
  match cell with
  | none => .ok .null
  | some b =>
    match read b with
    | some v => .ok v
    | none => .error (.malformed column)

def array (read : CellReader) : Decoder := fun column cell =>
  match cell with
  | none => .ok .null
  | some b =>
    match readArray read b with
    | some items => .ok (.array (items.map (·.getD .null)))
    | none => .error (.malformed column)

def floatOfNumeric (cs : List Char) : Except DecodeFault Value :=
  match readDouble cs with
  | .ok x => .ok (.float x)
  | .error fault => .error (.notAFloat cs fault)

def numericFloat : Decoder := fun column cell =>
  match cell with
  | none => .ok .null
  | some b =>
    match readNumericText b with
    | some cs => floatOfNumeric cs
    | none => .error (.malformed column)

def floatItems : List (Option (List Char)) → Except DecodeFault (List Value)
  | [] => .ok []
  | none :: rest => (floatItems rest).map (.null :: ·)
  | some cs :: rest =>
    match floatOfNumeric cs with
    | .ok v => (floatItems rest).map (v :: ·)
    | .error e => .error e

def numericFloatArray : Decoder := fun column cell =>
  match cell with
  | none => .ok .null
  | some b =>
    match readArray readNumericText b with
    | some items => (floatItems items).map .array
    | none => .error (.malformed column)

end Decoder

inductive NumericMode where
  | decimal
  | text
  | float
  deriving DecidableEq, Repr

def NumericMode.name : NumericMode → String
  | .decimal => "Decimal"
  | .text => "Text"
  | .float => "Float"

structure Codecs where
  decoders : List (Nat × Decoder)
  numeric : NumericMode

namespace Codecs

def putDecoder (number : Nat) (decode : Decoder) : List (Nat × Decoder) → List (Nat × Decoder)
  | [] => [(number, decode)]
  | (n, d) :: rest =>
    if n = number then (n, decode) :: rest else (n, d) :: putDecoder number decode rest

def register (c : Codecs) (type : PgType) (decode : Decoder) : Codecs :=
  { c with decoders := putDecoder type.number decode c.decoders }

def numericScalar : NumericMode → Decoder
  | .decimal => .scalar readNumericDecimal
  | .text => .scalar fun b => (readNumericText b).map fun cs => .text (String.ofList cs)
  | .float => .numericFloat

def numericArray : NumericMode → Decoder
  | .decimal => .array readNumericDecimal
  | .text => .array fun b => (readNumericText b).map fun cs => .text (String.ofList cs)
  | .float => .numericFloatArray

def withNumeric (c : Codecs) (mode : NumericMode) : Codecs :=
  { (c.register .numeric (numericScalar mode)).register .numericArray (numericArray mode) with
    numeric := mode }

def scalarReaders : List (PgType × CellReader) := [
  (.bool, readBool), (.int2, readInt 2), (.int4, readInt 4), (.int8, readInt 8), (.oid, readOid),
  (.float4, readFloat4), (.float8, readFloat8), (.text, readText), (.varchar, readText),
  (.bpchar, readText), (.name, readText), (.unknown, readText), (.bytea, readBytes),
  (.date, readDate), (.timestamp, readInstant), (.timestamptz, readInstant), (.uuid, readUuid),
  (.json, readJson), (.jsonb, readJsonb)]

def elementReaders : List (PgType × CellReader) := [
  (.boolArray, readBool), (.int2Array, readInt 2), (.int4Array, readInt 4),
  (.int8Array, readInt 8), (.float4Array, readFloat4), (.float8Array, readFloat8),
  (.textArray, readText), (.varcharArray, readText), (.uuidArray, readUuid),
  (.dateArray, readDate), (.timestamptzArray, readInstant), (.jsonbArray, readJsonb)]

def standard : Codecs :=
  let scalars := scalarReaders.map fun (t, read) => (t.number, Decoder.scalar read)
  let arrays := elementReaders.map fun (t, read) => (t.number, Decoder.array read)
  Codecs.withNumeric ⟨scalars ++ arrays, .decimal⟩ .decimal

def decoder? (c : Codecs) (type : PgType) : Option Decoder := c.decoders.lookup type.number

/-- Whether columns of the type can be decoded; labels of enumerations are text. -/
def supports (c : Codecs) (type : PgType) : Bool :=
  (c.decoder? type).isSome || type.isEnumeration

def debugText (c : Codecs) : String :=
  "ValueCodecs \x7b types: " ++ toString c.decoders.length ++ ", numeric: " ++ c.numeric.name ++
    " \x7d"

end Codecs

structure Column where
  name : String
  type : PgType
  deriving DecidableEq, Repr

namespace Codecs

def unsupportedMessage (type : PgType) : String :=
  "no decoder for type " ++ type.id.name ++ " (oid " ++ toString type.number ++ ")"

def decodeCell (c : Codecs) (position : Nat) (column : Column) (cell : Option Bytes) :
    Except SqlError Value :=
  let decoded := match c.decoder? column.type with
    | some decode => (decode position cell).mapError DecodeFault.message
    | none =>
      if column.type.isEnumeration then
        (Decoder.scalar readText position cell).mapError DecodeFault.message
      else .error (unsupportedMessage column.type)
  decoded.mapError (SqlError.decode column.name)

/-- The cells from `position` on, added to a record; of a repeated name the last value stays. -/
def decodeCells (c : Codecs) (position : Nat) (r : Record) :
    List (Column × Option Bytes) → Except SqlError Record
  | [] => .ok r
  | (column, cell) :: rest =>
    match c.decodeCell position column cell with
    | .ok v => decodeCells c (position + 1) (r.insert column.name v) rest
    | .error e => .error e

def decodeRow (c : Codecs) (columns : List Column) (cells : List (Option Bytes)) :
    Except SqlError Record :=
  c.decodeCells 0 Record.empty (columns.zip cells)

def decodeRows (c : Codecs) (columns : List Column) :
    List (List (Option Bytes)) → Except SqlError (List Record)
  | [] => .ok []
  | cells :: rest =>
    match c.decodeRow columns cells with
    | .error e => .error e
    | .ok r => (decodeRows c columns rest).map (r :: ·)

end Codecs

end SqlClient.Wire
