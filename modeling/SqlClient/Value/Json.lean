import SqlClient.Json
import SqlClient.Text.Quoted
import SqlClient.Value.Basic
/-!
# Values as text and as JSON

Decimals, timestamps, dates and identifiers are JSON strings, so that nothing of them is lost; bytes
are strings of hexadecimal digits after `\x`. Documents are read as types of the program without
converting kinds into one another; of several faults of an object, one in a member that is there is
reported before a missing member.
-/
namespace SqlClient

open SqlClient.Number SqlClient.Text

def bytesText (b : Bytes) : List Char := '\\' :: 'x' :: hex b

namespace Value

mutual

def toJson : Value → Json
  | .null => .null
  | .bool b => .bool b
  | .int i => .integer i.toInt
  | .float x => if x.isFinite then .float x else .null
  | .decimal d => .string (String.ofList d.text)
  | .text s => .string s
  | .bytes b => .string (String.ofList (bytesText b))
  | .timestamp t => .string (String.ofList (t.text "Z"))
  | .date d => .string (String.ofList d.text)
  | .uuid u => .string (String.ofList u.text)
  | .array items => .array (itemsToJson items)
  | .map fields => .ofMembers (fieldsToJson fields)

def itemsToJson : List Value → List Json
  | [] => []
  | v :: vs => v.toJson :: itemsToJson vs

def fieldsToJson : List (String × Value) → List (String × Json)
  | [] => []
  | (k, v) :: rest => (k, v.toJson) :: fieldsToJson rest

end

mutual

def toOrderedJson : Value → Json
  | .null => .null
  | .bool b => .bool b
  | .int i => .integer i.toInt
  | .float x => if x.isFinite then .float x else .null
  | .array items => .array (itemsToOrderedJson items)
  | .map fields => .object (fieldsToOrderedJson fields)
  | v => v.toJson

def itemsToOrderedJson : List Value → List Json
  | [] => []
  | v :: vs => v.toOrderedJson :: itemsToOrderedJson vs

def fieldsToOrderedJson : List (String × Value) → List (String × Json)
  | [] => []
  | (k, v) :: rest => (k, v.toOrderedJson) :: fieldsToOrderedJson rest

end

mutual

/-- The value of a JSON document; an integer too large for 64 bits becomes a float. -/
def ofJson : Json → Value
  | .null => .null
  | .bool b => .bool b
  | .integer n => if fitsInt64 n then .int (.ofInt n) else .float (.ofInt n)
  | .float x => .float x
  | .string s => .text s
  | .array items => .array (ofJsonItems items)
  | .object members => .map (Record.ofList (ofJsonMembers members)).fields

def ofJsonItems : List Json → List Value
  | [] => []
  | j :: js => ofJson j :: ofJsonItems js

def ofJsonMembers : List (String × Json) → List (String × Value)
  | [] => []
  | (k, j) :: rest => (k, ofJson j) :: ofJsonMembers rest

end

def display : Value → List Char
  | .null => "NULL".toList
  | .bool b => if b then "true".toList else "false".toList
  | .int i => integerText i.toInt
  | .float x => x.plainText
  | .decimal d => d.text
  | .text s => s.toList
  | .bytes b => bytesText b
  | .timestamp t => t.text "+00:00"
  | .date d => d.text
  | .uuid u => u.text
  | .array items => (Value.array items).toJson.chars
  | .map fields => (Value.map fields).toJson.chars

def displayText (v : Value) : String := String.ofList v.display

end Value

instance : ToValue Json := ⟨Value.ofJson⟩

namespace Record

def toJson (r : Record) : Json := Value.toJson (.map r.fields)

def toOrderedJson (r : Record) : Json := Value.toOrderedJson (.map r.fields)

def ofJson? : Json → Option Record
  | .object members => some (ofList (Value.ofJsonMembers members))
  | _ => none

end Record

inductive ReadFault where
  | missing (field : String)
  | unexpectedKind (found : Json) (expected : String)
  | unexpectedValue (found : Json) (expected : String)
  deriving Repr

namespace ReadFault

def floatLayout : FloatLayout := ⟨.up, fun _ => true, true⟩

/-- A document as messages name it: scalars with their value, containers by their kind. -/
def naming : Json → String
  | .null => "null"
  | .bool b => "boolean `" ++ toString b ++ "`"
  | .integer n => "integer `" ++ String.ofList (integerText n) ++ "`"
  | .float x => "floating point `" ++ String.ofList ((x.finiteText? floatLayout).getD []) ++ "`"
  | .string s => "string " ++ String.ofList (quoted s.toList)
  | .array _ => "sequence"
  | .object _ => "map"

def message : ReadFault → String
  | .missing field => "missing field `" ++ field ++ "`"
  | .unexpectedKind found expected => "invalid type: " ++ naming found ++ ", expected " ++ expected
  | .unexpectedValue found expected =>
    "invalid value: " ++ naming found ++ ", expected " ++ expected

end ReadFault

class OfJson (α : Type) where
  ofJson : Json → Except ReadFault α

export OfJson (ofJson)

instance : OfJson Json := ⟨.ok⟩

instance : OfJson Bool :=
  ⟨fun
    | .bool b => .ok b
    | j => .error (.unexpectedKind j "a boolean")⟩

instance : OfJson Int64 :=
  ⟨fun
    | .integer n =>
      if fitsInt64 n then .ok (.ofInt n) else .error (.unexpectedValue (.integer n) "i64")
    | j => .error (.unexpectedKind j "i64")⟩

instance : OfJson String :=
  ⟨fun
    | .string s => .ok s
    | j => .error (.unexpectedKind j "a string")⟩

instance {α : Type} [OfJson α] : OfJson (Option α) :=
  ⟨fun
    | .null => .ok none
    | j => (ofJson j).map some⟩

def Json.field? {α : Type} [OfJson α] (j : Json) (key : String) : Except ReadFault (Option α) :=
  (j.member? key).mapM ofJson

def required {α : Type} (key : String) (member : Option α) : Except ReadFault α :=
  member.elim (.error (.missing key)) .ok

def Record.decode {α : Type} [OfJson α] (r : Record) : Except ReadFault α := ofJson (toJson r)

end SqlClient
