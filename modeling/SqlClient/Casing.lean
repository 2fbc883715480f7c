import SqlClient.Text.Letters
import SqlClient.Value.Basic
/-!
# Spellings of names

The database spells names in storage case (`first_name`), programs in application case
(`firstName`). A name is cut into words at characters that are neither letters nor digits, and
inside a run of those where the case changes: after a small letter before a capital, and before the
last capital of several when a small letter follows. Keys are converted at every depth of a value;
those that become equal are merged: the first keeps its place and the last its value.
-/
namespace SqlClient.Casing

open SqlClient.Text

/-- The case of the last letter since the word began. -/
inductive Mode where
  | none
  | lower
  | upper
  deriving DecidableEq, Repr

def Mode.after (mode : Mode) (c : Char) : Mode :=
  if isLowercase c then .lower else if isUppercase c then .upper else mode

def consHead (c : Char) : List (List Char) → List (List Char)
  | [] => [[c]]
  | word :: words => (c :: word) :: words

/-- The words of a run. The first is the rest of the word that is under way: it is empty when the
next character starts another. -/
def runWords (mode : Mode) : List Char → List (List Char)
  | [] => []
  | [c] => [[c]]
  | c :: next :: rest =>
    if mode.after c = .lower && isUppercase next then [c] :: runWords .none (next :: rest)
    else if mode = .upper && isUppercase c && isLowercase next then
      [] :: consHead c (runWords .none (next :: rest))
    else consHead c (runWords (mode.after c) (next :: rest))

def words (cs : List Char) : List (List Char) :=
  (cs.splitOnP (!isAlphanumeric ·)).flatMap (runWords .none)

/-- In small letters; a sigma at the end takes its final form. -/
def lowercaseWord : List Char → List Char
  | [] => []
  | [c] => if c.toNat = 0x3A3 then [Char.ofNat 0x3C2] else toLowercase c
  | c :: cs => toLowercase c ++ lowercaseWord cs

def capitalizeWord : List Char → List Char
  | [] => []
  | c :: cs => toUppercase c ++ lowercaseWord cs

def storageChars (cs : List Char) : List Char :=
  List.intercalate ['_'] ((words cs).map lowercaseWord)

def applicationChars (cs : List Char) : List Char :=
  match words cs with
  | [] => []
  | word :: rest => lowercaseWord word ++ rest.flatMap capitalizeWord

def storageKey (key : String) : String := String.ofList (storageChars key.toList)

def applicationKey (key : String) : String := String.ofList (applicationChars key.toList)

mutual

def renameKeys (rename : String → String) : Value → Value
  | .array items => .array (renameItems rename items)
  | .map fields => .map (Record.ofList (renameFields rename fields)).fields
  | v => v

def renameItems (rename : String → String) : List Value → List Value
  | [] => []
  | v :: vs => renameKeys rename v :: renameItems rename vs

def renameFields (rename : String → String) : List (String × Value) → List (String × Value)
  | [] => []
  | (k, v) :: rest => (rename k, renameKeys rename v) :: renameFields rename rest

end

def renameRecord (rename : String → String) (r : Record) : Record :=
  Record.ofList (renameFields rename r.fields)

def toStorageCase (v : Value) : Value := renameKeys storageKey v

def toApplicationCase (v : Value) : Value := renameKeys applicationKey v

inductive RowCasing where
  | camel
  | preserve
  deriving DecidableEq, Repr

namespace RowCasing

def name : RowCasing → String
  | .camel => "Camel"
  | .preserve => "Preserve"

def inbound (casing : RowCasing) (r : Record) : Record :=
  match casing with
  | .camel => renameRecord applicationKey r
  | .preserve => r

def outbound (casing : RowCasing) (r : Record) : Record :=
  match casing with
  | .camel => renameRecord storageKey r
  | .preserve => r

def inboundKey (casing : RowCasing) (key : String) : String :=
  match casing with
  | .camel => applicationKey key
  | .preserve => key

end RowCasing

end SqlClient.Casing
