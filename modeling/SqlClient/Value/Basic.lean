import SqlClient.Calendar
import SqlClient.Number.Decimal
import SqlClient.Wire.Basic
/-!
# Values and records

A value is a column or a part of one. Arrays and maps are the only containers; every other kind is
opaque. A `Record` maps column names to values in the order of insertion: writing to a present key
keeps its place, removing a key closes the gap.
-/
namespace SqlClient

open SqlClient.Calendar SqlClient.Number

structure Uuid where
  bytes : List UInt8
  length_eq : bytes.length = 16
  deriving DecidableEq, Repr

namespace Uuid

def ofBytes? (bytes : List UInt8) : Option Uuid :=
  if h : bytes.length = 16 then some ⟨bytes, h⟩ else none

def text (u : Uuid) : List Char :=
  let ds := Text.hex u.bytes
  List.intercalate ['-']
    [ds.take 8, (ds.drop 8).take 4, (ds.drop 12).take 4, (ds.drop 16).take 4, ds.drop 20]

def hyphenated? (cs : List Char) : Option Uuid :=
  let hyphenAt (i : Nat) := cs[i]? = some '-'
  if cs.length = 36 ∧ hyphenAt 8 ∧ hyphenAt 13 ∧ hyphenAt 18 ∧ hyphenAt 23 then
    let ds := cs.take 8 ++ (cs.drop 9).take 4 ++ (cs.drop 14).take 4 ++ (cs.drop 19).take 4 ++
      cs.drop 24
    (Text.bytesOfHex? ds).bind ofBytes?
  else none

def ofText? (cs : List Char) : Option Uuid :=
  if cs.length = 32 then (Text.bytesOfHex? cs).bind ofBytes?
  else if cs.length = 38 then
    if cs.head? = some '\x7b' ∧ cs.getLast? = some '\x7d' then hyphenated? (cs.drop 1).dropLast
    else none
  else if cs.length = 45 then
    if (cs.take 9).map Char.toLower = "urn:uuid:".toList then hyphenated? (cs.drop 9) else none
  else hyphenated? cs

end Uuid

inductive Value where
  | null
  | bool (b : Bool)
  | int (i : Int64)
  | float (x : Double)
  | decimal (d : Decimal)
  | text (s : String)
  | bytes (b : Bytes)
  | timestamp (t : Instant)
  | date (d : Date)
  | uuid (u : Uuid)
  | array (items : List Value)
  | map (fields : List (String × Value))
  deriving Repr

/-- The keys of a map and their values, in order. In a map by itself they need not differ. -/
abbrev Fields := List (String × Value)

namespace Value

instance : Inhabited Value := ⟨.null⟩

def isNull : Value → Bool
  | .null => true
  | _ => false

def asText? : Value → Option String
  | .text s => some s
  | _ => none

def asInt? : Value → Option Int64
  | .int i => some i
  | _ => none

def asFloat? : Value → Option Double
  | .float x => some x
  | .int i => some (.ofInt i.toInt)
  | .decimal d => some d.toDouble
  | _ => none

def asBool? : Value → Option Bool
  | .bool b => some b
  | _ => none

def asDecimal? : Value → Option Decimal
  | .decimal d => some d
  | .int i => some (.ofInt64 i)
  | _ => none

def asMap? : Value → Option Fields
  | .map fields => some fields
  | _ => none

def asArray? : Value → Option (List Value)
  | .array items => some items
  | _ => none

mutual

/-- Equality of values: numeric within a kind, maps whatever their order. A NaN differs from
itself. -/
def numEq : Value → Value → Bool
  | .null, .null => true
  | .bool a, .bool b => a == b
  | .int a, .int b => a == b
  | .float a, .float b => a.numEq b
  | .decimal a, .decimal b => a.numEq b
  | .text a, .text b => a == b
  | .bytes a, .bytes b => a == b
  | .timestamp a, .timestamp b => a == b
  | .date a, .date b => a == b
  | .uuid a, .uuid b => a == b
  | .array xs, .array ys => itemsEq xs ys
  | .map xs, .map ys => xs.length == ys.length && fieldsWithin xs ys
  | _, _ => false

def itemsEq : List Value → List Value → Bool
  | [], [] => true
  | x :: xs, y :: ys => numEq x y && itemsEq xs ys
  | _, _ => false

def fieldsWithin : List (String × Value) → List (String × Value) → Bool
  | [], _ => true
  | (k, x) :: xs, ys => (match ys.lookup k with
    | some y => numEq x y
    | none => false) && fieldsWithin xs ys

end

end Value

namespace Fields

variable {fields : Fields} {key : String} {value : Value}

def keys (fields : Fields) : List String := List.map Prod.fst fields

def get? (fields : Fields) (key : String) : Option Value := List.lookup key fields

/-- Set `key` to `value`: in its place when present, else last. -/
def insert (key : String) (value : Value) : Fields → Fields
  | [] => [(key, value)]
  | (k, v) :: rest => if k = key then (k, value) :: rest else (k, v) :: insert key value rest

def erase (key : String) : Fields → Fields
  | [] => []
  | (k, v) :: rest => if k = key then rest else (k, v) :: erase key rest

def exchange (key : String) (value : Value) : Fields → Option Value × Fields
  | [] => (none, [(key, value)])
  | (k, v) :: rest =>
    if k = key then (some v, (key, value) :: rest)
    else
      let (old, rest) := exchange key value rest
      (old, (k, v) :: rest)

def withdraw (key : String) : Fields → Option Value × Fields
  | [] => (none, [])
  | (k, v) :: rest =>
    if k = key then (some v, rest)
    else
      let (old, rest) := withdraw key rest
      (old, (k, v) :: rest)

theorem keys_cons (k : String) (v : Value) (fields : Fields) :
    keys ((k, v) :: fields) = k :: keys fields := rfl

theorem keys_insert (k : String) (v : Value) (fields : Fields) :
    keys (insert k v fields) = if k ∈ keys fields then keys fields else keys fields ++ [k] := by
  induction fields with
  | nil => rfl
  | cons p fields ih =>
    obtain ⟨l, w⟩ := p
    rw [insert]
    by_cases h : l = k
    · rw [if_pos h, keys_cons, keys_cons, if_pos (by simp [h])]
    · rw [if_neg h, keys_cons, keys_cons, ih]
      by_cases hk : k ∈ keys fields
      · simp [hk]
      · simp [hk, Ne.symm h]

theorem keys_erase (k : String) (fields : Fields) :
    keys (erase k fields) = (keys fields).erase k := by
  induction fields with
  | nil => rfl
  | cons p fields ih =>
    obtain ⟨l, w⟩ := p
    rw [erase, keys_cons, List.erase_cons]
    by_cases h : l = k
    · simp [h]
    · simp [h, keys_cons, ih]

theorem nodup_keys_insert (distinct : fields.keys.Nodup) :
    (insert key value fields).keys.Nodup := by
  rw [keys_insert]
  split
  · exact distinct
  · rename_i fresh
    refine List.nodup_append.mpr ⟨distinct, List.pairwise_singleton _ key, fun k hk l hl => ?_⟩
    rintro rfl
    exact fresh (List.mem_singleton.mp hl ▸ hk)

theorem nodup_keys_erase (distinct : fields.keys.Nodup) : (erase key fields).keys.Nodup := by
  rw [keys_erase]
  exact distinct.erase key

theorem exchange_snd (fields : Fields) :
    (exchange key value fields).2 = insert key value fields := by
  induction fields with
  | nil => rfl
  | cons p fields ih =>
    obtain ⟨l, w⟩ := p
    rw [exchange, insert]
    split
    · rename_i same
      rw [same]
    · rw [← ih]

theorem withdraw_snd (fields : Fields) : (withdraw key fields).2 = erase key fields := by
  induction fields with
  | nil => rfl
  | cons p fields ih =>
    obtain ⟨l, w⟩ := p
    rw [withdraw, erase]
    split
    · rfl
    · rw [← ih]

end Fields

/-- Column names and their values, in order and each name once. -/
@[ext] structure Record where
  fields : Fields
  distinct : fields.keys.Nodup
  deriving Repr

namespace Record

def empty : Record := ⟨[], List.nodup_nil⟩

def keys (r : Record) : List String := r.fields.keys

def values (r : Record) : List Value := List.map Prod.snd r.fields

def size (r : Record) : Nat := List.length r.fields

def get? (r : Record) (key : String) : Option Value := r.fields.get? key

def contains (r : Record) (key : String) : Bool := (get? r key).isSome

def insert (key : String) (value : Value) (r : Record) : Record :=
  ⟨Fields.insert key value r.fields, Fields.nodup_keys_insert r.distinct⟩

def replace (key : String) (value : Value) (r : Record) : Record :=
  if contains r key then insert key value r else r

def erase (key : String) (r : Record) : Record :=
  ⟨Fields.erase key r.fields, Fields.nodup_keys_erase r.distinct⟩

/-- Insert, and give the value that was held. -/
def exchange (key : String) (value : Value) (r : Record) : Option Value × Record :=
  let changed := Fields.exchange key value r.fields
  (changed.1, ⟨changed.2, Fields.exchange_snd r.fields ▸ Fields.nodup_keys_insert r.distinct⟩)

/-- Erase, and give the value that was held. -/
def withdraw (key : String) (r : Record) : Option Value × Record :=
  let changed := Fields.withdraw key r.fields
  (changed.1, ⟨changed.2, Fields.withdraw_snd r.fields ▸ Fields.nodup_keys_erase r.distinct⟩)

def ofList (pairs : List (String × Value)) : Record :=
  pairs.foldl (fun r (k, v) => insert k v r) empty

def numEq (a b : Record) : Bool := Value.numEq (.map a.fields) (.map b.fields)

def getText? (r : Record) (key : String) : Option String := (get? r key).bind Value.asText?

def getInt? (r : Record) (key : String) : Option Int64 := (get? r key).bind Value.asInt?

end Record

class ToValue (α : Type) where
  toValue : α → Value

export ToValue (toValue)

instance : ToValue Value := ⟨id⟩
instance : ToValue Bool := ⟨.bool⟩
instance : ToValue Int16 := ⟨fun i => .int i.toInt64⟩
instance : ToValue Int32 := ⟨fun i => .int i.toInt64⟩
instance : ToValue Int64 := ⟨.int⟩
instance : ToValue UInt32 := ⟨fun n => .int (.ofNat n.toNat)⟩
instance : ToValue Single := ⟨fun x => .float (.ofSingle x)⟩
instance : ToValue Double := ⟨.float⟩
instance : ToValue Decimal := ⟨.decimal⟩
instance : ToValue String := ⟨.text⟩
instance : ToValue Bytes := ⟨.bytes⟩
instance : ToValue Instant := ⟨.timestamp⟩
instance : ToValue Date := ⟨.date⟩
instance : ToValue Uuid := ⟨.uuid⟩
instance : ToValue Record := ⟨fun r => .map r.fields⟩

instance {α : Type} [ToValue α] : ToValue (Option α) :=
  ⟨fun
    | some a => toValue a
    | none => .null⟩

instance {α : Type} [ToValue α] : ToValue (List α) := ⟨fun as => .array (as.map toValue)⟩

end SqlClient
