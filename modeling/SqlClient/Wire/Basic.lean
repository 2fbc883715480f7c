/-!
# Bytes and column types

Integers go most significant byte first, signed ones in two's complement. The bytes of a value are
appended to the buffer of a request; a writer that fails leaves behind what it had written by then.
Column types with a codec of their own are constructors; the others are known by number and name, so
that a refusal can say which type it was.
-/
namespace SqlClient

abbrev Bytes := List UInt8

namespace Wire

def bigEndian : Nat → Nat → Bytes
  | 0, _ => []
  | width + 1, n => bigEndian width (n / 256) ++ [UInt8.ofNat (n % 256)]

def natOfBytes (bytes : Bytes) : Nat := bytes.foldl (fun n b => n * 256 + b.toNat) 0

def signedLimit (width : Nat) : Nat := 128 * Nat.pow 256 (width - 1)

def fitsSigned (width : Nat) (i : Int) : Bool :=
  -(signedLimit width : Int) ≤ i && i < signedLimit width

def signedBytes (width : Nat) (i : Int) : Bytes := bigEndian width (i % Nat.pow 256 width).toNat

def signedOfNat (width n : Nat) : Int :=
  if n < signedLimit width then n else (n : Int) - Nat.pow 256 width

def intOfBytes (bytes : Bytes) : Int := signedOfNat bytes.length (natOfBytes bytes)

/-- Bytes in pairs, as numbers; a last odd byte is left out. -/
def words : Bytes → List Nat
  | a :: b :: rest => (a.toNat * 256 + b.toNat) :: words rest
  | _ => []

def word (n : Nat) : Bytes := bigEndian 2 n

def signedWord (n : Nat) : Int := signedOfNat 2 n

inductive Written where
  | null
  | bytes
  deriving DecidableEq, Repr

abbrev Writer (ε α : Type) := ExceptT ε (StateM Bytes) α

namespace Writer

variable {ε α : Type}

def run (w : Writer ε α) (out : Bytes) : Except ε α × Bytes := w out

def put (b : Bytes) : Writer ε Unit := modify (· ++ b)

def position : Writer ε Nat := return (← get).length

def patch (position : Nat) (b : Bytes) : Writer ε Unit :=
  modify fun out => out.take position ++ b ++ out.drop (position + b.length)

def send (b : Bytes) : Writer ε Written := do
  put b
  return .bytes

end Writer

structure TypeName where
  oid : Nat
  schema : String
  name : String
  deriving DecidableEq, Repr

def TypeName.builtin (oid : Nat) (name : String) : TypeName := ⟨oid, "pg_catalog", name⟩

inductive PgType where
  | bool
  | bytea
  | name
  | int8
  | int2
  | int4
  | text
  | oid
  | json
  | float4
  | float8
  | unknown
  | bpchar
  | varchar
  | date
  | timestamp
  | timestamptz
  | numeric
  | uuid
  | jsonb
  | enumeration (id : TypeName)
  | array (id : TypeName) (member : PgType)
  | other (id : TypeName)
  deriving DecidableEq, Repr

namespace PgType

def id : PgType → TypeName
  | .bool => .builtin 16 "bool"
  | .bytea => .builtin 17 "bytea"
  | .name => .builtin 19 "name"
  | .int8 => .builtin 20 "int8"
  | .int2 => .builtin 21 "int2"
  | .int4 => .builtin 23 "int4"
  | .text => .builtin 25 "text"
  | .oid => .builtin 26 "oid"
  | .json => .builtin 114 "json"
  | .float4 => .builtin 700 "float4"
  | .float8 => .builtin 701 "float8"
  | .unknown => .builtin 705 "unknown"
  | .bpchar => .builtin 1042 "bpchar"
  | .varchar => .builtin 1043 "varchar"
  | .date => .builtin 1082 "date"
  | .timestamp => .builtin 1114 "timestamp"
  | .timestamptz => .builtin 1184 "timestamptz"
  | .numeric => .builtin 1700 "numeric"
  | .uuid => .builtin 2950 "uuid"
  | .jsonb => .builtin 3802 "jsonb"
  | .enumeration id => id
  | .array id _ => id
  | .other id => id

def number (t : PgType) : Nat := t.id.oid

/-- The name, qualified unless its schema is on every search path. -/
def display (t : PgType) : String :=
  let id := t.id
  if id.schema = "public" || id.schema = "pg_catalog" then id.name else id.schema ++ "." ++ id.name

def isEnumeration : PgType → Bool
  | .enumeration _ => true
  | _ => false

def isText : PgType → Bool
  | .text | .varchar | .bpchar | .name => true
  | _ => false

def isJson : PgType → Bool
  | .json | .jsonb => true
  | _ => false

def arrayOf (oid : Nat) (name : String) (member : PgType) : PgType :=
  .array (.builtin oid name) member

def boolArray := arrayOf 1000 "_bool" .bool
def int2Array := arrayOf 1005 "_int2" .int2
def int4Array := arrayOf 1007 "_int4" .int4
def textArray := arrayOf 1009 "_text" .text
def varcharArray := arrayOf 1015 "_varchar" .varchar
def int8Array := arrayOf 1016 "_int8" .int8
def float4Array := arrayOf 1021 "_float4" .float4
def float8Array := arrayOf 1022 "_float8" .float8
def dateArray := arrayOf 1182 "_date" .date
def timestamptzArray := arrayOf 1185 "_timestamptz" .timestamptz
def numericArray := arrayOf 1231 "_numeric" .numeric
def uuidArray := arrayOf 2951 "_uuid" .uuid
def jsonbArray := arrayOf 3807 "_jsonb" .jsonb

/-- Vectors are arrays whose first index is zero. -/
def int2Vector := arrayOf 22 "int2vector" .int2
def oidVector := arrayOf 30 "oidvector" .oid

end PgType

end Wire

namespace Wire.Catalog

def known : List PgType := [
  .bool, .bytea, .name, .int8, .int2, .int4, .text, .oid, .json, .float4, .float8, .unknown,
  .bpchar, .varchar, .date, .timestamp, .timestamptz, .numeric, .uuid, .jsonb,
  .int2Vector, .oidVector]

def plain : List (Nat × String) := [
  (18, "char"), (24, "regproc"), (27, "tid"), (28, "xid"), (29, "cid"), (32, "pg_ddl_command"),
  (142, "xml"), (194, "pg_node_tree"), (269, "table_am_handler"), (325, "index_am_handler"),
  (600, "point"), (601, "lseg"), (602, "path"), (603, "box"), (604, "polygon"), (628, "line"),
  (650, "cidr"), (718, "circle"), (774, "macaddr8"), (790, "money"), (829, "macaddr"),
  (869, "inet"), (1033, "aclitem"), (1083, "time"), (1186, "interval"), (1266, "timetz"),
  (1560, "bit"), (1562, "varbit"), (1790, "refcursor"), (2202, "regprocedure"),
  (2203, "regoper"), (2204, "regoperator"), (2205, "regclass"), (2206, "regtype"),
  (2249, "record"), (2275, "cstring"), (2276, "any"), (2277, "anyarray"), (2278, "void"),
  (2279, "trigger"), (2280, "language_handler"), (2281, "internal"), (2283, "anyelement"),
  (2287, "_record"), (2776, "anynonarray"), (2970, "txid_snapshot"), (3115, "fdw_handler"),
  (3220, "pg_lsn"), (3310, "tsm_handler"), (3361, "pg_ndistinct"), (3402, "pg_dependencies"),
  (3500, "anyenum"), (3614, "tsvector"), (3615, "tsquery"), (3642, "gtsvector"),
  (3734, "regconfig"), (3769, "regdictionary"), (3831, "anyrange"), (3838, "event_trigger"),
  (3904, "int4range"), (3906, "numrange"), (3908, "tsrange"), (3910, "tstzrange"),
  (3912, "daterange"), (3926, "int8range"), (4072, "jsonpath"), (4089, "regnamespace"),
  (4096, "regrole"), (4191, "regcollation"), (4451, "int4multirange"), (4532, "nummultirange"),
  (4533, "tsmultirange"), (4534, "tstzmultirange"), (4535, "datemultirange"),
  (4536, "int8multirange"), (4537, "anymultirange"), (4538, "anycompatiblemultirange"),
  (4600, "pg_brin_bloom_summary"), (4601, "pg_brin_minmax_multi_summary"),
  (5017, "pg_mcv_list"), (5038, "pg_snapshot"), (5069, "xid8"), (5077, "anycompatible"),
  (5078, "anycompatiblearray"), (5079, "anycompatiblenonarray"), (5080, "anycompatiblerange")]

def arrays : List (Nat × String) := [
  (143, "xml"), (199, "json"), (271, "xid8"), (629, "line"), (651, "cidr"), (719, "circle"),
  (775, "macaddr8"), (791, "money"), (1000, "bool"), (1001, "bytea"), (1002, "char"),
  (1003, "name"), (1005, "int2"), (1006, "int2vector"), (1007, "int4"), (1008, "regproc"),
  (1009, "text"), (1010, "tid"), (1011, "xid"), (1012, "cid"), (1013, "oidvector"),
  (1014, "bpchar"), (1015, "varchar"), (1016, "int8"), (1017, "point"), (1018, "lseg"),
  (1019, "path"), (1020, "box"), (1021, "float4"), (1022, "float8"), (1027, "polygon"),
  (1028, "oid"), (1034, "aclitem"), (1040, "macaddr"), (1041, "inet"), (1115, "timestamp"),
  (1182, "date"), (1183, "time"), (1185, "timestamptz"), (1187, "interval"), (1231, "numeric"),
  (1263, "cstring"), (1270, "timetz"), (1561, "bit"), (1563, "varbit"), (2201, "refcursor"),
  (2207, "regprocedure"), (2208, "regoper"), (2209, "regoperator"), (2210, "regclass"),
  (2211, "regtype"), (2949, "txid_snapshot"), (2951, "uuid"), (3221, "pg_lsn"),
  (3643, "tsvector"), (3644, "gtsvector"), (3645, "tsquery"), (3735, "regconfig"),
  (3770, "regdictionary"), (3807, "jsonb"), (3905, "int4range"), (3907, "numrange"),
  (3909, "tsrange"), (3911, "tstzrange"), (3913, "daterange"), (3927, "int8range"),
  (4073, "jsonpath"), (4090, "regnamespace"), (4097, "regrole"), (4192, "regcollation"),
  (5039, "pg_snapshot"), (6150, "int4multirange"), (6151, "nummultirange"),
  (6152, "tsmultirange"), (6153, "tstzmultirange"), (6155, "datemultirange"),
  (6157, "int8multirange")]

def scalar? (name : String) : Option PgType :=
  match known.find? (·.id.name = name) with
  | some t => some t
  | none => (plain.find? (·.2 = name)).map fun (oid, name) => .other (.builtin oid name)

def find? (name : String) : Option PgType :=
  match scalar? name with
  | some t => some t
  | none =>
    (arrays.find? (fun (_, member) => "_" ++ member = name)).bind fun (oid, member) =>
      (scalar? member).map (.array (.builtin oid name))

end Wire.Catalog

end SqlClient
