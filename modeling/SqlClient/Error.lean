import SqlClient.Wire.Encode
/-!
# Errors

What a call can fail with. Row counts and inputs are checked by this library; the other failures
come from the server, the connection or a codec.
-/
namespace SqlClient

structure ServerError where
  code : String
  message : String
  constraint : Option String
  detail : Option String
  hint : Option String
  deriving DecidableEq, Repr

inductive QueryFault where
  | server (e : ServerError)
  | parameter (index : Nat) (cause : Wire.EncodeError)
  | parameterCount (expected given : Nat)

def QueryFault.message : QueryFault → String
  | .server _ => "db error"
  | .parameter index _ => "error serializing parameter " ++ toString index
  | .parameterCount expected given =>
    "expected " ++ toString expected ++ " parameters but got " ++ toString given

inductive ConstraintKind where
  | unique
  | foreignKey
  | check
  deriving DecidableEq, Repr

namespace ConstraintKind

def code : ConstraintKind → String
  | .unique => "23505"
  | .foreignKey => "23503"
  | .check => "23514"

def ofCode? (code : String) : Option ConstraintKind :=
  [unique, foreignKey, check].find? (·.code = code)

def label : ConstraintKind → String
  | .unique => "Unique constraint violation"
  | .foreignKey => "Foreign key violation"
  | .check => "Check constraint violation"

end ConstraintKind

inductive SqlError where
  | connection (message : String)
  | query (fault : QueryFault)
  | notFound (message : String)
  | invalidInput (message : String)
  | violation (kind : ConstraintKind) (message : String)
  | decode (column message : String)
  | serialization (message : String)
  | pool (message : String)
  | other (message : String)

namespace SqlError

def message : SqlError → String
  | .connection m => "Connection error: " ++ m
  | .query fault => "Query error: " ++ fault.message
  | .notFound m => "Not found: " ++ m
  | .invalidInput m => "Invalid input: " ++ m
  | .violation kind m => kind.label ++ ": " ++ m
  | .decode column m => "Decode error on column '" ++ column ++ "': " ++ m
  | .serialization m => "Serialization error: " ++ m
  | .pool m => "Pool error: " ++ m
  | .other m => m

def isNotFound : SqlError → Bool
  | .notFound _ => true
  | _ => false

def isInvalidInput : SqlError → Bool
  | .invalidInput _ => true
  | _ => false

def isUniqueViolation : SqlError → Bool
  | .violation .unique _ => true
  | _ => false

/-- Whether the database or the way to it failed, not a check of this library. -/
def isDriverFailure : SqlError → Bool
  | .connection _ | .query _ | .violation .. | .pool _ => true
  | _ => false

def serverError? : SqlError → Option ServerError
  | .query (.server e) => some e
  | _ => none

def sqlstate? : SqlError → Option String
  | .violation kind _ => some kind.code
  | e => e.serverError?.map (·.code)

def ofServer (e : ServerError) : SqlError :=
  match ConstraintKind.ofCode? e.code with
  | some kind => .violation kind (e.constraint.getD "unknown" ++ ": " ++ e.message)
  | none => .query (.server e)

end SqlError

def sqlstateLabel? (code : String) : Option String :=
  if code = ConstraintKind.check.code then some ConstraintKind.check.label
  else if code = ConstraintKind.unique.code then some ConstraintKind.unique.label
  else none

end SqlClient
