import SqlClient.Client
/-!
# Sessions

Web sessions in a table with the columns `sid`, `sess` and `expire`. A session is a JSON document
that is found until it expires.
-/
namespace SqlClient

open SqlClient.Calendar SqlClient.Sql

structure SessionStore (σ η : Type) where
  client : Client σ η
  table : String := "session"
  /-- How long a session lives that is given no end, in seconds. -/
  lifetime : Int := 14 * 86400

namespace SessionStore

variable {σ η : Type}

def onTable (table : String) (start : String) : Fragment :=
  (Fragment.raw start).pushIdent (.name table)

def getStatement (table sid : String) : Statement :=
  onTable table "SELECT sid, sess::text AS sess, expire FROM "
    |>.push " WHERE sid = "
    |>.pushBind (.text sid)
    |>.push " AND expire > now()"
    |>.compile

def setStatement (table sid : String) (session : Json) (expire : Instant) : Statement :=
  onTable table "INSERT INTO "
    |>.push " (sid, sess, expire)\nVALUES ("
    |>.pushBind (.text sid)
    |>.push ", "
    |>.pushBind (.ofJson session)
    |>.push ", "
    |>.pushBind (.timestamp expire)
    |>.push ")\nON CONFLICT (sid) DO UPDATE SET\nsess = EXCLUDED.sess,\nexpire = EXCLUDED.expire"
    |>.compile

def touchStatement (table sid : String) (expire : Instant) : Statement :=
  onTable table "UPDATE "
    |>.push " SET expire = "
    |>.pushBind (.timestamp expire)
    |>.push " WHERE sid = "
    |>.pushBind (.text sid)
    |>.compile

def destroyStatement (table sid : String) : Statement :=
  onTable table "DELETE FROM "
    |>.push " WHERE sid = "
    |>.pushBind (.text sid)
    |>.compile

/-- The session in a row: none where it is missing or null, text is read as JSON. -/
def sessionOf (row : Record) : Except SqlError (Option Json) :=
  match row.get? "sess" with
  | none | some .null => .ok none
  | some (.text raw) =>
    match Json.parse raw with
    | some j => .ok (some j)
    | none => .error (.serialization "a session is not a JSON document")
  | some v => .ok (some v.toJson)

def get (store : SessionStore σ η) (sid : String) : Act σ SqlError (Option Json) := do
  match ← store.client.maybeOne (getStatement store.table sid) with
  | none => return none
  | some row => Act.ofExcept (sessionOf row)

def expiry (store : SessionStore σ η) : Act σ SqlError Instant :=
  return (← Act.now).plusSeconds store.lifetime

def set (store : SessionStore σ η) (sid : String) (session : Json) (expires : Option Instant) :
    Act σ SqlError Unit := do
  let expire ← match expires with
    | some t => pure t
    | none => store.expiry
  let _ ← store.client.query (setStatement store.table sid session expire)

def touch (store : SessionStore σ η) (sid : String) : Act σ SqlError Unit := do
  let _ ← store.client.query (touchStatement store.table sid (← store.expiry))

def destroy (store : SessionStore σ η) (sid : String) : Act σ SqlError Unit := do
  let _ ← store.client.query (destroyStatement store.table sid)

end SessionStore

end SqlClient
