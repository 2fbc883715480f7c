import SqlClient.Number.Basic
import SqlClient.Text.Basic
import SqlClient.Wire.Basic
/-!
# Connect options

Where and as whom to connect, read from a connection string. Two forms are known: a URL with the
scheme `postgres` or `postgresql`, and a list of `name = value` settings. Parts that are left out
stay unset, and a setting given twice counts as the last one says, hosts and ports apart, which add
up. In a URL a percent sign that starts no triple stays as it is; a numeric address is written with
its first longest run of at least two zero groups left out.
-/
namespace SqlClient

namespace Percent

/-- The characters that no part of a URL holds as they are: controls and all that is not ASCII. -/
def isControl (c : Char) : Bool := c.toNat < 0x20 || 0x7F ≤ c.toNat

def userReserved : String := " \"#<>?\x60\x7b\x7d/:;=@[\\]^|"

def segmentReserved : String := " \"#<>?\x60\x7b\x7d/%"

def encodeByte (b : UInt8) : List Char := '%' :: (Text.byteHex b).map Char.toUpper

def encode (reserved : String) (cs : List Char) : List Char :=
  cs.flatMap fun c =>
    if isControl c || reserved.toList.contains c then (String.utf8EncodeChar c).flatMap encodeByte
    else [c]

def decode : List Char → Bytes
  | [] => []
  | '%' :: a :: b :: rest =>
    match Text.hexValue? a, Text.hexValue? b with
    | some hi, some lo => UInt8.ofNat (hi * 16 + lo) :: decode rest
    | _, _ => 0x25 :: decode (a :: b :: rest)
  | c :: rest => String.utf8EncodeChar c ++ decode rest

def decodeText? (cs : List Char) : Option String := String.fromUTF8? ⟨(decode cs).toArray⟩

end Percent

def Octets.ofText? (cs : List Char) : Option (List Nat) :=
  let octet (ds : List Char) : Option Nat :=
    if ds ≠ [] ∧ ds.all Char.isDigit ∧ (ds.head? = some '0' → ds.length = 1) then
      let n := Number.digitsValue ds
      if n < 256 then some n else none
    else none
  let parts := cs.splitOn '.'
  if parts.length = 4 then parts.mapM octet else none

structure Ipv6 where
  groups : List Nat
  length_eq : groups.length = 8
  deriving DecidableEq, Repr

namespace Ipv6

def ofGroups? (groups : List Nat) : Option Ipv6 :=
  if h : groups.length = 8 then some ⟨groups, h⟩ else none

def group? (ds : List Char) : Option Nat :=
  if 1 ≤ ds.length ∧ ds.length ≤ 4 then
    (ds.mapM Text.hexValue?).map fun vs => vs.foldl (fun n v => n * 16 + v) 0
  else none

/-- Groups with colons between them; the last may be four octets, which make two groups. -/
def tail? : List (List Char) → Option (List Nat)
  | [] => some []
  | [last] =>
    match Octets.ofText? last with
    | some [a, b, c, d] => some [a * 256 + b, c * 256 + d]
    | _ => (group? last).map ([·])
  | part :: rest => do return (← group? part) :: (← tail? rest)

def splitGap? : List Char → Option (List Char × List Char)
  | ':' :: ':' :: rest => some ([], rest)
  | c :: rest => (splitGap? rest).map fun (a, b) => (c :: a, b)
  | [] => none

def parts (cs : List Char) : List (List Char) := if cs = [] then [] else cs.splitOn ':'

def ofText? (cs : List Char) : Option Ipv6 :=
  match splitGap? cs with
  | none => (tail? (parts cs)).bind ofGroups?
  | some (before, after) => do
    let front ← (parts before).mapM group?
    let back ← tail? (parts after)
    if front.length + back.length ≤ 7 then
      ofGroups? (front ++ List.replicate (8 - front.length - back.length) 0 ++ back)
    else none

def zerosAt (groups : List Nat) (i : Nat) : Nat := ((groups.drop i).takeWhile (· = 0)).length

def gapAt (groups : List Nat) : Nat :=
  (List.range groups.length).foldl
    (fun best i => if zerosAt groups best < zerosAt groups i then i else best) 0

def groupsText (groups : List Nat) : List Char :=
  List.intercalate [':'] (groups.map (Nat.toDigits 16))

def text (a : Ipv6) : List Char :=
  let start := gapAt a.groups
  let length := zerosAt a.groups start
  if length < 2 then groupsText a.groups
  else groupsText (a.groups.take start) ++ [':', ':'] ++ groupsText (a.groups.drop (start + length))

end Ipv6

inductive Host where
  | network (name : String)
  | localSocket (path : Bytes)
  deriving DecidableEq, Repr

def Host.ofName (name : String) : Host :=
  if name.toList.head? = some '/' then .localSocket name.toUTF8.data.toList else .network name

structure ConnectOptions where
  hosts : List Host := []
  ports : List UInt16 := []
  user : Option String := none
  password : Option Bytes := none
  database : Option String := none
  deriving DecidableEq, Repr

namespace ConnectOptions

inductive Domain where
  | anything
  | oneOf (words : List String)
  | signed
  | unsigned (limit : Nat)
  | addresses

def Domain.admits (value : List Char) : Domain → Bool
  | .anything => true
  | .oneOf words => words.contains (String.ofList value)
  | .signed => (Number.readInt64 value).isOk
  | .unsigned limit => (Number.readUnsigned? limit value).isSome
  | .addresses => (value.splitOn ',').all fun a =>
    (Octets.ofText? a).isSome || (Ipv6.ofText? a).isSome

def tuning : List (String × Domain) := [
  ("options", .anything),
  ("application_name", .anything),
  ("sslmode", .oneOf ["disable", "prefer", "require"]),
  ("sslnegotiation", .oneOf ["postgres", "direct"]),
  ("hostaddr", .addresses),
  ("connect_timeout", .signed),
  ("tcp_user_timeout", .signed),
  ("keepalives", .unsigned (UInt64.size - 1)),
  ("keepalives_idle", .signed),
  ("keepalives_interval", .signed),
  ("keepalives_retries", .unsigned (UInt32.size - 1)),
  ("target_session_attrs", .oneOf ["any", "read-write", "read-only"]),
  ("channel_binding", .oneOf ["disable", "prefer", "require"]),
  ("load_balance_hosts", .oneOf ["disable", "random"])]

def defaultPort : Nat := 5432

def port? (cs : List Char) : Option UInt16 :=
  if cs = [] then some (.ofNat defaultPort) else (Number.readUnsigned? 65535 cs).map .ofNat

def set? (o : ConnectOptions) (name value : String) : Option ConnectOptions :=
  match name with
  | "user" => some { o with user := some value }
  | "password" => some { o with password := some value.toUTF8.data.toList }
  | "dbname" => some { o with database := some value }
  | "host" =>
    some { o with hosts := o.hosts ++ (value.toList.splitOn ',').map (Host.ofName ∘ String.ofList) }
  | "port" => do
    let ports ← (value.toList.splitOn ',').mapM port?
    return { o with ports := o.ports ++ ports }
  | _ =>
    match tuning.lookup name with
    | some domain => if domain.admits value.toList then some o else none
    | none => none

/-- The characters up to a test, after a backslash any character, and what is left. -/
def readValue (stop : Char → Bool) : List Char → List Char × List Char
  | [] => ([], [])
  | ['\\'] => ([], [])
  | '\\' :: c :: rest => let (v, r) := readValue stop rest; (c :: v, r)
  | c :: rest =>
    if stop c then ([], c :: rest) else let (v, r) := readValue stop rest; (c :: v, r)

def settingValue? : List Char → Option (List Char × List Char)
  | '\'' :: rest =>
    match readValue (· = '\'') rest with
    | (v, _ :: after) => some (v, after)
    | (_, []) => none
  | cs =>
    match readValue Text.isBlank cs with
    | ([], _) => none
    | r => some r

theorem readValue_length_le (stop : Char → Bool) (cs : List Char) :
    (readValue stop cs).2.length ≤ cs.length := by
  fun_induction readValue stop cs <;> simp_all <;> omega

theorem settingValue?_length_le {cs v r : List Char} (h : settingValue? cs = some (v, r)) :
    r.length ≤ cs.length := by
  unfold settingValue? at h
  split at h
  · rename_i rest
    have := readValue_length_le (· = '\'') rest
    split at h <;> simp_all
    omega
  · have := readValue_length_le Text.isBlank cs
    split at h <;> simp_all

/-- Settings up to the end of the text, or to an equals sign that no name precedes. -/
def ofSettings? (o : ConnectOptions) (cs : List Char) : Option ConnectOptions :=
  let isNamePart (c : Char) := !Text.isBlank c && c != '='
  let start := Text.trimLeft cs
  let name := start.takeWhile isNamePart
  if name = [] then some o
  else
    match _ : Text.trimLeft (start.dropWhile isNamePart) with
    | '=' :: rest =>
      match _ : settingValue? (Text.trimLeft rest) with
      | some (value, after) =>
        (o.set? (String.ofList name) (String.ofList value)).bind (ofSettings? · after)
      | none => none
    | _ => none
termination_by cs.length
decreasing_by
  have h1 : start.length ≤ cs.length := (List.dropWhile_sublist _).length_le
  have h2 : (Text.trimLeft (start.dropWhile isNamePart)).length ≤ start.length :=
    ((List.dropWhile_sublist _).trans (List.dropWhile_sublist _)).length_le
  have h3 : (Text.trimLeft rest).length ≤ rest.length := (List.dropWhile_sublist _).length_le
  have h4 := settingValue?_length_le ‹settingValue? _ = _›
  rw [‹Text.trimLeft (start.dropWhile isNamePart) = _›] at h2
  simp only [List.length_cons] at h2
  omega

def until? (stop : Char → Bool) (cs : List Char) : Option (List Char × List Char) :=
  match cs.dropWhile (!stop ·) with
  | [] => none
  | rest => some (cs.takeWhile (!stop ·), rest)

/-- As `until?`, where all is taken if no character meets the test. -/
def upTo (stop : Char → Bool) (cs : List Char) : List Char × List Char :=
  (cs.takeWhile (!stop ·), cs.dropWhile (!stop ·))

def setCredentials? (o : ConnectOptions) (cs : List Char) : Option ConnectOptions := do
  let (user, rest) := upTo (· = ':') cs
  let o := { o with user := some (← Percent.decodeText? user) }
  return match rest with
    | [] => o
    | _ :: password => { o with password := some (Percent.decode password) }

/-- A host with escapes; the path of a socket need not be text. -/
def addHost? (o : ConnectOptions) (cs : List Char) : Option ConnectOptions := do
  let host ← if (Percent.decode cs).head? = some 0x2F then
      some (Host.localSocket (Percent.decode cs))
    else (Percent.decodeText? cs).map Host.network
  return { o with hosts := o.hosts ++ [host] }

def addServer? (o : ConnectOptions) (cs : List Char) : Option ConnectOptions := do
  let (host, port) ← match cs with
    | '[' :: rest =>
      match until? (· = ']') rest with
      | some (host, [_]) => some (host, none)
      | some (host, _ :: ':' :: port) => some (host, some port)
      | _ => none
    | _ =>
      match upTo (· = ':') cs with
      | (host, _ :: port) => some (host, some port)
      | (host, []) => some (host, none)
  let o ← o.addHost? host
  o.set? "port" (← (port.map Percent.decodeText?).getD (some (toString defaultPort)))

def setQuery? (o : ConnectOptions) (cs : List Char) : Option ConnectOptions :=
  if cs = [] then some o
  else
    match cs.takeWhile (· ≠ '='), _ : cs.dropWhile (· ≠ '=') with
    | name, _ :: rest => do
      let name ← Percent.decodeText? name
      let value := rest.takeWhile (· ≠ '&')
      let o ← if name = "host" then o.addHost? value
        else o.set? name (← Percent.decodeText? value)
      setQuery? o ((rest.dropWhile (· ≠ '&')).drop 1)
    | _, [] => none
termination_by cs.length
decreasing_by
  have h1 : (cs.dropWhile (· ≠ '=')).length ≤ cs.length := (List.dropWhile_sublist _).length_le
  have h2 : (rest.dropWhile (· ≠ '&')).length ≤ rest.length := (List.dropWhile_sublist _).length_le
  rw [‹cs.dropWhile (· ≠ '=') = _›] at h1
  simp only [List.length_cons, List.length_drop] at *
  omega

def ofUrlBody? (cs : List Char) : Option ConnectOptions := do
  let (o, cs) ← match until? (· = '@') cs with
    | some (credentials, rest) => do some (← setCredentials? {} credentials, rest.drop 1)
    | none => some ({}, cs)
  let (servers, cs) := upTo (fun c => c = '/' || c = '?') cs
  let o ← if servers = [] then some o else (servers.splitOn ',').foldlM addServer? o
  let (database, cs) := match cs with
    | '/' :: rest => upTo (· = '?') rest
    | _ => ([], cs)
  let o ← if database = [] then some o else
    do some { o with database := some (← Percent.decodeText? database) }
  match cs with
  | '?' :: rest => o.setQuery? rest
  | _ => some o

def dropStart? (start : String) (cs : List Char) : Option (List Char) :=
  if start.toList.isPrefixOf cs then some (cs.drop start.length) else none

def ofString? (s : String) : Option ConnectOptions :=
  match dropStart? "postgres://" s.toList <|> dropStart? "postgresql://" s.toList with
  | some body => ofUrlBody? body
  | none => ofSettings? {} s.toList

end ConnectOptions

end SqlClient
