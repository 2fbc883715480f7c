import SqlClient.Value.Basic
/-!
# Fragments

Pieces of SQL that nest. A fragment alternates spans of literal text with slots, which hold a bound
value or another fragment, and ends with a span. Placeholders `$1`, `$2`, … are numbered when the
whole tree is compiled, so nesting never misorders them. Identifiers stand between double quotes,
and a quote inside is written twice; in templates an empty pair of braces marks a slot and a doubled
brace stands for one brace.
-/
namespace SqlClient.Sql

structure IdentPath where
  first : String
  rest : List String
  deriving DecidableEq, Repr

def IdentPath.name (s : String) : IdentPath := ⟨s, []⟩

def IdentPath.segments (p : IdentPath) : List String := p.first :: p.rest

def doubleQuotes (cs : List Char) : List Char :=
  cs.flatMap fun c => if c = '"' then ['"', '"'] else [c]

def quoteSegment (s : String) : List Char := '"' :: doubleQuotes s.toList ++ ['"']

def IdentPath.quotedChars (p : IdentPath) : List Char :=
  List.intercalate ['.'] (p.segments.map quoteSegment)

def IdentPath.quoted (p : IdentPath) : String := String.ofList p.quotedChars

namespace Template

def consHead (c : Char) : List (List Char) → List (List Char)
  | [] => [[c]]
  | span :: spans => (c :: span) :: spans

def split : List Char → List (List Char)
  | [] => [[]]
  | '\x7b' :: '\x7b' :: rest => consHead '\x7b' (split rest)
  | '\x7d' :: '\x7d' :: rest => consHead '\x7d' (split rest)
  | '\x7b' :: '\x7d' :: rest => [] :: split rest
  | c :: rest => consHead c (split rest)

def escape (cs : List Char) : List Char :=
  cs.flatMap fun c => if c = '\x7b' || c = '\x7d' then [c, c] else [c]

def write (spans : List (List Char)) : List Char :=
  List.intercalate ['\x7b', '\x7d'] (spans.map escape)

def spans (template : String) : List String := (split template.toList).map String.ofList

end Template

structure Statement where
  text : String
  params : List Value
  deriving Repr

namespace Statement

def ofText (text : String) : Statement := ⟨text, []⟩

def bind {α : Type} [ToValue α] (s : Statement) (a : α) : Statement :=
  { s with params := s.params ++ [toValue a] }

end Statement

inductive Fragment where
  | text (span : String)
  | bind (span : String) (value : Value) (rest : Fragment)
  | splice (span : String) (inner rest : Fragment)
  deriving Repr

inductive Slot where
  | param (value : Value)
  | fragment (inner : Fragment)
  deriving Repr

structure SpanMismatch where
  spans : Nat
  slots : Nat
  deriving DecidableEq, Repr

def SpanMismatch.message (m : SpanMismatch) : String :=
  "fragment needs exactly one more text span than slots (" ++ toString m.spans ++ " spans, " ++
    toString m.slots ++ " slots)"

namespace Fragment

def empty : Fragment := .text ""

def raw (span : String) : Fragment := .text span

def ident (path : IdentPath) : Fragment := .text path.quoted

def texts : Fragment → List String
  | .text t => [t]
  | .bind t _ rest => t :: rest.texts
  | .splice t _ rest => t :: rest.texts

def slots : Fragment → List Slot
  | .text _ => []
  | .bind _ v rest => .param v :: rest.slots
  | .splice _ f rest => .fragment f :: rest.slots

theorem length_texts (f : Fragment) : f.texts.length = f.slots.length + 1 := by
  induction f with
  | text => rfl
  | bind _ _ _ ih => simp [texts, slots, ih]
  | splice _ _ _ _ ih => simp [texts, slots, ih]

def ofPairs (span : String) : List (Slot × String) → Fragment
  | [] => .text span
  | (.param v, next) :: rest => .bind span v (ofPairs next rest)
  | (.fragment f, next) :: rest => .splice span f (ofPairs next rest)

def ofParts (texts : List String) (slots : List Slot) : Except SpanMismatch Fragment :=
  match texts with
  | [] => .error ⟨0, slots.length⟩
  | first :: rest =>
    if rest.length = slots.length then .ok (ofPairs first (slots.zip rest))
    else .error ⟨texts.length, slots.length⟩

def ofTemplate (template : String) (slots : List Slot) : Except SpanMismatch Fragment :=
  ofParts (Template.spans template) slots

def extend (f : Fragment) (tail : String → Fragment) : Fragment :=
  match f with
  | .text t => tail t
  | .bind t v rest => .bind t v (rest.extend tail)
  | .splice t g rest => .splice t g (rest.extend tail)

def push (f : Fragment) (s : String) : Fragment := f.extend fun t => .text (t ++ s)

def pushBind (f : Fragment) (v : Value) : Fragment := f.extend fun t => .bind t v (.text "")

def pushFragment (f g : Fragment) : Fragment := f.extend fun t => .splice t g (.text "")

def pushIdent (f : Fragment) (path : IdentPath) : Fragment := f.push path.quoted

def joinAfter (separator lead : String) : List Fragment → Fragment
  | [] => .text ""
  | f :: fs => .splice lead f (joinAfter separator separator fs)

def join (fs : List Fragment) (separator : String) : Fragment := joinAfter separator "" fs

def paramCount : Fragment → Nat
  | .text _ => 0
  | .bind _ _ rest => rest.paramCount + 1
  | .splice _ g rest => g.paramCount + rest.paramCount

inductive Piece where
  | text (span : String)
  | param (value : Value)
  deriving Repr

def consText (span : String) (pieces : List Piece) : List Piece :=
  if span.isEmpty then pieces else .text span :: pieces

/-- The pieces in reading order, before those of `after`. -/
def piecesBefore (f : Fragment) (after : List Piece) : List Piece :=
  match f with
  | .text t => consText t after
  | .bind t v rest => consText t (.param v :: rest.piecesBefore after)
  | .splice t g rest => consText t (g.piecesBefore (rest.piecesBefore after))

def pieces (f : Fragment) : List Piece := f.piecesBefore []

def params : List Piece → List Value
  | [] => []
  | .text _ :: rest => params rest
  | .param v :: rest => v :: params rest

def placeholder (n : Nat) : List Char := '$' :: Nat.toDigits 10 n

/-- The texts among the pieces, with values numbered from `next` on. -/
def numbered (next : Nat) : List Piece → List (List Char)
  | [] => []
  | .text t :: rest => t.toList :: numbered next rest
  | .param _ :: rest => placeholder next :: numbered (next + 1) rest

/-- One flat statement: placeholders from `$1` on, in reading order. -/
def compile (f : Fragment) : Statement :=
  let ps := f.pieces
  ⟨String.ofList (Text.tidyLines (numbered 1 ps).flatten), params ps⟩

end Fragment

end SqlClient.Sql
