import Mathlib.Data.List.ModifyLast
import SqlClient.Proofs.Sql.Splices
/-!
# Builders

A fragment starts from spans and slots, or from other fragments, and goes on step by step. What it
holds is read from left to right: what it started with, and then what each step brings. No step
loses a part, since there is always a last span to continue.
-/
namespace SqlClient.Sql.Fragment

/-- A character of literal text, or a bound value. -/
inductive Item where
  | char (c : Char)
  | param (value : Value)
  deriving Repr

def Item.literal (s : String) : List Item := s.toList.map .char

def Piece.items : Piece → List Item
  | .text t => Item.literal t
  | .param v => [.param v]

/-- The literal text and the bound values of the flattened fragment. Pieces of text that meet are
not told apart: a span that is continued is one piece. -/
def items (f : Fragment) : List Item := f.pieces.flatMap Piece.items

def Slot.items : Slot → List Item
  | .param v => [.param v]
  | .fragment g => g.items

def interleaved : List String → List Slot → List Item
  | [], _ => []
  | t :: ts, [] => Item.literal t ++ interleaved ts []
  | t :: ts, slot :: slots => Item.literal t ++ (Slot.items slot ++ interleaved ts slots)

inductive Origin where
  | empty
  | raw (s : String)
  | ident (path : IdentPath)
  | parts (texts : List String) (slots : List Slot)
  | template (t : String) (slots : List Slot)
  | join (fs : List Fragment) (separator : String)

def Origin.fragment : Origin → Except SpanMismatch Fragment
  | .empty => .ok .empty
  | .raw s => .ok (.raw s)
  | .ident path => .ok (.ident path)
  | .parts texts slots => ofParts texts slots
  | .template t slots => ofTemplate t slots
  | .join fs separator => .ok (.join fs separator)

def Origin.items : Origin → List Item
  | .empty => []
  | .raw s => Item.literal s
  | .ident path => Item.literal path.quoted
  | .parts texts slots => interleaved texts slots
  | .template t slots => interleaved (Template.spans t) slots
  | .join fs separator => List.intercalate (Item.literal separator) (fs.map Fragment.items)

/-- A step that continues a fragment. Steps that are chained are the same ones: the fragment is not
changed in place. -/
inductive Step where
  | push (s : String)
  | pushBind (value : Value)
  | pushFragment (g : Fragment)
  | pushIdent (path : IdentPath)

namespace Step

def apply : Step → Fragment → Fragment
  | .push s, f => f.push s
  | .pushBind v, f => f.pushBind v
  | .pushFragment g, f => f.pushFragment g
  | .pushIdent path, f => f.pushIdent path

def fragment : Step → Fragment
  | .push s => .text s
  | .pushBind v => .bind "" v (.text "")
  | .pushFragment g => .splice "" g (.text "")
  | .pushIdent path => .text path.quoted

def items : Step → List Item
  | .push s => Item.literal s
  | .pushBind v => [.param v]
  | .pushFragment g => g.items
  | .pushIdent path => Item.literal path.quoted

/-- The spans after the step: the last one is continued, or a new one begins behind a new slot. -/
def texts : Step → List String → List String
  | .push s, ts => ts.modifyLast (· ++ s)
  | .pushBind _, ts | .pushFragment _, ts => ts ++ [""]
  | .pushIdent path, ts => ts.modifyLast (· ++ path.quoted)

def slots : Step → List Slot
  | .push _ | .pushIdent _ => []
  | .pushBind v => [.param v]
  | .pushFragment g => [.fragment g]

end Step

def build (f : Fragment) (steps : List Step) : Fragment := steps.foldl (fun f s => s.apply f) f

@[simp] theorem Item.literal_empty : Item.literal "" = [] := rfl

@[simp] theorem Item.literal_append (s t : String) :
    Item.literal (s ++ t) = Item.literal s ++ Item.literal t := by
  simp [Item.literal]

theorem items_consText (t : String) (ps : List Piece) :
    (consText t ps).flatMap Piece.items = Item.literal t ++ ps.flatMap Piece.items := by
  unfold consText
  split
  · rename_i h
    simp [String.isEmpty_iff.mp h]
  · rfl

theorem items_piecesBefore (f : Fragment) (after : List Piece) :
    (f.piecesBefore after).flatMap Piece.items = f.items ++ after.flatMap Piece.items := by
  unfold items pieces
  induction f generalizing after with
  | text t => simp [piecesBefore, items_consText]
  | bind t v rest ih =>
    simp only [piecesBefore, items_consText, List.flatMap_cons, ih after, List.append_assoc]
  | splice t g rest ihg ihr =>
    simp only [piecesBefore, items_consText, ihg (rest.piecesBefore after),
      ihg (rest.piecesBefore []), ihr after, List.append_assoc]

section Reading

variable (t : String) (v : Value) (f g rest : Fragment)

@[simp] theorem items_text : (text t).items = Item.literal t := by
  simp [items, pieces, piecesBefore, items_consText]

@[simp] theorem items_bind : (bind t v rest).items = Item.literal t ++ .param v :: rest.items := by
  rw [items, pieces, piecesBefore, items_consText, List.flatMap_cons]
  rfl

@[simp] theorem items_splice :
    (splice t g rest).items = Item.literal t ++ (g.items ++ rest.items) := by
  rw [items, pieces, piecesBefore, items_consText, items_piecesBefore]
  rfl

/-- Flattening pairs every slot with the span before it. -/
theorem items_eq_interleaved : f.items = interleaved f.texts f.slots := by
  induction f with
  | text t => simp [texts, slots, interleaved]
  | bind t v rest ih => simp [texts, slots, interleaved, Slot.items, ih]
  | splice t g rest _ ih => simp [texts, slots, interleaved, Slot.items, ih]

end Reading

/-- The last span of the one and the first span of the other are read as one. -/
theorem items_append (f g : Fragment) : (f ++ g).items = f.items ++ g.items := by
  change (f.extend fun t => g.precede t).items = _
  induction f with
  | text t => cases g <;> simp [extend, precede]
  | bind t v rest ih => simp [extend, ih]
  | splice t h rest _ ih => simp [extend, ih]

theorem apply_eq_append (s : Step) (f : Fragment) : s.apply f = f ++ s.fragment := by
  have extended {tail : String → Fragment} (h : ∀ t, tail t = s.fragment.precede t) :
      f.extend tail = f ++ s.fragment := congrArg f.extend (funext h)
  cases s with
  | push s => rfl
  | pushBind v => exact extended fun t => by simp [Step.fragment, precede]
  | pushFragment g => exact extended fun t => by simp [Step.fragment, precede]
  | pushIdent path => rfl

theorem items_apply (s : Step) (f : Fragment) : (s.apply f).items = f.items ++ s.items := by
  rw [apply_eq_append, items_append]
  cases s <;> simp [Step.fragment, Step.items]

theorem joinSpans_concat (before : List String) (last u : String) (us : List String) :
    joinSpans (before ++ [last]) (u :: us) = before ++ (last ++ u) :: us := by
  induction before with
  | nil => rfl
  | cons t before ih =>
    obtain ⟨next, rest, h⟩ := List.exists_cons_of_ne_nil (List.append_ne_nil_of_right_ne_nil before
      (List.cons_ne_nil last []))
    rw [List.cons_append, h, joinSpans, ← h, ih]
    rfl

/-- There is a last span, and only that one is touched. -/
theorem texts_apply (s : Step) (f : Fragment) : (s.apply f).texts = s.texts f.texts := by
  obtain ⟨before, last, h⟩ : ∃ before last, f.texts = before ++ [last] := by
    rcases List.eq_nil_or_concat' f.texts with none | some
    · cases f <;> cases none
    · exact some
  rw [apply_eq_append, texts_append, h]
  cases s <;> simp [Step.fragment, Step.texts, texts, joinSpans_concat, List.modifyLast_concat]

theorem slots_apply (s : Step) (f : Fragment) : (s.apply f).slots = f.slots ++ s.slots := by
  rw [apply_eq_append, slots_append]
  cases s <;> rfl

theorem items_build (f : Fragment) (steps : List Step) :
    (f.build steps).items = f.items ++ steps.flatMap Step.items := by
  induction steps generalizing f with
  | nil => simp [build]
  | cons s steps ih =>
    calc (f.build (s :: steps)).items = ((s.apply f).build steps).items := rfl
      _ = (s.apply f).items ++ steps.flatMap Step.items := ih _
      _ = f.items ++ (s :: steps).flatMap Step.items := by
        rw [items_apply, List.flatMap_cons, List.append_assoc]

/-- The lead stands before the first fragment and the separator before each other one. -/
theorem items_joinAfter (separator lead : String) (f : Fragment) (fs : List Fragment) :
    (joinAfter separator lead (f :: fs)).items =
      Item.literal lead ++ List.intercalate (Item.literal separator) ((f :: fs).map items) := by
  induction fs generalizing lead f with
  | nil => simp [joinAfter]
  | cons g fs ih =>
    rw [joinAfter, items_splice, ih, List.map_cons, List.map_cons, List.map_cons,
      List.intercalate_cons_cons, List.append_assoc]

theorem items_join (fs : List Fragment) (separator : String) :
    (join fs separator).items =
      List.intercalate (Item.literal separator) (fs.map items) := by
  cases fs with
  | nil => exact items_text ""
  | cons f fs => exact items_joinAfter separator "" f fs

theorem items_of_ofParts {texts : List String} {slots : List Slot} {f : Fragment}
    (h : ofParts texts slots = .ok f) : f.items = interleaved texts slots := by
  obtain ⟨rfl, rfl⟩ := parts_of_ofParts h
  exact items_eq_interleaved f

theorem items_origin {origin : Origin} {start : Fragment} (h : origin.fragment = .ok start) :
    start.items = origin.items := by
  cases origin with
  | parts texts slots => exact items_of_ofParts h
  | template t slots => exact items_of_ofParts h
  | empty => cases h; exact items_text ""
  | raw s => cases h; exact items_text s
  | ident path => cases h; exact items_text path.quoted
  | join fs separator => cases h; exact items_join fs separator

/-- A fragment that is built holds what it started with and then what each step brought, whatever
fragments are used on the way; it has one span more than slots at any time, each step continues the
last span or adds a slot with an empty span behind it, and reading pairs them by position. -/
theorem items_of_built (origin : Origin) (start : Fragment) (h : origin.fragment = .ok start)
    (steps : List Step) :
    let f := start.build steps
    f.items = origin.items ++ steps.flatMap Step.items ∧
      f.items = interleaved f.texts f.slots ∧
      f.texts.length = f.slots.length + 1 ∧
      ∀ s : Step, (s.apply f).texts = s.texts f.texts ∧ (s.apply f).slots = f.slots ++ s.slots := by
  intro f
  refine ⟨?_, items_eq_interleaved f, length_texts f, fun s => ⟨texts_apply s f, slots_apply s f⟩⟩
  rw [items_build, items_origin h]

/-- A template that goes on with a name, a joined fragment in brackets, and a value. -/
theorem items_of_built_template :
    let origin : Origin := .template "a = {} AND " [.param (.int 1)]
    let steps : List Step := [.pushIdent (.name "b"), .push " IN (",
      .pushFragment (join [raw "x", .bind "" .null (text "")] ", "), .push ")"]
    ∃ start, origin.fragment = .ok start ∧ (start.build steps).texts.length = 3 ∧
      (start.build steps).items = Item.literal "a = " ++ .param (.int 1) ::
        (Item.literal " AND \"b\" IN (x, " ++ .param .null :: Item.literal ")") := by
  intro origin steps
  obtain ⟨start, h⟩ : ∃ start, origin.fragment = .ok start := ⟨_, rfl⟩
  obtain ⟨held, -, -, -⟩ := items_of_built origin start h steps
  refine ⟨start, h, ?_, ?_⟩
  · cases h
    rfl
  · rw [held]
    rfl

end SqlClient.Sql.Fragment
