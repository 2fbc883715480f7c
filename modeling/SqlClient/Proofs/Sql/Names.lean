import SqlClient.Proofs.Sql.Builders
import SqlClient.Proofs.Sql.Identifiers
/-!
# Names in compiled text

Tidying does not know of quotes. A quoted path is solid text, so it keeps its place whatever stands
around it, and it is read back from the compiled text; but a name with a line feed next to another
blank is settled on the way, and is read back as that other name.
-/
namespace SqlClient.Sql

open Text

def settledName (s : String) : String := String.ofList (settle s.toList)

def IdentPath.settled (path : IdentPath) : IdentPath :=
  ⟨settledName path.first, path.rest.map settledName⟩

theorem doubleQuotes_append (as bs : List Char) :
    doubleQuotes (as ++ bs) = doubleQuotes as ++ doubleQuotes bs := List.flatMap_append

theorem doubleQuotes_of_blank {cs : List Char} (h : Blank cs) : doubleQuotes cs = cs := by
  induction cs with
  | nil => rfl
  | cons c cs ih =>
    have hc : c ≠ '"' := by
      rintro rfl
      exact absurd (h '"' List.mem_cons_self) (by decide)
    rw [doubleQuotes_cons, if_neg hc, ih fun d hd => h d (List.mem_cons_of_mem c hd)]
    rfl

theorem blank_closeGap {gap : List Char} (h : Blank gap) : Blank (closeGap gap) := by
  unfold closeGap
  split
  · exact blank_nil.cons isBlank_newline
  · exact h

/-- A quote is no blank, so no gap begins or ends anywhere else when it is doubled. -/
theorem settleFrom_doubleQuotes {gap : List Char} (h : Blank gap) (cs : List Char) :
    settleFrom gap (doubleQuotes cs) = doubleQuotes (settleFrom gap cs) := by
  have quote : isBlank '"' = false := by decide
  induction cs generalizing gap with
  | nil => exact (doubleQuotes_of_blank (blank_closeGap h)).symm
  | cons c cs ih =>
    by_cases hc : isBlank c = true
    · have hq : c ≠ '"' := by
        rintro rfl
        rw [quote] at hc
        cases hc
      rw [doubleQuotes_cons, if_neg hq, List.singleton_append, settleFrom, settleFrom, if_pos hc,
        if_pos hc, ih (h.append (blank_nil.cons hc))]
    · have hb : isBlank c = false := by simpa using hc
      have solid (d : Char) (hd : isBlank d = false) (ds : List Char) :
          settleFrom gap (d :: ds) = closeGap gap ++ d :: settle ds :=
        settleFrom_append_cons hd gap [] ds
      rw [solid c hb, doubleQuotes_append, doubleQuotes_of_blank (blank_closeGap h),
        doubleQuotes_cons, doubleQuotes_cons, settle, ← ih blank_nil]
      split
      · rw [List.cons_append, List.singleton_append, solid _ quote, settle_cons quote]
        rfl
      · rw [List.singleton_append, solid c hb]
        rfl

theorem settle_quoteSegment (s : String) :
    settle (quoteSegment s) = quoteSegment (settledName s) := by
  have quote : isBlank '"' = false := by decide
  rw [quoteSegment, List.cons_append, settle_cons quote, settle_append_cons quote, settle,
    settleFrom_doubleQuotes blank_nil, quoteSegment, settledName, String.toList_ofList]
  rfl

theorem solid_quoteSegment (s : String) : Solid (quoteSegment s) :=
  ⟨⟨'"', rfl, by decide⟩, '"', List.getLast?_concat, by decide⟩

namespace IdentPath

theorem solid_quotedChars (path : IdentPath) : Solid path.quotedChars := by
  obtain ⟨first, others⟩ := path
  induction others generalizing first with
  | nil =>
    rw [← IdentPath.name, quotedChars_name]
    exact solid_quoteSegment first
  | cons s others ih =>
    rw [quotedChars_qualified]
    exact (solid_quoteSegment first).around (ih s) ['.']

theorem settle_quotedChars (path : IdentPath) :
    settle path.quotedChars = path.settled.quotedChars := by
  obtain ⟨first, others⟩ := path
  induction others generalizing first with
  | nil =>
    rw [settled, List.map_nil, ← IdentPath.name, ← IdentPath.name, quotedChars_name,
      quotedChars_name, settle_quoteSegment]
    rfl
  | cons s others ih =>
    have dot : isBlank '.' = false := by decide
    rw [quotedChars_qualified, settle_append_cons dot, ih, settle_quoteSegment, settled, settled,
      List.map_cons, quotedChars_qualified]

/-- A path is settled just if no line feed in a segment stands next to another blank. -/
theorem settled_eq_self_iff (path : IdentPath) :
    path.settled = path ↔ ∀ s ∈ path.segments, Unpadded s.toList := by
  have name (s : String) : settledName s = s ↔ Unpadded s.toList := by
    rw [settledName, ← settle_eq_self_iff, ← String.toList_inj, String.toList_ofList]
  have names (ss : List String) : ss.map settledName = ss ↔ ∀ s ∈ ss, Unpadded s.toList := by
    induction ss with
    | nil => simp
    | cons s ss ih => rw [List.map_cons, List.cons.injEq, List.forall_mem_cons, name, ih]
  exact Iff.trans (by rw [settled, segments, mk.injEq, List.map_cons, List.cons.injEq])
    (names path.segments)

end IdentPath

namespace Fragment

/-- A fragment that holds a quoted path, with what it holds before and behind it. The path comes in
by itself; the fragment that holds it is put in the slot of another one, or is written out before or
behind one. -/
inductive Holds (path : IdentPath) : Fragment → Fragment → Fragment → Prop where
  | ident : Holds path (.ident path) .empty .empty
  | nested {inner before after : Fragment} (h : Holds path inner before after)
      (outer rest : Fragment) :
      Holds path (around outer inner rest) (outer ++ before) (after ++ rest)
  | continued {f before after : Fragment} (h : Holds path f before after) (g : Fragment) :
      Holds path (f ++ g) before (after ++ g)
  | preceded {f before after : Fragment} (h : Holds path f before after) (g : Fragment) :
      Holds path (g ++ f) (g ++ before) after

theorem append_empty (f : Fragment) : f ++ .empty = f := by
  change (f.extend fun t => .text (t ++ "")) = f
  induction f with
  | text t => rw [extend, String.append_empty]
  | bind t v rest ih => rw [extend, ih]
  | splice t g rest _ ih => rw [extend, ih]

section Holds

variable {path : IdentPath} {f g before after : Fragment}

/-- A builder keeps the path that it holds. -/
theorem Holds.step (h : Holds path f before after) (s : Step) :
    Holds path (s.apply f) before (s.apply after) := by
  rw [apply_eq_append, apply_eq_append]
  exact h.continued s.fragment

/-- A builder holds the path that is pushed to it. -/
theorem Holds.pushed (before : Fragment) : Holds path (before.pushIdent path) before .empty := by
  have held : Holds path (before ++ .ident path) (before ++ .empty) .empty :=
    Holds.ident.preceded before
  rw [append_empty] at held
  exact held

/-- What a slot holds at any depth, the whole fragment holds. -/
theorem Holds.of_reached {way : List Nat} (h : Holds path g before after)
    (reached : f.reached? way = some g) : ∃ before' after', Holds path f before' after' := by
  induction way generalizing f with
  | nil =>
    cases reached
    exact ⟨before, after, h⟩
  | cons slot way ih =>
    obtain ⟨inner, nested, deeper⟩ := Option.bind_eq_some_iff.mp reached
    obtain ⟨outer, rest, rfl, -⟩ := exists_around nested
    obtain ⟨before', after', held⟩ := ih deeper
    exact ⟨_, _, held.nested outer rest⟩

theorem Holds.values_eq (h : Holds path f before after) :
    f.values = before.values ++ after.values := by
  induction h with
  | ident => rfl
  | nested _ outer rest ih =>
    rw [values_around, values_append, values_append, ih]
    simp
  | continued _ g ih => rw [values_append, values_append, ih, List.append_assoc]
  | preceded _ g ih => rw [values_append, values_append, ih, List.append_assoc]

theorem Holds.spell_eq (h : Holds path f before after) (next : Nat) :
    Mark.spell (f.marks next) = Mark.spell (before.marks next) ++
      (path.quotedChars ++ Mark.spell (after.marks (next + before.values.length))) := by
  induction h generalizing next with
  | ident => simp [Fragment.ident, empty, IdentPath.quoted]
  | nested h outer rest ih =>
    rw [spell_around, spell_append, spell_append, ih, h.values_eq, values_append]
    simp [Nat.add_assoc]
  | continued h g ih =>
    rw [spell_append, spell_append, ih, h.values_eq]
    simp [Nat.add_assoc]
  | preceded _ g ih =>
    rw [spell_append, spell_append, ih, values_append]
    simp [Nat.add_assoc]

/-- The compiled text: what stands before the path, the settled path, and what follows. -/
theorem Holds.text_compile (h : Holds path f before after) :
    f.compile.text.toList = settle (trimLeft (Mark.spell (before.marks 1))) ++
      (path.settled.quotedChars ++
        settle (trimRight (Mark.spell (after.marks (1 + before.values.length))))) := by
  rw [Fragment.text_compile, String.toList_ofList, h.spell_eq,
    tidyLines_around path.solid_quotedChars, path.settle_quotedChars]

end Holds

/-- Behind what the text before it compiles to, a fragment that holds a path compiles to quoted
identifiers that are read back as the settled path, unless a quote or a dot follows. That is the
path itself just if no line feed in a segment stands next to another blank, and two paths in one
place compile to the same text just if they are settled alike. -/
theorem compiled_name_reads_back (path : IdentPath) (f before after : Fragment)
    (h : Holds path f before after) :
    let follows := Mark.spell (after.marks (1 + before.values.length))
    let rest := settle (trimRight follows)
    f.compile.text.toList = settle (trimLeft (Mark.spell (before.marks 1))) ++
      (path.settled.quoted.toList ++ rest) ∧
    (follows.head? ≠ some '"' → follows.head? ≠ some '.' →
      readPath (path.settled.quoted.toList ++ rest) = some (path.settled, rest)) ∧
    (path.settled = path ↔ ∀ s ∈ path.segments, Unpadded s.toList) ∧
    ∀ (other : IdentPath) (g : Fragment), Holds other g before after →
      (f.compile.text = g.compile.text ↔ path.settled = other.settled) := by
  intro follows rest
  have quoted : path.settled.quoted.toList = path.settled.quotedChars := String.toList_ofList
  rw [quoted]
  refine ⟨h.text_compile, ?_, path.settled_eq_self_iff, ?_⟩
  · intro hq hd
    have stays {c : Char} (hc : isBlank c = false) (hn : follows.head? ≠ some c) :
        rest.head? ≠ some c := fun he => hn (head?_of_trimRight (head?_of_settle hc he))
    exact readPath_quotedChars path.settled (stays (by decide) hq) (stays (by decide) hd)
  · intro other g hg
    rw [← String.toList_inj, h.text_compile, hg.text_compile, List.append_cancel_left_eq,
      List.append_cancel_right_eq, IdentPath.quotedChars_injective.eq_iff]

/-- In a slot behind a line of text and before a value: a quote in the one segment, a line feed
between spaces in the other. -/
theorem compiled_name_reads_back_nested :
    let path : IdentPath := ⟨"a\"b", ["c \n d"]⟩
    let other : IdentPath := ⟨"a\"b", ["c\nd"]⟩
    let place (path : IdentPath) : Fragment :=
      around (.text "SELECT\n") ((Fragment.ident path).push " = ") (.bind "" .null (.text ""))
    let before : Fragment := .text "SELECT\n" ++ .empty
    let after : Fragment := Fragment.empty.push " = " ++ .bind "" .null (.text "")
    (Holds path (place path) before after ∧ Holds other (place other) before after) ∧
      (place path).compile.text.toList =
        "SELECT\n".toList ++ ("\"a\"\"b\".\"c\nd\"".toList ++ " = $1".toList) ∧
      readPath ("\"a\"\"b\".\"c\nd\"".toList ++ " = $1".toList) =
        some (other, " = $1".toList) ∧
      (place path).compile.text = (place other).compile.text := by
  intro path other place before after
  have holds (path : IdentPath) : Holds path (place path) before after :=
    (Holds.ident.step (.push " = ")).nested _ _
  obtain ⟨text, back, -, same⟩ :=
    compiled_name_reads_back path (place path) before after (holds path)
  have lead : settle (trimLeft (Mark.spell (before.marks 1))) = "SELECT\n".toList := by decide
  have settled : path.settled = other := by decide
  have quoted : other.quoted.toList = "\"a\"\"b\".\"c\nd\"".toList := by decide
  have follows : Mark.spell (after.marks (1 + before.values.length)) = " = $1".toList := by decide
  have rest : settle (trimRight " = $1".toList) = " = $1".toList := by decide
  rw [follows, rest, settled, quoted] at back
  rw [follows, rest, lead, settled, quoted] at text
  have alike := (same other (place other) (holds other)).mpr
  exact ⟨⟨holds path, holds other⟩, text, back (by decide) (by decide), alike (by decide)⟩

/-- A space before the line feed in a name is lost: nowhere in the text is the name read back, and
it has the text of the name without the space. -/
theorem padded_name_lost :
    let path : IdentPath := .name "a \nb"
    let other : IdentPath := .name "a\nb"
    (Holds path (.ident path) .empty .empty ∧ Holds other (.ident other) .empty .empty) ∧
      (∀ lead part rest : List Char, (Fragment.ident path).compile.text.toList = lead ++ part →
        readPath part ≠ some (path, rest)) ∧
      path ≠ other ∧ (Fragment.ident path).compile.text = (Fragment.ident other).compile.text := by
  intro path other
  refine ⟨⟨.ident, .ident⟩, ?_, by decide, by decide⟩
  intro lead part rest whole read
  obtain ⟨rfl, -⟩ := eq_of_readPath read
  have text : (Fragment.ident path).compile.text.toList = "\"a\nb\"".toList := by decide
  have quoted : path.quotedChars = "\"a \nb\"".toList := by decide
  have longer := congrArg List.length (text.symm.trans whole)
  rw [quoted, List.length_append, List.length_append] at longer
  have counted : "\"a\nb\"".toList.length = 5 ∧ "\"a \nb\"".toList.length = 6 := by decide
  omega

end Fragment

end SqlClient.Sql
