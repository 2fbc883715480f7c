import Mathlib.Data.List.Basic
import SqlClient.Sql.Fragment
/-!
# Reading identifiers

A reader of delimited identifiers, as the server has one: a doubled quote stands for one quote and a
single one ends the identifier, which it can tell by looking at the next character. It reads back
the path that was quoted, and accepts nothing else, so no name reaches beyond its own quotes.
-/
namespace SqlClient.Sql

/-- Read behind an opening quote: the name up to the quote that ends it, and what follows. -/
def readName : List Char → Option (List Char × List Char)
  | [] => none
  | '"' :: '"' :: cs => (readName cs).map fun (name, rest) => ('"' :: name, rest)
  | '"' :: cs => some ([], cs)
  | c :: cs => (readName cs).map fun (name, rest) => (c :: name, rest)

def readSegment : List Char → Option (String × List Char)
  | '"' :: cs => (readName cs).map fun (name, rest) => (String.ofList name, rest)
  | _ => none

section Names

variable {cs name rest left : List Char} {s t : String}

@[simp] theorem doubleQuotes_cons (c : Char) (cs : List Char) :
    doubleQuotes (c :: cs) = (if c = '"' then ['"', '"'] else [c]) ++ doubleQuotes cs :=
  List.flatMap_cons

theorem readName_quote (h : rest.head? ≠ some '"') : readName ('"' :: rest) = some ([], rest) := by
  rw [readName]
  rintro cs rfl
  exact h rfl

theorem readName_cons {c : Char} (h : c ≠ '"') (cs : List Char) :
    readName (c :: cs) = (readName cs).map fun (name, rest) => (c :: name, rest) := by
  rw [readName]
  · intro _ hc
    exact absurd hc h
  · exact h

theorem readName_doubleQuotes (h : rest.head? ≠ some '"') :
    readName (doubleQuotes name ++ '"' :: rest) = some (name, rest) := by
  induction name with
  | nil => exact readName_quote h
  | cons c name ih =>
    by_cases hc : c = '"'
    · subst hc
      simp [readName, ih]
    · simp [hc, readName_cons hc, ih]

/-- What is read was written so, and the quote that ends it is a single one. -/
theorem eq_of_readName (h : readName cs = some (name, rest)) :
    cs = doubleQuotes name ++ '"' :: rest ∧ rest.head? ≠ some '"' := by
  fun_induction readName cs generalizing name with
  | case1 => cases h
  | case2 cs ih =>
    obtain ⟨⟨name', rest'⟩, read, same⟩ := Option.map_eq_some_iff.mp h
    cases same
    obtain ⟨rfl, ends⟩ := ih read
    exact ⟨by simp, ends⟩
  | case3 cs single =>
    cases h
    refine ⟨rfl, fun he => ?_⟩
    obtain ⟨tail, rfl⟩ := List.head?_eq_some_iff.mp he
    exact single tail rfl
  | case4 c cs _ hc ih =>
    obtain ⟨⟨name', rest'⟩, read, same⟩ := Option.map_eq_some_iff.mp h
    cases same
    obtain ⟨rfl, ends⟩ := ih read
    exact ⟨by rw [doubleQuotes_cons, if_neg hc]; rfl, ends⟩

theorem quoteSegment_append (s : String) (rest : List Char) :
    quoteSegment s ++ rest = '"' :: (doubleQuotes s.toList ++ '"' :: rest) := by
  simp [quoteSegment]

theorem readSegment_eq_some_iff :
    readSegment cs = some (s, rest) ↔ cs = quoteSegment s ++ rest ∧ rest.head? ≠ some '"' := by
  rw [quoteSegment_append]
  constructor
  · intro h
    rw [readSegment.eq_def] at h
    split at h
    · obtain ⟨⟨name, rest'⟩, read, same⟩ := Option.map_eq_some_iff.mp h
      cases same
      obtain ⟨rfl, ends⟩ := eq_of_readName read
      exact ⟨by rw [String.toList_ofList], ends⟩
    · cases h
  · rintro ⟨rfl, h⟩
    rw [readSegment, readName_doubleQuotes h, Option.map_some]
    dsimp only
    rw [String.ofList_toList]

/-- Whatever follows, a name is read at least up to the end of its own quotation. -/
theorem suffix_of_readName (h : readName (doubleQuotes name ++ '"' :: rest) = some (cs, left)) :
    left <:+ rest := by
  induction name generalizing cs with
  | nil =>
    by_cases hq : rest.head? = some '"'
    · -- the quote that follows is taken for the second half of a doubled one
      obtain ⟨tail, rfl⟩ := List.head?_eq_some_iff.mp hq
      obtain ⟨⟨cs', left'⟩, read, same⟩ := Option.map_eq_some_iff.mp h
      cases same
      obtain ⟨rfl, -⟩ := eq_of_readName read
      exact ⟨'"' :: doubleQuotes cs' ++ ['"'], by simp⟩
    · rw [readName_doubleQuotes hq] at h
      cases h
      exact List.suffix_rfl
  | cons c name ih =>
    by_cases hc : c = '"'
    · subst hc
      obtain ⟨⟨cs', left'⟩, read, same⟩ := Option.map_eq_some_iff.mp h
      cases same
      exact ih read
    · rw [doubleQuotes_cons, if_neg hc, List.append_assoc, List.singleton_append,
        readName_cons hc] at h
      obtain ⟨⟨cs', left'⟩, read, same⟩ := Option.map_eq_some_iff.mp h
      cases same
      exact ih read

theorem suffix_of_readSegment (h : readSegment (quoteSegment s ++ rest) = some (t, left)) :
    left <:+ rest := by
  rw [quoteSegment_append] at h
  obtain ⟨⟨cs, left'⟩, read, same⟩ := Option.map_eq_some_iff.mp h
  cases same
  exact suffix_of_readName read

theorem length_of_readSegment (h : readSegment cs = some (s, rest)) : rest.length < cs.length := by
  obtain ⟨rfl, -⟩ := readSegment_eq_some_iff.mp h
  rw [quoteSegment_append, List.length_cons, List.length_append, List.length_cons]
  omega

end Names

/-- Read identifiers with dots between them; after a dot there has to be another one. -/
def readPath (cs : List Char) : Option (IdentPath × List Char) :=
  match _h : readSegment cs with
  | none => none
  | some (s, '.' :: cs) =>
    (readPath cs).map fun (path, rest) => (⟨s, path.segments⟩, rest)
  | some (s, rest) => some (.name s, rest)
  termination_by cs.length
  decreasing_by exact Nat.lt_of_succ_lt (length_of_readSegment _h)

section Paths

variable {cs rest : List Char} {path : IdentPath} {s : String}

theorem quotedChars_name (s : String) : (IdentPath.name s).quotedChars = quoteSegment s := by
  simp [IdentPath.quotedChars, IdentPath.segments, IdentPath.name]

theorem quotedChars_qualified (s t : String) (ts : List String) :
    (IdentPath.mk s (t :: ts)).quotedChars =
      quoteSegment s ++ '.' :: (IdentPath.mk t ts).quotedChars := by
  simp [IdentPath.quotedChars, IdentPath.segments, List.intercalate_cons_cons]

theorem readPath_of_dot (h : readSegment cs = some (s, '.' :: rest)) :
    readPath cs = (readPath rest).map fun (path, rest) => (⟨s, path.segments⟩, rest) := by
  rw [readPath]
  split
  · rename_i none
    cases h.symm.trans none
  · rename_i dot
    cases h.symm.trans dot
    rfl
  · rename_i single ended
    cases h.symm.trans ended
    exact absurd rfl (single rest)

theorem readPath_of_end (h : readSegment cs = some (s, rest)) (hd : rest.head? ≠ some '.') :
    readPath cs = some (.name s, rest) := by
  rw [readPath]
  split
  · rename_i none
    cases h.symm.trans none
  · rename_i dot
    cases h.symm.trans dot
    exact absurd rfl hd
  · rename_i ended
    cases h.symm.trans ended
    rfl

/-- Induction on the segments after the first: the dot behind it is followed by the others. -/
theorem readPath_quotedChars (path : IdentPath) (hq : rest.head? ≠ some '"')
    (hd : rest.head? ≠ some '.') : readPath (path.quotedChars ++ rest) = some (path, rest) := by
  obtain ⟨first, others⟩ := path
  induction others generalizing first with
  | nil =>
    have whole := quotedChars_name first
    rw [IdentPath.name] at whole
    rw [whole, readPath_of_end (readSegment_eq_some_iff.mpr ⟨rfl, hq⟩) hd, IdentPath.name]
  | cons s others ih =>
    have read : readSegment (quoteSegment first ++
        '.' :: ((IdentPath.mk s others).quotedChars ++ rest)) =
          some (first, '.' :: ((IdentPath.mk s others).quotedChars ++ rest)) :=
      readSegment_eq_some_iff.mpr ⟨rfl, by simp⟩
    rw [quotedChars_qualified, List.append_assoc, List.cons_append, readPath_of_dot read, ih]
    rfl

theorem eq_of_readPath (h : readPath cs = some (path, rest)) :
    cs = path.quotedChars ++ rest ∧ rest.head? ≠ some '"' ∧ rest.head? ≠ some '.' := by
  fun_induction readPath cs generalizing path with
  | case1 => cases h
  | case2 cs s tail read ih =>
    obtain ⟨⟨path', rest'⟩, others, same⟩ := Option.map_eq_some_iff.mp h
    cases same
    obtain ⟨rfl, ends⟩ := ih others
    obtain ⟨rfl, -⟩ := readSegment_eq_some_iff.mp read
    refine ⟨?_, ends⟩
    rw [IdentPath.segments, quotedChars_qualified, List.append_assoc, List.cons_append]
  | case3 cs s tail single read =>
    cases h
    obtain ⟨rfl, ends⟩ := readSegment_eq_some_iff.mp read
    refine ⟨by rw [quotedChars_name], ends, fun hd => ?_⟩
    obtain ⟨others, rfl⟩ := List.head?_eq_some_iff.mp hd
    exact single others rfl

theorem readPath_eq_some_iff :
    readPath cs = some (path, rest) ↔
      cs = path.quotedChars ++ rest ∧ rest.head? ≠ some '"' ∧ rest.head? ≠ some '.' := by
  constructor
  · exact eq_of_readPath
  · rintro ⟨rfl, hq, hd⟩
    exact readPath_quotedChars path hq hd

end Paths

namespace IdentPath

theorem quotedChars_injective : Function.Injective quotedChars := by
  intro path other h
  have own : readPath path.quotedChars = some (path, []) :=
    readPath_eq_some_iff.mpr ⟨(List.append_nil _).symm, nofun, nofun⟩
  have others : readPath other.quotedChars = some (other, []) :=
    readPath_eq_some_iff.mpr ⟨(List.append_nil _).symm, nofun, nofun⟩
  rw [h, others] at own
  exact (Prod.mk.inj (Option.some.inj own)).1.symm

/-- In front of text that begins with neither a quote nor a dot, exactly the quoted path is read, as
the path that it is; nothing but a quoted path is ever read, so no two paths are quoted alike; and
whatever stands behind a segment, reading it goes on to the end of its quotation. -/
theorem quoted_reads_back :
    (∀ (path : IdentPath) (rest : List Char), rest.head? ≠ some '"' → rest.head? ≠ some '.' →
      readPath (path.quoted.toList ++ rest) = some (path, rest)) ∧
    (∀ (cs : List Char) (path : IdentPath) (rest : List Char),
      readPath cs = some (path, rest) → cs = path.quoted.toList ++ rest) ∧
    (∀ path other : IdentPath, path.quoted = other.quoted → path = other) ∧
    ∀ (s t : String) (rest left : List Char),
      readSegment (quoteSegment s ++ rest) = some (t, left) → left <:+ rest := by
  refine ⟨?_, ?_, ?_, fun s t rest left => suffix_of_readSegment⟩
  · intro path rest hq hd
    rw [quoted, String.toList_ofList]
    exact readPath_quotedChars path hq hd
  · intro cs path rest h
    rw [quoted, String.toList_ofList]
    exact (eq_of_readPath h).1
  · intro path other h
    exact quotedChars_injective (String.ofList_injective h)

/-- Segments that imitate the end of their own quotation with a dot behind it, and a quotation that
is followed by a quote. -/
theorem quoted_reads_back_imitation :
    let path : IdentPath := ⟨"a\".\"b", ["\"", "c"]⟩
    let rest := " DROP".toList
    (rest.head? ≠ some '"' ∧ rest.head? ≠ some '.') ∧
      readPath (path.quoted.toList ++ rest) = some (path, rest) ∧
      path.quoted ≠ (IdentPath.mk "a" ["b", "\"", "c"]).quoted ∧
      readSegment (quoteSegment "a" ++ "\"b\" c".toList) = some ("a\"b", " c".toList) ∧
      " c".toList <:+ "\"b\" c".toList := by
  intro path rest
  have ends : rest.head? ≠ some '"' ∧ rest.head? ≠ some '.' := ⟨by decide, by decide⟩
  have beyond : readSegment (quoteSegment "a" ++ "\"b\" c".toList) =
      some ("a\"b", " c".toList) := by decide
  obtain ⟨reads, -, distinct, within⟩ := quoted_reads_back
  refine ⟨ends, reads path rest ends.1 ends.2, fun h => ?_, beyond, within _ _ _ _ beyond⟩
  exact absurd (distinct _ _ h) (by decide)

end IdentPath

end SqlClient.Sql
