import Mathlib.Data.List.TakeWhile
import SqlClient.Proofs.Text.Settled
/-!
# Tidying as a projection

What becomes of the lines of a text and of the characters on them. A line ends before a line feed,
with a carriage return in front of it if there is one; blanks are those of every script. Tidying
leaves only full lines without blanks around them, and leaves such lines alone. It drops no other
character, and what stands between two characters changes only where a line ends between them.
-/
namespace SqlClient.Text

variable {a b cs ds gap l m : List Char} {ls inner : List (List Char)} {c x y : Char}

/-- A carriage return in front of a line feed is part of the line's end. -/
def dropReturn (l : List Char) : List Char := if l.getLast? = some '\r' then l.dropLast else l

/-- The lines without their ends; behind the last line feed there is a line only if it is not
empty. -/
def withoutEnds : List (List Char) → List (List Char)
  | [] => []
  | [l] => if l.isEmpty then [] else [l]
  | l :: ls => dropReturn l :: withoutEnds ls

/-- The lines of a text. A carriage return on its own does not end one. -/
def contentLines (cs : List Char) : List (List Char) := withoutEnds (lines cs)

theorem withoutEnds_cons (hn : ls ≠ []) (l : List Char) :
    withoutEnds (l :: ls) = dropReturn l :: withoutEnds ls := by
  cases ls with
  | nil => exact absurd rfl hn
  | cons k ls => rfl

theorem dropReturn_eq_self (h : ∀ c ∈ l.getLast?, isBlank c = false) : dropReturn l = l := by
  refine if_neg fun hr => ?_
  exact absurd (h '\r' hr) (by decide)

theorem trim_dropReturn (l : List Char) : trim (dropReturn l) = trim l := by
  unfold dropReturn
  split
  · rename_i hr
    obtain ⟨lead, rfl⟩ := List.getLast?_eq_some_iff.mp hr
    rw [List.dropLast_concat, trim_append (blank_nil.cons (by decide))]
  · rfl

/-- Only blanks go with the end of a line. -/
theorem rows_withoutEnds (ls : List (List Char)) : rows (withoutEnds ls) = rows ls := by
  induction ls with
  | nil => rfl
  | cons l ls ih =>
    by_cases hn : ls = []
    · subst hn
      rw [withoutEnds]
      split
      · rename_i empty
        rw [List.isEmpty_iff.mp empty]
        rfl
      · rfl
    · rw [withoutEnds_cons hn]
      simp only [rows, List.map_cons, trim_dropReturn] at ih ⊢
      simp only [List.filter_cons, ih]

theorem tidyLines_eq_rows (cs : List Char) :
    tidyLines cs = List.intercalate ['\n'] (rows (contentLines cs)) := by
  rw [contentLines, rows_withoutEnds]
  rfl

/-- The number of the line on which the character behind `a` stands, counted from 0. -/
def lineNumber (a : List Char) : Nat := a.count '\n'

theorem length_lines (cs : List Char) : (lines cs).length = lineNumber cs + 1 := by
  induction cs with
  | nil => rfl
  | cons c cs ih =>
    rw [lines, List.splitOn_cons_eq_if_modifyHead]
    split
    · rename_i hc
      rw [List.length_cons, ← lines, ih, lineNumber, lineNumber, beq_iff_eq.mp hc,
        List.count_cons_self]
    · rename_i hc
      rw [List.length_modifyHead, ← lines, ih, lineNumber, lineNumber,
        List.count_cons_of_ne fun he => hc (beq_iff_eq.mpr he)]

theorem intercalate_lines (cs : List Char) : List.intercalate ['\n'] (lines cs) = cs :=
  List.intercalate_splitOn '\n'

theorem lines_intercalate (hn : ls ≠ []) (h : ∀ l ∈ ls, '\n' ∉ l) :
    lines (List.intercalate ['\n'] ls) = ls := List.splitOn_intercalate _ h hn

theorem intercalate_append_cons (sep : List Char) (before after : List (List Char))
    (u v : List Char) (x : Char) :
    List.intercalate sep (before ++ (u ++ x :: v) :: after) =
      List.intercalate sep (before ++ [u]) ++ x :: List.intercalate sep (v :: after) := by
  induction before with
  | nil =>
    cases after with
    | nil => simp
    | cons l after => simp [List.intercalate_cons_cons]
  | cons l before ih =>
    rw [List.cons_append, List.cons_append, List.intercalate_cons_of_ne_nil (by simp),
      List.intercalate_cons_of_ne_nil (by simp), ih, List.append_assoc, List.append_assoc,
      List.append_assoc]

theorem suffix_intercalate (sep : List Char) (before : List (List Char)) (u : List Char) :
    u <:+ List.intercalate sep (before ++ [u]) := by
  induction before with
  | nil => simp
  | cons l before ih =>
    rw [List.cons_append, List.intercalate_cons_of_ne_nil (by simp)]
    exact ih.trans (List.suffix_append _ _)

theorem prefix_intercalate (sep v : List Char) (after : List (List Char)) :
    v <+: List.intercalate sep (v :: after) := by
  cases after with
  | nil => simp
  | cons l after =>
    rw [List.intercalate_cons_cons, List.append_assoc]
    exact List.prefix_append _ _

/-- A character that ends no line joins the lines before and behind it. -/
theorem lines_append_cons {before after : List (List Char)} {u v : List Char} (hx : x ≠ '\n')
    (ha : lines a = before ++ [u]) (hb : lines b = v :: after) :
    lines (a ++ x :: b) = before ++ (u ++ x :: v) :: after := by
  have unbroken : ∀ l ∈ before ++ (u ++ x :: v) :: after, '\n' ∉ l := by
    have front (l : List Char) (hl : l ∈ before ++ [u]) : '\n' ∉ l :=
      newline_not_mem_of_mem_lines (by rwa [ha])
    have back (l : List Char) (hl : l ∈ v :: after) : '\n' ∉ l :=
      newline_not_mem_of_mem_lines (by rwa [hb])
    have here : '\n' ∉ u ++ x :: v := by
      simp [front u (by simp), back v (by simp), hx.symm]
    rw [List.forall_mem_append, List.forall_mem_cons]
    exact ⟨fun l hl => front l (by simp [hl]), here, fun l hl => back l (by simp [hl])⟩
  calc lines (a ++ x :: b)
      = lines (List.intercalate ['\n'] (before ++ (u ++ x :: v) :: after)) := by
        rw [intercalate_append_cons, ← ha, ← hb, intercalate_lines, intercalate_lines]
    _ = before ++ (u ++ x :: v) :: after := lines_intercalate (by simp) unbroken

theorem dropReturn_append_cons (hx : isBlank x = false) (a b : List Char) :
    dropReturn (a ++ x :: b) = a ++ x :: dropReturn b := by
  rcases List.eq_nil_or_concat b with rfl | ⟨lead, c, rfl⟩
  · exact dropReturn_eq_self fun c hc => by simp_all
  · rw [List.concat_eq_append, ← List.cons_append, ← List.append_assoc, dropReturn, dropReturn]
    simp only [List.getLast?_append, List.getLast?_singleton, Option.some_or, List.dropLast_concat]
    split <;> simp

theorem prefix_dropReturn (l : List Char) : dropReturn l <+: l := by
  unfold dropReturn
  split
  · exact List.dropLast_prefix l
  · exact List.prefix_rfl

/-- A line that is not empty keeps its place and, but for a carriage return, its text. -/
theorem getElem?_withoutEnds (hn : l ≠ []) (before after : List (List Char)) :
    (withoutEnds (before ++ l :: after))[before.length]? =
      some (if after = [] then l else dropReturn l) := by
  induction before with
  | nil =>
    rw [List.nil_append, List.length_nil]
    split
    · rename_i last
      rw [last, withoutEnds, if_neg (by simpa using hn)]
      rfl
    · rw [withoutEnds_cons ‹_›]
      rfl
  | cons k before ih =>
    rw [List.cons_append, withoutEnds_cons (by simp), List.length_cons, List.getElem?_cons_succ, ih]

/-- Every character that is not blank stands on the line of its number, between what is on that line
before it and behind it. -/
theorem getElem?_contentLines (hx : isBlank x = false) (a b : List Char) :
    ∃ u v, (contentLines (a ++ x :: b))[lineNumber a]? = some (u ++ x :: v) ∧
      u <:+ a ∧ v <+: b := by
  obtain ⟨before, u, ha⟩ := List.eq_nil_or_concat (lines a) |>.resolve_left
    (List.splitOn_ne_nil '\n' a)
  obtain ⟨v, after, hb⟩ := List.exists_cons_of_ne_nil (List.splitOn_ne_nil '\n' b)
  rw [List.concat_eq_append] at ha
  have hn : x ≠ '\n' := by
    rintro rfl
    exact absurd hx (by decide)
  have number : before.length = lineNumber a := by
    have length := length_lines a
    rw [ha, List.length_append, List.length_singleton] at length
    exact Nat.succ_injective length
  have suffix : u <:+ a := by
    rw [← intercalate_lines a, ha]
    exact suffix_intercalate _ before u
  have start : v <+: b := by
    rw [← intercalate_lines b, lines, hb]
    exact prefix_intercalate _ v after
  refine ⟨u, if after = [] then v else dropReturn v, ?_, suffix, ?_⟩
  · rw [contentLines, lines_append_cons hn ha hb, ← number, getElem?_withoutEnds (by simp),
      dropReturn_append_cons hx]
    split <;> rfl
  · split
    · exact start
    · exact (prefix_dropReturn v).trans start

theorem Solid.trim_eq_self (h : Solid l) : trim l = l := by
  have trimmed := trim_solid h blank_nil blank_nil
  rwa [List.nil_append, List.append_nil] at trimmed

theorem tidyLine_of_mem_rows {l : List Char} (h : l ∈ rows (lines cs)) : TidyLine l := by
  obtain ⟨hm, filled⟩ := List.mem_filter.mp h
  obtain ⟨k, hk, rfl⟩ := List.mem_map.mp hm
  have unbroken := newline_not_mem_of_mem_lines hk
  rcases blank_or_solid k with blank | ⟨g, u, g', rfl, hg, hg', hu⟩
  · simp [trim_of_blank blank] at filled
  · rw [trim_solid hu hg hg']
    exact ⟨fun hm => unbroken (by simp [hm]), hu.trim_eq_self, hu.ne_nil⟩

theorem TidyLine.solid (h : TidyLine l) : Solid l := by
  rcases blank_or_solid l with blank | ⟨g, u, g', he, hg, hg', hu⟩
  · exact absurd (h.trimmed.symm.trans (trim_of_blank blank)) h.nonempty
  · have same := trim_solid hu hg hg'
    rw [← he, h.trimmed] at same
    rwa [same]

theorem Solid.head?_eq_false (h : Solid l) : ∀ c ∈ l.head?, isBlank c = false := by
  obtain ⟨d, hd, solid⟩ := h.opened
  intro c hc
  rwa [← Option.mem_unique hd hc]

theorem Solid.getLast?_eq_false (h : Solid l) : ∀ c ∈ l.getLast?, isBlank c = false := by
  obtain ⟨d, hd, solid⟩ := h.closed
  intro c hc
  rwa [← Option.mem_unique hd hc]

theorem withoutEnds_of_solid (h : ∀ l ∈ ls, Solid l) : withoutEnds ls = ls := by
  induction ls with
  | nil => rfl
  | cons l ls ih =>
    obtain ⟨hl, hls⟩ := List.forall_mem_cons.mp h
    by_cases hn : ls = []
    · rw [hn, withoutEnds, if_neg (by simpa using hl.ne_nil)]
    · rw [withoutEnds_cons hn, dropReturn_eq_self hl.getLast?_eq_false, ih hls]

/-- The lines of tidied text are those of the text that are not blank, each of them trimmed. -/
theorem contentLines_tidyLines (cs : List Char) :
    contentLines (tidyLines cs) = rows (contentLines cs) := by
  have kept : ∀ l ∈ rows (lines cs), TidyLine l := fun l hl => tidyLine_of_mem_rows hl
  rw [tidyLines_eq_rows, contentLines, contentLines, rows_withoutEnds]
  by_cases hn : rows (lines cs) = []
  · rw [hn]
    rfl
  · rw [lines_intercalate hn fun l hl => (kept l hl).unbroken,
      withoutEnds_of_solid fun l hl => (kept l hl).solid]

theorem tidyLines_tidyLines (cs : List Char) : tidyLines (tidyLines cs) = tidyLines cs :=
  tidyLines_intercalate fun _ hl => tidyLine_of_mem_rows hl

def ink (cs : List Char) : List Char := cs.filter (!isBlank ·)

theorem ink_append (a b : List Char) : ink (a ++ b) = ink a ++ ink b := List.filter_append a b

theorem ink_of_blank (h : Blank gap) : ink gap = [] :=
  List.filter_eq_nil_iff.mpr fun c hc => by simp [h c hc]

theorem ink_cons_of_blank (hc : isBlank c = true) (cs : List Char) : ink (c :: cs) = ink cs :=
  List.filter_cons_of_neg (by simp [hc])

theorem ink_cons (hc : isBlank c = false) (cs : List Char) : ink (c :: cs) = c :: ink cs :=
  List.filter_cons_of_pos (by simp [hc])

theorem ink_closeGap (h : Blank gap) : ink (closeGap gap) = [] := by
  unfold closeGap
  split
  · exact ink_of_blank (blank_nil.cons isBlank_newline)
  · exact ink_of_blank h

theorem ink_settleFrom (h : Blank gap) (cs : List Char) : ink (settleFrom gap cs) = ink cs := by
  induction cs generalizing gap with
  | nil => exact ink_closeGap h
  | cons c cs ih =>
    rw [settleFrom]
    split
    · rename_i hc
      rw [ih (h.append (blank_nil.cons hc)), ink_cons_of_blank hc]
    · rename_i hc
      have hc : isBlank c = false := by simpa using hc
      rw [ink_append, ink_closeGap h, List.nil_append, ink_cons hc, ink_cons hc, ih blank_nil]

theorem ink_settle (cs : List Char) : ink (settle cs) = ink cs := ink_settleFrom blank_nil cs

theorem ink_trimLeft (cs : List Char) : ink (trimLeft cs) = ink cs := by
  conv_rhs => rw [← List.takeWhile_append_dropWhile (p := isBlank) (l := cs)]
  have blank : Blank (cs.takeWhile isBlank) := fun c hc => List.mem_takeWhile_imp hc
  rw [ink_append, ink_of_blank blank]
  rfl

theorem ink_reverse (cs : List Char) : ink cs.reverse = (ink cs).reverse := List.filter_reverse

theorem ink_trimRight (cs : List Char) : ink (trimRight cs) = ink cs := by
  rw [trimRight, ink_reverse, ← trimLeft, ink_trimLeft, ink_reverse, List.reverse_reverse]

theorem ink_tidyLines (cs : List Char) : ink (tidyLines cs) = ink cs := by
  rw [tidyLines_eq_settle, ink_settle, trim, ink_trimRight, ink_trimLeft]

theorem intercalate_newline_concat (l : List Char) (ls : List (List Char)) (k : List Char) :
    List.intercalate ['\n'] (l :: (ls ++ [k])) = l ++ '\n' :: (ls.flatMap (· ++ ['\n']) ++ k) := by
  induction ls generalizing l with
  | nil => simp [List.intercalate_cons_cons]
  | cons l' ls ih => simp [List.intercalate_cons_cons, ih]

/-- Between two characters, the text before the first line feed loses the blanks at its end, that
behind the last one those at its start, and what stands between is tidied line by line. -/
theorem settle_of_lines {first last : List Char} (h : lines m = first :: (inner ++ [last])) :
    settle m =
      trimRight first ++ '\n' :: ((rows inner).flatMap (· ++ ['\n']) ++ trimLeft last) := by
  -- settling needs a character on either side, and any will do
  have hc : isBlank '$' = false := by decide
  have hn : '$' ≠ '\n' := by decide
  have opened : lines ([] ++ '$' :: m) = [] ++ ([] ++ '$' :: first) :: (inner ++ [last]) :=
    lines_append_cons hn rfl h
  have closed : lines ('$' :: m ++ ['$']) = (('$' :: first) :: inner) ++ (last ++ ['$']) :: [] :=
    lines_append_cons hn opened rfl
  have front : trim ('$' :: first) = '$' :: trimRight first := by
    rw [trim, trimLeft_eq_self (by simp [hc])]
    exact trimRight_append_of_closed (u := ['$']) ⟨'$', rfl, hc⟩ first
  have back : trim (last ++ ['$']) = trimLeft last ++ ['$'] := by
    rw [trim, trimLeft_append_of_opened ⟨'$', rfl, hc⟩]
    have stays := trimRight_append_of_closed (u := trimLeft last ++ ['$']) ⟨'$', by simp, hc⟩ []
    rw [List.append_nil] at stays
    exact stays.trans (List.append_nil _)
  have solid : Solid ('$' :: m ++ ['$']) := ⟨⟨'$', rfl, hc⟩, ⟨'$', List.getLast?_concat, hc⟩⟩
  have tidied : tidyLines ('$' :: m ++ ['$']) = '$' :: (settle m ++ ['$']) := by
    rw [tidyLines_eq_settle, solid.trim_eq_self, List.cons_append, settle_cons hc,
      settle_append_cons hc]
    rfl
  have kept : rows (lines ('$' :: m ++ ['$'])) =
      ('$' :: trimRight first) :: (rows inner ++ [trimLeft last ++ ['$']]) := by
    rw [closed, rows, List.cons_append, List.map_cons, front, List.map_append, List.map_singleton,
      back]
    simp [rows]
  have joined : tidyLines ('$' :: m ++ ['$']) =
      List.intercalate ['\n'] (rows (lines ('$' :: m ++ ['$']))) := rfl
  rw [tidied, kept, intercalate_newline_concat, List.cons_append] at joined
  refine List.append_cancel_right ((List.cons.inj joined).2.trans ?_)
  simp only [List.append_assoc, List.cons_append]

theorem tidyLines_between (hx : isBlank x = false) (hy : isBlank y = false)
    (a m b : List Char) :
    tidyLines (a ++ x :: (m ++ y :: b)) =
      settle (trimLeft a) ++ x :: (settle m ++ y :: settle (trimRight b)) := by
  have solid : Solid (x :: m ++ [y]) := ⟨⟨x, rfl, hx⟩, ⟨y, List.getLast?_concat, hy⟩⟩
  have parts : a ++ x :: (m ++ y :: b) = a ++ ((x :: m ++ [y]) ++ b) := by simp
  have inner : settle (x :: m ++ [y]) = x :: (settle m ++ [y]) := by
    rw [List.cons_append, settle_cons hx, settle_append_cons hy]
    rfl
  rw [parts, tidyLines_around solid, inner]
  simp

/-- A line that was ended stands apart from the next. -/
theorem exists_lines_of_mem (h : '\n' ∈ m) :
    ∃ first inner last, lines m = first :: (inner ++ [last]) := by
  obtain ⟨first, rest, he⟩ := List.exists_cons_of_ne_nil (List.splitOn_ne_nil '\n' m)
  have length := length_lines m
  have ended : 0 < lineNumber m := List.count_pos_iff.mpr h
  rcases List.eq_nil_or_concat rest with rfl | ⟨inner, last, rfl⟩
  · rw [lines, he] at length
    simp at length
    omega
  · exact ⟨first, inner, last, by rw [lines, he, List.concat_eq_append]⟩

/-- Only a line feed leads to another line. -/
theorem lineNumber_eq_iff (hx : isBlank x = false) (a m : List Char) :
    lineNumber (a ++ x :: m) = lineNumber a ↔ '\n' ∉ m := by
  have other : x ≠ '\n' := by
    rintro rfl
    exact absurd hx (by decide)
  rw [lineNumber, List.count_append, List.count_cons_of_ne other, lineNumber,
    Nat.add_eq_left, List.count_eq_zero]

/-- Tidying leaves the lines that are not blank, each of them trimmed, and leaves these alone. It
drops blanks only. Two characters on one line keep what stood between them, and two on different
lines have the line break between them and what is left of the lines. -/
theorem tidy_projects (s : String) :
    (∀ l ∈ contentLines (tidy s).toList, l ≠ [] ∧
      (∀ c ∈ l.head?, isBlank c = false) ∧ ∀ c ∈ l.getLast?, isBlank c = false) ∧
    contentLines (tidy s).toList = rows (contentLines s.toList) ∧
    tidy (tidy s) = tidy s ∧
    ink (tidy s).toList = ink s.toList ∧
    (∀ a x b, s.toList = a ++ x :: b → isBlank x = false →
      ∃ u v, (contentLines s.toList)[lineNumber a]? = some (u ++ x :: v) ∧ u <:+ a ∧ v <+: b) ∧
    ∀ a x m y b, s.toList = a ++ x :: (m ++ y :: b) → isBlank x = false → isBlank y = false →
      ∃ a' m' b', (tidy s).toList = a' ++ x :: (m' ++ y :: b') ∧
        ink a' = ink a ∧ ink m' = ink m ∧ ink b' = ink b ∧
        (lineNumber (a ++ x :: m) = lineNumber a → m' = m) ∧
        (lineNumber (a ++ x :: m) ≠ lineNumber a → ∃ first inner last,
          lines m = first :: (inner ++ [last]) ∧ m' = trimRight first ++
            '\n' :: ((rows inner).flatMap (· ++ ['\n']) ++ trimLeft last)) := by
  have text : (tidy s).toList = tidyLines s.toList := String.toList_ofList
  have left := contentLines_tidyLines s.toList
  refine ⟨?_, by rw [text, left], ?_, by rw [text, ink_tidyLines], ?_, ?_⟩
  · intro l hl
    rw [text, left, contentLines, rows_withoutEnds] at hl
    have tidied := tidyLine_of_mem_rows hl
    exact ⟨tidied.nonempty, tidied.solid.head?_eq_false, tidied.solid.getLast?_eq_false⟩
  · rw [tidy, text, tidyLines_tidyLines]
    rfl
  · intro a x b hs hx
    rw [hs]
    exact getElem?_contentLines hx a b
  · intro a x m y b hs hx hy
    refine ⟨settle (trimLeft a), settle m, settle (trimRight b), ?_, ?_, ink_settle m, ?_, ?_, ?_⟩
    · rw [text, hs, tidyLines_between hx hy]
    · rw [ink_settle, ink_trimLeft]
    · rw [ink_settle, ink_trimRight]
    · intro same
      exact settle_of_unbroken ((lineNumber_eq_iff hx a m).mp same)
    · intro apart
      have broken : '\n' ∈ m := not_not.mp fun h => apart ((lineNumber_eq_iff hx a m).mpr h)
      obtain ⟨first, inner, last, parts⟩ := exists_lines_of_mem broken
      exact ⟨first, inner, last, parts, settle_of_lines parts⟩

/-- A carriage return on its own stays, one before a line feed goes with the line. -/
theorem tidy_projects_mixed_ends :
    let s := "a\r b\u00a0\r\n \r\n\u3000c \n"
    tidy s = "a\r b\nc" ∧
      contentLines s.toList = ["a\r b\u00a0".toList, [' '], "\u3000c ".toList] ∧
      (∃ a' b', (tidy s).toList = a' ++ 'a' :: ("\r ".toList ++ 'b' :: b')) ∧
      ∃ a' m' b', (tidy s).toList = a' ++ 'b' :: (m' ++ 'c' :: b') ∧
        ∃ first inner last, m' = trimRight first ++
          '\n' :: ((rows inner).flatMap (· ++ ['\n']) ++ trimLeft last) := by
  intro s
  obtain ⟨-, -, -, -, -, between⟩ := tidy_projects s
  obtain ⟨a₁, m₁, b₁, one, -, -, -, same, -⟩ :=
    between [] 'a' "\r ".toList 'b' "\u00a0\r\n \r\n\u3000c \n".toList (by decide +kernel)
      (by decide) (by decide)
  obtain ⟨a₂, m₂, b₂, two, -, -, -, -, other⟩ :=
    between "a\r ".toList 'b' "\u00a0\r\n \r\n\u3000".toList 'c' " \n".toList
      (by decide +kernel) (by decide) (by decide)
  obtain ⟨first, inner, last, -, parts⟩ := other (by decide +kernel)
  rw [same (by decide +kernel)] at one
  exact ⟨by decide +kernel, by decide +kernel, ⟨a₁, b₁, one⟩, a₂, m₂, b₂, two, first, inner, last,
    parts⟩

end SqlClient.Text
