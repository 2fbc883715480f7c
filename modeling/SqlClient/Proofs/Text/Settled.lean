import Mathlib.Data.List.Chain
import SqlClient.Text.Basic
/-!
# Settled text

Text whose lines are trimmed and not empty is left as it is by tidying. What tidying does, said
without lines: the blanks at both ends go, and every run of blanks that holds a line feed becomes
one line feed. Text that begins and ends with other characters keeps its place, so what stands
between can be tidied for itself.
-/
namespace SqlClient.Text

theorem not_isBlank_of_isDigit {c : Char} (h : c.isDigit) : isBlank c = false := by
  simp only [Char.isDigit, Bool.and_eq_true, decide_eq_true_eq, ge_iff_le, UInt32.le_iff_toNat_le]
    at h
  obtain ⟨h₀, h₉⟩ := h
  change 48 ≤ c.toNat at h₀
  change c.toNat ≤ 57 at h₉
  simp only [isBlank, Bool.or_eq_false_iff, Bool.and_eq_false_iff, decide_eq_false_iff_not,
    beq_eq_false_iff_ne]
  omega

theorem trimLeft_eq_self {cs : List Char} (h : ∀ c ∈ cs.head?, isBlank c = false) :
    trimLeft cs = cs := by
  cases cs with
  | nil => rfl
  | cons c cs => exact List.dropWhile_cons_of_neg (by simp [h c rfl])

theorem trim_eq_self {cs : List Char} (hf : ∀ c ∈ cs.head?, isBlank c = false)
    (hl : ∀ c ∈ cs.getLast?, isBlank c = false) : trim cs = cs := by
  have hr : trimLeft cs.reverse = cs.reverse := trimLeft_eq_self (by simpa using hl)
  rw [trim, trimLeft_eq_self hf, trimRight, ← trimLeft, hr, List.reverse_reverse]

theorem trim_eq_self_of_forall {cs : List Char} (h : ∀ c ∈ cs, isBlank c = false) : trim cs = cs :=
  trim_eq_self (fun c hc => h c (List.mem_of_head? hc)) fun c hc => h c (List.mem_of_getLast? hc)

structure TidyLine (l : List Char) : Prop where
  unbroken : '\n' ∉ l
  trimmed : trim l = l
  nonempty : l ≠ []

theorem tidyLines_intercalate {ls : List (List Char)} (h : ∀ l ∈ ls, TidyLine l) :
    tidyLines (List.intercalate ['\n'] ls) = List.intercalate ['\n'] ls := by
  by_cases hn : ls = []
  · subst hn; rfl
  · have trims : ls.map trim = ls :=
      (List.map_congr_left fun l hl => (h l hl).trimmed).trans (List.map_id ls)
    have kept : ls.filter (!·.isEmpty) = ls :=
      List.filter_eq_self.mpr fun l hl => by simp [(h l hl).nonempty]
    rw [tidyLines, lines, List.splitOn_intercalate _ (fun l hl => (h l hl).unbroken) hn, trims,
      kept]

theorem mem_intercalate {α : Type} {a : α} {sep : List α} {ls : List (List α)}
    (h : a ∈ List.intercalate sep ls) : a ∈ sep ∨ ∃ l ∈ ls, a ∈ l := by
  induction ls with
  | nil => simp at h
  | cons l rest ih =>
    cases rest with
    | nil => exact .inr ⟨l, List.mem_cons_self, by simpa using h⟩
    | cons l' rest =>
      rw [List.intercalate_cons_cons, List.append_assoc, List.mem_append, List.mem_append] at h
      rcases h with h | h | h
      · exact .inr ⟨l, List.mem_cons_self, h⟩
      · exact .inl h
      · rcases ih h with h | ⟨k, hk, ha⟩
        · exact .inl h
        · exact .inr ⟨k, List.mem_cons_of_mem l hk, ha⟩

structure LineEnd (l : List Char) : Prop where
  unbroken : '\n' ∉ l
  closed : ∃ c ∈ l.getLast?, isBlank c = false

theorem LineEnd.snoc {l : List Char} {c : Char} (hl : '\n' ∉ l) (hc : isBlank c = false) :
    LineEnd (l ++ [c]) := by
  constructor
  · intro hm
    rcases List.mem_append.mp hm with hm | hm
    · exact hl hm
    · obtain rfl : '\n' = c := by simpa using hm
      exact absurd hc (by decide)
  · exact ⟨c, by simp, hc⟩

theorem LineEnd.after {l : List Char} (h : LineEnd l) {lead : List Char} (hn : '\n' ∉ lead) :
    LineEnd (lead ++ l) := by
  obtain ⟨c, hc, hb⟩ := h.closed
  refine ⟨fun hm => ?_, c, ?_, hb⟩
  · exact (List.mem_append.mp hm).elim hn h.unbroken
  · rw [List.getLast?_append, Option.mem_def.mp hc]
    rfl

theorem lineEnd_intercalate {sep : List Char} {ls : List (List Char)} (hs : '\n' ∉ sep)
    (hn : ls ≠ []) (h : ∀ l ∈ ls, LineEnd l) : LineEnd (List.intercalate sep ls) := by
  induction ls with
  | nil => exact absurd rfl hn
  | cons l rest ih =>
    have hl := h l List.mem_cons_self
    cases rest with
    | nil => rwa [List.intercalate_singleton]
    | cons l' rest =>
      rw [List.intercalate_cons_cons, List.append_assoc]
      have ends := ih (List.cons_ne_nil _ _) fun k hk => h k (List.mem_cons_of_mem l hk)
      exact (ends.after hs).after hl.unbroken

/-- A line begins with its lead, which does not begin with a blank. -/
theorem LineEnd.tidyLine {l : List Char} (h : LineEnd l) {c : Char} {lead : List Char}
    (hc : isBlank c = false) (hn : '\n' ∉ lead) : TidyLine (c :: lead ++ l) := by
  have hcn : '\n' ∉ c :: lead := by
    intro hm
    rcases List.mem_cons.mp hm with rfl | hm
    · exact absurd hc (by decide)
    · exact hn hm
  have ends := h.after hcn
  refine ⟨ends.unbroken, trim_eq_self ?_ ?_, by simp⟩
  · intro d hd
    obtain rfl : c = d := by simpa using hd
    exact hc
  · obtain ⟨e, he, hb⟩ := ends.closed
    intro d hd
    obtain rfl : e = d := Option.some.inj (he.symm.trans hd)
    exact hb

def closeGap (gap : List Char) : List Char := if '\n' ∈ gap then ['\n'] else gap

def settleFrom (gap : List Char) : List Char → List Char
  | [] => closeGap gap
  | c :: cs =>
    if isBlank c then settleFrom (gap ++ [c]) cs else closeGap gap ++ c :: settleFrom [] cs

/-- Every run of blanks that holds a line feed replaced by one line feed. -/
def settle (cs : List Char) : List Char := settleFrom [] cs

structure Solid (cs : List Char) : Prop where
  opened : ∃ c ∈ cs.head?, isBlank c = false
  closed : ∃ c ∈ cs.getLast?, isBlank c = false

def Blank (cs : List Char) : Prop := ∀ c ∈ cs, isBlank c = true

variable {a b u v gap cs : List Char} {c : Char}

theorem Blank.append (ha : Blank a) (hb : Blank b) : Blank (a ++ b) :=
  fun c hc => (List.mem_append.mp hc).elim (ha c) (hb c)

theorem Blank.cons (hc : isBlank c = true) (h : Blank cs) : Blank (c :: cs) :=
  List.forall_mem_cons.mpr ⟨hc, h⟩

theorem blank_nil : Blank [] := fun _ hc => absurd hc List.not_mem_nil

theorem isBlank_newline : isBlank '\n' = true := by decide

theorem settleFrom_append_cons (hc : isBlank c = false) (gap a b : List Char) :
    settleFrom gap (a ++ c :: b) = settleFrom gap a ++ c :: settle b := by
  induction a generalizing gap with
  | nil => simp [settleFrom, hc, settle]
  | cons d a ih =>
    rw [List.cons_append, settleFrom, settleFrom]
    split
    · exact ih _
    · rw [ih, List.append_assoc, List.cons_append]

theorem settle_append_cons (hc : isBlank c = false) (a b : List Char) :
    settle (a ++ c :: b) = settle a ++ c :: settle b := settleFrom_append_cons hc [] a b

theorem settle_cons (hc : isBlank c = false) (b : List Char) : settle (c :: b) = c :: settle b :=
  settle_append_cons hc [] b

theorem settle_append_of_opened (h : ∃ c ∈ v.head?, isBlank c = false) (u : List Char) :
    settle (u ++ v) = settle u ++ settle v := by
  obtain ⟨c, hm, hc⟩ := h
  obtain ⟨tail, rfl⟩ := List.head?_eq_some_iff.mp hm
  rw [settle_append_cons hc, settle_cons hc]

theorem settle_append_of_closed (h : ∃ c ∈ u.getLast?, isBlank c = false) (v : List Char) :
    settle (u ++ v) = settle u ++ settle v := by
  obtain ⟨c, hm, hc⟩ := h
  obtain ⟨lead, rfl⟩ := List.getLast?_eq_some_iff.mp hm
  rw [List.append_assoc, List.singleton_append, settle_append_cons hc, settle_append_cons hc,
    List.append_assoc]
  rfl

theorem settleFrom_of_blank (h : Blank cs) (gap : List Char) :
    settleFrom gap cs = closeGap (gap ++ cs) := by
  induction cs generalizing gap with
  | nil => rw [settleFrom, List.append_nil]
  | cons c cs ih =>
    rw [settleFrom, if_pos (h c List.mem_cons_self), ih fun d hd => h d (List.mem_cons_of_mem c hd),
      List.append_assoc, List.singleton_append]

theorem settleFrom_of_unbroken (h : '\n' ∉ gap ++ cs) : settleFrom gap cs = gap ++ cs := by
  induction cs generalizing gap with
  | nil => rw [settleFrom, closeGap, if_neg (by simpa using h), List.append_nil]
  | cons c cs ih =>
    obtain ⟨hg, hcs⟩ : '\n' ∉ gap ∧ '\n' ∉ c :: cs := by simpa [not_or] using h
    rw [settleFrom]
    split
    · rw [ih (by simpa using h), List.append_assoc, List.singleton_append]
    · have others : '\n' ∉ [] ++ cs := fun hm => hcs (List.mem_cons_of_mem c hm)
      rw [ih others, closeGap, if_neg hg]
      rfl

theorem settle_of_unbroken (h : '\n' ∉ cs) : settle cs = cs := settleFrom_of_unbroken h

theorem trimLeft_append (h : Blank gap) (cs : List Char) : trimLeft (gap ++ cs) = trimLeft cs :=
  List.dropWhile_append_of_pos h

theorem trimRight_append (h : Blank gap) (cs : List Char) :
    trimRight (cs ++ gap) = trimRight cs := by
  rw [trimRight, List.reverse_append,
    List.dropWhile_append_of_pos fun c hc => h c (List.mem_reverse.mp hc), trimRight]

theorem trimRight_append_of_closed (h : ∃ c ∈ u.getLast?, isBlank c = false) (v : List Char) :
    trimRight (u ++ v) = u ++ trimRight v := by
  obtain ⟨c, hm, hc⟩ := h
  obtain ⟨lead, rfl⟩ := List.getLast?_eq_some_iff.mp hm
  have stays : (c :: lead.reverse).dropWhile isBlank = c :: lead.reverse :=
    List.dropWhile_cons_of_neg (by simp [hc])
  rw [trimRight, List.reverse_append, List.reverse_append, List.reverse_singleton,
    List.singleton_append, List.dropWhile_append, stays, trimRight]
  split
  · rename_i empty
    simp [List.isEmpty_iff.mp empty]
  · simp

theorem trimLeft_append_of_opened (h : ∃ c ∈ v.head?, isBlank c = false) (u : List Char) :
    trimLeft (u ++ v) = trimLeft u ++ v := by
  obtain ⟨c, hm, hc⟩ := h
  obtain ⟨tail, rfl⟩ := List.head?_eq_some_iff.mp hm
  have stays : (c :: tail).dropWhile isBlank = c :: tail :=
    List.dropWhile_cons_of_neg (by simp [hc])
  rw [trimLeft, List.dropWhile_append, stays, trimLeft]
  split
  · rename_i empty
    simp [List.isEmpty_iff.mp empty]
  · rfl

theorem Solid.opened_append (h : Solid u) (cs : List Char) :
    ∃ c ∈ (u ++ cs).head?, isBlank c = false := by
  obtain ⟨c, hm, hc⟩ := h.opened
  refine ⟨c, ?_, hc⟩
  rw [List.head?_append, Option.mem_def.mp hm]
  rfl

theorem Solid.append_closed (h : Solid u) (cs : List Char) :
    ∃ c ∈ (cs ++ u).getLast?, isBlank c = false := by
  obtain ⟨c, hm, hc⟩ := h.closed
  refine ⟨c, ?_, hc⟩
  rw [List.getLast?_append, Option.mem_def.mp hm]
  rfl

/-- Solid text is where trimming from either side stops. -/
theorem trim_around (h : Solid u) (a b : List Char) :
    trim (a ++ (u ++ b)) = trimLeft a ++ (u ++ trimRight b) := by
  rw [trim, trimLeft_append_of_opened (h.opened_append b), ← List.append_assoc,
    trimRight_append_of_closed (h.append_closed (trimLeft a)), List.append_assoc]

theorem trim_of_blank (h : Blank cs) : trim cs = [] := by
  have empty := trimLeft_append h []
  rw [List.append_nil] at empty
  rw [trim, empty]
  rfl

/-- Text is blank, or it is solid text with blanks around it. -/
theorem blank_or_solid (cs : List Char) :
    Blank cs ∨ ∃ g u g', cs = g ++ (u ++ g') ∧ Blank g ∧ Blank g' ∧ Solid u := by
  induction cs with
  | nil => exact .inl blank_nil
  | cons c cs ih =>
    by_cases hc : isBlank c = true
    · rcases ih with blank | ⟨g, u, g', rfl, hg, hg', hu⟩
      · exact .inl (blank.cons hc)
      · exact .inr ⟨c :: g, u, g', rfl, hg.cons hc, hg', hu⟩
    · have hc : isBlank c = false := by simpa using hc
      rcases ih with blank | ⟨g, u, g', rfl, hg, hg', hu⟩
      · exact .inr ⟨[], [c], cs, rfl, blank_nil, blank, ⟨c, rfl, hc⟩, ⟨c, rfl, hc⟩⟩
      · have solid : Solid (c :: g ++ u) := ⟨⟨c, rfl, hc⟩, hu.append_closed (c :: g)⟩
        exact .inr ⟨[], c :: g ++ u, g', by simp, blank_nil, hg', solid⟩

theorem trim_solid {g g' : List Char} (h : Solid u) (hg : Blank g) (hg' : Blank g') :
    trim (g ++ (u ++ g')) = u := by
  have left := trimLeft_append hg []
  have right := trimRight_append hg' []
  rw [List.append_nil] at left
  rw [List.nil_append] at right
  rw [trim_around h, left, right]
  simp [trimLeft, trimRight]

theorem trim_append (h : Blank gap) (cs : List Char) : trim (cs ++ gap) = trim cs := by
  rcases blank_or_solid cs with blank | ⟨g, u, g', rfl, hg, hg', hu⟩
  · rw [trim_of_blank blank, trim_of_blank (blank.append h)]
  · rw [List.append_assoc, List.append_assoc, trim_solid hu hg hg', trim_solid hu hg (hg'.append h)]

theorem Solid.ne_nil (h : Solid u) : u ≠ [] := by
  rintro rfl
  obtain ⟨c, hc, -⟩ := h.opened
  cases hc

theorem Solid.around (hu : Solid u) (hv : Solid v) (cs : List Char) : Solid (u ++ (cs ++ v)) := by
  constructor
  · exact hu.opened_append (cs ++ v)
  · rw [← List.append_assoc]
    exact hv.append_closed (u ++ cs)

theorem Solid.settle_ne_nil (h : Solid u) : settle u ≠ [] := by
  obtain ⟨c, hm, hc⟩ := h.opened
  obtain ⟨tail, rfl⟩ := List.head?_eq_some_iff.mp hm
  rw [settle_cons hc]
  exact List.cons_ne_nil _ _

/-- Solid text on a line of its own, and the solid text on lines behind it. -/
theorem settle_lines (hu : Solid u) (hv : Solid v) (hn : '\n' ∉ u) {g h : List Char}
    (hg : Blank g) (hh : Blank h) :
    settle (u ++ (g ++ '\n' :: h ++ v)) = u ++ '\n' :: settle v := by
  have gap : Blank (g ++ '\n' :: h) := hg.append (hh.cons isBlank_newline)
  rw [settle_append_of_closed hu.closed, settle_append_of_opened hv.opened,
    settle_of_unbroken hn, settle, settleFrom_of_blank gap, closeGap, if_pos (by simp)]
  rfl

def rows (ls : List (List Char)) : List (List Char) := (ls.map trim).filter (!·.isEmpty)

theorem rows_cons_of_blank {l : List Char} (h : Blank l) (ls : List (List Char)) :
    rows (l :: ls) = rows ls := by
  simp [rows, trim_of_blank h]

theorem rows_cons_of_solid {g g' : List Char} (h : Solid u) (hg : Blank g) (hg' : Blank g')
    (ls : List (List Char)) : rows ((g ++ (u ++ g')) :: ls) = u :: rows ls := by
  simp [rows, trim_solid h hg hg', h.ne_nil]

theorem rows_eq_nil {ls : List (List Char)} (h : List.intercalate ['\n'] (rows ls) = []) :
    rows ls = [] := by
  cases hr : rows ls with
  | nil => rfl
  | cons l rest =>
    have kept : l ∈ rows ls := by rw [hr]; exact List.mem_cons_self
    have filled : l ≠ [] := by simpa using (List.mem_filter.mp kept).2
    rw [hr] at h
    cases rest with
    | nil => exact absurd (by simpa using h) filled
    | cons l' rest => simp [List.intercalate_cons_cons] at h

/-- A line in front of other lines. -/
theorem settle_trim_cons {l : List Char} (hl : '\n' ∉ l) {ls : List (List Char)} {text : List Char}
    (ih : settle (trim text) = List.intercalate ['\n'] (rows ls)) :
    settle (trim (l ++ '\n' :: text)) = List.intercalate ['\n'] (rows (l :: ls)) := by
  rcases blank_or_solid l with blank | ⟨g, u, g', rfl, hg, hg', hu⟩
  · have before : Blank (l ++ ['\n']) := blank.append (blank_nil.cons isBlank_newline)
    rw [rows_cons_of_blank blank, ← ih, List.append_cons, trim, trimLeft_append before, trim]
  · have unbroken : '\n' ∉ u := fun hm => hl (by simp [hm])
    rw [rows_cons_of_solid hu hg hg']
    rcases blank_or_solid text with blank | ⟨h, v, h', rfl, hh, hh', hv⟩
    · have after : Blank (g' ++ '\n' :: text) := hg'.append (blank.cons isBlank_newline)
      rw [trim_of_blank blank] at ih
      rw [List.append_assoc, List.append_assoc, trim_solid hu hg after,
        settle_of_unbroken unbroken, rows_eq_nil ih.symm, List.intercalate_singleton]
    · rw [trim_solid hv hh hh'] at ih
      have left : rows ls ≠ [] := fun he => hv.settle_ne_nil (by rw [ih, he]; rfl)
      have parts : g ++ (u ++ g') ++ '\n' :: (h ++ (v ++ h')) =
          g ++ (u ++ (g' ++ '\n' :: h ++ v) ++ h') := by simp
      rw [parts, trim_solid (hu.around hv _) hg hh', settle_lines hu hv unbroken hg' hh, ih,
        List.intercalate_cons_of_ne_nil left, List.append_cons]

theorem settle_trim_intercalate {ls : List (List Char)} (h : ∀ l ∈ ls, '\n' ∉ l) :
    settle (trim (List.intercalate ['\n'] ls)) = List.intercalate ['\n'] (rows ls) := by
  induction ls with
  | nil => rfl
  | cons l ls ih =>
    have ih := ih fun k hk => h k (List.mem_cons_of_mem l hk)
    have step := settle_trim_cons (h l List.mem_cons_self) ih
    cases ls with
    | cons l' rest =>
      rw [List.intercalate_cons_cons, List.append_assoc]
      exact step
    | nil =>
      -- no line feed ends the last line; one there would be trimmed
      rw [List.intercalate_singleton, ← trim_append (blank_nil.cons isBlank_newline)]
      exact step

theorem newline_not_mem_of_mem_lines {cs l : List Char} (h : l ∈ lines cs) : '\n' ∉ l := by
  induction cs generalizing l with
  | nil =>
    obtain rfl : l = [] := by simpa [lines] using h
    exact List.not_mem_nil
  | cons c cs ih =>
    obtain ⟨k, ks, hk⟩ := List.exists_cons_of_ne_nil (List.splitOn_ne_nil '\n' cs)
    have ih (l : List Char) (hl : l ∈ k :: ks) : '\n' ∉ l := ih (by rw [lines, hk]; exact hl)
    rw [lines, List.splitOn_cons_eq_if_modifyHead, hk] at h
    split at h
    · rcases List.mem_cons.mp h with rfl | h
      · exact List.not_mem_nil
      · exact ih l h
    · rename_i hc
      rcases List.mem_cons.mp h with rfl | h
      · intro hm
        rcases List.mem_cons.mp hm with rfl | hm
        · exact hc rfl
        · exact ih k List.mem_cons_self hm
      · exact ih l (List.mem_cons_of_mem k h)

/-- Tidying is trimming the whole text and settling it. -/
theorem tidyLines_eq_settle (cs : List Char) : tidyLines cs = settle (trim cs) := by
  have whole : List.intercalate ['\n'] (lines cs) = cs := List.intercalate_splitOn '\n'
  calc tidyLines cs = List.intercalate ['\n'] (rows (lines cs)) := rfl
    _ = settle (trim (List.intercalate ['\n'] (lines cs))) :=
      (settle_trim_intercalate fun l hl => newline_not_mem_of_mem_lines hl).symm
    _ = settle (trim cs) := by rw [whole]

/-- What stands around solid text has no part in how that is tidied. -/
theorem tidyLines_around (h : Solid u) (a b : List Char) :
    tidyLines (a ++ (u ++ b)) = settle (trimLeft a) ++ (settle u ++ settle (trimRight b)) := by
  rw [tidyLines_eq_settle, trim_around h, settle_append_of_opened (h.opened_append _),
    settle_append_of_closed h.closed]

theorem settleFrom_head_blank (hg : Blank gap) (hn : gap ≠ []) (cs : List Char) :
    ∃ c ∈ (settleFrom gap cs).head?, isBlank c = true := by
  have close (g : List Char) (h : Blank g) (hn : g ≠ []) (rest : List Char) :
      ∃ c ∈ (closeGap g ++ rest).head?, isBlank c = true := by
    obtain ⟨c, tail, rfl⟩ := List.exists_cons_of_ne_nil hn
    unfold closeGap
    split
    · exact ⟨'\n', rfl, isBlank_newline⟩
    · exact ⟨c, rfl, h c List.mem_cons_self⟩
  induction cs generalizing gap with
  | nil => simpa [settleFrom] using close gap hg hn []
  | cons c cs ih =>
    rw [settleFrom]
    split
    · rename_i hc
      exact ih (hg.append (blank_nil.cons hc)) (by simp)
    · exact close gap hg hn _

theorem head?_of_settle (hc : isBlank c = false) (h : (settle cs).head? = some c) :
    cs.head? = some c := by
  cases cs with
  | nil => cases h
  | cons d cs =>
    by_cases hd : isBlank d = true
    · obtain ⟨e, he, blank⟩ := settleFrom_head_blank (blank_nil.cons hd) (by simp) cs
      have first : (settleFrom [d] cs).head? = some c := by
        rw [settle, settleFrom, if_pos hd] at h
        exact h
      obtain rfl : e = c := Option.some.inj (he.symm.trans first)
      rw [hc] at blank
      cases blank
    · rw [settle_cons (by simpa using hd)] at h
      exact h

theorem head?_of_trimRight (h : (trimRight cs).head? = some c) : cs.head? = some c := by
  have part : trimRight cs <+: cs := by
    rw [trimRight, ← List.reverse_suffix, List.reverse_reverse]
    exact List.dropWhile_suffix _
  obtain ⟨tail, he⟩ := part
  rw [← he, List.head?_append, h]
  rfl

def Unpadded (cs : List Char) : Prop :=
  cs.IsChain fun c d => isBlank c = true → isBlank d = true → c ≠ '\n' ∧ d ≠ '\n'

theorem closeGap_eq_self_iff (h : Blank gap) : closeGap gap = gap ↔ Unpadded gap := by
  by_cases hm : '\n' ∈ gap
  · rw [closeGap, if_pos hm]
    constructor
    · rintro rfl
      exact List.IsChain.singleton _
    · intro chain
      obtain ⟨before, after, rfl⟩ := List.append_of_mem hm
      obtain ⟨-, behind, meet⟩ := List.isChain_append.mp chain
      have first : before = [] := by
        rw [← List.getLast?_eq_none_iff, Option.eq_none_iff_forall_ne_some]
        intro c hc
        have blank := h c (List.mem_append_left _ (List.mem_of_getLast? hc))
        exact (meet c hc '\n' rfl blank isBlank_newline).2 rfl
      have last : after = [] := by
        rw [← List.head?_eq_none_iff, Option.eq_none_iff_forall_ne_some]
        intro c hc
        have blank := h c (List.mem_append_right _ (List.mem_cons_of_mem _ (List.mem_of_head? hc)))
        exact ((List.isChain_cons.mp behind).1 c hc isBlank_newline blank).1 rfl
      rw [first, last]
      rfl
  · rw [closeGap, if_neg hm]
    refine iff_of_true rfl (List.isChain_iff_forall_rel_of_append_cons_cons.mpr ?_)
    rintro c d before after rfl - -
    exact ⟨fun hc => hm (by simp [hc]), fun hd => hm (by simp [hd])⟩

theorem length_closeGap (gap : List Char) : (closeGap gap).length ≤ gap.length := by
  unfold closeGap
  split
  · rename_i hm
    exact List.length_pos_of_mem hm
  · exact le_rfl

theorem length_settleFrom (gap cs : List Char) :
    (settleFrom gap cs).length ≤ gap.length + cs.length := by
  induction cs generalizing gap with
  | nil => exact length_closeGap gap
  | cons c cs ih =>
    rw [settleFrom]
    split
    · have shorter := ih (gap ++ [c])
      simp only [List.length_append, List.length_cons, List.length_nil] at shorter ⊢
      omega
    · have shorter := ih []
      have closed := length_closeGap gap
      simp only [List.length_append, List.length_cons, List.length_nil] at shorter ⊢
      omega

theorem unpadded_append_cons (hc : isBlank c = false) (a b : List Char) :
    Unpadded (a ++ c :: b) ↔ Unpadded a ∧ Unpadded b := by
  unfold Unpadded
  rw [List.isChain_append, List.isChain_cons]
  simp [hc]

theorem settleFrom_eq_iff (h : Blank gap) :
    settleFrom gap cs = gap ++ cs ↔ Unpadded (gap ++ cs) := by
  induction cs generalizing gap with
  | nil =>
    rw [settleFrom, List.append_nil]
    exact closeGap_eq_self_iff h
  | cons c cs ih =>
    rw [settleFrom]
    split
    · rename_i hc
      rw [List.append_cons gap c cs]
      exact ih (h.append (blank_nil.cons hc))
    · rename_i hc
      have hc : isBlank c = false := by simpa using hc
      rw [unpadded_append_cons hc, ← closeGap_eq_self_iff h, ← List.nil_append cs,
        ← ih blank_nil, List.nil_append]
      constructor
      · intro he
        have shorter := length_settleFrom [] cs
        have closed := length_closeGap gap
        have total := congrArg List.length he
        simp only [List.length_append, List.length_cons, List.length_nil] at shorter total
        obtain ⟨first, others⟩ := List.append_inj he (by omega)
        exact ⟨first, (List.cons.inj others).2⟩
      · rintro ⟨first, others⟩
        rw [first, others]

/-- Settling changes a text just if a line feed of it stands next to another blank. -/
theorem settle_eq_self_iff : settle cs = cs ↔ Unpadded cs := settleFrom_eq_iff blank_nil

end SqlClient.Text
