import Mathlib.Data.List.Chain
import SqlClient.Proofs.Text.Settled
import SqlClient.Sql.Fragment
/-!
# Marks

Statement text seen as characters and placeholders. A fragment has marks in reading order, and its
compiled text is what they spell once the lines are tidied. Tidying can be done on the marks
themselves: a placeholder is never blank, so no line loses a part of one.
-/
namespace SqlClient.Sql

inductive Mark where
  | char (c : Char)
  | slot (digits : List Char)
  deriving DecidableEq, Repr

namespace Mark

def chars : Mark → List Char
  | .char c => [c]
  | .slot digits => '$' :: digits

def spell (ms : List Mark) : List Char := ms.flatMap chars

def literal (cs : List Char) : List Mark := cs.map .char

def slots : List Mark → List (List Char)
  | [] => []
  | .char _ :: ms => slots ms
  | .slot digits :: ms => digits :: slots ms

def isBlank : Mark → Bool
  | .char c => Text.isBlank c
  | .slot _ => false

def isBreak : Mark → Bool
  | .char c => c == '\n'
  | .slot _ => false

def lines (ms : List Mark) : List (List Mark) := ms.splitOnP isBreak

def trim (ms : List Mark) : List Mark :=
  ((ms.dropWhile isBlank).reverse.dropWhile isBlank).reverse

def tidyRows (ms : List Mark) : List (List Mark) := ((lines ms).map trim).filter (!·.isEmpty)

def tidy (ms : List Mark) : List Mark :=
  List.intercalate [.char '\n'] (tidyRows ms)

def WellFormed : Mark → Prop
  | .char _ => True
  | .slot digits => digits ≠ [] ∧ ∀ c ∈ digits, c.isDigit

@[simp] theorem spell_nil : spell [] = [] := rfl

@[simp] theorem spell_cons (m : Mark) (ms : List Mark) : spell (m :: ms) = m.chars ++ spell ms :=
  List.flatMap_cons

@[simp] theorem spell_append (ms ns : List Mark) : spell (ms ++ ns) = spell ms ++ spell ns :=
  List.flatMap_append

@[simp] theorem spell_literal (cs : List Char) : spell (literal cs) = cs := by
  induction cs with
  | nil => rfl
  | cons c cs ih => simpa [literal, chars] using ih

@[simp] theorem slots_append (ms ns : List Mark) : slots (ms ++ ns) = slots ms ++ slots ns := by
  induction ms with
  | nil => rfl
  | cons m ms ih => cases m <;> simp [slots, ih]

@[simp] theorem slots_literal (cs : List Char) : slots (literal cs) = [] := by
  induction cs with
  | nil => rfl
  | cons c cs ih => simpa [literal, slots] using ih

theorem chars_ne_nil (m : Mark) : m.chars ≠ [] := by cases m <;> simp [chars]

theorem spell_eq_nil_iff (ms : List Mark) : spell ms = [] ↔ ms = [] := by
  cases ms with
  | nil => simp
  | cons m ms => simp [chars_ne_nil]

theorem spell_intercalate (m : Mark) (lines : List (List Mark)) :
    spell (List.intercalate [m] lines) = List.intercalate m.chars (lines.map spell) := by
  induction lines with
  | nil => rfl
  | cons l rest ih =>
    cases rest with
    | nil => simp
    | cons l' rest => simp_all [List.intercalate_cons_cons]

theorem splitOn_append_of_notMem {α : Type} [BEq α] [LawfulBEq α] {a : α} {xs : List α}
    (h : a ∉ xs) (ys : List α) : (xs ++ ys).splitOn a = (ys.splitOn a).modifyHead (xs ++ ·) := by
  induction xs with
  | nil => cases hs : ys.splitOn a <;> simp [hs]
  | cons x xs ih =>
    have hx : (x == a) = false := by
      rw [beq_eq_false_iff_ne]
      rintro rfl
      exact h List.mem_cons_self
    rw [List.cons_append, List.splitOn_cons_eq_if_modifyHead, hx,
      ih fun hm => h (List.mem_cons_of_mem x hm)]
    simp [Function.comp_def]

theorem not_isBlank_chars {m : Mark} (hw : m.WellFormed) (hm : m.isBlank = false) :
    ∀ c ∈ m.chars, Text.isBlank c = false := by
  intro c hc
  cases m with
  | char d => rw [List.mem_singleton.mp hc]; exact hm
  | slot digits =>
    rcases List.mem_cons.mp hc with rfl | hc
    · decide
    · exact Text.not_isBlank_of_isDigit (hw.2 c hc)

theorem lines_spell {ms : List Mark} (hw : ∀ m ∈ ms, m.WellFormed) :
    Text.lines (spell ms) = (lines ms).map spell := by
  unfold Text.lines lines
  induction ms with
  | nil => simp
  | cons m ms ih =>
    have ih := ih fun n hn => hw n (List.mem_cons_of_mem m hn)
    obtain ⟨l, ls, hl⟩ := List.exists_cons_of_ne_nil (List.splitOnP_ne_nil isBreak ms)
    rw [List.splitOnP_cons_eq_if_modifyHead, spell_cons, hl]
    rw [hl] at ih
    cases m with
    | char c =>
      rw [chars, List.singleton_append, List.splitOn_cons_eq_if_modifyHead, ih, isBreak]
      split <;> simp [chars]
    | slot digits =>
      have hn : '\n' ∉ '$' :: digits := by
        intro hn
        rcases List.mem_cons.mp hn with hn | hn
        · exact absurd hn (by decide)
        · exact absurd ((hw _ List.mem_cons_self).2 _ hn) (by decide)
      rw [chars, splitOn_append_of_notMem hn, ih, isBreak]
      simp [chars]

/-- Dropping from the front of a spelled list drops whole members, when every member is spelled
either by dropped items alone or by kept items alone. -/
theorem dropWhile_flatMap {α β : Type} {p : β → Bool} {q : α → Bool} {f : α → List β} {xs : List α}
    (hd : ∀ x ∈ xs, q x = true → ∀ c ∈ f x, p c = true)
    (hk : ∀ x ∈ xs, q x = false → f x ≠ [] ∧ ∀ c ∈ f x, p c = false) :
    (xs.flatMap f).dropWhile p = (xs.dropWhile q).flatMap f := by
  induction xs with
  | nil => rfl
  | cons x xs ih =>
    rw [List.flatMap_cons]
    by_cases hq : q x = true
    · rw [List.dropWhile_cons_of_pos hq, List.dropWhile_append_of_pos (hd x List.mem_cons_self hq)]
      exact ih (fun y hy => hd y (List.mem_cons_of_mem x hy))
        fun y hy => hk y (List.mem_cons_of_mem x hy)
    · obtain ⟨hn, hp⟩ := hk x List.mem_cons_self (by simpa using hq)
      obtain ⟨c, cs, hc⟩ := List.exists_cons_of_ne_nil hn
      have hpc : ¬ p c = true := by simpa using hp c (by simp [hc])
      rw [List.dropWhile_cons_of_neg hq, List.flatMap_cons, hc, List.cons_append,
        List.dropWhile_cons_of_neg hpc]

theorem isBlank_chars {m : Mark} (h : m.isBlank = true) : ∀ c ∈ m.chars, Text.isBlank c = true := by
  intro c hc
  cases m with
  | char d => rw [List.mem_singleton.mp hc]; exact h
  | slot digits => exact absurd h (by simp [isBlank])

theorem trim_spell {ms : List Mark} (hw : ∀ m ∈ ms, m.WellFormed) :
    Text.trim (spell ms) = spell (trim ms) := by
  have left : Text.trimLeft (spell ms) = spell (ms.dropWhile isBlank) :=
    dropWhile_flatMap (fun m _ hb => isBlank_chars hb)
      fun m hm hb => ⟨m.chars_ne_nil, not_isBlank_chars (hw m hm) hb⟩
  have right (ns : List Mark) (hn : ∀ m ∈ ns, m.WellFormed) :
      Text.trimRight (spell ns) = spell (ns.reverse.dropWhile isBlank).reverse := by
    rw [Text.trimRight, spell, List.reverse_flatMap, dropWhile_flatMap (q := isBlank)]
    · simp [spell, List.reverse_flatMap, Function.comp_def]
    · intro m _ hb c hc
      exact isBlank_chars hb c (List.mem_reverse.mp hc)
    · intro m hm hb
      refine ⟨by simp [chars_ne_nil], fun c hc => ?_⟩
      exact not_isBlank_chars (hn m (List.mem_reverse.mp hm)) hb c (List.mem_reverse.mp hc)
  rw [Text.trim, left, right _ fun m hm => hw m ((List.dropWhile_sublist _).mem hm), trim]

/-- The first part is where the list begins, and no part takes up what it does not hold. -/
theorem splitOnP_within {α : Type} {p : α → Bool} {xs l : List α} {ls : List (List α)}
    (h : xs.splitOnP p = l :: ls) : l <+: xs ∧ ∀ l' ∈ ls, l' <:+: xs := by
  induction xs generalizing l ls with
  | nil =>
    obtain ⟨rfl, rfl⟩ : [] = l ∧ [] = ls := by simpa using h
    simp
  | cons x xs ih =>
    obtain ⟨k, ks, hk⟩ := List.exists_cons_of_ne_nil (List.splitOnP_ne_nil p xs)
    obtain ⟨hp, hi⟩ := ih hk
    rw [List.splitOnP_cons_eq_if_modifyHead, hk] at h
    by_cases hx : p x = true
    · rw [if_pos hx] at h
      obtain ⟨rfl, rfl⟩ := List.cons.inj h
      refine ⟨List.nil_prefix, fun l' hl' => ?_⟩
      rcases List.mem_cons.mp hl' with rfl | hl'
      · exact hp.isInfix.trans (List.suffix_cons x xs).isInfix
      · exact (hi l' hl').trans (List.suffix_cons x xs).isInfix
    · rw [if_neg hx, List.modifyHead_cons] at h
      obtain ⟨rfl, rfl⟩ := List.cons.inj h
      exact ⟨(List.prefix_cons_inj x).mpr hp,
        fun l' hl' => (hi l' hl').trans (List.suffix_cons x xs).isInfix⟩

theorem infix_of_mem_lines {l ms : List Mark} (h : l ∈ lines ms) : l <:+: ms := by
  obtain ⟨k, ks, hk⟩ := List.exists_cons_of_ne_nil (List.splitOnP_ne_nil isBreak ms)
  obtain ⟨hp, hi⟩ := splitOnP_within hk
  rw [lines, hk] at h
  rcases List.mem_cons.mp h with rfl | h
  · exact hp.isInfix
  · exact hi l h

theorem trim_within (ms : List Mark) : trim ms <:+: ms := by
  have h : ((ms.dropWhile isBlank).reverse.dropWhile isBlank).reverse <+: ms.dropWhile isBlank := by
    rw [← List.reverse_suffix, List.reverse_reverse]
    exact List.dropWhile_suffix _
  exact h.isInfix.trans (List.dropWhile_suffix _).isInfix

theorem infix_of_mem_tidyRows {l ms : List Mark} (h : l ∈ tidyRows ms) : l <:+: ms := by
  obtain ⟨k, hk, rfl⟩ := List.mem_map.mp (List.mem_filter.mp h).1
  exact (trim_within k).trans (infix_of_mem_lines hk)

/-- Tidying the text of marks is spelling the tidied marks. -/
theorem tidyLines_spell {ms : List Mark} (hw : ∀ m ∈ ms, m.WellFormed) :
    Text.tidyLines (spell ms) = spell (tidy ms) := by
  have trims : (lines ms).map (Text.trim ∘ spell) = (lines ms).map (spell ∘ trim) :=
    List.map_congr_left fun l hl => trim_spell fun m hm => hw m ((infix_of_mem_lines hl).mem hm)
  have empty (l : List Mark) : (spell l).isEmpty = l.isEmpty := by
    rw [Bool.eq_iff_iff, List.isEmpty_iff, List.isEmpty_iff, spell_eq_nil_iff]
  rw [Text.tidyLines, lines_spell hw, tidy, spell_intercalate, List.map_map, trims, ← List.map_map,
    List.filter_map]
  simp [Function.comp_def, empty, chars, tidyRows]

/-- Cut text into characters and placeholders, which take as many digits as follow the sign. -/
def scan : List Char → List Mark
  | [] => []
  | c :: cs =>
    if c = '$' ∧ cs.takeWhile Char.isDigit ≠ [] then
      .slot (cs.takeWhile Char.isDigit) :: scan (cs.dropWhile Char.isDigit)
    else .char c :: scan cs
  termination_by cs => cs.length
  decreasing_by
    · exact Nat.lt_succ_of_le (List.dropWhile_sublist _).length_le
    · exact Nat.lt_succ_self _

/-- A placeholder is not followed by a digit of literal text. -/
def Apart : Mark → Mark → Prop
  | .slot _, .char c => c.isDigit = false
  | _, _ => True

structure Scannable (ms : List Mark) : Prop where
  wellFormed : ∀ m ∈ ms, m.WellFormed
  sign : .char '$' ∉ ms
  apart : ms.IsChain Apart

theorem Scannable.tail {m : Mark} {ms : List Mark} (h : Scannable (m :: ms)) : Scannable ms :=
  ⟨fun n hn => h.wellFormed n (List.mem_cons_of_mem m hn),
    fun hn => h.sign (List.mem_cons_of_mem m hn), h.apart.tail⟩

theorem Scannable.part {l ms : List Mark} (h : Scannable ms) (hl : l <:+: ms) : Scannable l :=
  ⟨fun m hm => h.wellFormed m (hl.mem hm), fun hm => h.sign (hl.mem hm),
    List.IsChain.infix h.apart hl⟩

/-- After a placeholder the text goes on with something else than a digit. -/
theorem takeWhile_isDigit_spell {digits : List Char} {ms : List Mark}
    (h : Scannable (.slot digits :: ms)) : (spell ms).takeWhile Char.isDigit = [] := by
  cases ms with
  | nil => rfl
  | cons m ms =>
    have ha := h.apart.rel
    cases m with
    | char c => exact List.takeWhile_cons_of_neg (by simpa [Apart] using ha)
    | slot ds => rfl

theorem scan_spell {ms : List Mark} (h : Scannable ms) : scan (spell ms) = ms := by
  induction ms with
  | nil => rw [spell_nil, scan]
  | cons m ms ih =>
    have ih := ih h.tail
    rw [spell_cons]
    cases m with
    | char c =>
      have hc : c ≠ '$' := by
        rintro rfl
        exact h.sign List.mem_cons_self
      rw [chars, List.singleton_append, scan, if_neg (by simp [hc]), ih]
    | slot digits =>
      obtain ⟨hn, hd⟩ := h.wellFormed _ List.mem_cons_self
      have ht : (digits ++ spell ms).takeWhile Char.isDigit = digits := by
        rw [List.takeWhile_append_of_pos hd, takeWhile_isDigit_spell h, List.append_nil]
      have hr : (digits ++ spell ms).dropWhile Char.isDigit = spell ms := by
        have hs := List.takeWhile_append_dropWhile (p := Char.isDigit) (l := spell ms)
        rw [List.dropWhile_append_of_pos hd]
        rwa [takeWhile_isDigit_spell h, List.nil_append] at hs
      rw [chars, List.cons_append, scan, ht, hr, if_pos ⟨rfl, hn⟩, ih]

theorem apart_newline (m : Mark) : Apart m (.char '\n') ∧ Apart (.char '\n') m := by
  cases m with
  | char c => exact ⟨trivial, trivial⟩
  | slot digits => exact ⟨rfl, trivial⟩

theorem isChain_apart_intercalate {ls : List (List Mark)} (h : ∀ l ∈ ls, l.IsChain Apart) :
    (List.intercalate [.char '\n'] ls).IsChain Apart := by
  induction ls with
  | nil => exact .nil
  | cons l rest ih =>
    have ih := ih fun k hk => h k (List.mem_cons_of_mem l hk)
    cases rest with
    | nil => simpa using h l List.mem_cons_self
    | cons l' rest =>
      rw [List.intercalate_cons_cons, List.append_assoc]
      refine (h l List.mem_cons_self).append ?_ ?_
      · refine (List.IsChain.singleton _).append ih ?_
        intro x hx y _
        obtain rfl : Mark.char '\n' = x := by simpa using hx
        exact (apart_newline y).2
      · intro x _ y hy
        obtain rfl : Mark.char '\n' = y := by simpa using hy
        exact (apart_newline x).1

theorem Scannable.tidy {ms : List Mark} (h : Scannable ms) : Scannable (tidy ms) := by
  have rows : ∀ l ∈ tidyRows ms, Scannable l := fun l hl => h.part (infix_of_mem_tidyRows hl)
  refine ⟨fun m hm => ?_, fun hm => ?_, isChain_apart_intercalate fun l hl => (rows l hl).apart⟩
  · rcases Text.mem_intercalate hm with hm | ⟨l, hl, hm⟩
    · obtain rfl := List.mem_singleton.mp hm
      trivial
    · exact (rows l hl).wellFormed m hm
  · rcases Text.mem_intercalate hm with hm | ⟨l, hl, hm⟩
    · exact absurd (Mark.char.inj (List.mem_singleton.mp hm)) (by decide)
    · exact (rows l hl).sign hm

theorem slots_dropWhile (ms : List Mark) : slots (ms.dropWhile isBlank) = slots ms := by
  induction ms with
  | nil => rfl
  | cons m ms ih =>
    cases m with
    | char c =>
      rw [List.dropWhile_cons]
      split
      · exact ih
      · rfl
    | slot digits => rfl

theorem slots_reverse (ms : List Mark) : slots ms.reverse = (slots ms).reverse := by
  induction ms with
  | nil => rfl
  | cons m ms ih => cases m <;> simp [slots, ih]

theorem slots_trim (ms : List Mark) : slots (trim ms) = slots ms := by
  rw [trim, slots_reverse, slots_dropWhile, slots_reverse, slots_dropWhile, List.reverse_reverse]

theorem slots_intercalate (c : Char) (ls : List (List Mark)) :
    slots (List.intercalate [.char c] ls) = ls.flatMap slots := by
  induction ls with
  | nil => rfl
  | cons l rest ih =>
    cases rest with
    | nil => simp
    | cons l' rest => simp_all [List.intercalate_cons_cons, slots]

theorem slots_lines (ms : List Mark) : (lines ms).flatMap slots = slots ms := by
  induction ms with
  | nil => rfl
  | cons m ms ih =>
    obtain ⟨l, ls, hl⟩ := List.exists_cons_of_ne_nil (List.splitOnP_ne_nil isBreak ms)
    rw [lines, hl, List.flatMap_cons] at ih
    rw [lines, List.splitOnP_cons_eq_if_modifyHead, hl]
    cases m with
    | char c => split <;> simp [slots, ih]
    | slot digits => simp [isBreak, slots, ih]

theorem slots_tidy (ms : List Mark) : slots (tidy ms) = slots ms := by
  have filtered (ls : List (List Mark)) :
      (ls.filter (!·.isEmpty)).flatMap slots = ls.flatMap slots := by
    induction ls with
    | nil => rfl
    | cons l ls ih => cases l <;> simp [ih, slots]
  rw [tidy, slots_intercalate, tidyRows, filtered, List.flatMap_map]
  simp only [slots_trim, slots_lines]

end Mark

end SqlClient.Sql
