import Mathlib.Data.List.Basic
import SqlClient.Casing
/-!
# Words of regular names

How a name made of plain words of ASCII letters and digits is cut: before each capital in
application case, at each underscore in storage case. Both spellings have the same words up to
their first letters.
-/
namespace SqlClient

namespace Text

theorem of_ascii {P : Char → Prop} (h : ∀ i : Fin 128, P (Char.ofNat i)) {c : Char}
    (hc : c.toNat < 128) : P c := by
  have at_c := h ⟨c.toNat, hc⟩
  rwa [Char.ofNat_toNat] at at_c

/-- On ASCII the Unicode tables say what the ASCII functions say. -/
theorem isLowercase_ascii {c : Char} (hc : c.toNat < 128) : isLowercase c = c.isLower :=
  of_ascii (P := fun c => isLowercase c = c.isLower) (by decide +kernel) hc

theorem isUppercase_ascii {c : Char} (hc : c.toNat < 128) : isUppercase c = c.isUpper :=
  of_ascii (P := fun c => isUppercase c = c.isUpper) (by decide +kernel) hc

theorem isAlphanumeric_ascii {c : Char} (hc : c.toNat < 128) :
    isAlphanumeric c = c.isAlphanum :=
  of_ascii (P := fun c => isAlphanumeric c = c.isAlphanum) (by decide +kernel) hc

theorem toLowercase_ascii {c : Char} (hc : c.toNat < 128) : toLowercase c = [c.toLower] :=
  of_ascii (P := fun c => toLowercase c = [c.toLower]) (by decide +kernel) hc

theorem toUppercase_ascii {c : Char} (hc : c.toNat < 128) : toUppercase c = [c.toUpper] :=
  of_ascii (P := fun c => toUppercase c = [c.toUpper]) (by decide +kernel) hc

end Text

namespace Casing

open SqlClient.Text

def IsSmall (c : Char) : Prop := c.isLower ∨ c.isDigit

structure StorageWord (w : List Char) : Prop where
  some : w ≠ []
  small : ∀ c ∈ w, IsSmall c

inductive SmallWord : List Char → Prop where
  | mk {c : Char} {cs : List Char} : c.isLower → (∀ d ∈ cs, IsSmall d) → SmallWord (c :: cs)

inductive LongWord : List Char → Prop where
  | mk {c : Char} {cs : List Char} : c.isLower → SmallWord cs → LongWord (c :: cs)

inductive CapitalWord : List Char → Prop where
  | mk {c : Char} {cs : List Char} : c.isUpper → SmallWord cs → CapitalWord (c :: cs)

theorem isAlphanum_eq (c : Char) : c.isAlphanum = (c.isUpper || c.isLower || c.isDigit) := rfl

theorem lt_128_of_isAlphanum {c : Char} (h : c.isAlphanum) : c.toNat < 128 := by
  rw [isAlphanum_eq] at h
  delta Char.isUpper Char.isLower Char.isDigit at h
  simp only [Bool.or_eq_true, Bool.and_eq_true, decide_eq_true_eq, ge_iff_le,
    UInt32.le_iff_toNat_le] at h
  change c.val.toNat < 128
  grind

theorem IsSmall.isAlphanum {c : Char} (h : IsSmall c) : c.isAlphanum := by
  rcases h with h | h <;> simp [isAlphanum_eq, h]

theorem IsSmall.not_isUpper {c : Char} (h : IsSmall c) : c.isUpper = false :=
  of_ascii (P := fun c => c.isLower ∨ c.isDigit → c.isUpper = false) (by decide +kernel)
    (lt_128_of_isAlphanum h.isAlphanum) h

theorem IsSmall.toLower {c : Char} (h : IsSmall c) : c.toLower = c :=
  of_ascii (P := fun c => c.isLower ∨ c.isDigit → c.toLower = c) (by decide +kernel)
    (lt_128_of_isAlphanum h.isAlphanum) h

theorem isAlphanum_of_isUpper {c : Char} (h : c.isUpper) : c.isAlphanum := by
  simp [isAlphanum_eq, h]

/-- A capital is no small letter; lowering it gives one that is raised to it. -/
theorem toLower_of_isUpper {c : Char} (h : c.isUpper) :
    c.isLower = false ∧ c.toLower.isLower ∧ c.toLower.toUpper = c :=
  of_ascii (P := fun c => c.isUpper → c.isLower = false ∧ c.toLower.isLower ∧ c.toLower.toUpper = c)
    (by decide +kernel) (lt_128_of_isAlphanum (isAlphanum_of_isUpper h)) h

theorem toUpper_of_isLower {c : Char} (h : c.isLower) :
    c.toUpper.isUpper ∧ c.toUpper.toLower = c :=
  of_ascii (P := fun c => c.isLower → c.toUpper.isUpper ∧ c.toUpper.toLower = c)
    (by decide +kernel) (lt_128_of_isAlphanum (IsSmall.isAlphanum (.inl h))) h

theorem SmallWord.forall_isSmall {w : List Char} (h : SmallWord w) : ∀ c ∈ w, IsSmall c := by
  obtain ⟨hc, hs⟩ := h
  exact List.forall_mem_cons.mpr ⟨.inl hc, hs⟩

theorem SmallWord.storageWord {w : List Char} (h : SmallWord w) : StorageWord w := by
  refine ⟨?_, h.forall_isSmall⟩
  obtain ⟨hc, hs⟩ := h
  exact List.cons_ne_nil _ _

theorem LongWord.smallWord {w : List Char} (h : LongWord w) : SmallWord w := by
  obtain ⟨hc, hs⟩ := h
  exact ⟨hc, hs.forall_isSmall⟩

theorem StorageWord.isAlphanumeric {w : List Char} (h : StorageWord w) :
    ∀ c ∈ w, isAlphanumeric c = true := by
  intro c hc
  have plain := (h.small c hc).isAlphanum
  rwa [isAlphanumeric_ascii (lt_128_of_isAlphanum plain)]

theorem CapitalWord.isAlphanumeric {w : List Char} (h : CapitalWord w) :
    ∀ c ∈ w, isAlphanumeric c = true := by
  obtain ⟨hc, hs⟩ := h
  have plain := isAlphanum_of_isUpper hc
  refine List.forall_mem_cons.mpr ⟨?_, hs.storageWord.isAlphanumeric⟩
  rwa [isAlphanumeric_ascii (lt_128_of_isAlphanum plain)]

theorem not_isUppercase_of_isSmall {c : Char} (h : IsSmall c) : isUppercase c = false := by
  rw [isUppercase_ascii (lt_128_of_isAlphanum h.isAlphanum)]
  exact h.not_isUpper

theorem isUppercase_of_isUpper {c : Char} (h : c.isUpper) : isUppercase c = true := by
  rwa [isUppercase_ascii (lt_128_of_isAlphanum (isAlphanum_of_isUpper h))]

theorem Mode.after_of_isLower {c : Char} (h : c.isLower) (mode : Mode) : mode.after c = .lower := by
  have low : isLowercase c = true := by
    rwa [isLowercase_ascii (lt_128_of_isAlphanum (IsSmall.isAlphanum (.inl h)))]
  rw [Mode.after, if_pos low]

theorem Mode.after_lower {c : Char} (h : IsSmall c) : Mode.lower.after c = .lower := by
  rw [Mode.after, not_isUppercase_of_isSmall h]
  split <;> rfl

theorem Mode.after_of_isUpper {c : Char} (h : c.isUpper) (mode : Mode) : mode.after c = .upper := by
  have small : ¬ isLowercase c = true := by
    rw [isLowercase_ascii (lt_128_of_isAlphanum (isAlphanum_of_isUpper h))]
    exact Bool.eq_false_iff.mp (toLower_of_isUpper h).1
  rw [Mode.after, if_neg small, if_pos (isUppercase_of_isUpper h)]

/-- Once a small letter is read, the word goes on to the end of the run or to the next capital. -/
theorem runWords_small {mode : Mode} {c : Char} {cs tail : List Char} (hm : mode.after c = .lower)
    (hc : IsSmall c) (hs : ∀ d ∈ cs, IsSmall d) (ht : ∀ d ∈ tail.head?, d.isUpper) :
    runWords mode (c :: (cs ++ tail)) = (c :: cs) :: runWords .none tail := by
  induction cs generalizing mode c with
  | nil =>
    cases tail with
    | nil => rfl
    | cons next rest =>
      have capital := isUppercase_of_isUpper (ht next rfl)
      rw [List.nil_append, runWords, hm, capital]
      rfl
  | cons d cs ih =>
    have small := List.forall_mem_cons.mp hs
    have next := not_isUppercase_of_isSmall small.1
    rw [List.cons_append, runWords, hm, next, not_isUppercase_of_isSmall hc,
      ih (Mode.after_lower small.1) small.1 small.2]
    simp [consHead]

/-- The capital belongs to the letters after it. -/
theorem runWords_capital {w tail : List Char} (hw : CapitalWord w)
    (ht : ∀ d ∈ tail.head?, d.isUpper) :
    runWords .none (w ++ tail) = w :: runWords .none tail := by
  obtain ⟨hC, hc, hs⟩ := hw
  rename_i C c cs
  have word := runWords_small (Mode.after_of_isLower hc .upper) (.inl hc) hs ht
  have small := not_isUppercase_of_isSmall (.inl hc)
  rw [List.cons_append, List.cons_append, runWords, Mode.after_of_isUpper hC, small, word]
  rfl

theorem head?_flatten_isUpper {rest : List (List Char)} (h : ∀ w ∈ rest, CapitalWord w) :
    ∀ d ∈ rest.flatten.head?, d.isUpper := by
  cases rest with
  | nil => nofun
  | cons w rest =>
    obtain ⟨hC, _⟩ := h w List.mem_cons_self
    rintro d ⟨⟩
    exact hC

theorem runWords_capitals {rest : List (List Char)} (h : ∀ w ∈ rest, CapitalWord w) :
    runWords .none rest.flatten = rest := by
  induction rest with
  | nil => rfl
  | cons w rest ih =>
    obtain ⟨hw, hr⟩ := List.forall_mem_cons.mp h
    rw [List.flatten_cons, runWords_capital hw (head?_flatten_isUpper hr), ih hr]

theorem runWords_camel {first : List Char} {rest : List (List Char)} (hf : SmallWord first)
    (hr : ∀ w ∈ rest, CapitalWord w) :
    runWords .none (first ++ rest.flatten) = first :: rest := by
  obtain ⟨hc, hs⟩ := hf
  rw [List.cons_append, runWords_small (Mode.after_of_isLower hc _) (.inl hc) hs
    (head?_flatten_isUpper hr), runWords_capitals hr]

/-- Without capitals nothing starts another word. -/
theorem runWords_storage {w : List Char} (h : StorageWord w) (mode : Mode) :
    runWords mode w = [w] := by
  obtain ⟨some, small⟩ := h
  obtain ⟨c, cs, rfl⟩ := List.exists_cons_of_ne_nil some
  induction cs generalizing mode c with
  | nil => rfl
  | cons d cs ih =>
    obtain ⟨first, later⟩ := List.forall_mem_cons.mp small
    have next := not_isUppercase_of_isSmall (List.forall_mem_cons.mp later).1
    rw [runWords, next, not_isUppercase_of_isSmall first,
      ih (mode.after c) d (List.cons_ne_nil _ _) later]
    simp [consHead]

/-- Before each capital. -/
theorem words_camel {first : List Char} {rest : List (List Char)} (hf : SmallWord first)
    (hr : ∀ w ∈ rest, CapitalWord w) : words (first ++ rest.flatten) = first :: rest := by
  have whole : (first ++ rest.flatten).splitOnP (!isAlphanumeric ·) = [first ++ rest.flatten] := by
    apply List.splitOnP_eq_singleton
    intro c hc
    have plain : isAlphanumeric c = true := by
      rcases List.mem_append.mp hc with hc | hc
      · exact hf.storageWord.isAlphanumeric c hc
      · obtain ⟨w, hw, hc⟩ := List.mem_flatten.mp hc
        exact (hr w hw).isAlphanumeric c hc
    simp [plain]
  rw [words, whole, List.flatMap_singleton, runWords_camel hf hr]

/-- A character that belongs to no word separates the words on its sides. -/
theorem words_append_separator {c : Char} (hc : isAlphanumeric c = false) (xs ys : List Char) :
    words (xs ++ c :: ys) = words xs ++ words ys := by
  rw [words, List.splitOnP_append_cons xs ys (by simp [hc]), List.flatMap_append]
  rfl

theorem words_storage {w : List Char} (h : StorageWord w) : words w = [w] := by
  rw [words, List.splitOnP_eq_singleton fun c hc => by simp [h.isAlphanumeric c hc],
    List.flatMap_singleton, runWords_storage h]

theorem intercalate_underscore (first : List Char) (rest : List (List Char)) :
    List.intercalate ['_'] (first :: rest) = first ++ rest.flatMap ('_' :: ·) := by
  induction rest generalizing first with
  | nil => simp [List.intercalate_singleton]
  | cons w rest ih =>
    rw [List.intercalate_cons_cons, ih w, List.flatMap_cons]
    simp

/-- Words joined by underscores are found again. -/
theorem words_intercalate {ws : List (List Char)} (h : ∀ w ∈ ws, StorageWord w) :
    words (List.intercalate ['_'] ws) = ws := by
  have separator : isAlphanumeric '_' = false := by decide +kernel
  induction ws with
  | nil => rfl
  | cons w ws ih =>
    obtain ⟨hw, hs⟩ := List.forall_mem_cons.mp h
    cases ws with
    | nil => rw [List.intercalate_singleton, words_storage hw]
    | cons v ws =>
      rw [List.intercalate_cons_cons, List.append_assoc, List.singleton_append,
        words_append_separator separator, words_storage hw, ih hs]
      rfl

theorem lowercaseWord_of_ascii {w : List Char} (h : ∀ c ∈ w, c.toNat < 128) :
    lowercaseWord w = w.map Char.toLower := by
  induction w with
  | nil => rfl
  | cons c w ih =>
    obtain ⟨hc, hw⟩ := List.forall_mem_cons.mp h
    cases w with
    | nil =>
      rw [lowercaseWord, if_neg (by omega), toLowercase_ascii hc]
      rfl
    | cons d w =>
      rw [lowercaseWord, toLowercase_ascii hc, ih hw]
      rfl
      nofun

theorem lowercaseWord_small {w : List Char} (h : ∀ c ∈ w, IsSmall c) : lowercaseWord w = w := by
  rw [lowercaseWord_of_ascii fun c hc => lt_128_of_isAlphanum (h c hc).isAlphanum]
  exact (List.map_congr_left fun c hc => (h c hc).toLower).trans (List.map_id' w)

theorem lowercaseWord_capital {c : Char} {cs : List Char} (hc : c.isUpper) (hs : SmallWord cs) :
    lowercaseWord (c :: cs) = c.toLower :: cs := by
  have plain : ∀ d ∈ c :: cs, d.toNat < 128 := by
    refine List.forall_mem_cons.mpr ⟨lt_128_of_isAlphanum (isAlphanum_of_isUpper hc), ?_⟩
    intro d hd
    exact lt_128_of_isAlphanum (hs.forall_isSmall d hd).isAlphanum
  rw [lowercaseWord_of_ascii plain, List.map_cons]
  congr 1
  exact (List.map_congr_left fun d hd => (hs.forall_isSmall d hd).toLower).trans (List.map_id' cs)

theorem capitalizeWord_small {c : Char} {cs : List Char} (hc : c.isLower) (hs : SmallWord cs) :
    capitalizeWord (c :: cs) = c.toUpper :: cs := by
  have plain := lt_128_of_isAlphanum (IsSmall.isAlphanum (.inl hc))
  rw [capitalizeWord, toUppercase_ascii plain, lowercaseWord_small hs.forall_isSmall]
  rfl

theorem CapitalWord.longWord_lowercaseWord {w : List Char} (h : CapitalWord w) :
    LongWord (lowercaseWord w) := by
  obtain ⟨hc, hs⟩ := h
  rw [lowercaseWord_capital hc hs]
  exact ⟨(toLower_of_isUpper hc).2.1, hs⟩

theorem LongWord.capitalWord_capitalizeWord {w : List Char} (h : LongWord w) :
    CapitalWord (capitalizeWord w) := by
  obtain ⟨hc, hs⟩ := h
  rw [capitalizeWord_small hc hs]
  exact ⟨(toUpper_of_isLower hc).1, hs⟩

theorem CapitalWord.capitalizeWord_lowercaseWord {w : List Char} (h : CapitalWord w) :
    capitalizeWord (lowercaseWord w) = w := by
  obtain ⟨hc, hs⟩ := h
  obtain ⟨-, small, back⟩ := toLower_of_isUpper hc
  rw [lowercaseWord_capital hc hs, capitalizeWord_small small hs, back]

theorem LongWord.lowercaseWord_capitalizeWord {w : List Char} (h : LongWord w) :
    lowercaseWord (capitalizeWord w) = w := by
  obtain ⟨hc, hs⟩ := h
  obtain ⟨capital, back⟩ := toUpper_of_isLower hc
  rw [capitalizeWord_small hc hs, lowercaseWord_capital capital hs, back]

end Casing

end SqlClient
