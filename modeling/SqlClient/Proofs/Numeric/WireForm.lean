import SqlClient.Proofs.Numeric.Texts
import SqlClient.Proofs.Text.Settled
/-!
# Canonical numerics on the wire

The form in which the server sends finite numerics: no zero group at either end, and no digit past
the scale. Such a value is written as text and sent again with every byte as it came: its weight
and its groups are found again from where the point stands, and zero groups that were left out are
left out again.
-/
namespace SqlClient

open SqlClient.Number SqlClient.Wire

namespace Wire

theorem flatMap_word_words {b : Bytes} (h : b.length % 2 = 0) : (words b).flatMap word = b := by
  match b, h with
  | [], _ => rfl
  | x :: y :: rest, h =>
    have ih := flatMap_word_words (b := rest) (by simp only [List.length_cons] at h; omega)
    have hy := y.toNat_lt
    have high : (x.toNat * 256 + y.toNat) / 256 % 256 = x.toNat := by
      have hx := x.toNat_lt
      omega
    have low : (x.toNat * 256 + y.toNat) % 256 = y.toNat := by omega
    rw [words, List.flatMap_cons, ih, word_eq, high, low, UInt8.ofNat_toNat, UInt8.ofNat_toNat]
    rfl

theorem mem_words_lt {b : Bytes} : ∀ n ∈ words b, n < 65536 := by
  match b with
  | [] => exact nofun
  | [_] => exact nofun
  | x :: y :: rest =>
    intro n hn
    rcases List.mem_cons.mp hn with rfl | hn
    · have hx := x.toNat_lt
      have hy := y.toNat_lt
      omega
    · exact mem_words_lt n hn

theorem signedWord_eq {n : Nat} (h : n < 65536) :
    -32768 ≤ signedWord n ∧ signedWord n < 32768 ∧ (signedWord n % 65536).toNat = n := by
  have limit : signedLimit 2 = 32768 := by decide
  have whole : ((Nat.pow 256 2 : Nat) : Int) = 65536 := by decide
  rw [signedWord, signedOfNat, limit, whole]
  split <;> omega

end Wire

namespace Numeric

/-- A header that was read fits its words, and they are the bytes it was read from. -/
theorem Header.of_ofBytes? {raw : Bytes} {h : Header} (read : Header.ofBytes? raw = some h) :
    h.bytes = raw ∧ h.Fits := by
  rw [Header.ofBytes?] at read
  split at read
  · cases read
  · rename_i even
    have whole := flatMap_word_words (b := raw) (by omega)
    have small := mem_words_lt (b := raw)
    generalize words raw = ws at read whole small
    rcases ws with _ | ⟨count, _ | ⟨weight, _ | ⟨sign, _ | ⟨scale, groups⟩⟩⟩⟩ <;> cases read
    obtain ⟨low, high, same⟩ := signedWord_eq (small weight (by simp))
    constructor
    · rw [Header.bytes, signedBytes_two, same]
      simpa using whole
    · exact ⟨small count (by simp), low, high, small sign (by simp), small scale (by simp),
        fun g hg => small g (by simp [hg])⟩

/-- The form in which a finite numeric is sent: as many groups as are counted, none of them zero at
either end, and every digit at a place after the last one shown is zero. Digit `j` of group `i`,
counted from its right, stands at the place `4 * (weight - i) + j`. -/
structure Header.Canonical (h : Header) : Prop where
  count : h.groups.length = h.count
  sign : h.sign = positiveSign ∨ h.sign = negativeSign
  small : ∀ g ∈ h.groups, g < 10000
  first : ∀ g ∈ h.groups.head?, g ≠ 0
  last : ∀ g ∈ h.groups.getLast?, g ≠ 0
  zero : h.groups = [] → h.weight = 0 ∧ h.sign = positiveSign
  scale : h.scale ≤ maxScale
  shown : ∀ (i g : Nat), h.groups[i]? = some g → ∀ j < 4,
    4 * (h.weight - i) + (j : Nat) < -(h.scale : Int) → g / 10 ^ j % 10 = 0

theorem digitsValue_digits {g : Nat} (h : g < 10000) :
    digitsValue [(g / 10 ^ 3 % 10).digitChar, (g / 10 ^ 2 % 10).digitChar,
      (g / 10 ^ 1 % 10).digitChar, (g / 10 ^ 0 % 10).digitChar] = g := by
  have digit (n : Nat) : (n % 10).digitChar.toNat - '0'.toNat = n % 10 := by
    rw [Nat.toNat_digitChar_of_lt_ten (Nat.mod_lt _ (by decide))]
    exact Nat.add_sub_cancel_left _ _
  simp only [digitsValue, Nat.ofDigitChars_cons, Nat.ofDigitChars_nil, digit]
  omega

theorem groupDigits_eq_append (g : Nat) :
    groupDigits g = List.replicate (4 - (decimalDigits g).length) '0' ++ decimalDigits g := rfl

theorem groupDigits_eq {g : Nat} (h : g < 10000) : groupDigits g =
    [(g / 10 ^ 3 % 10).digitChar, (g / 10 ^ 2 % 10).digitChar, (g / 10 ^ 1 % 10).digitChar,
      (g / 10 ^ 0 % 10).digitChar] := by
  have digits : ∀ c ∈ [(g / 10 ^ 3 % 10).digitChar, (g / 10 ^ 2 % 10).digitChar,
      (g / 10 ^ 1 % 10).digitChar, (g / 10 ^ 0 % 10).digitChar], c.isDigit := by
    intro c hc
    simp only [List.mem_cons, List.not_mem_nil, or_false] at hc
    rcases hc with rfl | rfl | rfl | rfl <;>
      rw [Nat.isDigit_digitChar, decide_eq_true (Nat.mod_lt _ (by decide))]
  have padded := paddedDigits_digitsValue digits (List.cons_ne_nil _ _)
  rwa [digitsValue_digits h] at padded

theorem length_decimalDigits_le {g : Nat} (h : g < 10000) : (decimalDigits g).length ≤ 4 :=
  (Nat.length_toDigits_le_iff (by decide) (by decide)).mpr h

/-- Character `i` of the digits of groups is digit `i % 4` of group `i / 4`, from its left. -/
theorem getElem?_flatMap_groupDigits {gs : List Nat} (h : ∀ g ∈ gs, g < 10000) (i : Nat) :
    (gs.flatMap groupDigits)[i]? =
      gs[i / 4]?.map fun g => (g / 10 ^ (3 - i % 4) % 10).digitChar := by
  induction gs generalizing i with
  | nil => simp
  | cons g gs ih =>
    rw [List.flatMap_cons, groupDigits_eq (h g List.mem_cons_self)]
    match i with
    | 0 | 1 | 2 | 3 => rfl
    | i + 4 =>
      have group : (i + 4) / 4 = i / 4 + 1 := by omega
      rw [group, List.getElem?_cons_succ, Nat.add_mod_right,
        ← ih fun g hg => h g (List.mem_cons_of_mem _ hg)]
      rfl

theorem length_flatMap_groupDigits {gs : List Nat} (h : ∀ g ∈ gs, g < 10000) :
    (gs.flatMap groupDigits).length = 4 * gs.length := by
  induction gs with
  | nil => rfl
  | cons g gs ih =>
    rw [List.flatMap_cons, List.length_append, groupDigits_eq (h g List.mem_cons_self),
      ih fun g hg => h g (List.mem_cons_of_mem _ hg), List.length_cons]
    simp only [List.length_cons, List.length_nil]
    omega

theorem isDigit_flatMap_groupDigits {gs : List Nat} (h : ∀ g ∈ gs, g < 10000) :
    ∀ c ∈ gs.flatMap groupDigits, c.isDigit := by
  intro c hc
  obtain ⟨i, hi⟩ := List.mem_iff_getElem?.mp hc
  rw [getElem?_flatMap_groupDigits h, Option.map_eq_some_iff] at hi
  obtain ⟨g, -, rfl⟩ := hi
  rw [Nat.isDigit_digitChar, decide_eq_true (Nat.mod_lt _ (by decide))]

theorem groupsOfDigits_flatMap {gs : List Nat} (h : ∀ g ∈ gs, g < 10000) :
    groupsOfDigits (gs.flatMap groupDigits) = gs := by
  induction gs with
  | nil => rfl
  | cons g gs ih =>
    have hg := h g List.mem_cons_self
    rw [List.flatMap_cons, groupDigits_eq hg]
    simp only [List.cons_append, List.nil_append, groupsOfDigits]
    rw [ih fun g hg => h g (List.mem_cons_of_mem _ hg), digitsValue_digits hg]

theorem length_wholeGroups (weight : Int) (groups : List Nat) :
    (wholeGroups weight groups).length = (weight + 1).toNat := by
  simp only [wholeGroups, List.length_append, List.length_replicate, List.length_take]
  omega

/-- Before the point stands the first group that was sent, or none. -/
theorem head_wholeGroups {groups : List Nat} (hn : groups ≠ [])
    (first : ∀ g ∈ groups.head?, g ≠ 0) (weight : Int) :
    ∀ g ∈ (wholeGroups weight groups).head?, g ≠ 0 := by
  obtain ⟨g, rest, rfl⟩ := List.exists_cons_of_ne_nil hn
  rw [wholeGroups]
  cases (weight + 1).toNat with
  | zero => simp
  | succ count => exact first

theorem length_fractionGroups (weight : Int) (groups : List Nat) :
    (fractionGroups weight groups).length =
      (-weight - 1).toNat + (groups.length - (weight + 1).toNat) := by
  rw [fractionGroups, List.length_append, List.length_replicate, List.length_drop]

theorem length_fractionText (weight : Int) (scale : Nat) (groups : List Nat) :
    (fractionText weight scale groups).length = scale := by
  simp only [fractionText, List.length_append, List.length_replicate, List.length_take]
  omega

/-- Before and after the point stand the groups that were sent, between those that were not. -/
theorem wholeGroups_append_fractionGroups (weight : Int) (groups : List Nat) :
    wholeGroups weight groups ++ fractionGroups weight groups =
      List.replicate (-weight - 1).toNat 0 ++
        (groups ++ List.replicate ((weight + 1).toNat - groups.length) 0) := by
  by_cases hw : weight < 0
  · have none : (weight + 1).toNat = 0 := by omega
    simp [wholeGroups, fractionGroups, none]
  · have front : (-weight - 1).toNat = 0 := by omega
    rw [wholeGroups, fractionGroups, front, List.replicate_zero, List.nil_append, List.nil_append]
    by_cases hl : groups.length ≤ (weight + 1).toNat
    · rw [List.take_of_length_le hl, List.drop_of_length_le hl, List.append_nil]
    · have inside : (groups.take (weight + 1).toNat).length = (weight + 1).toNat :=
        List.length_take_of_le (by omega)
      have none : (weight + 1).toNat - groups.length = 0 := by omega
      rw [inside, none, Nat.sub_self, List.replicate_zero, List.append_nil, List.append_nil,
        List.take_append_drop]

theorem zeros_lt (n : Nat) : ∀ g ∈ List.replicate n 0, g < 10000 := by
  intro g hg
  rw [List.eq_of_mem_replicate hg]
  decide

section Small

variable {groups : List Nat} (h : ∀ g ∈ groups, g < 10000) (weight : Int)

include h

theorem fractionGroups_lt : ∀ g ∈ fractionGroups weight groups, g < 10000 :=
  List.forall_mem_append.mpr ⟨zeros_lt _, fun g hg => h g (List.mem_of_mem_drop hg)⟩

theorem wholeGroups_lt : ∀ g ∈ wholeGroups weight groups, g < 10000 :=
  List.forall_mem_append.mpr ⟨fun g hg => h g (List.mem_of_mem_take hg), zeros_lt _⟩

theorem isDigit_wholeText : ∀ c ∈ wholeText weight groups, c.isDigit := by
  have small := wholeGroups_lt h weight
  rw [wholeText]
  split
  · intro c hm
    rw [List.mem_singleton.mp hm]
    decide
  · rename_i g rest hg
    rw [hg] at small
    exact List.forall_mem_append.mpr ⟨isDigit_decimalDigits g,
      isDigit_flatMap_groupDigits fun g hg => small g (List.mem_cons_of_mem _ hg)⟩

theorem isDigit_fractionText (scale : Nat) : ∀ c ∈ fractionText weight scale groups, c.isDigit := by
  refine List.forall_mem_append.mpr ⟨fun c hm => ?_, isDigit_zeros _⟩
  exact isDigit_flatMap_groupDigits (fractionGroups_lt h weight) c (List.mem_of_mem_take hm)

end Small

/-- Zeros around groups that are not zero at either end are stripped, and nothing else. -/
theorem stripped_replicate {groups : List Nat} (hn : groups ≠ [])
    (first : ∀ g ∈ groups.head?, g ≠ 0) (last : ∀ g ∈ groups.getLast?, g ≠ 0) (z t : Nat) :
    stripped (List.replicate z 0 ++ (groups ++ List.replicate t 0)) = groups ∧
      dropped (List.replicate z 0 ++ (groups ++ List.replicate t 0)) = z := by
  have zeros (n : Nat) : ∀ g ∈ List.replicate n 0, decide (g = 0) = true := by
    intro g hg
    simpa using List.eq_of_mem_replicate hg
  have front : (List.replicate z 0 ++ (groups ++ List.replicate t 0)).dropWhile (· = 0) =
      groups ++ List.replicate t 0 := by
    obtain ⟨g, rest, rfl⟩ := List.exists_cons_of_ne_nil hn
    rw [List.dropWhile_append_of_pos (zeros z)]
    exact List.dropWhile_cons_of_neg (by simpa using first g rfl)
  have back : (groups ++ List.replicate t 0).reverse.dropWhile (· = 0) = groups.reverse := by
    obtain ⟨g, rest, hr⟩ := List.exists_cons_of_ne_nil (List.reverse_ne_nil_iff.mpr hn)
    rw [List.reverse_append, List.reverse_replicate, List.dropWhile_append_of_pos (zeros t), hr]
    have end_ : g ∈ groups.getLast? := by
      rw [← List.head?_reverse, hr]
      rfl
    exact List.dropWhile_cons_of_neg (by simpa using last g end_)
  constructor
  · rw [stripped, front, back, List.reverse_reverse]
  · rw [dropped, front, List.length_append, List.length_replicate, Nat.add_sub_cancel]

section Canonical

variable {h : Header} (hc : h.Canonical)

include hc

/-- A digit after the point is `0` from the scale on. -/
theorem Header.Canonical.drop_scale :
    ((fractionGroups h.weight h.groups).flatMap groupDigits).drop h.scale =
      List.replicate (4 * (fractionGroups h.weight h.groups).length - h.scale) '0' := by
  have small := fractionGroups_lt hc.small h.weight
  rw [List.eq_replicate_iff]
  refine ⟨by rw [List.length_drop, length_flatMap_groupDigits small], fun c hm => ?_⟩
  obtain ⟨n, hn⟩ := List.mem_iff_getElem?.mp hm
  rw [List.getElem?_drop, getElem?_flatMap_groupDigits small, Option.map_eq_some_iff] at hn
  obtain ⟨g, hg, rfl⟩ := hn
  have zero : g / 10 ^ (3 - (h.scale + n) % 4) % 10 = 0 := by
    rw [fractionGroups, List.getElem?_append, List.length_replicate] at hg
    split at hg
    · -- a group before the first one that was sent
      rename_i before
      rw [List.getElem?_replicate, if_pos before] at hg
      obtain rfl := Option.some.inj hg
      simp
    · rw [List.getElem?_drop] at hg
      exact hc.shown _ g hg _ (by omega) (by omega)
  rw [zero]
  rfl

theorem Header.Canonical.scale_reaches (hn : h.groups ≠ []) :
    4 * ((h.groups.length : Int) - 1 - h.weight) - 3 ≤ h.scale := by
  -- otherwise all digits of the last group stand behind the scale, and it is zero
  by_contra behind
  have count := List.length_pos_iff.mpr hn
  have here : h.groups[h.groups.length - 1]? = some (h.groups.getLast hn) := by
    rw [← List.getLast?_eq_getElem?, List.getLast?_eq_some_getLast hn]
  have digit (j : Nat) (hj : j < 4) := hc.shown _ _ here j hj (by omega)
  have small := hc.small _ (List.getLast_mem hn)
  have d₀ := digit 0 (by decide)
  have d₁ := digit 1 (by decide)
  have d₂ := digit 2 (by decide)
  have d₃ := digit 3 (by decide)
  refine hc.last _ (List.getLast?_eq_some_getLast hn) ?_
  omega

theorem Header.Canonical.paddedFraction_eq : ∃ t,
    paddedFraction (fractionText h.weight h.scale h.groups) =
      (fractionGroups h.weight h.groups ++ List.replicate t 0).flatMap groupDigits := by
  have count := length_flatMap_groupDigits (fractionGroups_lt hc.small h.weight)
  have rest := hc.drop_scale
  have number := length_fractionGroups h.weight h.groups
  rw [fractionText, paddedFraction]
  generalize hD : (fractionGroups h.weight h.groups).flatMap groupDigits = ds at count rest
  simp only [List.flatMap_append, flatMap_groupDigits_replicate, hD]
  by_cases hs : ds.length ≤ h.scale
  · refine ⟨(h.scale - ds.length + padding h.scale) / 4, ?_⟩
    have whole := padded_length h.scale
    rw [List.take_of_length_le hs, List.length_append, List.length_replicate,
      Nat.add_sub_cancel' hs, List.append_assoc, List.replicate_append_replicate,
      Nat.mul_div_cancel' (by omega)]
  · -- the zeros behind the scale are fewer than a group, and are padded again
    have some : h.groups ≠ [] := by
      intro he
      have none : (fractionGroups h.weight h.groups).length = 0 := by
        rw [number, he, (hc.zero he).1]
        rfl
      omega
    have reaches := hc.scale_reaches some
    have shown : (ds.take h.scale).length = h.scale := List.length_take_of_le (by omega)
    have pad : padding h.scale = 4 * (fractionGroups h.weight h.groups).length - h.scale := by
      rw [padding]
      omega
    refine ⟨0, ?_⟩
    rw [shown, Nat.sub_self, List.replicate_zero, List.append_nil, shown, pad, ← rest,
      List.take_append_drop]
    exact (List.append_nil ds).symm

theorem Header.Canonical.paddedWhole_eq (hn : h.groups ≠ []) :
    paddedWhole (wholeText h.weight h.groups) =
      (wholeGroups h.weight h.groups).flatMap groupDigits := by
  have small := wholeGroups_lt hc.small h.weight
  have first := head_wholeGroups hn hc.first h.weight
  rw [wholeText]
  generalize wholeGroups h.weight h.groups = gs at small first
  cases gs with
  | nil => decide
  | cons g gs =>
    have nonzero := first g rfl
    have bound := length_decimalDigits_le (small g List.mem_cons_self)
    have some : 0 < (decimalDigits g).length := List.length_pos_iff.mpr Nat.toDigits_ne_nil
    have length := length_flatMap_groupDigits
      fun g hg => small g (List.mem_cons_of_mem _ hg)
    have pad : padding (decimalDigits g ++ gs.flatMap groupDigits).length =
        4 - (decimalDigits g).length := by
      rw [List.length_append, length, padding]
      omega
    simp only [paddedWhole]
    rw [dropWhile_decimalDigits_append nonzero, pad, List.flatMap_cons, groupDigits_eq_append,
      List.append_assoc]

theorem Header.Canonical.ofDigits_text (negative : Bool) (hn : h.groups ≠ []) :
    ofDigits negative (wholeText h.weight h.groups) (fractionText h.weight h.scale h.groups) =
      .finite negative h.weight h.scale h.groups := by
  obtain ⟨t, ht⟩ := hc.paddedFraction_eq
  have small : ∀ g ∈ wholeGroups h.weight h.groups ++
      (fractionGroups h.weight h.groups ++ List.replicate t 0), g < 10000 :=
    List.forall_mem_append.mpr ⟨wholeGroups_lt hc.small h.weight,
      List.forall_mem_append.mpr ⟨fractionGroups_lt hc.small h.weight, zeros_lt t⟩⟩
  obtain ⟨kept, front⟩ := stripped_replicate hn hc.first hc.last (-h.weight - 1).toNat
    ((h.weight + 1).toNat - h.groups.length + t)
  have some : ¬ h.groups.isEmpty = true := by rwa [List.isEmpty_iff]
  rw [ofDigits_eq, hc.paddedWhole_eq hn, ht, ← List.flatMap_append, groupsOfDigits_flatMap small,
    ← List.append_assoc, wholeGroups_append_fractionGroups, List.append_assoc, List.append_assoc,
    List.replicate_append_replicate, length_fractionText]
  simp only [kept, front, if_neg some]
  rw [length_flatMap_groupDigits (wholeGroups_lt hc.small h.weight), length_wholeGroups]
  congr 1
  omega

end Canonical

def plainText (negative : Bool) (whole fraction : List Char) : List Char :=
  (if negative then ['-'] else []) ++ (whole ++ (if fraction = [] then [] else '.' :: fraction))

theorem text_finite (negative : Bool) (weight : Int) (scale : Nat) (groups : List Nat) :
    text (.finite negative weight scale groups) =
      plainText negative (wholeText weight groups) (fractionText weight scale groups) := by
  have none : fractionText weight scale groups = [] ↔ scale = 0 := by
    rw [← List.length_eq_zero_iff, length_fractionText]
  rw [text, plainText]
  simp only [none]
  cases negative <;> rfl

section Plain

variable {whole fraction : List Char} (hw : ∀ c ∈ whole, c.isDigit) (hn : whole ≠ [])
  (hf : ∀ c ∈ fraction, c.isDigit)

include hw hf in
theorem not_isBlank_plainText (negative : Bool) :
    ∀ c ∈ plainText negative whole fraction, Text.isBlank c = false := by
  intro c hc
  rcases List.mem_append.mp hc with hc | hc
  · split at hc
    · rw [List.mem_singleton.mp hc]
      decide
    · exact absurd hc List.not_mem_nil
  · rcases List.mem_append.mp hc with hc | hc
    · exact Text.not_isBlank_of_isDigit (hw c hc)
    · split at hc
      · exact absurd hc List.not_mem_nil
      · rcases List.mem_cons.mp hc with rfl | hc
        · decide
        · exact Text.not_isBlank_of_isDigit (hf c hc)

theorem special?_of_digit {cs : List Char} {c : Char} (hc : c ∈ cs) (hd : c.isDigit) :
    special? cs = none := by
  refine special?_eq_none fun he => ?_
  have lower : c.toLower = c := by
    have bound := toNat_of_isDigit hd
    refine dif_neg fun upper => ?_
    have high : 65 ≤ c.toNat := upper.1
    omega
  have inside : c ∈ cs.map Char.toLower := by
    rw [← lower]
    exact List.mem_map_of_mem hc
  have words : (specialWords.all fun w => w.all fun d => !d.isDigit) = true := rfl
  have undigit := List.all_eq_true.mp (List.all_eq_true.mp words _ he) c inside
  rw [hd] at undigit
  cases undigit

include hw hn hf in
theorem spells_plainText (negative : Bool) :
    (⟨negative, whole, fraction, 0⟩ : Literal).Spells (plainText negative whole fraction) := by
  refine ⟨if negative then ['-'] else [], if fraction = [] then [] else '.' :: fraction, [],
    by rw [List.append_nil]; rfl, ?_, ?_, .none, List.forall_mem_append.mpr ⟨hw, hf⟩, ?_⟩
  · cases negative
    · exact .none
    · exact .minus
  · by_cases he : fraction = []
    · subst he
      exact .none
    · rw [if_neg he]
      exact .point fraction
  · exact fun he => hn (List.append_eq_nil_iff.mp he).1

include hn in
theorem movedDigits_plain (negative : Bool) :
    (⟨negative, whole, fraction, 0⟩ : Literal).movedDigits = (whole, fraction) := by
  have count := List.length_pos_iff.mpr hn
  have point : (⟨negative, whole, fraction, 0⟩ : Literal).point = whole.length := Int.add_zero _
  have short : whole.length - (whole ++ fraction).length = 0 := by
    rw [List.length_append]
    omega
  rw [Literal.movedDigits, point, if_neg (by omega)]
  simp only [Int.toNat_natCast, List.take_left, List.drop_left, short, List.replicate_zero,
    List.append_nil]

include hw hn hf in
/-- A plain decimal within the limits is read as its digits. -/
theorem ofText_plainText (negative : Bool) (hwl : whole.length ≤ maxWholeDigits)
    (hfl : fraction.length ≤ maxScale) :
    ofText (plainText negative whole fraction) = .ok (ofDigits negative whole fraction) := by
  have blank := not_isBlank_plainText hw hf negative
  have trimmed : Text.trim (plainText negative whole fraction) =
      plainText negative whole fraction :=
    Text.trim_eq_self (fun c hc => blank c (List.mem_of_mem_head? hc))
      fun c hc => blank c (List.mem_of_mem_getLast? hc)
  obtain ⟨d, rest, rfl⟩ := List.exists_cons_of_ne_nil hn
  have inside : d ∈ plainText negative (d :: rest) fraction :=
    List.mem_append_right _ (List.mem_append_left _ List.mem_cons_self)
  have within : (⟨negative, d :: rest, fraction, 0⟩ : Literal).WithinLimits := by
    rw [Literal.withinLimits_iff, movedDigits_plain hn]
    exact ⟨hwl, hfl⟩
  rw [ofText, trimmed, ofTrimmed_literal (special?_of_digit inside (hw d List.mem_cons_self))
    (spells_plainText hw hn hf negative) within, movedDigits_plain hn]

end Plain

section Canonical

variable {h : Header}

def Header.value (h : Header) : Numeric :=
  .finite (h.sign = negativeSign) h.weight h.scale h.groups

theorem Header.Canonical.sendable (hc : h.Canonical) (hf : h.Fits) : h.value.Sendable :=
  ⟨hc.count ▸ hf.count, hf.low, hf.high, hf.scale, hc.small⟩

theorem Header.Canonical.toHeader_value (hc : h.Canonical) : h.value.toHeader = h := by
  obtain ⟨count, weight, sign, scale, groups⟩ := h
  have number : groups.length = count := hc.count
  have same : (if decide (sign = negativeSign) = true then negativeSign else positiveSign) =
      sign := by
    have signs : sign = positiveSign ∨ sign = negativeSign := hc.sign
    rcases signs with rfl | rfl <;> rfl
  rw [Header.value, toHeader, number, same]

theorem text_value (h : Header) : text h.value =
    plainText (h.sign = negativeSign) (wholeText h.weight h.groups)
      (fractionText h.weight h.scale h.groups) :=
  text_finite _ _ _ _

theorem length_wholeText_le (hc : h.Canonical) (hf : h.Fits) :
    wholeText h.weight h.groups ≠ [] ∧
      (wholeText h.weight h.groups).length ≤ maxWholeDigits := by
  have small := wholeGroups_lt hc.small h.weight
  have number := length_wholeGroups h.weight h.groups
  have high := hf.high
  rw [wholeText, maxWholeDigits]
  generalize wholeGroups h.weight h.groups = gs at small number
  cases gs with
  | nil => exact ⟨List.cons_ne_nil _ _, by decide⟩
  | cons g gs =>
    have lead : (decimalDigits g).length ≤ 4 := length_decimalDigits_le (small g List.mem_cons_self)
    have rest := length_flatMap_groupDigits fun g hg => small g (List.mem_cons_of_mem _ hg)
    refine ⟨fun he => Nat.toDigits_ne_nil (List.append_eq_nil_iff.mp he).1, ?_⟩
    rw [List.length_append, rest]
    rw [List.length_cons] at number
    omega

theorem Header.Canonical.ofText_text (hc : h.Canonical) (hf : h.Fits) :
    ofText (text h.value) = .ok h.value := by
  obtain ⟨some, bound⟩ := length_wholeText_le hc hf
  have digits := isDigit_fractionText hc.small h.weight h.scale
  have room : (fractionText h.weight h.scale h.groups).length ≤ maxScale := by
    rw [length_fractionText]
    exact hc.scale
  rw [text_value, ofText_plainText (isDigit_wholeText hc.small h.weight) some digits _ bound room]
  by_cases hn : h.groups = []
  · -- a zero has the weight and the sign that a zero is written with
    obtain ⟨weight, sign⟩ := hc.zero hn
    have whole : wholeText h.weight h.groups = ['0'] := by
      rw [weight, hn]
      decide
    have fraction : fractionText h.weight h.scale h.groups = List.replicate h.scale '0' := by
      rw [weight, hn]
      simp [fractionText, fractionGroups]
    have zero : digitsValue (['0'] ++ List.replicate h.scale '0') = 0 := by
      rw [digitsValue_append, digitsValue_replicate]
      exact Nat.zero_mul _
    rw [whole] at some
    have single : ∀ c ∈ ['0'], c.isDigit := List.forall_mem_singleton.mpr rfl
    rw [whole, fraction, ofDigits_of_zero _ single (fraction ▸ digits) zero,
      List.length_replicate, Header.value, weight, hn, sign]
    rfl
  · rw [hc.ofDigits_text _ hn]
    rfl

theorem lookup_putDecoder (number : Nat) (decode : Decoder) (table : List (Nat × Decoder))
    (n : Nat) : (Codecs.putDecoder number decode table).lookup n =
      if n = number then some decode else table.lookup n := by
  induction table with
  | nil =>
    rw [Codecs.putDecoder, List.lookup_cons]
    by_cases hn : n = number
    · simp [hn]
    · simp only [beq_eq_false_iff_ne.mpr hn, if_neg hn]
  | cons entry table ih =>
    obtain ⟨m, d⟩ := entry
    rw [Codecs.putDecoder]
    by_cases hm : m = number
    · subst hm
      rw [if_pos rfl, List.lookup_cons, List.lookup_cons]
      by_cases hn : n = m
      · simp [hn]
      · simp only [beq_eq_false_iff_ne.mpr hn, if_neg hn]
    · rw [if_neg hm, List.lookup_cons, List.lookup_cons, ih]
      by_cases hn : n = m
      · subst hn
        simp [hm]
      · simp only [beq_eq_false_iff_ne.mpr hn]

theorem decoder?_numeric (codecs : Codecs) :
    (codecs.withNumeric .text).decoder? .numeric = some (Codecs.numericScalar .text) := by
  have apart : PgType.number .numeric ≠ PgType.numericArray.number := by decide
  change (Codecs.putDecoder _ _ (Codecs.putDecoder _ _ codecs.decoders)).lookup _ = _
  rw [lookup_putDecoder, if_neg apart, lookup_putDecoder, if_pos rfl]

/-- A canonical value that is read as text and sent again goes out as it came in, to the byte. -/
theorem sent_as_received {raw : Bytes} {h : Header} (read : Header.ofBytes? raw = some h)
    (canonical : h.Canonical) :
    (∃ n, ofBytes raw = .ok n ∧ (ofText n.text).map bytes = .ok raw) ∧
      ∀ (codecs : Codecs) (position : Nat) (name : String), ∃ v,
        (codecs.withNumeric .text).decodeCell position ⟨name, .numeric⟩ (some raw) = .ok v ∧
          encode .numeric v = bytesOf raw := by
  obtain ⟨same, fits⟩ := Header.of_ofBytes? read
  have bytes_value : h.value.bytes = raw := by rw [bytes, canonical.toHeader_value, same]
  have value : ofBytes raw = .ok h.value := by
    rw [← bytes_value]
    exact ofBytes_bytes (canonical.sendable fits)
  have again := canonical.ofText_text fits
  refine ⟨⟨h.value, value, ?_⟩, fun codecs position name =>
    ⟨.text (String.ofList h.value.text), ?_, ?_⟩⟩
  · rw [again]
    exact congrArg Except.ok bytes_value
  · have text : readNumericText raw = some h.value.text := by
      rw [readNumericText, value]
      rfl
    rw [Codecs.decodeCell, decoder?_numeric]
    simp only [Codecs.numericScalar, Decoder.scalar, text, Option.map_some]
    rfl
  · have sent : writeNumericText h.value.text = Writer.send raw := by
      rw [writeNumericText, again, ← bytes_value]
      exact writeNumeric_eq (canonical.sendable fits)
    rw [encode, write, writeTextAs, String.toList_ofList]
    exact congrArg Writing.result sent

/-- The groups 12 and 5000 from behind the point: a negative number with seven decimal places. -/
theorem sent_as_received_shifted :
    let raw : Bytes := [0, 2, 255, 255, 64, 0, 0, 7, 0, 12, 19, 136]
    (ofBytes raw).map text = .ok "-0.0012500".toList ∧
      (ofText "-0.0012500".toList).map bytes = .ok raw := by
  intro raw
  have read : Header.ofBytes? raw = some ⟨2, -1, negativeSign, 7, [12, 5000]⟩ := by decide
  have canonical : (⟨2, -1, negativeSign, 7, [12, 5000]⟩ : Header).Canonical :=
    { count := rfl
      sign := .inr rfl
      small := by decide
      first := by decide
      last := by decide
      zero := nofun
      scale := by decide
      shown := by
        intro i g hg j hj
        match i, hg with
        | 0, rfl => revert j; decide
        | 1, rfl => revert j; decide }
  obtain ⟨n, value, again⟩ := (sent_as_received read canonical).1
  have shown : (ofBytes raw).map text = .ok "-0.0012500".toList := by decide +kernel
  have written : n.text = "-0.0012500".toList := by
    rw [value] at shown
    exact Except.ok.inj shown
  exact ⟨shown, written ▸ again⟩

end Canonical

end Numeric

end SqlClient
