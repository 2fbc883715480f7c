import Mathlib.Algebra.BigOperators.Fin
import Mathlib.Data.Rat.Floor
import SqlClient.Proofs.Numeric.WireForm
/-!
# Numerics by their positions

Which bytes are read as a numeric, and what the text that is shown for them says: the sum of the
groups, each at its place, cut off toward zero behind the last decimal that is shown. A value need
not be canonical for that; its groups may begin behind the point or end before it.
-/
namespace SqlClient

open SqlClient.Number SqlClient.Wire

namespace Numeric

def groupsValue (weight : Int) (groups : List Nat) : ℚ :=
  ∑ i : Fin groups.length, (groups.get i : ℚ) * 10000 ^ (weight - (i : Nat))

def Header.IsFinite (h : Header) : Prop := h.sign = positiveSign ∨ h.sign = negativeSign

def Header.number (h : Header) : ℚ :=
  if h.sign = negativeSign then -groupsValue h.weight h.groups else groupsValue h.weight h.groups

def plainValue (negative : Bool) (whole fraction : List Char) : ℚ :=
  signed negative (digitsValue (whole ++ fraction)) / 10 ^ fraction.length

def truncated (places : Nat) (q : ℚ) : ℚ :=
  (if 0 ≤ q then ⌊q * 10 ^ places⌋ else ⌈q * 10 ^ places⌉ : ℤ) / 10 ^ places

/-- The text that is shown for a header and its groups. A finite value has a minus just if its sign
word says so, also where only zeros are shown. -/
inductive Header.Shown (h : Header) : List Char → Prop where
  | nan : h.sign = nanSign → Shown h "NaN".toList
  | infinity : h.sign = infinitySign → Shown h "Infinity".toList
  | negativeInfinity : h.sign = negativeInfinitySign → Shown h "-Infinity".toList
  | finite {whole fraction : List Char} : h.IsFinite → (∀ c ∈ whole ++ fraction, c.isDigit) →
      whole ≠ [] → fraction.length = h.scale →
      plainValue (h.sign = negativeSign) whole fraction = truncated h.scale h.number →
      Shown h (plainText (h.sign = negativeSign) whole fraction)

def signWords : List Nat :=
  [positiveSign, negativeSign, nanSign, infinitySign, negativeInfinitySign]

/-- Only for a finite value are the groups looked at, and they are counted first. -/
inductive Header.Refused (h : Header) : NumericFault → Prop where
  | sign : h.sign ∉ signWords → Refused h (.unknownSign h.sign)
  | count : h.IsFinite → h.groups.length ≠ h.count → Refused h .countMismatch
  | group {g : Nat} : h.IsFinite → h.groups.length = h.count → g ∈ h.groups → 10000 ≤ g →
      Refused h .groupOutOfRange

/-- Bytes that are no numeric: fewer than four words, half a word, or a header that is refused. -/
inductive Refused (raw : Bytes) : NumericFault → Prop where
  | short : raw.length < 8 → Refused raw .malformed
  | odd : raw.length % 2 = 1 → Refused raw .malformed
  | header {h : Header} {fault : NumericFault} : h.Fits → h.bytes = raw → h.Refused fault →
      Refused raw fault

theorem length_words (b : Bytes) : (words b).length = b.length / 2 := by
  match b with
  | [] => rfl
  | [_] => simp [words]
  | _ :: _ :: rest =>
    rw [words, List.length_cons, length_words rest, List.length_cons, List.length_cons]
    omega

section Headers

variable {raw : Bytes} {h : Header} {fault : NumericFault}

theorem Header.ofBytes?_eq_some_iff : Header.ofBytes? raw = some h ↔ h.Fits ∧ h.bytes = raw := by
  constructor
  · intro read
    obtain ⟨same, fits⟩ := Header.of_ofBytes? read
    exact ⟨fits, same⟩
  · rintro ⟨fits, rfl⟩
    exact Header.ofBytes?_bytes fits

theorem Header.ofBytes?_eq_none_iff :
    Header.ofBytes? raw = none ↔ raw.length < 8 ∨ raw.length % 2 = 1 := by
  have number := length_words raw
  rw [Header.ofBytes?]
  by_cases odd : raw.length % 2 ≠ 0
  · rw [if_pos odd]
    exact ⟨fun _ => .inr (by omega), fun _ => rfl⟩
  · rw [if_neg odd]
    generalize words raw = ws at number
    rcases ws with _ | ⟨count, _ | ⟨weight, _ | ⟨sign, _ | ⟨scale, groups⟩⟩⟩⟩
    all_goals
      simp only [List.length_cons, List.length_nil] at number
      simp
      omega

theorem Header.sign_cases (h : Header) : h.sign = nanSign ∨ h.sign = infinitySign ∨
    h.sign = negativeInfinitySign ∨ h.IsFinite ∨ h.sign ∉ signWords := by
  by_cases known : h.sign ∈ signWords
  · simp only [signWords, List.mem_cons, List.not_mem_nil, or_false] at known
    rw [IsFinite]
    tauto
  · exact .inr (.inr (.inr (.inr known)))

theorem ofHeader_unknown (hs : h.sign ∉ signWords) :
    ofHeader h = .error (.unknownSign h.sign) := by
  simp only [signWords, List.mem_cons, List.not_mem_nil, or_false, not_or] at hs
  simp [ofHeader, hs]

theorem ofHeader_finite (hf : h.IsFinite) : ofHeader h =
    if h.groups.length ≠ h.count then .error .countMismatch
    else if h.groups.any (10000 ≤ ·) then .error .groupOutOfRange
    else .ok h.value := by
  have known : (h.sign ≠ positiveSign && h.sign ≠ negativeSign) = false := by
    rcases hf with hs | hs <;> simp [hs]
  have special : h.sign ≠ nanSign ∧ h.sign ≠ infinitySign ∧ h.sign ≠ negativeInfinitySign := by
    rcases hf with hs | hs <;> rw [hs] <;> decide
  rw [ofHeader, if_neg special.1, if_neg special.2.1, if_neg special.2.2, known]
  rfl

theorem Header.Refused.ofHeader_eq (hr : h.Refused fault) : ofHeader h = .error fault := by
  cases hr with
  | sign hs => exact ofHeader_unknown hs
  | count hf hc => rw [ofHeader_finite hf, if_pos hc]
  | group hf hc hg hl =>
    have found : h.groups.any (10000 ≤ ·) = true :=
      List.any_eq_true.mpr ⟨_, hg, decide_eq_true hl⟩
    rw [ofHeader_finite hf, if_neg (not_not.mpr hc), if_pos found]

end Headers

theorem natOfGroups_snoc (gs : List Nat) (g : Nat) :
    natOfGroups (gs ++ [g]) = natOfGroups gs * 10000 + g := by
  rw [natOfGroups, List.foldl_append]
  rfl

theorem natOfGroups_append (as bs : List Nat) :
    natOfGroups (as ++ bs) = natOfGroups as * 10000 ^ bs.length + natOfGroups bs := by
  induction bs using List.reverseRecOn with
  | nil => simp [natOfGroups]
  | append_singleton bs g ih =>
    rw [← List.append_assoc, natOfGroups_snoc, natOfGroups_snoc, ih, List.length_append,
      List.length_singleton, Nat.pow_succ]
    ring

theorem natOfGroups_cons (g : Nat) (gs : List Nat) :
    natOfGroups (g :: gs) = g * 10000 ^ gs.length + natOfGroups gs := by
  have single : natOfGroups [g] = g := Nat.zero_add g
  rw [← List.singleton_append, natOfGroups_append, single]

theorem natOfGroups_replicate (n : Nat) : natOfGroups (List.replicate n 0) = 0 := by
  induction n with
  | zero => rfl
  | succ n ih => rw [List.replicate_succ', natOfGroups_snoc, ih]

theorem groupsValue_cons (weight : Int) (g : Nat) (gs : List Nat) :
    groupsValue weight (g :: gs) = g * 10000 ^ weight + groupsValue (weight - 1) gs := by
  rw [groupsValue, groupsValue]
  refine (Fin.sum_univ_succ _).trans ?_
  congr 1
  · simp
  · refine Finset.sum_congr rfl fun i _ => ?_
    rw [Fin.val_succ]
    congr 2
    omega

theorem groupsValue_eq (weight : Int) (groups : List Nat) :
    groupsValue weight groups =
      natOfGroups groups * 10000 ^ (weight + 1 - groups.length) := by
  have base : (10000 : ℚ) ≠ 0 := by decide
  induction groups generalizing weight with
  | nil => simp [groupsValue, natOfGroups]
  | cons g gs ih =>
    have places : weight = gs.length + (weight + 1 - (g :: gs).length) := by
      rw [List.length_cons]
      omega
    have rest : weight - 1 + 1 - gs.length = weight + 1 - (g :: gs).length := by
      rw [List.length_cons]
      omega
    rw [groupsValue_cons, ih, rest, natOfGroups_cons]
    nth_rewrite 1 [places]
    rw [zpow_add₀ base, zpow_natCast]
    push_cast
    ring

/-- With the groups that were not sent, the number is a whole one of the last group's places. -/
theorem groupsValue_around (weight : Int) (groups : List Nat) :
    groupsValue weight groups =
      natOfGroups (wholeGroups weight groups ++ fractionGroups weight groups) /
        10000 ^ (fractionGroups weight groups).length := by
  have base : (10000 : ℚ) ≠ 0 := by decide
  have behind := length_fractionGroups weight groups
  have exponent : weight + 1 - groups.length =
      ((weight + 1).toNat - groups.length : Nat) - (fractionGroups weight groups).length := by
    omega
  rw [wholeGroups_append_fractionGroups, natOfGroups_append, natOfGroups_append,
    natOfGroups_replicate, natOfGroups_replicate, List.length_replicate, groupsValue_eq, exponent,
    zpow_sub₀ base, zpow_natCast, zpow_natCast]
  push_cast
  ring

theorem digitsValue_groupDigits (g : Nat) : digitsValue (groupDigits g) = g := by
  rw [groupDigits_eq_append, digitsValue_append, digitsValue_replicate, Nat.zero_mul,
    Nat.zero_add, digitsValue_decimalDigits]

theorem digitsValue_flatMap_groupDigits {gs : List Nat} (h : ∀ g ∈ gs, g < 10000) :
    digitsValue (gs.flatMap groupDigits) = natOfGroups gs := by
  induction gs using List.reverseRecOn with
  | nil => rfl
  | append_singleton gs g ih =>
    obtain ⟨hs, hg⟩ := List.forall_mem_append.mp h
    have four : (groupDigits g).length = 4 := by
      rw [groupDigits_eq (hg g List.mem_cons_self)]
      rfl
    rw [List.flatMap_append, List.flatMap_singleton, digitsValue_append, ih hs,
      digitsValue_groupDigits, four, natOfGroups_snoc]
    norm_num

/-- Digits that are cut off at the end are divided away. -/
theorem digitsValue_take {ds : List Char} (h : ∀ c ∈ ds, c.isDigit) {n k : Nat}
    (hl : ds.length = n + k) : digitsValue (ds.take n) = digitsValue ds / 10 ^ k := by
  have rest : (ds.drop n).length = k := by
    rw [List.length_drop]
    omega
  have digits : ∀ c ∈ ds.drop n, c.isDigit := fun c hc => h c (List.mem_of_mem_drop hc)
  have cut := (digitsValue_append_div_mod (ds.take n) digits).1
  rw [List.take_append_drop, rest] at cut
  exact cut.symm

section Shown

variable {groups : List Nat} (small : ∀ g ∈ groups, g < 10000) (weight : Int) (scale : Nat)

include small

theorem digitsValue_wholeText :
    digitsValue (wholeText weight groups) = natOfGroups (wholeGroups weight groups) := by
  have bound := wholeGroups_lt small weight
  rw [wholeText]
  generalize wholeGroups weight groups = gs at bound
  cases gs with
  | nil => rfl
  | cons g gs =>
    have bound := (List.forall_mem_cons.mp bound).2
    have digits := digitsValue_flatMap_groupDigits bound
    dsimp only
    rw [digitsValue_append, digitsValue_decimalDigits, length_flatMap_groupDigits bound, digits,
      natOfGroups_cons, Nat.pow_mul]

/-- All digits that are shown are those of the number in units of the last decimal. -/
theorem digitsValue_shown :
    (digitsValue (wholeText weight groups ++ fractionText weight scale groups) : ℤ) =
      ⌊groupsValue weight groups * 10 ^ scale⌋ := by
  have bound := fractionGroups_lt small weight
  have count := length_flatMap_groupDigits bound
  have behind := digitsValue_flatMap_groupDigits bound
  have whole := digitsValue_wholeText small weight
  have digits : ∀ c ∈ wholeText weight groups ++
      ((fractionGroups weight groups).flatMap groupDigits ++ List.replicate scale '0'),
      c.isDigit :=
    List.forall_mem_append.mpr ⟨isDigit_wholeText small weight,
      List.forall_mem_append.mpr ⟨isDigit_flatMap_groupDigits bound, isDigit_zeros _⟩⟩
  have floor (n k : Nat) : ⌊(n / 10000 ^ k * 10 ^ scale : ℚ)⌋ =
      (n * 10 ^ scale / 10000 ^ k : Nat) := by
    have whole := Rat.floor_natCast_div_natCast (n * 10 ^ scale) (10000 ^ k)
    push_cast at whole ⊢
    rw [← whole, div_mul_eq_mul_div]
  rw [groupsValue_around, floor, fractionText]
  generalize wholeText weight groups = ws at whole digits
  generalize (fractionGroups weight groups).flatMap groupDigits = ds at count behind digits
  -- the fraction is what is left of all digits, and as many zeros, behind the last decimal
  have room : scale ≤ (ds ++ List.replicate scale '0').length := by simp
  have cut := digitsValue_take digits (n := ws.length + scale) (k := ds.length)
    (by simp only [List.length_append, List.length_replicate]; omega)
  rw [List.take_length_add_append, take_append_replicate _ _ room] at cut
  rw [cut, count, Nat.pow_mul, digitsValue_append, digitsValue_append, digitsValue_replicate, whole,
    behind, natOfGroups_append, List.length_append, List.length_replicate, count]
  congr 2
  rw [Nat.pow_add, Nat.pow_mul]
  ring

end Shown

theorem truncated_neg (places : Nat) (q : ℚ) : truncated places (-q) = -truncated places q := by
  have flip : ((⌈-(q * 10 ^ places)⌉ : ℤ) : ℚ) = -(⌊q * 10 ^ places⌋ : ℤ) := by
    rw [Int.ceil_neg, Int.cast_neg]
  have flop : ((⌊-(q * 10 ^ places)⌋ : ℤ) : ℚ) = -(⌈q * 10 ^ places⌉ : ℤ) := by
    rw [Int.floor_neg, Int.cast_neg]
  rw [truncated, truncated, neg_mul]
  rcases lt_trichotomy q 0 with hq | rfl | hq
  · rw [if_pos (by linarith), if_neg (by linarith), flop, neg_div]
  · simp
  · rw [if_neg (by linarith), if_pos (by linarith), flip, neg_div]

theorem groupsValue_nonneg (weight : Int) (groups : List Nat) : 0 ≤ groupsValue weight groups := by
  rw [groupsValue_eq]
  exact mul_nonneg (Nat.cast_nonneg _) (zpow_nonneg (by decide) _)

theorem plainValue_shown {h : Header} (small : ∀ g ∈ h.groups, g < 10000) :
    plainValue (h.sign = negativeSign) (wholeText h.weight h.groups)
      (fractionText h.weight h.scale h.groups) = truncated h.scale h.number := by
  have digits := digitsValue_shown small h.weight h.scale
  have magnitude : truncated h.scale (groupsValue h.weight h.groups) =
      digitsValue (wholeText h.weight h.groups ++ fractionText h.weight h.scale h.groups) /
        10 ^ h.scale := by
    rw [truncated, if_pos (groupsValue_nonneg _ _), ← digits, Int.cast_natCast]
  rw [plainValue, length_fractionText, Header.number, signed]
  by_cases hs : h.sign = negativeSign
  · rw [if_pos hs, truncated_neg, magnitude, if_pos (decide_eq_true hs)]
    push_cast
    rw [neg_div]
  · rw [if_neg hs, magnitude, if_neg (by simpa using hs), Int.cast_natCast]

theorem wholeText_ne_nil (weight : Int) (groups : List Nat) : wholeText weight groups ≠ [] := by
  rw [wholeText]
  split
  · exact List.cons_ne_nil _ _
  · exact fun he => Nat.toDigits_ne_nil (List.append_eq_nil_iff.mp he).1

theorem Header.IsFinite.shown_value {h : Header} (hf : h.IsFinite)
    (small : ∀ g ∈ h.groups, g < 10000) : h.Shown h.value.text := by
  rw [text_value]
  exact .finite hf (List.forall_mem_append.mpr ⟨isDigit_wholeText small h.weight,
    isDigit_fractionText small h.weight h.scale⟩) (wholeText_ne_nil _ _)
    (length_fractionText _ _ _) (plainValue_shown small)

/-- A header is refused, or its numeric is read and shown. -/
theorem ofHeader_cases (h : Header) :
    (∃ fault, h.Refused fault) ∨ ∃ n, ofHeader h = .ok n ∧ h.Shown n.text := by
  rcases h.sign_cases with hs | hs | hs | hf | hs
  · exact .inr ⟨.nan, by rw [ofHeader, hs]; rfl, .nan hs⟩
  · exact .inr ⟨.infinity false, by rw [ofHeader, hs]; rfl, .infinity hs⟩
  · exact .inr ⟨.infinity true, by rw [ofHeader, hs]; rfl, .negativeInfinity hs⟩
  · by_cases count : h.groups.length = h.count
    · by_cases range : ∃ g ∈ h.groups, 10000 ≤ g
      · obtain ⟨g, hg, large⟩ := range
        exact .inl ⟨_, .group hf count hg large⟩
      · have small : ∀ g ∈ h.groups, g < 10000 := fun g hg => by
          by_contra large
          exact range ⟨g, hg, Nat.not_lt.mp large⟩
        have none : ¬ h.groups.any (10000 ≤ ·) = true := by
          rw [List.any_eq_true]
          rintro ⟨g, hg, large⟩
          exact range ⟨g, hg, of_decide_eq_true large⟩
        refine .inr ⟨h.value, ?_, hf.shown_value small⟩
        rw [ofHeader_finite hf, if_neg (not_not.mpr count), if_neg none]
    · exact .inl ⟨_, .count hf count⟩
  · exact .inl ⟨_, .sign hs⟩

theorem refused_iff {raw : Bytes} {fault : NumericFault} :
    ofBytes raw = .error fault ↔ Refused raw fault := by
  rw [ofBytes]
  cases read : Header.ofBytes? raw with
  | none =>
    have bounds := Header.ofBytes?_eq_none_iff.mp read
    constructor
    · rintro ⟨⟩
      exact bounds.elim .short .odd
    · rintro (- | - | ⟨fits, same, -⟩)
      · rfl
      · rfl
      · rw [Header.ofBytes?_eq_some_iff.mpr ⟨fits, same⟩] at read
        cases read
  | some h =>
    obtain ⟨fits, same⟩ := Header.ofBytes?_eq_some_iff.mp read
    have long : ¬ (raw.length < 8 ∨ raw.length % 2 = 1) := by
      rw [← Header.ofBytes?_eq_none_iff, read]
      exact Option.some_ne_none h
    dsimp only
    constructor
    · intro he
      rcases ofHeader_cases h with ⟨found, hr⟩ | ⟨n, hn, -⟩
      · rw [hr.ofHeader_eq] at he
        cases he
        exact .header fits same hr
      · rw [hn] at he
        cases he
    · rintro (short | odd | ⟨fits', same', hr⟩)
      · exact absurd (.inl short) long
      · exact absurd (.inr odd) long
      · have again := Header.ofBytes?_eq_some_iff.mpr ⟨fits', same'⟩
        rw [read] at again
        cases again
        exact hr.ofHeader_eq

/-- Bytes are refused just if they are too short, cut within a word, have an unknown sign word, or
are those of a finite value with another number of groups than its header counts or with a group of
more than four digits. All others show their number, cut off toward zero behind the decimals they
ask for. -/
theorem text_of_bytes (raw : Bytes) :
    (∀ fault, (ofBytes raw).map text = .error fault ↔ Refused raw fault) ∧
      ∀ (h : Header) (cs : List Char), h.Fits → h.bytes = raw → (ofBytes raw).map text = .ok cs →
        h.Shown cs := by
  constructor
  · intro fault
    rw [← refused_iff]
    cases ofBytes raw <;> simp [Except.map]
  · intro h cs fits same shown
    rw [ofBytes, Header.ofBytes?_eq_some_iff.mpr ⟨fits, same⟩] at shown
    dsimp only at shown
    rcases ofHeader_cases h with ⟨fault, hr⟩ | ⟨n, hn, text⟩
    · rw [hr.ofHeader_eq] at shown
      cases shown
    · rw [hn] at shown
      cases shown
      exact text

/-- Digits behind the scale are cut off, and a group too many is refused. -/
theorem text_of_bytes_cut_off :
    let h : Header := ⟨2, -1, negativeSign, 3, [12, 5678]⟩
    h.Fits ∧ (ofBytes h.bytes).map text = .ok "-0.001".toList ∧ h.Shown "-0.001".toList ∧
      (ofBytes (h.bytes ++ [0, 1])).map text = .error .countMismatch ∧
      Refused (h.bytes ++ [0, 1]) .countMismatch := by
  intro h
  have fits : h.Fits := by constructor <;> decide
  have shown : (ofBytes h.bytes).map text = .ok "-0.001".toList := by decide +kernel
  have refused : (ofBytes (h.bytes ++ [0, 1])).map text = .error .countMismatch := by
    decide +kernel
  exact ⟨fits, shown, (text_of_bytes h.bytes).2 h _ fits rfl shown, refused,
    ((text_of_bytes _).1 _).mp refused⟩

end Numeric

end SqlClient
