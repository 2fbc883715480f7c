import SqlClient.Numeric
import SqlClient.Proofs.Number.Digits
/-!
# Groups of digits

Digits around a point, cut into groups of four, stripped of zero groups at both ends and written out
again. The weight says where the first group that is left belongs: with a digit before the point it
is the first group there, otherwise it counts the zero groups dropped after the point. A numeric
whose header fits its words is read back from its bytes.
-/
namespace SqlClient

namespace Wire

theorem word_eq (n : Nat) : word n = [UInt8.ofNat (n / 256 % 256), UInt8.ofNat (n % 256)] := rfl

theorem length_word (n : Nat) : (word n).length = 2 := rfl

theorem words_word {n : Nat} (h : n < 65536) (rest : Bytes) :
    words (word n ++ rest) = n :: words rest := by
  have high : (UInt8.ofNat (n / 256 % 256)).toNat = n / 256 % 256 :=
    UInt8.toNat_ofNat_of_lt (Nat.mod_lt _ (by decide))
  have low : (UInt8.ofNat (n % 256)).toNat = n % 256 :=
    UInt8.toNat_ofNat_of_lt (Nat.mod_lt _ (by decide))
  rw [word_eq, List.cons_append, List.singleton_append, words, high, low]
  congr 1
  omega

theorem words_flatMap_word {ns : List Nat} (h : ∀ n ∈ ns, n < 65536) :
    words (ns.flatMap word) = ns := by
  induction ns with
  | nil => rfl
  | cons n ns ih =>
    rw [List.flatMap_cons, words_word (h n List.mem_cons_self),
      ih fun m hm => h m (List.mem_cons_of_mem n hm)]

theorem signedBytes_two (i : Int) : signedBytes 2 i = word (i % 65536).toNat := rfl

theorem signedWord_toNat {i : Int} (hl : -32768 ≤ i) (hu : i < 32768) :
    signedWord (i % 65536).toNat = i := by
  have limit : signedLimit 2 = 32768 := by decide
  have whole : ((Nat.pow 256 2 : Nat) : Int) = 65536 := by decide
  rw [signedWord, signedOfNat, limit, whole]
  by_cases h : 0 ≤ i
  · rw [if_pos (by omega)]
    omega
  · rw [if_neg (by omega)]
    omega

end Wire

open SqlClient.Wire

namespace Numeric

structure Header.Fits (h : Header) : Prop where
  count : h.count < 65536
  low : -32768 ≤ h.weight
  high : h.weight < 32768
  sign : h.sign < 65536
  scale : h.scale < 65536
  groups : ∀ g ∈ h.groups, g < 65536

theorem Header.length_bytes (h : Header) : h.bytes.length = 8 + 2 * h.groups.length := by
  have pairs (gs : List Nat) : (gs.flatMap word).length = 2 * gs.length := by
    induction gs with
    | nil => rfl
    | cons g gs ih =>
      rw [List.flatMap_cons, List.length_append, ih, length_word, List.length_cons]
      omega
  rw [Header.bytes]
  simp only [List.length_append, length_word, signedBytes_two, pairs]

theorem Header.ofBytes?_bytes {h : Header} (hf : h.Fits) : Header.ofBytes? h.bytes = some h := by
  have even : ¬ h.bytes.length % 2 ≠ 0 := by
    rw [length_bytes]
    omega
  have weight : (h.weight % 65536).toNat < 65536 := by omega
  have read : words h.bytes =
      h.count :: (h.weight % 65536).toNat :: h.sign :: h.scale :: h.groups := by
    rw [Header.bytes, signedBytes_two]
    simp only [List.append_assoc]
    rw [words_word hf.count, words_word weight, words_word hf.sign, words_word hf.scale,
      words_flatMap_word hf.groups]
  rw [Header.ofBytes?, if_neg even, read]
  simp only [signedWord_toNat hf.low hf.high]

/-- What a numeric must keep to so that its header fits and its groups are read back. -/
def Sendable : Numeric → Prop
  | .nan => True
  | .infinity _ => True
  | .finite _ weight scale groups => groups.length < 65536 ∧ -32768 ≤ weight ∧ weight < 32768 ∧
      scale < 65536 ∧ ∀ g ∈ groups, g < 10000

theorem Sendable.fits {n : Numeric} (h : n.Sendable) : n.toHeader.Fits := by
  cases n with
  | nan => constructor <;> decide
  | infinity negative => cases negative <;> constructor <;> decide
  | finite negative weight scale groups =>
    obtain ⟨hc, hl, hu, hs, hg⟩ := h
    have sign : (if negative then negativeSign else positiveSign) < 65536 := by
      cases negative <;> decide
    exact ⟨hc, hl, hu, sign, hs, fun g hm => Nat.lt_trans (hg g hm) (by decide)⟩

theorem ofHeader_toHeader {n : Numeric} (h : n.Sendable) : ofHeader n.toHeader = .ok n := by
  cases n with
  | nan => rfl
  | infinity negative => cases negative <;> rfl
  | finite negative weight scale groups =>
    obtain ⟨-, -, -, -, hg⟩ := h
    have small : groups.any (10000 ≤ ·) = false := by
      rw [List.any_eq_false]
      intro g hm
      simpa using hg g hm
    cases negative <;> simp [ofHeader, toHeader, small, nanSign, infinitySign, negativeInfinitySign,
      positiveSign, negativeSign]

theorem ofBytes_bytes {n : Numeric} (h : n.Sendable) : ofBytes n.bytes = .ok n := by
  rw [ofBytes, bytes, Header.ofBytes?_bytes h.fits]
  exact ofHeader_toHeader h

open SqlClient.Number

theorem groupsOfDigits_append {as : List Char} (h : as.length % 4 = 0) (bs : List Char) :
    groupsOfDigits (as ++ bs) = groupsOfDigits as ++ groupsOfDigits bs := by
  match as, h with
  | [], _ => rfl
  | a :: b :: c :: d :: rest, h =>
    have hr : rest.length % 4 = 0 := by simp only [List.length_cons] at h; omega
    simp only [List.cons_append, groupsOfDigits, groupsOfDigits_append hr bs]

theorem length_groupsOfDigits {ds : List Char} (h : ds.length % 4 = 0) :
    4 * (groupsOfDigits ds).length = ds.length := by
  match ds, h with
  | [], _ => rfl
  | a :: b :: c :: d :: rest, h =>
    have hr : rest.length % 4 = 0 := by simp only [List.length_cons] at h; omega
    have ih := length_groupsOfDigits hr
    simp only [groupsOfDigits, List.length_cons]
    omega

theorem digits_of_first {a b c d : Char} {rest : List Char}
    (hd : ∀ e ∈ a :: b :: c :: d :: rest, e.isDigit) : ∀ e ∈ [a, b, c, d], e.isDigit :=
  fun e he => hd e (List.mem_append_left rest he)

theorem groupsOfDigits_lt {ds : List Char} (hd : ∀ c ∈ ds, c.isDigit) :
    ∀ g ∈ groupsOfDigits ds, g < 10000 := by
  match ds, hd with
  | [], _ => simp [groupsOfDigits]
  | [_], _ => simp [groupsOfDigits]
  | [_, _], _ => simp [groupsOfDigits]
  | [_, _, _], _ => simp [groupsOfDigits]
  | a :: b :: c :: d :: rest, hd =>
    intro g hg
    rcases List.mem_cons.mp hg with rfl | hg
    · have bound : digitsValue [a, b, c, d] < 10 ^ 4 := digitsValue_lt (digits_of_first hd)
      omega
    · exact groupsOfDigits_lt (fun e he => hd e (by simp [he])) g hg

theorem flatMap_groupDigits {ds : List Char} (hd : ∀ c ∈ ds, c.isDigit) (hl : ds.length % 4 = 0) :
    (groupsOfDigits ds).flatMap groupDigits = ds := by
  match ds, hd, hl with
  | [], _, _ => rfl
  | a :: b :: c :: d :: rest, hd, hl =>
    have hr : rest.length % 4 = 0 := by simp only [List.length_cons] at hl; omega
    have first : groupDigits (digitsValue [a, b, c, d]) = [a, b, c, d] :=
      paddedDigits_digitsValue (digits_of_first hd) (List.cons_ne_nil _ _)
    have others : (groupsOfDigits rest).flatMap groupDigits = rest :=
      flatMap_groupDigits (fun e he => hd e (by simp [he])) hr
    rw [groupsOfDigits, List.flatMap_cons, first, others]
    rfl

theorem flatMap_groupDigits_replicate (n : Nat) :
    (List.replicate n 0).flatMap groupDigits = List.replicate (4 * n) '0' := by
  have zero : groupDigits 0 = List.replicate 4 '0' := by decide
  induction n with
  | zero => rfl
  | succ n ih =>
    rw [List.replicate_succ, List.flatMap_cons, ih, zero, List.replicate_append_replicate,
      show 4 * (n + 1) = 4 + 4 * n by omega]

theorem take_append_replicate {α : Type} (xs : List α) (a : α) {n t : Nat}
    (h : n ≤ (xs ++ List.replicate t a).length) :
    (xs ++ List.replicate t a).take n =
      xs.take n ++ List.replicate (n - (xs.take n).length) a := by
  rw [List.length_append, List.length_replicate] at h
  rw [List.take_append, List.take_replicate, List.length_take]
  congr 2
  omega

def dropped (all : List Nat) : Nat := all.length - (all.dropWhile (· = 0)).length

def stripped (all : List Nat) : List Nat :=
  ((all.dropWhile (· = 0)).reverse.dropWhile (· = 0)).reverse

theorem strip_zeros (all : List Nat) :
    ∃ t, all = List.replicate (dropped all) 0 ++ (stripped all ++ List.replicate t 0) := by
  have zeros (xs : List Nat) : xs = List.replicate (dropped xs) 0 ++ xs.dropWhile (· = 0) := by
    have split := List.takeWhile_append_dropWhile (p := (· = 0)) (l := xs)
    have front : xs.takeWhile (· = 0) = List.replicate (dropped xs) 0 := by
      rw [List.eq_replicate_iff]
      constructor
      · have hl := congrArg List.length split
        rw [List.length_append] at hl
        rw [dropped]
        omega
      · intro g hg
        simpa using List.mem_takeWhile_imp hg
    rw [← front, split]
  have back := congrArg List.reverse (zeros (all.dropWhile (· = 0)).reverse)
  rw [List.reverse_reverse, List.reverse_append, List.reverse_replicate] at back
  refine ⟨dropped (all.dropWhile (· = 0)).reverse, ?_⟩
  rw [stripped, ← back]
  exact zeros all

theorem stripped_eq_nil_iff {all : List Nat} : stripped all = [] ↔ ∀ g ∈ all, g = 0 := by
  constructor
  · intro h g hg
    obtain ⟨t, ht⟩ := strip_zeros all
    rw [ht, h, List.nil_append, List.replicate_append_replicate] at hg
    exact List.eq_of_mem_replicate hg
  · intro h
    have none : all.dropWhile (· = 0) = [] := by
      rw [List.dropWhile_eq_nil_iff]
      exact fun g hg => by simpa using h g hg
    rw [stripped, none]
    rfl

theorem stripped_sublist (all : List Nat) : (stripped all).Sublist all := by
  have inner : (stripped all).Sublist (all.dropWhile (· = 0)) := by
    rw [stripped, ← List.reverse_sublist, List.reverse_reverse]
    exact List.dropWhile_sublist _
  exact inner.trans (List.dropWhile_sublist _)

theorem dropped_of_head {all : List Nat} (hn : all ≠ []) (h : ∀ g ∈ all.head?, g ≠ 0) :
    dropped all = 0 := by
  cases all with
  | nil => exact absurd rfl hn
  | cons g rest => rw [dropped, List.dropWhile_cons_of_neg (by simp [h g rfl]), Nat.sub_self]

/-- Groups that, from their weight on, stand where the groups around the point do. -/
structure Aligned (before after : List Nat) (weight : Int) (groups : List Nat) : Prop where
  whole : wholeGroups weight groups = before
  fraction : ∃ t, fractionGroups weight groups ++ List.replicate t 0 = after

theorem aligned_of_strip {before after kept : List Nat} {z t : Nat}
    (h : before ++ after = List.replicate z 0 ++ (kept ++ List.replicate t 0))
    (hz : before ≠ [] → z = 0) :
    Aligned before after ((before.length : Int) - 1 - z) kept := by
  by_cases hb : before = []
  · subst hb
    rw [List.nil_append] at h
    have count : (((([] : List Nat).length : Int) - 1 - z) + 1).toNat = 0 := by
      rw [List.length_nil]
      omega
    have zeros : (-((([] : List Nat).length : Int) - 1 - z) - 1).toNat = z := by
      rw [List.length_nil]
      omega
    constructor
    · rw [wholeGroups, count, List.take_zero]
      rfl
    · refine ⟨t, ?_⟩
      rw [fractionGroups, count, zeros, List.drop_zero, List.append_assoc, h]
  · obtain rfl := hz hb
    have hlen := List.length_pos_iff.mpr hb
    rw [List.replicate_zero, List.nil_append] at h
    have count : ((before.length : Int) - 1 - (0 : Nat) + 1).toNat = before.length := by omega
    have zeros : (-((before.length : Int) - 1 - (0 : Nat)) - 1).toNat = 0 := by omega
    have room : before.length ≤ (kept ++ List.replicate t 0).length := by
      rw [← h, List.length_append]
      exact Nat.le_add_right _ _
    constructor
    · rw [wholeGroups, count, ← take_append_replicate kept 0 room, ← h, List.take_left]
    · refine ⟨t - (before.length - kept.length), ?_⟩
      rw [fractionGroups, count, zeros, List.replicate_zero, List.nil_append,
        ← List.drop_replicate, ← List.drop_append, ← h, List.drop_left]

section Parts

variable {before after : List Char} {weight : Int} {groups : List Nat}

theorem fractionText_of_aligned {whole : List Nat} {fraction : List Char} {zeros : Nat}
    (h : Aligned whole (groupsOfDigits after) weight groups)
    (hd : ∀ c ∈ after, c.isDigit) (hl : after.length % 4 = 0)
    (ha : after = fraction ++ List.replicate zeros '0') :
    fractionText weight fraction.length groups = fraction := by
  obtain ⟨t, ht⟩ := h.fraction
  have digits : (fractionGroups weight groups).flatMap groupDigits ++
      List.replicate (4 * t) '0' = after := by
    rw [← flatMap_groupDigits_replicate, ← List.flatMap_append, ht, flatMap_groupDigits hd hl]
  have room : fraction.length ≤ ((fractionGroups weight groups).flatMap groupDigits ++
      List.replicate (4 * t) '0').length := by
    rw [digits, ha, List.length_append]
    exact Nat.le_add_right _ _
  rw [fractionText, ← take_append_replicate _ '0' room, digits, ha, List.take_left]

theorem wholeText_of_aligned {fraction : List Nat}
    (h : Aligned (groupsOfDigits before) fraction weight groups)
    (hd : ∀ c ∈ before, c.isDigit) (hl : before.length % 4 = 0)
    (hn : ∀ g ∈ (groupsOfDigits before).head?, g ≠ 0) :
    wholeText weight groups = decimalDigits (digitsValue before) := by
  rw [wholeText, h.whole]
  match before, hd, hl, hn with
  | [], _, _, _ => exact decimalDigits_zero.symm
  | a :: b :: c :: d :: rest, hd, hl, hn =>
    have hr : rest.length % 4 = 0 := by simp only [List.length_cons] at hl; omega
    have others : (groupsOfDigits rest).flatMap groupDigits = rest :=
      flatMap_groupDigits (fun e he => hd e (by simp [he])) hr
    have first : digitsValue [a, b, c, d] ≠ 0 := hn _ rfl
    have lead := decimalDigits_digitsValue (digits_of_first hd) first
    have positive : digitsValue (a :: b :: c :: d :: rest) ≠ 0 := by
      have value := digitsValue_append [a, b, c, d] rest
      have power : 0 < 10 ^ rest.length := Nat.pow_pos (by decide)
      have pos := Nat.mul_pos (Nat.pos_of_ne_zero first) power
      simp only [List.cons_append, List.nil_append] at value
      omega
    have kept : ¬ ([a, b, c, d].dropWhile (· = '0')).isEmpty = true := by
      rw [← lead, List.isEmpty_iff]
      exact Nat.toDigits_ne_nil
    rw [decimalDigits_digitsValue hd positive]
    change decimalDigits (digitsValue [a, b, c, d]) ++ (groupsOfDigits rest).flatMap groupDigits =
      ([a, b, c, d] ++ rest).dropWhile (· = '0')
    rw [others, lead, List.dropWhile_append, if_neg kept]

end Parts

theorem padded_length (n : Nat) : (padding n + n) % 4 = 0 := by
  unfold padding
  omega

/-- Zeros in front of a number up to a whole group: its first group is not zero then. -/
theorem head_groups_padded {ds : List Char} (hd : ∀ c ∈ ds, c.isDigit)
    (hn : ∀ c ∈ ds.head?, c ≠ '0') :
    ∀ g ∈ (groupsOfDigits (List.replicate (padding ds.length) '0' ++ ds)).head?, g ≠ 0 := by
  cases ds with
  | nil => simp [padding, groupsOfDigits]
  | cons c cs =>
    have pad : padding (c :: cs).length < 4 := Nat.mod_lt _ (by decide)
    have whole := padded_length (c :: cs).length
    have digits : ∀ e ∈ List.replicate (padding (c :: cs).length) '0' ++ c :: cs, e.isDigit :=
      List.forall_mem_append.mpr ⟨isDigit_zeros _, hd⟩
    have lead : (List.replicate (padding (c :: cs).length) '0' ++
        c :: cs)[padding (c :: cs).length]? = some c := by simp
    rw [← List.length_replicate (n := padding (c :: cs).length) (a := '0'), ← List.length_append]
      at whole
    generalize hb : List.replicate (padding (c :: cs).length) '0' ++ c :: cs = before
      at whole digits lead
    match before, whole, digits, lead with
    | a :: b :: c' :: d :: rest, _, digits, lead =>
      rintro g ⟨⟩ hz
      -- the first digit of the number is among the first four, so it would be a zero too
      have zeros := (digitsValue_eq_zero_iff (digits_of_first digits)).mp hz
      have first : c ∈ [a, b, c', d] := by
        rw [show a :: b :: c' :: d :: rest = [a, b, c', d] ++ rest from rfl,
          List.getElem?_append_left pad] at lead
        exact List.mem_of_getElem? lead
      rw [zeros] at first
      exact hn c rfl (List.eq_of_mem_replicate first)

theorem groupsOfDigits_replicate (n : Nat) :
    groupsOfDigits (List.replicate (4 * n) '0') = List.replicate n 0 := by
  induction n with
  | zero => rfl
  | succ n ih =>
    rw [show 4 * (n + 1) = 4 * n + 1 + 1 + 1 + 1 by omega]
    simp only [List.replicate_succ, groupsOfDigits, ih]
    rfl

theorem groups_eq_zero_iff {ds : List Char} (hd : ∀ c ∈ ds, c.isDigit) (hl : ds.length % 4 = 0) :
    (∀ g ∈ groupsOfDigits ds, g = 0) ↔ digitsValue ds = 0 := by
  constructor
  · intro h
    have zeros := List.eq_replicate_of_mem h
    rw [← flatMap_groupDigits hd hl, zeros, flatMap_groupDigits_replicate, digitsValue_replicate]
  · intro h g hg
    have count : ds.length = 4 * (groupsOfDigits ds).length := (length_groupsOfDigits hl).symm
    rw [(digitsValue_eq_zero_iff hd).mp h, count, groupsOfDigits_replicate] at hg
    exact List.eq_of_mem_replicate hg

theorem digitsValue_dropWhile (ds : List Char) :
    digitsValue (ds.dropWhile (· = '0')) = digitsValue ds := by
  induction ds with
  | nil => rfl
  | cons c ds ih =>
    by_cases hc : c = '0'
    · subst hc
      rw [List.dropWhile_cons_of_pos (by simp), ih]
      have zero := digitsValue_append (List.replicate 1 '0') ds
      rw [digitsValue_replicate, Nat.zero_mul, Nat.zero_add] at zero
      exact zero.symm
    · rw [List.dropWhile_cons_of_neg (by simpa using hc)]

section Padded

def paddedWhole (whole : List Char) : List Char :=
  let ds := whole.dropWhile (· = '0')
  List.replicate (padding ds.length) '0' ++ ds

def paddedFraction (fraction : List Char) : List Char :=
  fraction ++ List.replicate (padding fraction.length) '0'

variable {whole fraction : List Char}

theorem isDigit_paddedWhole (h : ∀ c ∈ whole, c.isDigit) : ∀ c ∈ paddedWhole whole, c.isDigit :=
  List.forall_mem_append.mpr
    ⟨isDigit_zeros _, fun c hc => h c ((List.dropWhile_sublist _).mem hc)⟩

theorem isDigit_paddedFraction (h : ∀ c ∈ fraction, c.isDigit) :
    ∀ c ∈ paddedFraction fraction, c.isDigit :=
  List.forall_mem_append.mpr ⟨h, isDigit_zeros _⟩

theorem length_paddedWhole (whole : List Char) : (paddedWhole whole).length % 4 = 0 := by
  rw [paddedWhole, List.length_append, List.length_replicate]
  exact padded_length _

theorem length_paddedFraction (fraction : List Char) :
    (paddedFraction fraction).length % 4 = 0 := by
  rw [paddedFraction, List.length_append, List.length_replicate, Nat.add_comm]
  exact padded_length _

theorem digitsValue_paddedWhole (whole : List Char) :
    digitsValue (paddedWhole whole) = digitsValue whole := by
  simp [paddedWhole, digitsValue_append, digitsValue_dropWhile]

/-- Padding on the right multiplies by a power of ten. -/
theorem digitsValue_padded (whole fraction : List Char) :
    digitsValue (paddedWhole whole ++ paddedFraction fraction) =
      digitsValue (whole ++ fraction) * 10 ^ padding fraction.length := by
  rw [paddedFraction, ← List.append_assoc, digitsValue_append, digitsValue_replicate,
    List.length_replicate, Nat.add_zero, digitsValue_append, digitsValue_paddedWhole,
    ← digitsValue_append]

theorem padded_eq_zero_iff (hw : ∀ c ∈ whole, c.isDigit) (hf : ∀ c ∈ fraction, c.isDigit) :
    stripped (groupsOfDigits (paddedWhole whole ++ paddedFraction fraction)) = [] ↔
      digitsValue (whole ++ fraction) = 0 := by
  have digits : ∀ c ∈ paddedWhole whole ++ paddedFraction fraction, c.isDigit :=
    List.forall_mem_append.mpr ⟨isDigit_paddedWhole hw, isDigit_paddedFraction hf⟩
  have count : (paddedWhole whole ++ paddedFraction fraction).length % 4 = 0 := by
    rw [List.length_append, Nat.add_mod, length_paddedWhole, length_paddedFraction]
  rw [stripped_eq_nil_iff, groups_eq_zero_iff digits count, digitsValue_padded, Nat.mul_eq_zero]
  exact or_iff_left (Nat.pos_iff_ne_zero.mp (Nat.pow_pos (by decide)))

theorem head_paddedWhole (hw : ∀ c ∈ whole, c.isDigit) :
    ∀ g ∈ (groupsOfDigits (paddedWhole whole)).head?, g ≠ 0 := by
  refine head_groups_padded (fun c hc => hw c ((List.dropWhile_sublist _).mem hc)) fun c hc => ?_
  have h := List.head?_dropWhile_not (· = '0') whole
  rw [Option.mem_def.mp hc] at h
  simpa using h

theorem ofDigits_eq (negative : Bool) (whole fraction : List Char) :
    ofDigits negative whole fraction =
      let all := groupsOfDigits (paddedWhole whole ++ paddedFraction fraction)
      if (stripped all).isEmpty then .finite false 0 fraction.length []
      else .finite negative (((paddedWhole whole).length / 4 : Nat) - 1 - (dropped all : Nat))
        fraction.length (stripped all) := rfl

end Padded

/-- Where a number keeps its groups: aligned at the point, and within those of all its digits. -/
structure Placed (before after : List Nat) (weight : Int) (groups : List Nat) : Prop where
  aligned : Aligned before after weight groups
  sublist : groups.Sublist (before ++ after)
  low : -(after.length : Int) - 1 ≤ weight
  high : weight < before.length

theorem ofDigits_of_zero (negative : Bool) {whole fraction : List Char}
    (hw : ∀ c ∈ whole, c.isDigit) (hf : ∀ c ∈ fraction, c.isDigit)
    (hz : digitsValue (whole ++ fraction) = 0) :
    ofDigits negative whole fraction = .finite false 0 fraction.length [] := by
  rw [ofDigits_eq]
  exact if_pos (List.isEmpty_iff.mpr ((padded_eq_zero_iff hw hf).mpr hz))

/-- Between the zero groups at its ends a number keeps its place. -/
theorem ofDigits_of_ne_zero (negative : Bool) {whole fraction : List Char}
    (hw : ∀ c ∈ whole, c.isDigit) (hf : ∀ c ∈ fraction, c.isDigit)
    (hn : digitsValue (whole ++ fraction) ≠ 0) : ∃ weight groups,
      ofDigits negative whole fraction = .finite negative weight fraction.length groups ∧
      Placed (groupsOfDigits (paddedWhole whole)) (groupsOfDigits (paddedFraction fraction))
        weight groups := by
  have cut := groupsOfDigits_append (length_paddedWhole whole) (paddedFraction fraction)
  have count := length_groupsOfDigits (length_paddedWhole whole)
  have kept : ¬ (stripped (groupsOfDigits (paddedWhole whole ++ paddedFraction fraction))).isEmpty
      = true := by
    rw [List.isEmpty_iff, padded_eq_zero_iff hw hf]
    exact hn
  refine ⟨_, _, (ofDigits_eq negative whole fraction).trans (if_neg kept), ?_⟩
  have digit : ((paddedWhole whole).length / 4 : Nat) =
      (groupsOfDigits (paddedWhole whole)).length := by omega
  rw [digit, cut]
  generalize hB : groupsOfDigits (paddedWhole whole) = before
  generalize groupsOfDigits (paddedFraction fraction) = after
  have front : before ≠ [] → dropped (before ++ after) = 0 := by
    intro hb
    refine dropped_of_head (fun he => hb (List.append_eq_nil_iff.mp he).1) fun g hg => ?_
    obtain ⟨first, rest, rfl⟩ := List.exists_cons_of_ne_nil hb
    exact head_paddedWhole hw g (hB ▸ hg)
  obtain ⟨t, ht⟩ := strip_zeros (before ++ after)
  have bound : dropped (before ++ after) ≤ before.length + after.length := by
    rw [← List.length_append]
    exact Nat.sub_le _ _
  exact ⟨aligned_of_strip ht front, stripped_sublist _, by omega, by omega⟩

theorem text_zero (scale : Nat) : text (.finite false 0 scale []) =
    '0' :: (if scale = 0 then [] else '.' :: List.replicate scale '0') := by
  have none : fractionText 0 scale [] = List.replicate scale '0' := by
    simp [fractionText, fractionGroups]
  rw [text, none]
  rfl

/-- Digits written as a number: no zeros in front, and a sign only if it is not zero. -/
theorem text_ofDigits (negative : Bool) {whole fraction : List Char}
    (hw : ∀ c ∈ whole, c.isDigit) (hf : ∀ c ∈ fraction, c.isDigit) :
    text (ofDigits negative whole fraction) =
      (if negative ∧ digitsValue (whole ++ fraction) ≠ 0 then ['-'] else []) ++
        (decimalDigits (digitsValue whole) ++
          (if fraction = [] then [] else '.' :: fraction)) := by
  by_cases hz : digitsValue (whole ++ fraction) = 0
  · have parts : digitsValue whole = 0 ∧ digitsValue fraction = 0 := by
      simpa [digitsValue_append, Nat.mul_eq_zero] using hz
    have unsigned : ¬ (negative = true ∧ digitsValue (whole ++ fraction) ≠ 0) := fun h => h.2 hz
    rw [ofDigits_of_zero negative hw hf hz, text_zero, parts.1, decimalDigits_zero,
      if_neg unsigned, ← (digitsValue_eq_zero_iff hf).mp parts.2]
    simp
  · obtain ⟨weight, groups, he, hp⟩ := ofDigits_of_ne_zero negative hw hf hz
    have before : wholeText weight groups = decimalDigits (digitsValue whole) := by
      rw [wholeText_of_aligned hp.aligned (isDigit_paddedWhole hw) (length_paddedWhole whole)
        (head_paddedWhole hw), digitsValue_paddedWhole]
    have after : fractionText weight fraction.length groups = fraction :=
      fractionText_of_aligned hp.aligned (isDigit_paddedFraction hf)
        (length_paddedFraction fraction) rfl
    rw [he, text, before, after]
    cases negative <;> simp [hz]

end Numeric

end SqlClient
