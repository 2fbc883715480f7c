import SqlClient.Proofs.Calendar.Days
import SqlClient.Proofs.Text.Settled
/-!
# Dates and times read back

A date whose year has four digits is read from the text that shows it, and so is an instant, to the
nanosecond, unless it is a leap second.
-/
namespace SqlClient.Calendar

open SqlClient.Number

section Field

variable {width n : Nat} (hw : width ≠ 0) (hn : n < 10 ^ width)

include hw hn

/-- A field begins with a digit, whatever it begins. -/
theorem exists_cons_paddedDigits (rest : List Char) :
    ∃ c cs, paddedDigits width n ++ rest = c :: cs ∧ c.isDigit := by
  have digits := isDigit_paddedDigits hw n
  have length := length_paddedDigits hw hn
  cases hp : paddedDigits width n with
  | nil =>
    rw [hp] at length
    exact absurd length.symm hw
  | cons c cs =>
    rw [hp] at digits
    exact ⟨c, cs ++ rest, rfl, digits c List.mem_cons_self⟩

theorem trimLeft_paddedDigits (rest : List Char) :
    Text.trimLeft (paddedDigits width n ++ rest) = paddedDigits width n ++ rest := by
  obtain ⟨c, cs, he, digit⟩ := exists_cons_paddedDigits hw hn rest
  rw [he, Text.trimLeft, List.dropWhile_cons, Text.not_isBlank_of_isDigit digit]
  rfl

theorem readDigitField_paddedDigits (rest : List Char) :
    Instant.readDigitField width (paddedDigits width n ++ rest) = some (n, rest) := by
  have length := length_paddedDigits hw hn
  have digits := isDigit_paddedDigits hw n
  have front : (paddedDigits width n ++ rest).take width = paddedDigits width n := by
    rw [List.take_left' length]
  have all : ((paddedDigits width n).length = width &&
      (paddedDigits width n).all Char.isDigit) = true := by
    rw [Bool.and_eq_true, decide_eq_true_eq, List.all_eq_true]
    exact ⟨length, digits⟩
  rw [Instant.readDigitField, front, List.drop_left' length, digitsValue_paddedDigits hw hn]
  exact if_pos all

theorem readField_paddedDigits (rest : List Char) :
    Date.readField width (paddedDigits width n ++ rest) = some (n, rest) := by
  have length := length_paddedDigits hw hn
  have digits := isDigit_paddedDigits hw n
  have front : ((paddedDigits width n ++ rest).take width).takeWhile Char.isDigit =
      paddedDigits width n := by
    rw [List.take_left' length, List.takeWhile_eq_self_iff]
    exact digits
  have some : ¬ (paddedDigits width n).isEmpty = true := by
    rw [List.isEmpty_iff_length_eq_zero, length]
    exact hw
  rw [Date.readField, front, if_neg some, List.drop_left,
    digitsValue_paddedDigits hw hn]

end Field

namespace Date

def FourDigits (d : Date) : Prop := 0 ≤ d.year ∧ d.year ≤ 9999

variable {d : Date}

theorem lt_hundred (d : Date) : d.month < 100 ∧ d.day < 100 := by
  have month := d.month_le
  have day := d.day_le
  unfold daysInMonth at day
  split_ifs at day <;> omega

theorem FourDigits.text_eq (h : d.FourDigits) : d.text = paddedDigits 4 d.year.natAbs ++
    ('-' :: (paddedDigits 2 d.month ++ ('-' :: (paddedDigits 2 d.day ++ [])))) := by
  have year : yearText d.year = paddedDigits 4 d.year.natAbs := by
    rw [yearText, if_pos]
    rw [Bool.and_eq_true, decide_eq_true_eq, decide_eq_true_eq]
    exact h
  rw [text, year, List.append_assoc, List.cons_append, List.append_nil]

theorem readYear_paddedDigits {n : Nat} (hn : n < 10000) (rest : List Char) :
    readYear (paddedDigits 4 n ++ rest) = some ((n : Int), rest) := by
  have four : (4 : Nat) ≠ 0 := by decide
  have read := readField_paddedDigits four hn rest
  obtain ⟨c, cs, he, digit⟩ := exists_cons_paddedDigits four hn rest
  rw [he] at read ⊢
  unfold readYear
  split
  · exact absurd digit (by simp_all)
  · exact absurd digit (by simp_all)
  · rw [read]
    rfl

theorem readHyphen_paddedDigits {n : Nat} (hn : n < 100) (rest : List Char) :
    readHyphen ('-' :: (paddedDigits 2 n ++ rest)) = some (paddedDigits 2 n ++ rest) := by
  have hyphen : Text.isBlank '-' = false := by decide
  have left (cs : List Char) : Text.trimLeft ('-' :: cs) = '-' :: cs := by
    rw [Text.trimLeft, List.dropWhile_cons, hyphen]
    rfl
  rw [readHyphen, left]
  exact congrArg some (trimLeft_paddedDigits (by decide) hn rest)

theorem FourDigits.ofText?_text (h : d.FourDigits) : ofText? d.text = some d := by
  obtain ⟨low, high⟩ := h
  have year : d.year.natAbs < 10000 := by omega
  have same : (d.year.natAbs : Int) = d.year := Int.natAbs_of_nonneg low
  obtain ⟨month, day⟩ := d.lt_hundred
  have two : (2 : Nat) ≠ 0 := by decide
  rw [FourDigits.text_eq ⟨low, high⟩, ofText?, trimLeft_paddedDigits (by decide) year,
    readYear_paddedDigits year]
  simp only [Option.bind_eq_bind, Option.bind_some, readHyphen_paddedDigits month,
    readField_paddedDigits two month, readHyphen_paddedDigits day, readField_paddedDigits two day]
  rw [same, d.ofParts?_eq]
  rfl

end Date

namespace Instant

theorem readFraction_point {ds : List Char} (hd : ∀ c ∈ ds, c.isDigit) (hs : ds ≠ [])
    (short : ds.length ≤ 9) {c : Char} (hc : c.isDigit = false) (rest : List Char) :
    readFraction ('.' :: (ds ++ c :: rest)) =
      some (digitsValue ds * 10 ^ (9 - ds.length), c :: rest) := by
  have taken : (ds ++ c :: rest).takeWhile Char.isDigit = ds := by
    rw [List.takeWhile_append_of_pos hd, List.takeWhile_cons, hc]
    exact List.append_nil ds
  rw [readFraction, taken, List.take_of_length_le short, List.drop_left]
  exact if_neg (by rwa [List.isEmpty_iff])

/-- Nanoseconds are read from 3, 6 or 9 digits, or from nothing. -/
theorem readFraction_fractionText {nano : Nat} (hn : nano < 1000000000) {c : Char}
    (hc : c.isDigit = false) (point : c ≠ '.') (rest : List Char) :
    readFraction (fractionText nano ++ c :: rest) = some (nano, c :: rest) := by
  have places {width n : Nat} (hw : width ≠ 0) (short : width ≤ 9) (small : n < 10 ^ width) :
      readFraction ('.' :: (paddedDigits width n ++ c :: rest)) =
        some (n * 10 ^ (9 - width), c :: rest) := by
    have length := length_paddedDigits hw small
    have some : paddedDigits width n ≠ [] := fun he => hw (by rw [← length, he, List.length_nil])
    rw [readFraction_point (isDigit_paddedDigits hw n) some (by rwa [length]) hc, length,
      digitsValue_paddedDigits hw small]
  rw [fractionText]
  split_ifs with none thousand million
  · subst none
    rw [List.nil_append]
    unfold readFraction
    split
    · rename_i he
      exact absurd (List.cons.inj he).1 point
    · rfl
  · rw [List.cons_append, places (by decide) (by decide) (by omega)]
    congr 2
    omega
  · rw [List.cons_append, places (by decide) (by decide) (by omega)]
    congr 2
    omega
  · rw [List.cons_append, places (by decide) (by decide) hn, Nat.sub_self, Nat.pow_zero,
      Nat.mul_one]

/-- A date of four digits for its year, and no leap second. -/
structure Regular (t : Instant) : Prop where
  year : t.date.FourDigits
  steady : t.nano < 1000000000

theorem readMark_cons (mark : Char) (rest : List Char) :
    readMark mark (mark :: rest) = some rest := if_pos rfl

variable {t : Instant}

theorem Regular.text_eq (h : t.Regular) : t.text "+00:00" =
    paddedDigits 4 t.date.year.natAbs ++ ('-' :: (paddedDigits 2 t.date.month ++
      ('-' :: (paddedDigits 2 t.date.day ++ ('T' :: (paddedDigits 2 (t.second / 3600) ++
      (':' :: (paddedDigits 2 (t.second / 60 % 60) ++ (':' :: (paddedDigits 2 (t.second % 60) ++
      (fractionText t.nano ++ "+00:00".toList))))))))))) := by
  have steady : ¬ 1000000000 ≤ t.nano := Nat.not_le.mpr h.steady
  rw [text, h.year.text_eq]
  simp only [steady, if_false, Nat.add_zero, List.append_assoc, List.cons_append, List.nil_append]

theorem Regular.ofText?_text (h : t.Regular) : ofText? (t.text "+00:00") = some t := by
  have year : t.date.year.natAbs < 10000 := by
    have high := h.year.2
    have low := h.year.1
    omega
  have same : (t.date.year.natAbs : Int) = t.date.year := Int.natAbs_of_nonneg h.year.1
  obtain ⟨month, day⟩ := t.date.lt_hundred
  have second := t.second_lt
  have hours : t.second / 3600 < 24 := by omega
  have minutes : t.second / 60 % 60 < 60 := by omega
  have seconds : t.second % 60 < 60 := by omega
  obtain ⟨tail, zone, offset⟩ : ∃ tail, "+00:00".toList = '+' :: tail ∧
      readOffset ('+' :: tail) = some (0, []) := ⟨"00:00".toList, by decide, by decide⟩
  have fraction := readFraction_fractionText h.steady (c := '+') (by decide) (by decide) tail
  have two {n : Nat} (hn : n < 100) (rest : List Char) :
      readDigitField 2 (paddedDigits 2 n ++ rest) = some (n, rest) :=
    readDigitField_paddedDigits (by decide) hn rest
  -- the fields one after the other, each with what follows it
  have next {α : Type} {x : Option α} {f : α → Option Instant} {a : α} (hx : x = some a)
      (hf : f a = some t) : x.bind f = some t := Option.bind_eq_some_iff.mpr ⟨a, hx, hf⟩
  rw [h.text_eq, ofText?, zone]
  refine next (readDigitField_paddedDigits (by decide) year _) ?_
  refine next (readMark_cons _ _) (next (two month _) ?_)
  refine next (readMark_cons _ _) (next (two day _) ?_)
  refine (if_pos rfl).trans (next rfl (next (two (by omega) _) ?_))
  refine next (readMark_cons _ _) (next (two (by omega) _) ?_)
  refine next (readMark_cons _ _) (next (two (by omega) _) ?_)
  refine next fraction (next offset (next (by rw [same, t.date.ofParts?_eq]) ?_))
  have steady : ¬ t.second % 60 = 60 := by omega
  have wall : t.date.dayNumber * 86400 + ((t.second / 3600 * 3600 + t.second / 60 % 60 * 60 +
      t.second % 60 : Nat) : Int) - 0 = t.unixSeconds := by
    unfold unixSeconds
    omega
  have inside : (([] : List Char).isEmpty && decide (t.second / 3600 < 24) &&
      decide (t.second / 60 % 60 < 60) && decide (t.second % 60 ≤ 60)) = true := by
    simp only [List.isEmpty_nil, hours, minutes, seconds.le, decide_true, Bool.and_self]
  dsimp only
  rw [if_pos inside, if_neg steady, if_neg steady, wall]
  exact t.ofUnix?_unixSeconds

end Instant

end SqlClient.Calendar
