import Mathlib.Tactic.IntervalCases
import SqlClient.Calendar
import SqlClient.Proofs.Number.Digits
/-!
# Days by number

A day is found again by its number, and an instant by its seconds and nanoseconds. Years count from
March here, in blocks of 400; the centuries `c`, the spans of four years `q` and the years `r` of a
block are taken apart. Every day but the last has a next one, so a time that is counted on by up to
a day's length is found there; past the last day is only the leap second at its end.
-/
namespace SqlClient.Calendar

open SqlClient.Number

section Block

variable {c q r doy : Int} (hc : 0 ≤ c ∧ c ≤ 3) (hq : 0 ≤ q ∧ q ≤ 24) (hr : 0 ≤ r ∧ r ≤ 3)
  (hd : 0 ≤ doy) (hl : doy ≤ 364 ∨ doy = 365 ∧ r = 3 ∧ (q ≠ 24 ∨ c = 3))

include hc hq hr hd hl

/-- The last day of a block would be the first of a fifth century. -/
theorem century_of_day : (36524 * c + 1461 * q + 365 * r + doy) / 36524 -
    (36524 * c + 1461 * q + 365 * r + doy) / 146096 = c := by
  by_cases last : 36524 ≤ 1461 * q + 365 * r + doy
  · have block : c = 3 := by omega
    have day : 1461 * q + 365 * r + doy = 36524 := by omega
    omega
  · omega

theorem year_of_day : (36524 * c + 1461 * q + 365 * r + doy -
    (36524 * c + 1461 * q + 365 * r + doy) / 1460 +
    (36524 * c + 1461 * q + 365 * r + doy) / 36524 -
    (36524 * c + 1461 * q + 365 * r + doy) / 146096) / 365 = 100 * c + 4 * q + r := by
  have century := century_of_day hc hq hr hd hl
  by_cases late : 1460 ≤ 24 * c + q + 365 * r + doy
  · have spans : (36524 * c + 1461 * q + 365 * r + doy) / 1460 = 25 * c + q + 1 := by omega
    omega
  · have spans : (36524 * c + 1461 * q + 365 * r + doy) / 1460 = 25 * c + q := by omega
    omega

end Block

namespace Date

variable (d : Date)

def marchYear : Int := if d.month ≤ 2 then d.year - 1 else d.year

def marchMonth : Int := (d.month + 9) % 12

def marchDay : Int := (153 * d.marchMonth + 2) / 5 + d.day - 1

theorem dayNumber_eq : d.dayNumber = d.marchYear / 400 * 146097 + (d.marchYear % 400 * 365 +
    d.marchYear % 400 / 4 - d.marchYear % 400 / 100 + d.marchDay) - 719468 := rfl

/-- The first of the months from March that a day of a year can lie in. -/
theorem marchMonth_of_marchDay : (5 * d.marchDay + 2) / 153 = d.marchMonth := by
  obtain ⟨year, month, day, -, -, hm₁, hm₂, hd₁, hd₂⟩ := d
  unfold marchDay marchMonth
  dsimp only
  interval_cases month <;> simp [daysInMonth] at hd₂ ⊢ <;> (try split at hd₂) <;> omega

/-- Only a leap year has a day 365. -/
theorem marchDay_bounds : 0 ≤ d.marchDay ∧
    (d.marchDay ≤ 364 ∨ d.marchDay = 365 ∧ isLeapYear (d.marchYear + 1) = true) := by
  obtain ⟨year, month, day, -, -, hm₁, hm₂, hd₁, hd₂⟩ := d
  unfold marchDay marchMonth marchYear
  dsimp only
  by_cases hf : month = 2
  · subst hf
    rw [if_pos (by decide), Int.sub_add_cancel]
    rw [daysInMonth, if_pos rfl] at hd₂
    cases hl : isLeapYear year
    · rw [hl, if_neg Bool.false_ne_true] at hd₂
      omega
    · rw [hl, if_pos rfl] at hd₂
      simp only [and_true]
      omega
  · rw [daysInMonth, if_neg hf] at hd₂
    interval_cases month <;> simp at hd₂ hf <;> omega

theorem isLeapYear_iff {y : Int} :
    isLeapYear y = true ↔ y % 4 = 0 ∧ (y % 100 ≠ 0 ∨ y % 400 = 0) := by
  simp [isLeapYear]

/-- The block of a day, and the year in it. -/
theorem block_of_dayNumber {z : Int} (hz : z = d.dayNumber + 719468) :
    z / 146097 = d.marchYear / 400 ∧
      (z % 146097 - z % 146097 / 1460 + z % 146097 / 36524 - z % 146097 / 146096) / 365 =
        d.marchYear % 400 ∧
      z % 146097 = d.marchYear % 400 * 365 + d.marchYear % 400 / 4 - d.marchYear % 400 / 100 +
        d.marchDay := by
  obtain ⟨hd, hl⟩ := d.marchDay_bounds
  rw [isLeapYear_iff] at hl
  rw [dayNumber_eq] at hz
  generalize d.marchYear = y at hz hl
  generalize d.marchDay = doy at hz hd hl
  -- years of the block, from the leap days that they bring
  obtain ⟨c, q, r, hy, hc, hq, hr⟩ : ∃ c q r, y % 400 = 100 * c + 4 * q + r ∧
      (0 ≤ c ∧ c ≤ 3) ∧ (0 ≤ q ∧ q ≤ 24) ∧ (0 ≤ r ∧ r ≤ 3) :=
    ⟨y % 400 / 100, y % 400 % 100 / 4, y % 4, by omega, by omega, by omega, by omega⟩
  have last : doy ≤ 364 ∨ doy = 365 ∧ r = 3 ∧ (q ≠ 24 ∨ c = 3) := by omega
  have days : y % 400 * 365 + y % 400 / 4 - y % 400 / 100 + doy =
      36524 * c + 1461 * q + 365 * r + doy := by omega
  have year := year_of_day hc hq hr hd last
  rw [days] at hz ⊢
  have block : z / 146097 = y / 400 := by omega
  have rest : z % 146097 = 36524 * c + 1461 * q + 365 * r + doy := by omega
  rw [rest, year, hy]
  exact ⟨block, rfl, rfl⟩

theorem ofParts?_eq : ofParts? d.year d.month d.day = some d :=
  dif_pos ⟨d.year_ge, d.year_le, d.month_pos, d.month_le, d.day_pos, d.day_le⟩

/-- A day is found again by its number. -/
theorem ofDayNumber?_dayNumber : ofDayNumber? d.dayNumber = some d := by
  obtain ⟨block, year, days⟩ := d.block_of_dayNumber rfl
  have month := d.marchMonth_of_marchDay
  have marchDay : d.marchDay = (153 * d.marchMonth + 2) / 5 + d.day - 1 := rfl
  have marchMonth : d.marchMonth = (d.month + 9) % 12 := rfl
  have marchYear : d.marchYear = if d.month ≤ 2 then d.year - 1 else d.year := rfl
  have hm₁ := d.month_pos
  have hm₂ := d.month_le
  have doy : d.marchYear % 400 * 365 + d.marchYear % 400 / 4 - d.marchYear % 400 / 100 +
      d.marchDay - (365 * (d.marchYear % 400) + d.marchYear % 400 / 4 -
        d.marchYear % 400 / 100) = d.marchDay := by omega
  have sameMonth : (if d.marchMonth < 10 then d.marchMonth + 3 else d.marchMonth - 9) =
      d.month := by omega
  have sameYear : d.marchYear % 400 + d.marchYear / 400 * 400 +
      (if (d.month : Int) ≤ 2 then 1 else 0) = d.year := by omega
  have sameDay : d.marchDay - (153 * d.marchMonth + 2) / 5 + 1 = d.day := by omega
  rw [← d.ofParts?_eq, ofDayNumber?, year, block, days, doy, month, sameMonth, sameYear, sameDay,
    Int.toNat_natCast, Int.toNat_natCast]

end Date

namespace Instant

variable (t : Instant)

theorem ofParts?_eq : ofParts? t.date t.second t.nano = some t :=
  dif_pos ⟨t.second_lt, t.nano_lt⟩

/-- An instant is found again by its seconds and nanoseconds. -/
theorem ofUnix?_unixSeconds : ofUnix? t.unixSeconds t.nano = some t := by
  have second := t.second_lt
  have day : t.unixSeconds / 86400 = t.date.dayNumber := by
    unfold unixSeconds
    omega
  have rest : (t.unixSeconds % 86400).toNat = t.second := by
    unfold unixSeconds
    omega
  rw [ofUnix?, day, rest, Date.ofDayNumber?_dayNumber]
  exact t.ofParts?_eq

end Instant

namespace Date

variable {d : Date}

def last : Date := (ofParts? greatestYear 12 31).get (by decide)

/-- The months from March start after the days of the ones before. -/
theorem monthStart (year : Int) {month : Nat} (hm₁ : 1 ≤ month) (hm₂ : month < 12)
    (hf : month ≠ 2) : (153 * (((month + 1 : Nat) + 9 : Int) % 12) + 2) / 5 =
      (153 * ((month + 9 : Int) % 12) + 2) / 5 + daysInMonth year month := by
  rw [daysInMonth, if_neg hf]
  interval_cases month <;> simp at hf ⊢

theorem exists_next (h : d ≠ last) : ∃ d' : Date, d'.dayNumber = d.dayNumber + 1 := by
  obtain ⟨year, month, day, hy₁, hy₂, hm₁, hm₂, hd₁, hd₂⟩ := d
  by_cases more : day < daysInMonth year month
  · refine ⟨⟨year, month, day + 1, hy₁, hy₂, hm₁, hm₂, by omega, more⟩, ?_⟩
    unfold dayNumber
    dsimp only
    omega
  · have whole : day = daysInMonth year month := Nat.le_antisymm hd₂ (not_lt.mp more)
    by_cases december : month = 12
    · subst december
      obtain rfl : day = 31 := whole
      have before : year + 1 ≤ greatestYear := by
        rcases hy₂.lt_or_eq with hlt | rfl
        · exact hlt
        · exact absurd rfl h
      have january : 1 ≤ daysInMonth (year + 1) 1 := Nat.succ_le_of_lt (by decide : 0 < 31)
      refine ⟨⟨year + 1, 1, 1, by omega, before, by decide, by decide, by decide, january⟩, ?_⟩
      unfold dayNumber
      dsimp only
      omega
    · have length : 1 ≤ daysInMonth year (month + 1) := by
        unfold daysInMonth
        split_ifs <;> decide
      refine ⟨⟨year, month + 1, 1, hy₁, hy₂, by omega, by omega, by decide, length⟩, ?_⟩
      unfold dayNumber
      dsimp only
      by_cases february : month = 2
      · -- whether there is a leap day depends on the year
        subst february
        rw [daysInMonth, if_pos rfl] at whole
        have leap := @isLeapYear_iff year
        cases hl : isLeapYear year
        · rw [hl] at leap whole
          simp only [Bool.false_eq_true, false_iff, if_false] at leap whole
          omega
        · rw [hl] at leap whole
          simp only [true_iff, if_true] at leap whole
          omega
      · have start := monthStart year hm₁ (by omega) february
        omega

theorem year_of_ofParts? {year : Int} {month day : Nat} (h : ofParts? year month day = some d) :
    d.year = year := by
  unfold ofParts? at h
  split at h
  · cases h
    rfl
  · cases h

/-- What a day number is read as has no later a year than its block. -/
theorem year_le_of_ofDayNumber? {n : Int} (h : ofDayNumber? n = some d) :
    d.year ≤ (n + 719468) / 146097 * 400 + 401 := by
  unfold ofDayNumber? at h
  rw [year_of_ofParts? h]
  split <;> omega

theorem dayNumber_le (d : Date) : d.dayNumber ≤ (d.year + 400) / 400 * 146097 := by
  obtain ⟨-, high⟩ := d.marchDay_bounds
  have year : d.marchYear ≤ d.year := by
    unfold marchYear
    split <;> omega
  have day : d.marchDay ≤ 365 := by omega
  rw [dayNumber_eq]
  omega

theorem le_dayNumber (d : Date) : (d.year - 1) / 400 * 146097 - 719468 ≤ d.dayNumber := by
  obtain ⟨low, -⟩ := d.marchDay_bounds
  have year : d.year - 1 ≤ d.marchYear := by
    unfold marchYear
    split <;> omega
  rw [dayNumber_eq]
  omega

end Date

namespace Instant

variable {t : Instant}

/-- The leap second after the last second of the calendar, which runs into a day that there is
not. -/
def PastEnd (t : Instant) : Prop :=
  t.date = Date.last ∧ t.second = 86399 ∧ 1000000000 ≤ t.nano

instance : Decidable t.PastEnd := inferInstanceAs (Decidable (_ ∧ _ ∧ _))

theorem ofUnix?_isSome {seconds : Int} {nano : Nat} {d : Date}
    (hd : d.dayNumber = seconds / 86400) (hn : nano < 2000000000) :
    (ofUnix? seconds nano).isSome := by
  have second : (seconds % 86400).toNat < 86400 := by omega
  rw [ofUnix?, ← hd, Date.ofDayNumber?_dayNumber]
  change (ofParts? d (seconds % 86400).toNat nano).isSome
  rw [ofParts?, dif_pos ⟨second, hn⟩]
  rfl

/-- There is a day for every second up to two later, and on the last day for every one up to the
next when that is still on it. -/
theorem exists_day {seconds : Int} (hl : t.unixSeconds ≤ seconds) (hu : seconds ≤ t.unixSeconds + 2)
    (he : t.date = Date.last → seconds / 86400 = Date.last.dayNumber) :
    ∃ d : Date, d.dayNumber = seconds / 86400 := by
  have second := t.second_lt
  by_cases last : t.date = Date.last
  · exact ⟨Date.last, (he last).symm⟩
  · obtain ⟨next, hn⟩ := Date.exists_next last
    unfold unixSeconds at hl hu
    by_cases same : seconds / 86400 = t.date.dayNumber
    · exact ⟨t.date, same.symm⟩
    · exact ⟨next, by omega⟩

theorem year_of_ofUnix? {seconds : Int} {nano : Nat} (h : ofUnix? seconds nano = some t) :
    t.date.year ≤ (seconds / 86400 + 719468) / 146097 * 400 + 401 := by
  rw [ofUnix?, Option.bind_eq_some_iff] at h
  obtain ⟨date, day, parts⟩ := h
  unfold ofParts? at parts
  split at parts
  · cases parts
    exact Date.year_le_of_ofDayNumber? day
  · cases parts

theorem readDigitField_lt {width n : Nat} {cs rest : List Char}
    (h : readDigitField width cs = some (n, rest)) : n < 10 ^ width := by
  unfold readDigitField at h
  dsimp only at h
  split at h
  · rename_i digits
    rw [Bool.and_eq_true, decide_eq_true_eq, List.all_eq_true] at digits
    cases h
    have bound := digitsValue_lt digits.2
    rwa [digits.1] at bound
  · cases h

theorem neg_le_of_readOffset {cs rest : List Char} {offset : Int}
    (h : readOffset cs = some (offset, rest)) : -86400 ≤ offset := by
  cases cs with
  | nil => cases h
  | cons c cs =>
    rw [readOffset] at h
    split at h
    · cases h
      decide
    · -- a plus or a minus, and then the same fields
      split at h
      on_goal 2 => split at h
      on_goal 3 => cases h
      all_goals
        obtain ⟨negative, -, h⟩ := Option.bind_eq_some_iff.mp h
        obtain ⟨⟨hours, cs₁⟩, -, h⟩ := Option.bind_eq_some_iff.mp h
        obtain ⟨cs₂, -, h⟩ := Option.bind_eq_some_iff.mp h
        obtain ⟨⟨minutes, cs₃⟩, -, h⟩ := Option.bind_eq_some_iff.mp h
        dsimp only at h
        split at h
        case isFalse => cases h
        rename_i within
        rw [Bool.and_eq_true, decide_eq_true_eq, decide_eq_true_eq] at within
        cases h
        split <;> omega

/-- What a text is read as: a day of a year of four digits, and at most two days from there. -/
theorem fields_of_ofText? {cs : List Char} (h : ofText? cs = some t) :
    ∃ (date : Date) (seconds : Int) (nano : Nat), date.year < 10000 ∧
      seconds ≤ date.dayNumber * 86400 + 2 * 86400 ∧ ofUnix? seconds nano = some t := by
  unfold ofText? at h
  obtain ⟨⟨year, cs₁⟩, hyear, h⟩ := Option.bind_eq_some_iff.mp h
  obtain ⟨cs₂, -, h⟩ := Option.bind_eq_some_iff.mp h
  obtain ⟨⟨month, cs₃⟩, -, h⟩ := Option.bind_eq_some_iff.mp h
  obtain ⟨cs₄, -, h⟩ := Option.bind_eq_some_iff.mp h
  obtain ⟨⟨day, cs₅⟩, -, h⟩ := Option.bind_eq_some_iff.mp h
  dsimp only at h
  split at h
  case h_2 => cases h
  split at h
  case isFalse => cases h
  obtain ⟨cs₆, -, h⟩ := Option.bind_eq_some_iff.mp h
  obtain ⟨⟨hour, cs₇⟩, -, h⟩ := Option.bind_eq_some_iff.mp h
  obtain ⟨cs₈, -, h⟩ := Option.bind_eq_some_iff.mp h
  obtain ⟨⟨minute, cs₉⟩, -, h⟩ := Option.bind_eq_some_iff.mp h
  obtain ⟨cs₁₀, -, h⟩ := Option.bind_eq_some_iff.mp h
  obtain ⟨⟨second, cs₁₁⟩, -, h⟩ := Option.bind_eq_some_iff.mp h
  obtain ⟨⟨nano, cs₁₂⟩, -, h⟩ := Option.bind_eq_some_iff.mp h
  obtain ⟨⟨offset, cs₁₃⟩, hoffset, h⟩ := Option.bind_eq_some_iff.mp h
  obtain ⟨date, hdate, h⟩ := Option.bind_eq_some_iff.mp h
  dsimp only at h
  split at h
  case isFalse => cases h
  rename_i within
  simp only [Bool.and_eq_true, decide_eq_true_eq] at within
  have small := readDigitField_lt hyear
  have zone := neg_le_of_readOffset hoffset
  have wall : (if second = 60 then 59 else second) ≤ 60 := by
    split <;> omega
  refine ⟨date, _, _, ?_, ?_, h⟩
  · rw [Date.year_of_ofParts? hdate]
    omega
  · omega

/-- Texts have years of four digits, so they stay away from the end. -/
theorem not_pastEnd_of_ofText? {cs : List Char} (h : ofText? cs = some t) : ¬ t.PastEnd := by
  obtain ⟨date, seconds, nano, year, near, read⟩ := fields_of_ofText? h
  have days := date.dayNumber_le
  have late := year_of_ofUnix? read
  have last : Date.last.year = 262142 := rfl
  rintro ⟨day, -⟩
  rw [day] at late
  omega

end Instant

end SqlClient.Calendar
