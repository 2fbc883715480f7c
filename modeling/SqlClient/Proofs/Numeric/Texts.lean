import SqlClient.Proofs.Wire.Writers
/-!
# Texts sent as numerics

A text is sent as a numeric just if it spells a special value, or a literal of the grammar for whose
digits there is room: at most 131072 before the point and 16383 after it. Within these limits every
word of the header fits. What is refused is refused before anything is written, and what is sent is
read back as the canonical text of the same number.
-/
namespace SqlClient

open SqlClient.Number SqlClient.Wire

namespace Numeric

/-- A literal that a numeric has room for once its exponent is carried out: `point` digits stand
before the point then, or as many zeros behind it if that is negative, and `places` digits behind
it. -/
structure Literal.WithinLimits (l : Literal) : Prop where
  low : -16383 ≤ l.point
  high : l.point ≤ 131072
  places : l.places ≤ 16383

/-- The texts of numerics: a special value in letters of either case, or a literal. -/
inductive Accepted (cs : List Char) : Prop where
  | special : cs.map Char.toLower ∈ specialWords → Accepted cs
  | literal (l : Literal) : l.Spells cs → l.WithinLimits → Accepted cs

/-- What a writer of texts has appended is the numeric that the text was read as. -/
theorem sent_of_run {cs : List Char} {out b : Bytes}
    (h : (writeNumericText cs).run out = (.ok .bytes, b)) :
    ∃ n, ofText cs = .ok n ∧ b = out ++ n.bytes := by
  rw [writeNumericText_eq] at h
  cases accepted : ofText cs with
  | error fault =>
    rw [accepted] at h
    cases h
  | ok n =>
    rw [accepted] at h
    cases h
    exact ⟨n, rfl, rfl⟩

section Reading

variable {cs : List Char} {l : Literal}

theorem isSome_special?_iff : (special? cs).isSome ↔ cs.map Char.toLower ∈ specialWords := by
  constructor
  · intro h
    by_contra plain
    rw [special?_eq_none plain] at h
    cases h
  · intro h
    rcases List.mem_cons.mp h with h | h
    · rw [special?_nan h]
      rfl
    · rcases List.mem_append.mp h with h | h
      · rw [special?_infinity h]
        rfl
      · rw [special?_negativeInfinity h]
        rfl

/-- The least point needs no check of its own: zeros behind the point count as places. -/
theorem Literal.withinLimits_iff : l.WithinLimits ↔
    l.movedDigits.1.length ≤ maxWholeDigits ∧ l.movedDigits.2.length ≤ maxScale := by
  obtain ⟨whole, fraction⟩ := l.length_movedDigits
  rw [whole, fraction, maxWholeDigits, maxScale]
  constructor
  · rintro ⟨-, high, places⟩
    exact ⟨by omega, places⟩
  · rintro ⟨high, places⟩
    refine ⟨?_, by omega, places⟩
    rw [Literal.places] at places
    rw [point]
    omega

/-- A literal within the limits passes every check. -/
theorem ofTrimmed_literal (hs : special? cs = none) (hl : l.Spells cs) (hr : l.WithinLimits) :
    ofTrimmed cs = .ok (ofDigits l.negative l.movedDigits.1 l.movedDigits.2) := by
  have taken := Literal.ofText?_eq_some_iff.mpr hl
  have limit : int64Limit = 9223372036854775808 := by decide
  have low := hr.low
  have high := hr.high
  have representable : ¬ (int64Limit : Int) ≤ l.point := by omega
  have inside : ¬ (decide ((maxWholeDigits : Int) < l.point) ||
      decide (l.point < -(maxScale : Int))) = true := by
    rw [Bool.or_eq_true, decide_eq_true_eq, decide_eq_true_eq, maxWholeDigits, maxScale]
    omega
  have room : ¬ maxScale < l.movedDigits.2.length :=
    Nat.not_lt.mpr (Literal.withinLimits_iff.mp hr).2
  rw [ofTrimmed, hs]
  simp only [taken, if_neg representable, if_neg inside, if_neg room]

theorem exists_ofTrimmed_iff : (∃ n, ofTrimmed cs = .ok n) ↔ Accepted cs := by
  constructor
  · rintro ⟨n, h⟩
    rcases ofTrimmed_eq_ok h with hs | ⟨l, hl, -, room⟩
    · refine .special (isSome_special?_iff.mp ?_)
      rw [hs]
      rfl
    · exact .literal l hl (Literal.withinLimits_iff.mpr room)
  · intro h
    cases hs : special? cs with
    | some v => exact ⟨v, by rw [ofTrimmed, hs]⟩
    | none =>
      cases h with
      | special word =>
        rw [← isSome_special?_iff, hs] at word
        cases word
      | literal l hl hr => exact ⟨_, ofTrimmed_literal hs hl hr⟩

end Reading

/-- What is sent for an accepted text is read back as one of the special values when the text
spells it, and otherwise as the canonical text of the number that the literal stands for. -/
theorem text_readBack {cs : List Char} {out b : Bytes}
    (h : (writeNumericText cs).run out = (.ok .bytes, b)) :
    let word := (Text.trim cs).map Char.toLower
    ∃ raw, b = out ++ raw ∧
      let readBack := (ofBytes raw).map text
      (word = "nan".toList → readBack = .ok "NaN".toList) ∧
      (word ∈ infinityWords → readBack = .ok "Infinity".toList) ∧
      (word ∈ negativeInfinityWords → readBack = .ok "-Infinity".toList) ∧
      (word ∉ specialWords → (∃ l : Literal, l.Spells (Text.trim cs)) ∧
        ∀ l : Literal, l.Spells (Text.trim cs) →
          readBack = .ok l.canonical ∧ (l.units : ℚ) = l.magnitude * 10 ^ l.places) := by
  intro word
  obtain ⟨n, accepted, rfl⟩ := sent_of_run h
  refine ⟨n.bytes, rfl, ?_⟩
  intro readBack
  have read : readBack = .ok n.text := by
    change (ofBytes n.bytes).map text = _
    rw [ofBytes_bytes (sendable_ofTrimmed accepted)]
    rfl
  rw [read]
  refine ⟨fun hw => ?_, fun hw => ?_, fun hw => ?_, fun hw => ?_⟩
  · rw [ofTrimmed_of_special accepted (special?_nan hw)]
    rfl
  · rw [ofTrimmed_of_special accepted (special?_infinity hw)]
    rfl
  · rw [ofTrimmed_of_special accepted (special?_negativeInfinity hw)]
    rfl
  · rcases ofTrimmed_eq_ok accepted with hs | ⟨l, hl, hn, -⟩
    · rw [special?_eq_none hw] at hs
      cases hs
    · refine ⟨⟨l, hl⟩, fun l' hl' => ?_⟩
      -- the text is taken apart in one way only
      have same := (Literal.ofText?_eq_some_iff.mpr hl).symm.trans
        (Literal.ofText?_eq_some_iff.mpr hl')
      obtain rfl := Option.some.inj same
      obtain ⟨-, -, -, -, -, -, -, hd, -⟩ := hl
      exact ⟨by rw [hn, Literal.text_movedDigits hd], l.units_eq⟩

/-- A point moved to the left of all digits, and zeros at both ends; the buffer held a byte. -/
theorem text_readBack_shifted :
    ∃ raw, (writeNumericText " -0012.5000e-4 ".toList).run [7] = (.ok .bytes, [7] ++ raw) ∧
      (ofBytes raw).map text = .ok "-0.00125000".toList := by
  have sent : (writeNumericText " -0012.5000e-4 ".toList).run [7] =
      (.ok .bytes, [7] ++ bytes (.finite true (-1) 8 [12, 5000])) := rfl
  have spelled : (⟨true, "0012".toList, "5000".toList, -4⟩ : Literal).Spells
      (Text.trim " -0012.5000e-4 ".toList) := Literal.ofText?_eq_some_iff.mp rfl
  have plain : (Text.trim " -0012.5000e-4 ".toList).map Char.toLower ∉ specialWords := by decide
  obtain ⟨raw, appended, -, -, -, read⟩ := text_readBack sent
  refine ⟨raw, sent.trans (by rw [appended]), ?_⟩
  exact ((read plain).2 _ spelled).1.trans (by decide)

end Numeric

namespace Wire

open Writer

/-- Exactly the texts of numerics are sent. All words of the header fit then, and eight bytes and
two for each group are appended; a text that is none leaves the buffer as it was, and is refused for
what it spells, never for a word that does not fit. -/
theorem numeric_text_sent (cs : List Char) (out : Bytes) :
    ((∃ b, (writeNumericText cs).run out = (.ok .bytes, b)) ↔ Numeric.Accepted (Text.trim cs)) ∧
    (∀ r b, (writeNumericText cs).run out = (.ok r, b) → ∃ h : Numeric.Header, h.Fits ∧
      h.count = h.groups.length ∧ (∀ g ∈ h.groups, g < 10000) ∧ b = out ++ h.bytes ∧
      h.bytes.length = 8 + 2 * h.groups.length) ∧
    (∀ e b, (writeNumericText cs).run out = (.error e, b) →
      b = out ∧ ∃ fault, e = .literal fault) := by
  have accepted : (∃ n, Numeric.ofText cs = .ok n) ↔ Numeric.Accepted (Text.trim cs) :=
    Numeric.exists_ofTrimmed_iff
  rw [writeNumericText_eq, ← accepted]
  cases h : Numeric.ofText cs with
  | error fault =>
    refine ⟨⟨nofun, nofun⟩, nofun, ?_⟩
    rintro _ _ ⟨⟩
    exact ⟨rfl, fault, rfl⟩
  | ok n =>
    refine ⟨⟨fun _ => ⟨n, rfl⟩, fun _ => ⟨_, rfl⟩⟩, ?_, nofun⟩
    rintro _ _ ⟨⟩
    have sendable := Numeric.sendable_ofTrimmed h
    refine ⟨n.toHeader, sendable.fits, ?_, ?_, rfl, Numeric.Header.length_bytes _⟩
    · cases n <;> rfl
    · cases n with
      | finite negative weight scale groups => exact sendable.2.2.2.2
      | nan => exact List.forall_mem_nil _
      | infinity negative => exact List.forall_mem_nil _

/-- The largest power of ten is sent behind what the buffer held, and the next one is refused. -/
theorem numeric_text_sent_limit :
    (∃ b, (writeNumericText " +1E131071\n".toList).run [7] = (.ok .bytes, b)) ∧
      ¬ ∃ b, (writeNumericText "1e131072".toList).run [7] = (.ok .bytes, b) := by
  constructor
  · refine (numeric_text_sent _ [7]).1.mpr (.literal ⟨false, ['1'], [], 131071⟩ ?_ ?_)
    · exact Numeric.Literal.ofText?_eq_some_iff.mp rfl
    · exact ⟨by decide, by decide, by decide⟩
  · rw [(numeric_text_sent _ [7]).1]
    rintro (word | ⟨l, hl, within⟩)
    · exact absurd word (by decide)
    · have taken : Numeric.Literal.ofText? (Text.trim "1e131072".toList) =
          some ⟨false, ['1'], [], 131072⟩ := rfl
      obtain rfl := Option.some.inj ((Numeric.Literal.ofText?_eq_some_iff.mpr hl).symm.trans taken)
      exact absurd within.high (by decide)

end Wire

end SqlClient
