import Mathlib.Tactic.IntervalCases
import SqlClient.Connection.Options
import SqlClient.Proofs.Number.Digits
/-!
# Escapes that are read back

Decoding undoes every escape that encoding writes. Where the percent sign is reserved, it therefore
gives back the text. Where it is not, what looks like an escape in the text itself is undone too.
-/
namespace SqlClient.Percent

def isHex (c : Char) : Bool := (Text.hexValue? c).isSome

theorem hexValue?_upper (n : Nat) : Text.hexValue? (Text.hexDigit n).toUpper = some (n % 16) := by
  have all : ∀ d < 16, Text.hexValue? (Nat.digitChar d).toUpper = some d := by
    intro d hd
    interval_cases d <;> decide
  exact all (n % 16) (Nat.mod_lt n (by decide))

theorem isHex_upper (n : Nat) : isHex (Text.hexDigit n).toUpper := by
  rw [isHex, hexValue?_upper]
  rfl

theorem toNat_of_isHex {c : Char} (h : isHex c) : 48 ≤ c.toNat ∧ c.toNat ≤ 102 := by
  rw [isHex, Text.hexValue?] at h
  have between (low high : Char) (hc : (decide (low ≤ c) && decide (c ≤ high)) = true) :
      low.toNat ≤ c.toNat ∧ c.toNat ≤ high.toNat := by
    obtain ⟨hl, hh⟩ := Bool.and_eq_true_iff.mp hc
    exact ⟨of_decide_eq_true hl, of_decide_eq_true hh⟩
  split at h
  · rename_i digit
    have bounds := Number.toNat_of_isDigit digit
    omega
  · split at h
    · rename_i lower
      have bounds := between 'a' 'f' lower
      have limits : 'a'.toNat = 97 ∧ 'f'.toNat = 102 := by decide
      omega
    · split at h
      · rename_i upper
        have bounds := between 'A' 'F' upper
        have limits : 'A'.toNat = 65 ∧ 'F'.toNat = 70 := by decide
        omega
      · cases h

def plain (cs : List Char) : Bytes := cs.flatMap String.utf8EncodeChar

def hexFirst : List Char → Bool
  | [] => false
  | c :: _ => isHex c

def digitsFirst : List Char → Bool
  | [] => false
  | c :: cs => isHex c && hexFirst cs

/-- Somewhere in the text a percent sign stands before two hexadecimal digits. -/
def hasEscape : List Char → Bool
  | [] => false
  | c :: cs => c = '%' && digitsFirst cs || hasEscape cs

variable {c : Char} {cs : List Char}

theorem digitsFirst_iff :
    digitsFirst cs ↔ ∃ a b rest, cs = a :: b :: rest ∧ isHex a ∧ isHex b := by
  constructor
  · intro h
    match cs, h with
    | [a], h => cases (Bool.and_eq_true_iff.mp h).2
    | a :: b :: rest, h => exact ⟨a, b, rest, rfl, Bool.and_eq_true_iff.mp h⟩
  · rintro ⟨a, b, rest, rfl, ha, hb⟩
    exact Bool.and_eq_true_iff.mpr ⟨ha, hb⟩

theorem decode_escape {a b : Char} {hi lo : Nat} (ha : Text.hexValue? a = some hi)
    (hb : Text.hexValue? b = some lo) (rest : List Char) :
    decode ('%' :: a :: b :: rest) = UInt8.ofNat (hi * 16 + lo) :: decode rest := by
  rw [decode]
  simp only [ha, hb]

/-- A character that starts no escape stands for itself. -/
theorem decode_cons (h : ¬ (c = '%' ∧ digitsFirst cs)) :
    decode (c :: cs) = String.utf8EncodeChar c ++ decode cs := by
  by_cases hc : c = '%'
  · subst hc
    match cs with
    | [] => rfl
    | [a] => rfl
    | a :: b :: rest =>
      rw [decode]
      split
      · rename_i ha hb
        have both : isHex a ∧ isHex b :=
          ⟨Option.isSome_of_eq_some ha, Option.isSome_of_eq_some hb⟩
        exact absurd ⟨rfl, Bool.and_eq_true_iff.mpr both⟩ h
      · rfl
  · rw [decode]
    rintro a b rest rfl
    exact absurd rfl hc

/-- From the left, a text consists of escapes and of characters that start none. -/
@[elab_as_elim]
theorem escape_induction {motive : List Char → Prop} (cs : List Char) (nil : motive [])
    (escape : ∀ a b rest hi lo, Text.hexValue? a = some hi → Text.hexValue? b = some lo →
      motive rest → motive ('%' :: a :: b :: rest))
    (char : ∀ c cs, ¬ (c = '%' ∧ digitsFirst cs) → motive cs → motive (c :: cs)) : motive cs := by
  induction cs using decode.induct with
  | case1 => exact nil
  | case2 a b rest hi lo hb ha ih => exact escape a b rest hi lo ha hb ih
  | case3 a b rest h ih =>
    refine char '%' (a :: b :: rest) ?_ ih
    rintro ⟨-, both⟩
    obtain ⟨ha, hb⟩ := Bool.and_eq_true_iff.mp both
    obtain ⟨hi, ha⟩ := Option.isSome_iff_exists.mp ha
    obtain ⟨lo, hb⟩ := Option.isSome_iff_exists.mp hb
    exact h hi lo ha hb
  | case4 c rest h ih =>
    refine char c rest ?_ ih
    rintro ⟨hc, both⟩
    obtain ⟨a, b, after, hr, -⟩ := digitsFirst_iff.mp both
    exact h a b after hc hr

theorem length_plain_cons (c : Char) (cs : List Char) :
    (plain (c :: cs)).length = c.utf8Size + (plain cs).length := by
  rw [plain, List.flatMap_cons, List.length_append, String.length_utf8EncodeChar]
  rfl

/-- Decoding makes no text longer, and one with an escape shorter. -/
theorem length_decode (cs : List Char) : (decode cs).length ≤ (plain cs).length ∧
    (hasEscape cs → (decode cs).length < (plain cs).length) := by
  induction cs using escape_induction with
  | nil => exact ⟨le_rfl, nofun⟩
  | escape a b rest hi lo ha hb ih =>
    have shorter : (decode ('%' :: a :: b :: rest)).length <
        (plain ('%' :: a :: b :: rest)).length := by
      have first := a.utf8Size_pos
      have percent : Char.utf8Size '%' = 1 := by decide
      rw [decode_escape ha hb, length_plain_cons, length_plain_cons, length_plain_cons,
        List.length_cons]
      omega
    exact ⟨shorter.le, fun _ => shorter⟩
  | char c cs h ih =>
    rw [decode_cons h, length_plain_cons, List.length_append, String.length_utf8EncodeChar]
    refine ⟨Nat.add_le_add_left ih.1 _, ?_⟩
    intro escape
    rcases Bool.or_eq_true_iff.mp escape with here | later
    · have both := Bool.and_eq_true_iff.mp here
      exact absurd ⟨of_decide_eq_true both.1, both.2⟩ h
    · exact Nat.add_lt_add_left (ih.2 later) _

theorem decode_eq_plain (h : hasEscape cs = false) : decode cs = plain cs := by
  induction cs with
  | nil => rfl
  | cons c cs ih =>
    obtain ⟨here, later⟩ := Bool.or_eq_false_iff.mp h
    have none : ¬ (c = '%' ∧ digitsFirst cs) := by
      intro both
      rw [Bool.and_eq_false_iff] at here
      simp [both] at here
    rw [decode_cons none, ih later]
    rfl

theorem hasEscape_eq_false_of_not_mem (h : '%' ∉ cs) : hasEscape cs = false := by
  induction cs with
  | nil => rfl
  | cons c cs ih =>
    rw [List.mem_cons, not_or] at h
    have other : decide (c = '%') = false := decide_eq_false (Ne.symm h.1)
    rw [hasEscape, other, ih h.2]
    rfl

/-- A text without escapes, and no other, stands for itself. -/
theorem decode_eq_plain_iff : decode cs = plain cs ↔ hasEscape cs = false := by
  constructor
  · intro same
    rw [← Bool.not_eq_true]
    intro escape
    exact Nat.ne_of_lt ((length_decode cs).2 escape) (congrArg List.length same)
  · exact decode_eq_plain

theorem decode_encodeByte (b : UInt8) (rest : List Char) :
    decode (encodeByte b ++ rest) = b :: decode rest := by
  have byte := b.toNat_lt
  have value : UInt8.ofNat (b.toNat / 16 % 16 * 16 + b.toNat % 16) = b := by
    rw [show b.toNat / 16 % 16 * 16 + b.toNat % 16 = b.toNat by omega]
    exact UInt8.ofNat_toNat
  have undone := decode_escape (hexValue?_upper (b.toNat / 16)) (hexValue?_upper b.toNat) rest
  rw [value] at undone
  exact undone

theorem decode_encodeBytes (bytes : Bytes) (rest : List Char) :
    decode (bytes.flatMap encodeByte ++ rest) = bytes ++ decode rest := by
  induction bytes with
  | nil => rfl
  | cons b bytes ih =>
    rw [List.flatMap_cons, List.append_assoc, decode_encodeByte, ih]
    rfl

def escapes (reserved : String) (c : Char) : Bool := isControl c || reserved.toList.contains c

section Encode

variable {reserved : String}

theorem not_escapes_of_isHex (other : reserved.toList.any isHex = false) (h : isHex c) :
    ¬ escapes reserved c := by
  intro escaped
  rcases Bool.or_eq_true_iff.mp escaped with control | mem
  · have bounds := toNat_of_isHex h
    rw [isControl, Bool.or_eq_true, decide_eq_true_iff, decide_eq_true_iff] at control
    omega
  · exact List.any_eq_false.mp other c (List.contains_iff_mem.mp mem) h

theorem encode_cons_escaped (h : escapes reserved c) : encode reserved (c :: cs) =
    (String.utf8EncodeChar c).flatMap encodeByte ++ encode reserved cs := by
  rw [encode, List.flatMap_cons]
  exact congrArg (· ++ _) (if_pos h)

theorem encode_cons_kept (h : ¬ escapes reserved c) :
    encode reserved (c :: cs) = c :: encode reserved cs := by
  rw [encode, List.flatMap_cons]
  exact congrArg (· ++ _) (if_neg h)

theorem encode_eq_self (h : ∀ c ∈ cs, ¬ escapes reserved c) : encode reserved cs = cs := by
  induction cs with
  | nil => rfl
  | cons c cs ih =>
    rw [List.forall_mem_cons] at h
    rw [encode_cons_kept h.1, ih h.2]

/-- Nothing is lost where the percent sign itself is escaped. -/
theorem decode_encode_of_escapes (percent : escapes reserved '%') (cs : List Char) :
    decode (encode reserved cs) = plain cs := by
  induction cs with
  | nil => rfl
  | cons c cs ih =>
    by_cases h : escapes reserved c
    · rw [encode_cons_escaped h, decode_encodeBytes, ih]
      rfl
    · have start : ¬ (c = '%' ∧ digitsFirst (encode reserved cs)) := by
        rintro ⟨rfl, -⟩
        exact h percent
      rw [encode_cons_kept h, decode_cons start, ih]
      rfl

/-- No digits stand in front of an escape. -/
theorem encode_cons_escaped_front (h : escapes reserved c) (cs : List Char) :
    ∃ rest, encode reserved (c :: cs) = '%' :: rest := by
  rw [encode_cons_escaped h]
  have nonempty : String.utf8EncodeChar c ≠ [] := by
    rw [← List.length_pos_iff, String.length_utf8EncodeChar]
    exact c.utf8Size_pos
  obtain ⟨b, bytes, hb⟩ := List.exists_cons_of_ne_nil nonempty
  rw [hb]
  exact ⟨_, rfl⟩

theorem encode_ne_nil (h : cs ≠ []) : encode reserved cs ≠ [] := by
  obtain ⟨c, rest, rfl⟩ := List.exists_cons_of_ne_nil h
  by_cases hc : escapes reserved c
  · obtain ⟨after, ha⟩ := encode_cons_escaped_front hc rest
    rw [ha]
    exact List.cons_ne_nil _ _
  · rw [encode_cons_kept hc]
    exact List.cons_ne_nil _ _

variable (digits : ∀ c, isHex c → ¬ escapes reserved c)

include digits

theorem not_isHex_of_escapes (h : escapes reserved c) : isHex c = false := by
  rw [← Bool.not_eq_true]
  intro hex
  exact digits c hex h

theorem hexFirst_encode (cs : List Char) : hexFirst (encode reserved cs) = hexFirst cs := by
  cases cs with
  | nil => rfl
  | cons c cs =>
    by_cases h : escapes reserved c
    · obtain ⟨rest, hr⟩ := encode_cons_escaped_front h cs
      rw [hr]
      exact (not_isHex_of_escapes digits h).symm
    · rw [encode_cons_kept h]
      rfl

theorem digitsFirst_encode (cs : List Char) :
    digitsFirst (encode reserved cs) = digitsFirst cs := by
  cases cs with
  | nil => rfl
  | cons c cs =>
    by_cases h : escapes reserved c
    · obtain ⟨rest, hr⟩ := encode_cons_escaped_front h cs
      rw [hr, digitsFirst, digitsFirst, not_isHex_of_escapes digits h]
      rfl
    · rw [encode_cons_kept h, digitsFirst, digitsFirst, hexFirst_encode digits]

/-- What looks like an escape is left as it is where the percent sign is not escaped. -/
theorem decode_encode (percent : ¬ escapes reserved '%') (cs : List Char) :
    decode (encode reserved cs) = decode cs := by
  induction cs using escape_induction with
  | nil => rfl
  | escape a b rest hi lo ha hb ih =>
    have first := digits a (Option.isSome_of_eq_some ha)
    have second := digits b (Option.isSome_of_eq_some hb)
    rw [encode_cons_kept percent, encode_cons_kept first, encode_cons_kept second,
      decode_escape ha hb, decode_escape ha hb, ih]
  | char c cs h ih =>
    rw [decode_cons h]
    by_cases hc : escapes reserved c
    · rw [encode_cons_escaped hc, decode_encodeBytes, ih]
    · have start : ¬ (c = '%' ∧ digitsFirst (encode reserved cs)) := by
        rwa [digitsFirst_encode digits]
      rw [encode_cons_kept hc, decode_cons start, ih]

end Encode

theorem mem_encodeByte {b : UInt8} (h : c ∈ encodeByte b) : c = '%' ∨ isHex c := by
  rcases List.mem_cons.mp h with rfl | h
  · exact .inl rfl
  · right
    rcases List.mem_cons.mp h with rfl | h
    · exact isHex_upper _
    · rw [List.mem_singleton.mp h]
      exact isHex_upper _

/-- A reserved character is left only as part of an escape. -/
theorem not_mem_encode {reserved : String} (h : escapes reserved c)
    (other : ¬ (c = '%' ∨ isHex c)) (cs : List Char) : c ∉ encode reserved cs := by
  intro mem
  obtain ⟨d, -, hd⟩ := List.mem_flatMap.mp mem
  split at hd
  · obtain ⟨b, -, hb⟩ := List.mem_flatMap.mp hd
    exact other (mem_encodeByte hb)
  · rename_i kept
    rw [List.mem_singleton.mp hd] at h
    exact kept h

end SqlClient.Percent
