import Mathlib.Data.List.Forall2
import SqlClient.Json
import SqlClient.Proofs.Number.Digits
/-!
# JSON documents read back

Strings and integers as they are printed, and what the parser takes from the front of a text that
starts with them; then whole documents. Where a document stands in a text, only what can follow it
there matters: a comma, a closing bracket, or the end.
-/
namespace SqlClient.Json

open SqlClient.Number SqlClient.Text

theorem skipGaps_eq_self {cs : List Char} (h : ∀ c ∈ cs.head?, isGap c = false) :
    skipGaps cs = cs := by
  cases cs with
  | nil => rfl
  | cons c cs => exact List.dropWhile_cons_of_neg (by simp [h c rfl])

theorem readUnicode_paddedHex {n : Nat} (h : n < 32) (more : List Char) :
    readUnicode (paddedHex 4 n ++ more) = some (Char.ofNat n, more) := by
  have each : ∀ n < 32, ∃ a b c d, paddedHex 4 n = [a, b, c, d] ∧
      hexValue? a = some 0 ∧ hexValue? b = some 0 ∧ hexValue? c = some (n / 16) ∧
      hexValue? d = some (n % 16) := by
    intro n hn
    refine ⟨'0', '0', Nat.digitChar (n / 16), Nat.digitChar (n % 16), ?_⟩
    revert n
    decide
  obtain ⟨a, b, c, d, digits, ha, hb, hc, hd⟩ := each n h
  have value : ((0 * 16 + 0) * 16 + n / 16) * 16 + n % 16 = n := by omega
  rw [digits, readUnicode]
  simp only [List.cons_append, List.nil_append, readUnit, ha, hb, hc, hd, value]
  have low : ¬ 0xD800 ≤ n := by omega
  have low' : ¬ 0xDC00 ≤ n := by omega
  simp [low, low']

theorem ne_nil_escape (c : Char) : escape c ≠ [] := by
  unfold escape
  repeat' split
  all_goals exact List.cons_ne_nil _ _

/-- A character takes one step, whatever it was printed as. -/
theorem readString_escape (fuel : Nat) (acc : List Char) (c : Char) (more : List Char) :
    readString (fuel + 1) acc (escape c ++ more) = readString fuel (c :: acc) more := by
  by_cases quote : c = '"'
  · subst quote
    rfl
  by_cases backslash : c = '\\'
  · subst backslash
    rfl
  by_cases low : c.toNat < 32
  · have char : Char.ofNat c.toNat = c := Char.ofNat_toNat c
    by_cases named : c.toNat = 8 ∨ c.toNat = 12 ∨ c.toNat = 10 ∨ c.toNat = 13 ∨ c.toNat = 9
    · rcases named with h | h | h | h | h
      all_goals
        rw [h] at char
        subst char
        rfl
    · have newline : c ≠ '\n' := by
        rintro rfl
        exact named (by decide)
      have carriage : c ≠ '\r' := by
        rintro rfl
        exact named (by decide)
      have tab : c ≠ '\t' := by
        rintro rfl
        exact named (by decide)
      have printed : escape c = '\\' :: 'u' :: paddedHex 4 c.toNat := by
        rw [escape, if_neg quote, if_neg backslash, if_neg (by omega), if_neg (by omega),
          if_neg newline, if_neg carriage, if_neg tab, if_pos low]
      have unescaped : readEscape ('u' :: (paddedHex 4 c.toNat ++ more)) = some (c, more) := by
        change readUnicode (paddedHex 4 c.toNat ++ more) = _
        rw [readUnicode_paddedHex low, char]
      rw [printed, List.cons_append, List.cons_append, readString, if_neg (by decide), if_pos rfl,
        unescaped]
  · have printed : escape c = [c] := by
      have newline : c ≠ '\n' := by
        rintro rfl
        exact low (by decide)
      have carriage : c ≠ '\r' := by
        rintro rfl
        exact low (by decide)
      have tab : c ≠ '\t' := by
        rintro rfl
        exact low (by decide)
      rw [escape, if_neg quote, if_neg backslash, if_neg (by omega), if_neg (by omega),
        if_neg newline, if_neg carriage, if_neg tab, if_neg low]
    rw [printed, List.singleton_append, readString, if_neg quote, if_neg backslash, if_neg low]

theorem readString_escaped {fuel : Nat} (acc cs rest : List Char) (h : cs.length < fuel) :
    readString fuel acc (cs.flatMap escape ++ '"' :: rest) =
      some (String.ofList (acc.reverse ++ cs), rest) := by
  induction cs generalizing fuel acc with
  | nil =>
    obtain ⟨fuel, rfl⟩ := Nat.exists_eq_succ_of_ne_zero (Nat.ne_of_gt h)
    simp [readString]
  | cons c cs ih =>
    obtain ⟨fuel, rfl⟩ := Nat.exists_eq_succ_of_ne_zero (Nat.ne_of_gt (Nat.zero_lt_of_lt h))
    rw [List.flatMap_cons, List.append_assoc, readString_escape, ih _ (Nat.lt_of_succ_lt_succ h),
      List.reverse_cons, List.append_assoc, List.singleton_append]

theorem length_le_escaped (cs : List Char) : cs.length ≤ (cs.flatMap escape).length := by
  induction cs with
  | nil => exact Nat.le_refl _
  | cons c cs ih =>
    have some := List.length_pos_iff.mpr (ne_nil_escape c)
    rw [List.flatMap_cons, List.length_append, List.length_cons]
    omega

theorem readString_quoted (s : String) (rest : List Char) :
    readString ((s.toList.flatMap escape ++ '"' :: rest).length + 1) []
      (s.toList.flatMap escape ++ '"' :: rest) = some (s, rest) := by
  have := length_le_escaped s.toList
  rw [readString_escaped [] s.toList rest (by rw [List.length_append]; omega), List.reverse_nil,
    List.nil_append, String.ofList_toList]

def Delimited (rest : List Char) : Prop := ∀ c ∈ rest.head?, c = ',' ∨ c = ']' ∨ c = '\x7d'

theorem Delimited.not_digit {rest : List Char} (h : Delimited rest) :
    ∀ c ∈ rest.head?, c.isDigit = false := by
  intro c hc
  rcases h c hc with rfl | rfl | rfl <;> decide

theorem takeDigits_append {ds rest : List Char} (hd : ∀ c ∈ ds, c.isDigit)
    (hr : ∀ c ∈ rest.head?, c.isDigit = false) (significand taken : Nat)
    (hl : Nat.ofDigitChars 10 ds significand ≤ significandLimit) :
    takeDigits significand taken (ds ++ rest) =
      ⟨Nat.ofDigitChars 10 ds significand, taken + ds.length, rest⟩ := by
  induction ds generalizing significand taken with
  | nil =>
    cases rest with
    | nil => rfl
    | cons c rest => simp [takeDigits, hr c rfl]
  | cons d ds ih =>
    have digit := hd d List.mem_cons_self
    rw [Nat.ofDigitChars_cons, Nat.mul_comm] at hl
    have next : significand * 10 + (d.toNat - '0'.toNat) ≤ significandLimit :=
      Nat.le_trans (le_ofDigitChars ds _) hl
    rw [List.cons_append, takeDigits]
    simp only [digit, decide_eq_true next, Bool.and_self, if_true]
    rw [ih (fun c hc => hd c (List.mem_cons_of_mem _ hc)) _ _ hl, Nat.ofDigitChars_cons,
      Nat.mul_comm 10, List.length_cons]
    simp only [Nat.add_assoc, Nat.add_comm 1]

theorem takeWhile_digits_eq_nil {rest : List Char} (h : ∀ c ∈ rest.head?, c.isDigit = false) :
    rest.takeWhile Char.isDigit = [] := by
  cases rest with
  | nil => rfl
  | cons c rest => exact List.takeWhile_cons_of_neg (by simp [h c rfl])

/-- After an integer that was taken whole. -/
theorem finishNumber_delimited {rest : List Char} (h : Delimited rest) (negative : Bool)
    (n taken : Nat) : finishNumber negative ⟨n, taken, rest⟩ =
      finishNumber.whole negative ⟨n, taken, rest⟩ 0 rest := by
  rw [finishNumber, takeWhile_digits_eq_nil h.not_digit]
  cases rest with
  | nil => rfl
  | cons c rest =>
    rcases h c rfl with rfl | rfl | rfl <;> rfl

theorem exists_cons_decimalDigits (n : Nat) : ∃ c cs, decimalDigits n = c :: cs ∧ c.isDigit := by
  have digits := isDigit_decimalDigits n
  cases h : decimalDigits n with
  | nil => exact absurd h Nat.toDigits_ne_nil
  | cons c cs => exact ⟨c, cs, rfl, digits c (h ▸ List.mem_cons_self)⟩

/-- Only zero is written with a leading zero. -/
theorem head_decimalDigits {n : Nat} (hn : n ≠ 0) :
    ∃ c cs, decimalDigits n = c :: cs ∧ c.isDigit ∧ c ≠ '0' := by
  have digits := isDigit_decimalDigits n
  have stripped := decimalDigits_digitsValue digits (by rwa [digitsValue_decimalDigits])
  rw [digitsValue_decimalDigits] at stripped
  cases hc : decimalDigits n with
  | nil => exact absurd hc Nat.toDigits_ne_nil
  | cons c cs =>
    rw [hc] at stripped digits
    refine ⟨c, cs, rfl, digits c List.mem_cons_self, ?_⟩
    rintro rfl
    have shorter := congrArg List.length stripped
    have := (List.dropWhile_sublist (l := cs) (· = '0')).length_le
    rw [List.dropWhile_cons_of_pos (by decide), List.length_cons] at shorter
    omega

theorem readNumber_cons {c : Char} (hd : c.isDigit) (hz : c ≠ '0') (negative : Bool)
    (cs : List Char) :
    readNumber negative (c :: cs) = finishNumber negative (takeDigits 0 0 (c :: cs)) := by
  unfold readNumber
  split
  · rename_i he
    exact absurd (List.cons.inj he).1 hz
  · rename_i he
    obtain ⟨rfl, rfl⟩ := List.cons.inj he
    rw [if_pos hd]
  · rename_i he
    cases he

theorem readNumber_zero {rest : List Char} (h : ∀ c ∈ rest.head?, c.isDigit = false)
    (negative : Bool) : readNumber negative ('0' :: rest) = finishNumber negative ⟨0, 1, rest⟩ := by
  cases rest with
  | nil => rfl
  | cons c rest => simp [readNumber, h c rfl]

theorem readNumber_decimalDigits {n : Nat} (hn : n ≤ significandLimit) {rest : List Char}
    (h : ∀ c ∈ rest.head?, c.isDigit = false) (negative : Bool) : ∃ taken,
      readNumber negative (decimalDigits n ++ rest) = finishNumber negative ⟨n, taken, rest⟩ := by
  by_cases hz : n = 0
  · subst hz
    rw [decimalDigits_zero]
    exact ⟨1, readNumber_zero h negative⟩
  · obtain ⟨c, cs, digits, hc, hn₀⟩ := head_decimalDigits hz
    have value : Nat.ofDigitChars 10 (decimalDigits n) 0 = n := digitsValue_decimalDigits n
    have taken := takeDigits_append (isDigit_decimalDigits n) h 0 0 (by rwa [value])
    rw [value] at taken
    refine ⟨0 + (decimalDigits n).length, ?_⟩
    rw [← taken, digits]
    exact readNumber_cons hc hn₀ negative _

theorem readNumber_natural {n : Nat} (hn : n ≤ significandLimit) {rest : List Char}
    (h : Delimited rest) :
    readNumber false (decimalDigits n ++ rest) = some (.integer n, rest) := by
  obtain ⟨taken, read⟩ := readNumber_decimalDigits hn h.not_digit false
  rw [read, finishNumber_delimited h]
  rfl

theorem readNumber_negative {n : Nat} (hz : n ≠ 0) (hn : n ≤ int64Limit) {rest : List Char}
    (h : Delimited rest) :
    readNumber true (decimalDigits n ++ rest) = some (.integer (-n), rest) := by
  have limit : int64Limit ≤ significandLimit := by decide
  obtain ⟨taken, read⟩ := readNumber_decimalDigits (Nat.le_trans hn limit) h.not_digit true
  rw [read, finishNumber_delimited h, finishNumber.whole]
  simp [hz, Nat.not_lt.mpr hn]

/-- The text of `j` is read as `j'` wherever it stands, with room for `depth` levels of
containers. -/
def ReadsAs (depth : Nat) (j j' : Json) : Prop :=
  ∀ rest, Delimited rest → readValue (depth + 1) (j.chars ++ rest) = some (j', rest)

variable {depth : Nat}

theorem delimited_nil : Delimited [] := nofun

theorem delimited_cons {c : Char} (h : c = ',' ∨ c = ']' ∨ c = '\x7d') (cs : List Char) :
    Delimited (c :: cs) := by
  rintro d ⟨⟩
  exact h

theorem readsAs_null : ReadsAs depth .null .null := fun _ _ => rfl

theorem readsAs_bool (b : Bool) : ReadsAs depth (.bool b) (.bool b) := by
  intro rest _
  cases b <;> rfl

theorem readsAs_string (s : String) : ReadsAs depth (.string s) (.string s) := by
  intro rest _
  -- `change` opens `chars` and `readValue` here and below: their equations take long to generate.
  change readValue (depth + 1) (quoted s ++ rest) = _
  rw [quoted, List.append_assoc, List.cons_append, List.singleton_append]
  change (readString _ [] _).map _ = _
  rw [readString_quoted]
  rfl

theorem readValue_digit {c : Char} (h : c.isDigit) (cs : List Char) :
    readValue (depth + 1) (c :: cs) = readNumber false (c :: cs) := by
  rw [readValue, if_pos h]
  all_goals
    rintro rfl
    exact absurd h (by decide)

theorem readsAs_integer {n : Int} (hl : -int64Limit ≤ n) (hu : n ≤ significandLimit) :
    ReadsAs depth (.integer n) (.integer n) := by
  intro rest hr
  change readValue (depth + 1) (integerText n ++ rest) = _
  rw [integerText]
  by_cases hn : n < 0
  · rw [if_pos hn, List.cons_append]
    change readNumber true _ = _
    have : (-(n.natAbs : Int)) = n := by omega
    rw [readNumber_negative (by omega) (by omega) hr, this]
  · rw [if_neg hn]
    obtain ⟨c, cs, digits, hc⟩ := exists_cons_decimalDigits n.natAbs
    have read := @readNumber_natural n.natAbs (by omega) rest hr
    have same : (n.natAbs : Int) = n := by omega
    rw [digits, List.cons_append] at read ⊢
    rw [readValue_digit hc, read, same]

/-- Nothing starts with a blank or a closing bracket. -/
theorem head_of_readValue {cs : List Char} {r : Json × List Char}
    (h : readValue depth cs = some r) :
    ∃ c more, cs = c :: more ∧ isGap c = false ∧ c ≠ ']' ∧ c ≠ '\x7d' := by
  cases depth with
  | zero => cases h
  | succ depth =>
    cases cs with
    | nil => cases h
    | cons c more =>
      refine ⟨c, more, rfl, ?_, ?_, ?_⟩
      · by_contra gap
        simp only [isGap, Bool.not_eq_false, Bool.or_eq_true, decide_eq_true_eq] at gap
        rcases gap with ((rfl | rfl) | rfl) | rfl <;> cases h
      · rintro rfl
        cases h
      · rintro rfl
        cases h

theorem skipGaps_of_readValue {cs : List Char} {r : Json × List Char}
    (h : readValue depth cs = some r) : skipGaps cs = cs := by
  obtain ⟨c, more, rfl, gap, -⟩ := head_of_readValue h
  exact skipGaps_eq_self (by rintro d ⟨⟩; exact gap)

theorem skipGaps_cons {c : Char} (h : isGap c = false) (cs : List Char) :
    skipGaps (c :: cs) = c :: cs := skipGaps_eq_self (by rintro d ⟨⟩; exact h)

theorem delimited_itemsChars (items : List Json) (rest : List Char) :
    Delimited (itemsChars items ++ ']' :: rest) := by
  cases items with
  | nil => exact delimited_cons (by decide) _
  | cons j items => exact delimited_cons (by decide) _

theorem length_le_itemsChars (items : List Json) : items.length ≤ (itemsChars items).length := by
  induction items with
  | nil => exact Nat.le_refl _
  | cons j items ih =>
    rw [itemsChars, List.cons_append, List.length_cons, List.length_cons, List.length_append]
    omega

theorem readItems_comma {item : Reader} {fuel : Nat} {acc : List Json} {cs rest : List Char}
    {j : Json} (h : item (skipGaps cs) = some (j, rest)) :
    readItems item (fuel + 1) acc (',' :: cs) = readItems item fuel (j :: acc) rest := by
  rw [readItems, skipGaps_cons (by decide)]
  simp only [h]

theorem readItems_itemsChars {items items' : List Json}
    (h : List.Forall₂ (ReadsAs depth) items items') {fuel : Nat} (hf : items.length < fuel)
    (acc : List Json) (rest : List Char) :
    readItems (readValue (depth + 1)) fuel acc (itemsChars items ++ ']' :: rest) =
      some (acc.reverse ++ items', rest) := by
  induction h generalizing fuel acc with
  | nil =>
    obtain ⟨fuel, rfl⟩ := Nat.exists_eq_succ_of_ne_zero (Nat.ne_of_gt hf)
    rw [itemsChars, List.nil_append, readItems, skipGaps_cons (by decide), List.append_nil]
    rfl
  | @cons j j' items items' first _ ih =>
    obtain ⟨fuel, rfl⟩ := Nat.exists_eq_succ_of_ne_zero (Nat.ne_of_gt (Nat.zero_lt_of_lt hf))
    have read := first _ (delimited_itemsChars items rest)
    rw [← skipGaps_of_readValue read] at read
    rw [itemsChars, List.cons_append, List.cons_append, List.append_assoc, readItems_comma read,
      ih (Nat.lt_of_succ_lt_succ hf), List.reverse_cons, List.append_assoc, List.singleton_append]

theorem readValue_array {cs rest : List Char} {j : Json} (h : readValue depth cs = some (j, rest)) :
    readValue (depth + 1) ('[' :: cs) =
      (readItems (readValue depth) (rest.length + 1) [j] rest).map fun (js, rest) =>
        (.array js, rest) := by
  obtain ⟨c, more, rfl, -, bracket, -⟩ := head_of_readValue h
  rw [readValue, skipGaps_of_readValue h]
  split
  · rename_i he
    exact absurd (List.cons.inj he).1 bracket
  · rw [h]

theorem readsAs_array {items items' : List Json} (h : List.Forall₂ (ReadsAs depth) items items') :
    ReadsAs (depth + 1) (.array items) (.array items') := by
  intro rest _
  cases h with
  | nil => rfl
  | @cons j j' items items' first later =>
    have read := first _ (delimited_itemsChars items rest)
    have fuel : items.length < (itemsChars items ++ ']' :: rest).length + 1 := by
      have := length_le_itemsChars items
      rw [List.length_append]
      omega
    have text : (Json.array (j :: items)).chars ++ rest =
        '[' :: (j.chars ++ (itemsChars items ++ ']' :: rest)) := by
      change ('[' :: j.chars ++ itemsChars items ++ [']']) ++ rest = _
      simp only [List.cons_append, List.append_assoc, List.nil_append]
    rw [text, readValue_array read, readItems_itemsChars later fuel]
    rfl

theorem delimited_membersChars (members : List (String × Json)) (rest : List Char) :
    Delimited (membersChars members ++ '\x7d' :: rest) := by
  cases members with
  | nil => exact delimited_cons (by decide) _
  | cons m members => exact delimited_cons (by decide) _

theorem length_le_membersChars (members : List (String × Json)) :
    members.length ≤ (membersChars members).length := by
  induction members with
  | nil => exact Nat.le_refl _
  | cons m members ih =>
    rw [membersChars, List.cons_append, List.cons_append, List.append_assoc, List.cons_append,
      List.length_cons, List.length_cons, List.length_append, List.length_cons, List.length_append]
    omega

def MemberReadsAs (depth : Nat) (m m' : String × Json) : Prop :=
  m.1 = m'.1 ∧ ReadsAs depth m.2 m'.2

theorem readMember_quoted {k : String} {j j' : Json} {rest : List Char}
    (h : readValue (depth + 1) (j.chars ++ rest) = some (j', rest)) :
    readMember (readValue (depth + 1)) (quoted k ++ ':' :: (j.chars ++ rest)) =
      some ((k, j'), rest) := by
  have value := skipGaps_of_readValue h
  rw [quoted, List.append_assoc, List.cons_append, List.singleton_append, readMember,
    readString_quoted]
  dsimp only
  rw [skipGaps_cons (by decide)]
  simp only [value, h]

theorem skipGaps_quoted (k : String) (rest : List Char) :
    skipGaps (quoted k ++ rest) = quoted k ++ rest := by
  rw [quoted, List.append_assoc, List.cons_append]
  exact skipGaps_cons (by decide) _

theorem readMembers_comma {item : Reader} {fuel : Nat} {acc : List (String × Json)}
    {cs rest : List Char} {m : String × Json}
    (h : readMember item (skipGaps cs) = some (m, rest)) :
    readMembers item (fuel + 1) acc (',' :: cs) = readMembers item fuel (m :: acc) rest := by
  rw [readMembers, skipGaps_cons (by decide)]
  simp only [h]

theorem readMembers_membersChars {members members' : List (String × Json)}
    (h : List.Forall₂ (MemberReadsAs depth) members members') {fuel : Nat}
    (hf : members.length < fuel) (acc : List (String × Json)) (rest : List Char) :
    readMembers (readValue (depth + 1)) fuel acc (membersChars members ++ '\x7d' :: rest) =
      some (acc.reverse ++ members', rest) := by
  induction h generalizing fuel acc with
  | nil =>
    obtain ⟨fuel, rfl⟩ := Nat.exists_eq_succ_of_ne_zero (Nat.ne_of_gt hf)
    rw [membersChars, List.nil_append, readMembers, skipGaps_cons (by decide), List.append_nil]
    rfl
  | @cons m m' members members' first _ ih =>
    obtain ⟨fuel, rfl⟩ := Nat.exists_eq_succ_of_ne_zero (Nat.ne_of_gt (Nat.zero_lt_of_lt hf))
    obtain ⟨k, j⟩ := m
    obtain ⟨k', j'⟩ := m'
    obtain ⟨rfl, first⟩ : k = k' ∧ ReadsAs depth j j' := first
    have read := readMember_quoted (k := k) (first _ (delimited_membersChars members rest))
    have text : membersChars ((k, j) :: members) ++ '\x7d' :: rest =
        ',' :: (quoted k ++ ':' :: (j.chars ++ (membersChars members ++ '\x7d' :: rest))) := by
      simp only [membersChars, List.cons_append, List.append_assoc]
    rw [← skipGaps_quoted] at read
    rw [text, readMembers_comma read, ih (Nat.lt_of_succ_lt_succ hf), List.reverse_cons,
      List.append_assoc, List.singleton_append]

theorem readValue_object {k : String} {j : Json} {cs rest : List Char}
    (h : readMember (readValue (depth + 1)) (quoted k ++ cs) = some ((k, j), rest)) :
    readValue (depth + 2) ('\x7b' :: (quoted k ++ cs)) =
      (readMembers (readValue (depth + 1)) (rest.length + 1) [(k, j)] rest).map fun (ms, rest) =>
        (ofMembers ms, rest) := by
  rw [readValue, skipGaps_quoted]
  split
  · rename_i he
    rw [quoted, List.append_assoc, List.cons_append] at he
    exact absurd (List.cons.inj he).1 (by decide)
  · rw [h]
    exact if_neg (Nat.succ_ne_zero depth)

theorem readsAs_object {members members' : List (String × Json)}
    (h : List.Forall₂ (MemberReadsAs depth) members members') :
    ReadsAs (depth + 1) (.object members) (ofMembers members') := by
  intro rest _
  cases h with
  | nil => rfl
  | @cons m m' members members' first later =>
    obtain ⟨k, j⟩ := m
    obtain ⟨k', j'⟩ := m'
    obtain ⟨rfl, first⟩ : k = k' ∧ ReadsAs depth j j' := first
    have read := readMember_quoted (k := k) (first _ (delimited_membersChars members rest))
    have fuel : members.length < (membersChars members ++ '\x7d' :: rest).length + 1 := by
      have := length_le_membersChars members
      rw [List.length_append]
      omega
    have text : (Json.object ((k, j) :: members)).chars ++ rest =
        '\x7b' :: (quoted k ++ ':' :: (j.chars ++ (membersChars members ++ '\x7d' :: rest))) := by
      change ('\x7b' :: quoted k ++ ':' :: j.chars ++ membersChars members ++ ['\x7d']) ++ rest = _
      simp only [List.cons_append, List.append_assoc, List.nil_append]
    rw [text, readValue_object read, readMembers_membersChars later fuel]
    rfl

/-- A document that nests below the limit is read from its own text. -/
theorem parseWithin_text {j j' : Json} (h : ReadsAs depth j j') :
    parseWithin (depth + 1) j.text = some j' := by
  have read := h [] delimited_nil
  rw [List.append_nil] at read
  rw [parseWithin, text, String.toList_ofList, skipGaps_of_readValue read, read]
  rfl

theorem parse_text {j j' : Json} (h : ReadsAs 127 j j') : parse j.text = some j' :=
  parseWithin_text h

end SqlClient.Json
