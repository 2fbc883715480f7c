import SqlClient.Proofs.Json.Documents
import SqlClient.Proofs.Number.Rounding
/-!
# JSON floats read back

Every float is printed as a text that the parser reads as some number, though not always as the same
one: digits that do not fit a significand are dropped, and scaling rounds twice. A double is always
found for a negative power of ten, and for the other ones up to the reals that round to the largest
double.
-/
namespace SqlClient.Json

open SqlClient.Number SqlClient.Number.BinaryFormat SqlClient.Text

theorem scale_isSome_of_neg (s : Nat) {e : Int} (h : e < 0) : (scale s e).isSome := by
  have up : (e ≤ 308 && 0 ≤ e) = false := by simp [not_le.mpr h]
  have big : ¬ 308 < e := by omega
  rw [scale]
  simp only [up, if_neg big, Bool.false_eq_true, if_false]
  unfold scale.scaleDown
  dsimp only
  split_ifs <;> rfl

theorem belowLargest_bounds : (significandLimit : ℚ) ≤ belowLargest ∧ belowLargest < 10 ^ 309 := by
  decide +kernel

/-- Two roundings, of the significand and of the power, stay below the overflow. The powers from
`10 ^ 289` on are too near to it for an estimate, so that they are looked at one by one. -/
theorem nearest_mul_lt {s n : Nat} (hz : s ≠ 0) (hs : s ≤ significandLimit) (hn : n ≤ 308)
    (h : (s : ℚ) * 10 ^ n ≤ belowLargest) : nearest s * nearest (10 ^ n) < overflow := by
  have positive : (0 : ℚ) < s := mod_cast Nat.pos_of_ne_zero hz
  have power : (0 : ℚ) < 10 ^ n := by positivity
  by_cases small : n ≤ 288
  · have significand : nearest s ≤ nearest (2 ^ 64) :=
      nearest_mono positive (by exact_mod_cast hs.trans (by decide))
    have powers : nearest (10 ^ n) ≤ nearest (10 ^ 288) :=
      nearest_mono power (pow_le_pow_right₀ (by norm_num) small)
    calc nearest s * nearest (10 ^ n) ≤ nearest (2 ^ 64) * nearest (10 ^ 288) :=
          mul_le_mul significand powers (nearest_nonneg power) (nearest_nonneg (by norm_num))
      _ < overflow := by decide +kernel
  · have each : ∀ k < 20, nearest (belowLargest / 10 ^ (289 + k)) * nearest (10 ^ (289 + k)) <
        overflow := by decide +kernel
    obtain ⟨k, rfl⟩ : ∃ k, n = 289 + k := ⟨n - 289, by omega⟩
    have significand : nearest s ≤ nearest (belowLargest / 10 ^ (289 + k)) :=
      nearest_mono positive ((le_div_iff₀ power).mpr h)
    calc nearest s * nearest (10 ^ (289 + k)) ≤ _ :=
          mul_le_mul_of_nonneg_right significand (nearest_nonneg power)
      _ < overflow := each k (by omega)

/-- No power of ten past the largest one that is a double's stays below. -/
theorem exponent_le {s n : Nat} (hz : s ≠ 0) (h : (s : ℚ) * 10 ^ n ≤ belowLargest) : n ≤ 308 := by
  by_contra large
  have one : (1 : ℚ) ≤ s := mod_cast Nat.one_le_iff_ne_zero.mpr hz
  have power : (10 : ℚ) ^ 309 ≤ 10 ^ n := pow_le_pow_right₀ (by norm_num) (by omega)
  have whole : (10 : ℚ) ^ n ≤ s * 10 ^ n := le_mul_of_one_le_left (by positivity) one
  exact absurd (power.trans (whole.trans h)) (not_le.mpr belowLargest_bounds.2)

def scaled (s n : Nat) : ℚ :=
  ((Double.ofRat s).toRat?).getD 0 * ((Double.ofRat (10 ^ n)).toRat?).getD 0

theorem scale_natCast {n : Nat} (s : Nat) (hn : n ≤ 308) : scale s n =
    if (Double.ofRat (scaled s n)).isFinite then some (Double.ofRat (scaled s n)) else none := by
  have range : ((n : Int) ≤ 308 && 0 ≤ (n : Int)) = true := by
    rw [Bool.and_eq_true, decide_eq_true_eq, decide_eq_true_eq]
    omega
  rw [scale]
  simp only [range, if_true, Int.natAbs_natCast]
  rfl

theorem scaled_bounds {s n : Nat} (hz : s ≠ 0) (hs : s ≤ significandLimit) (hn : n ≤ 308)
    (h : (s : ℚ) * 10 ^ n ≤ belowLargest) : 0 ≤ scaled s n ∧ scaled s n < overflow := by
  have positive : (0 : ℚ) < s := mod_cast Nat.pos_of_ne_zero hz
  have power : (0 : ℚ) < 10 ^ n := by positivity
  have nothing : (0 : ℚ) < overflow := mul_pos (by norm_num) (by positivity)
  rcases Double.toRat?_ofRat positive with value | value
  · rcases Double.toRat?_ofRat power with unit | unit
    · rw [scaled, value, unit]
      exact ⟨mul_nonneg (nearest_nonneg positive) (nearest_nonneg power),
        nearest_mul_lt hz hs hn h⟩
    · rw [scaled, unit, mul_zero]
      exact ⟨le_rfl, nothing⟩
  · rw [scaled, value, zero_mul]
    exact ⟨le_rfl, nothing⟩

theorem scale_isSome {s n : Nat} (hs : s ≤ significandLimit)
    (h : (s : ℚ) * 10 ^ n ≤ belowLargest) : (scale s n).isSome := by
  by_cases hn : n ≤ 308
  · have finite : (Double.ofRat (scaled s n)).isFinite = true := by
      by_cases nothing : scaled s n = 0
      · rw [nothing]
        decide
      · have hz : s ≠ 0 := by
          rintro rfl
          have zero : ((Double.ofRat 0).toRat?).getD 0 = 0 := by decide +kernel
          rw [scaled, Nat.cast_zero, zero, zero_mul] at nothing
          exact nothing rfl
        obtain ⟨low, high⟩ := scaled_bounds hz hs hn h
        exact Double.isFinite_ofRat (lt_of_le_of_ne low (Ne.symm nothing)) high
    rw [scale_natCast s hn, if_pos finite]
    rfl
  · have hz : s = 0 := by
      by_contra hz
      exact hn (exponent_le hz h)
    have up : ((n : Int) ≤ 308 && 0 ≤ (n : Int)) = false := by
      rw [Bool.and_eq_false_iff, decide_eq_false_iff_not, decide_eq_false_iff_not]
      omega
    rw [scale]
    simp only [up, Bool.false_eq_true, if_false]
    rw [if_pos (by omega), if_pos hz]
    rfl

/-- The text of a magnitude is read as some number wherever it stands, under either sign. -/
def Readable (cs : List Char) : Prop :=
  ∀ negative, ∃ j, ∀ rest, Delimited rest → readNumber negative (cs ++ rest) = some (j, rest)

variable {f rest : List Char} {s n : Nat} {e : Int} {negative : Bool}

/-- Digits are taken from the front, as many as fit. -/
theorem takeDigits_prefix (hd : ∀ c ∈ f, c.isDigit) (hs : s ≤ significandLimit) :
    ∃ front back, f = front ++ back ∧ Nat.ofDigitChars 10 front s ≤ significandLimit ∧
      ∀ taken rest, (∀ c ∈ rest.head?, c.isDigit = false) → takeDigits s taken (f ++ rest) =
        ⟨Nat.ofDigitChars 10 front s, taken + front.length, back ++ rest⟩ := by
  induction f generalizing s with
  | nil =>
    refine ⟨[], [], rfl, hs, ?_⟩
    intro taken rest hr
    cases rest with
    | nil => rfl
    | cons c rest => simp [takeDigits, hr c rfl]
  | cons d f ih =>
    have digit := hd d List.mem_cons_self
    by_cases fits : s * 10 + (d.toNat - '0'.toNat) ≤ significandLimit
    · obtain ⟨front, back, split, limit, more⟩ :=
        ih (fun c hc => hd c (List.mem_cons_of_mem _ hc)) fits
      refine ⟨d :: front, back, by rw [split, List.cons_append], ?_, ?_⟩
      · rwa [Nat.ofDigitChars_cons, Nat.mul_comm]
      · intro taken rest hr
        rw [List.cons_append, takeDigits, if_pos (by rw [digit, decide_eq_true fits]; rfl),
          more _ _ hr, Nat.ofDigitChars_cons, Nat.mul_comm 10, List.length_cons, Nat.add_assoc,
          Nat.add_comm 1]
    · refine ⟨[], d :: f, rfl, hs, ?_⟩
      intro taken rest _
      rw [List.cons_append, takeDigits,
        if_neg (by rw [decide_eq_false fits, Bool.and_false]; exact Bool.false_ne_true)]
      rfl

theorem dropWhile_digits (hd : ∀ c ∈ f, c.isDigit) (hr : ∀ c ∈ rest.head?, c.isDigit = false) :
    (f ++ rest).dropWhile Char.isDigit = rest := by
  rw [List.dropWhile_append_of_pos hd]
  cases rest with
  | nil => rfl
  | cons c rest => exact List.dropWhile_cons_of_neg (by simp [hr c rfl])

theorem takeWhile_digits (hd : ∀ c ∈ f, c.isDigit) (hr : ∀ c ∈ rest.head?, c.isDigit = false) :
    (f ++ rest).takeWhile Char.isDigit = f := by
  rw [List.takeWhile_append_of_pos hd, takeWhile_digits_eq_nil hr, List.append_nil]

/-- After a point at least one digit is wanted; those that do not fit are dropped. -/
theorem finishNumber_point (hd : ∀ c ∈ f, c.isDigit) (hf : f ≠ []) (hs : s ≤ significandLimit) :
    ∃ front back, f = front ++ back ∧ Nat.ofDigitChars 10 front s ≤ significandLimit ∧
      ∀ taken rest, (∀ c ∈ rest.head?, c.isDigit = false) →
        finishNumber negative ⟨s, taken, '.' :: (f ++ rest)⟩ =
          finishFloat negative (Nat.ofDigitChars 10 front s) (-front.length) rest := by
  obtain ⟨front, back, rfl, limit, run⟩ := takeDigits_prefix hd hs
  refine ⟨front, back, rfl, limit, ?_⟩
  intro taken rest hr
  have later : ∀ c ∈ back, c.isDigit := fun c hc => hd c (List.mem_append_right _ hc)
  change readFractionPart negative s 0 (front ++ back ++ rest) = _
  unfold readFractionPart
  rw [run 0 rest hr]
  cases hc : front ++ back with
  | nil => exact absurd hc hf
  | cons c more =>
    have digit : c.isDigit := hd c (hc ▸ List.mem_cons_self)
    dsimp only [List.cons_append]
    rw [if_pos digit, dropWhile_digits later hr, Nat.zero_add, zero_sub]

theorem finishFloat_delimited (h : Delimited rest) :
    finishFloat negative s e rest = (scale s e).map fun x => (signedFloat negative x, rest) := by
  cases rest with
  | nil => rfl
  | cons c rest =>
    have mark : ¬ (c = 'e' ∨ c = 'E') := by
      rcases h c rfl with rfl | rfl | rfl <;> decide
    rw [finishFloat, if_neg (by simpa using mark)]

theorem finishFloat_mark (down : Bool) (h : Delimited rest) :
    finishFloat negative s e ('e' :: (if down then '-' else '+') :: (decimalDigits n ++ rest)) =
      if UInt32.size / 2 ≤ n then
        if s != 0 && !down then none else some (signedFloat negative (.ofRat 0), rest)
      else
        (scale s (if down then e - n else e + n)).map fun x => (signedFloat negative x, rest) := by
  obtain ⟨c, cs, digits, -⟩ := exists_cons_decimalDigits n
  have taken : (decimalDigits n ++ rest).takeWhile Char.isDigit = decimalDigits n :=
    takeWhile_digits (isDigit_decimalDigits n) h.not_digit
  have some : ¬ (decimalDigits n).isEmpty = true := by
    rw [digits]
    exact Bool.false_ne_true
  have value := digitsValue_decimalDigits n
  rw [finishFloat, if_pos (by decide)]
  cases down
  all_goals
    simp only [Bool.false_eq_true, if_false, if_true]
    unfold readExponentPart
    simp only [Bool.false_eq_true, if_false, if_true]
    rw [taken, if_neg some, value, List.drop_left]

/-- Downwards any power is read. -/
theorem finishFloat_down (he : e - n < 0) : ∃ j, ∀ rest, Delimited rest →
    finishFloat negative s e ('e' :: '-' :: (decimalDigits n ++ rest)) = some (j, rest) := by
  obtain ⟨x, hx⟩ := Option.isSome_iff_exists.mp (scale_isSome_of_neg s he)
  by_cases large : UInt32.size / 2 ≤ n
  · refine ⟨signedFloat negative (.ofRat 0), ?_⟩
    intro rest h
    have read := @finishFloat_mark rest s n e negative true h
    rwa [if_pos rfl, if_pos large, Bool.not_true, Bool.and_false, if_neg Bool.false_ne_true]
      at read
  · refine ⟨signedFloat negative x, ?_⟩
    intro rest h
    have read := @finishFloat_mark rest s n e negative true h
    rwa [if_pos rfl, if_neg large, if_pos rfl, hx] at read

/-- Upwards it must fit. -/
theorem finishFloat_up (hn : n ≤ 308) (hx : (scale s (e + n)).isSome) : ∃ j, ∀ rest,
    Delimited rest →
      finishFloat negative s e ('e' :: '+' :: (decimalDigits n ++ rest)) = some (j, rest) := by
  obtain ⟨x, hx⟩ := Option.isSome_iff_exists.mp hx
  have small : ¬ UInt32.size / 2 ≤ n := by
    have : UInt32.size / 2 = 2147483648 := rfl
    omega
  refine ⟨signedFloat negative x, ?_⟩
  intro rest h
  have read := @finishFloat_mark rest s n e negative false h
  rwa [if_neg Bool.false_ne_true, if_neg small, if_neg Bool.false_ne_true, hx] at read

theorem scale_isSome_of_nonpos (hs : s ≤ significandLimit) (he : e ≤ 0) : (scale s e).isSome := by
  rcases he.lt_or_eq with down | rfl
  · exact scale_isSome_of_neg s down
  · have small : (s : ℚ) ≤ significandLimit := mod_cast hs
    apply @scale_isSome s 0 hs
    rw [pow_zero, mul_one]
    exact small.trans belowLargest_bounds.1

theorem readable_pointed (hs : s ≤ significandLimit) (hd : ∀ c ∈ f, c.isDigit) (hf : f ≠ []) :
    Readable (decimalDigits s ++ '.' :: f) := by
  intro negative
  obtain ⟨front, back, rfl, limit, fraction⟩ := @finishNumber_point f s negative hd hf hs
  obtain ⟨x, hx⟩ := Option.isSome_iff_exists.mp
    (@scale_isSome_of_nonpos _ (-front.length) limit (by omega))
  refine ⟨signedFloat negative x, ?_⟩
  intro rest hr
  have point : ∀ c ∈ ('.' :: (front ++ back ++ rest)).head?, c.isDigit = false := by
    rintro c ⟨⟩
    decide
  obtain ⟨taken, read⟩ := readNumber_decimalDigits hs point negative
  rw [List.append_assoc, List.cons_append, read, fraction taken rest hr.not_digit,
    finishFloat_delimited hr, hx]
  rfl

theorem digitsValue_singleton_le {d : Char} (hd : d.isDigit) :
    digitsValue [d] ≤ significandLimit := by
  have digit : ∀ c ∈ [d], c.isDigit := by
    intro c hc
    rwa [List.mem_singleton.mp hc]
  exact (digitsValue_lt digit).le.trans (by rw [List.length_singleton]; decide)

theorem readNumber_one {d : Char} (hd : d.isDigit) (hz : d ≠ '0')
    (hr : ∀ c ∈ rest.head?, c.isDigit = false) :
    readNumber negative (d :: rest) = finishNumber negative ⟨digitsValue [d], 1, rest⟩ := by
  have digit : ∀ c ∈ [d], c.isDigit := by
    intro c hc
    rwa [List.mem_singleton.mp hc]
  have taken := takeDigits_append digit hr 0 0 (digitsValue_singleton_le hd)
  rw [readNumber_cons hd hz, ← List.singleton_append, taken]
  rfl

/-- What is left out of the fraction only makes the number smaller. -/
theorem front_le {d : Char} {front back : List Char} {k : Int} :
    (digitsValue (d :: front) : ℚ) * 10 ^ (k + back.length) ≤
      digitsValue (d :: (front ++ back)) * 10 ^ k := by
  have power : (0 : ℚ) < 10 ^ k := by positivity
  have whole : digitsValue (d :: front) * 10 ^ back.length ≤
      digitsValue (d :: (front ++ back)) := by
    rw [← List.cons_append, digitsValue_append]
    exact Nat.le_add_right _ _
  have whole' : (digitsValue (d :: front) : ℚ) * 10 ^ back.length ≤
      digitsValue (d :: (front ++ back)) := mod_cast whole
  calc (digitsValue (d :: front) : ℚ) * 10 ^ (k + back.length)
      = digitsValue (d :: front) * 10 ^ back.length * 10 ^ k := by
        rw [zpow_add₀ (by norm_num), zpow_natCast]
        ring
    _ ≤ digitsValue (d :: (front ++ back)) * 10 ^ k :=
        mul_le_mul_of_nonneg_right whole' power.le

def Scales (d : Char) (f : List Char) (e : Int) : Prop :=
  e < 0 ∨ e ≤ 308 ∧ ∀ front back, f = front ++ back → digitsValue (d :: front) ≤ significandLimit →
    (scale (digitsValue (d :: front)) (-front.length + e)).isSome

theorem finishFloat_scales {d : Char} {front back : List Char} (h : Scales d (front ++ back) e)
    (limit : digitsValue (d :: front) ≤ significandLimit) : ∃ j, ∀ rest, Delimited rest →
      finishFloat negative (digitsValue (d :: front)) (-front.length)
        ('e' :: (if e < 0 then '-' else '+') :: (decimalDigits e.natAbs ++ rest)) =
          some (j, rest) := by
  by_cases down : e < 0
  · rw [if_pos down]
    exact finishFloat_down (by omega)
  · obtain ⟨most, fits⟩ := h.resolve_left down
    have same : ((e.natAbs : Nat) : Int) = e := Int.natAbs_of_nonneg (not_lt.mp down)
    rw [if_neg down]
    exact finishFloat_up (by omega) (by rw [same]; exact fits front back rfl limit)

theorem readable_scientific {d : Char} (hd : d.isDigit) (hz : d ≠ '0') (hf : ∀ c ∈ f, c.isDigit)
    (h : Scales d f e) : Readable (exponentDigits (d :: f) e) := by
  intro negative
  have first := digitsValue_singleton_le hd
  have mark : ∀ rest, ∀ c ∈ ('e' :: (if e < 0 then '-' else '+') ::
      (decimalDigits e.natAbs ++ rest)).head?, c.isDigit = false := by
    rintro rest c ⟨⟩
    decide
  cases f with
  | nil =>
    obtain ⟨j, read⟩ := @finishFloat_scales e negative d [] [] h first
    refine ⟨j, ?_⟩
    intro rest hr
    change readNumber negative (d :: 'e' :: (if e < 0 then '-' else '+') ::
      (decimalDigits e.natAbs ++ rest)) = _
    rw [readNumber_one hd hz (mark rest)]
    exact read rest hr
  | cons c f =>
    obtain ⟨front, back, split, limit, fraction⟩ :=
      @finishNumber_point (c :: f) _ negative hf (List.cons_ne_nil c f) first
    rw [split] at h
    obtain ⟨j, read⟩ := @finishFloat_scales e negative d front back h limit
    refine ⟨j, ?_⟩
    intro rest hr
    have point : ∀ c' ∈ ('.' :: (c :: f ++ 'e' :: (if e < 0 then '-' else '+') ::
        (decimalDigits e.natAbs ++ rest))).head?, c'.isDigit = false := by
      rintro c' ⟨⟩
      decide
    have text : exponentDigits (d :: c :: f) e ++ rest =
        d :: '.' :: (c :: f ++ 'e' :: (if e < 0 then '-' else '+') ::
          (decimalDigits e.natAbs ++ rest)) := by
      simp only [exponentDigits, List.cons_append, List.append_assoc]
    rw [text, readNumber_one hd hz point, fraction _ _ (mark rest)]
    exact read rest hr

/-- Digits without a leading zero are those of their value. -/
theorem decimalDigits_of_head {d : Char} (hd : ∀ c ∈ d :: f, c.isDigit) (hz : d ≠ '0') :
    decimalDigits (digitsValue (d :: f)) = d :: f := by
  have nonzero : digitsValue (d :: f) ≠ 0 := by
    rw [Ne, digitsValue_eq_zero_iff hd, List.length_cons, List.replicate_succ]
    exact fun he => hz (List.cons.inj he).1
  rw [decimalDigits_digitsValue hd nonzero, List.dropWhile_cons_of_neg (by simpa using hz)]

theorem readable_of_digits {d : Char} {w : List Char} (hw : ∀ c ∈ d :: w, c.isDigit) (hz : d ≠ '0')
    (hl : w.length ≤ 18) (hd : ∀ c ∈ f, c.isDigit) (hf : f ≠ []) :
    Readable (d :: w ++ '.' :: f) := by
  have small : digitsValue (d :: w) ≤ significandLimit := by
    have bound := digitsValue_lt hw
    have limit : 10 ^ 19 ≤ significandLimit := by decide
    have power : 10 ^ (d :: w).length ≤ 10 ^ 19 :=
      Nat.pow_le_pow_right (by decide) (Nat.succ_le_succ hl)
    omega
  rw [← decimalDigits_of_head hw hz]
  exact readable_pointed small hd hf

theorem readable_pointedDigits {d : Char} {place : Int} (hd : ∀ c ∈ d :: f, c.isDigit)
    (hz : d ≠ '0') (hp : place ≤ 19) : Readable (pointedDigits true (d :: f) place) := by
  have zeros : ∀ n, ∀ c ∈ List.replicate n '0', c.isDigit := by
    intro n c hc
    rw [(List.mem_replicate.mp hc).2]
    decide
  unfold pointedDigits
  rw [if_pos (rfl : true = true)]
  dsimp only
  split_ifs with front whole
  · -- all digits stand behind the point
    have digits : ∀ c ∈ List.replicate (-place).toNat '0' ++ d :: f, c.isDigit := by
      intro c hc
      rcases List.mem_append.mp hc with hc | hc
      · exact zeros _ c hc
      · exact hd c hc
    have read := readable_pointed (Nat.zero_le significandLimit) digits (by simp)
    rwa [decimalDigits_zero] at read
  · -- all digits stand before it
    have digits : ∀ c ∈ d :: (f ++ List.replicate (place.toNat - (d :: f).length) '0'),
        c.isDigit := by
      intro c hc
      rw [← List.cons_append] at hc
      rcases List.mem_append.mp hc with hc | hc
      · exact hd c hc
      · exact zeros _ c hc
    have length : (f ++ List.replicate (place.toNat - (d :: f).length) '0').length ≤ 18 := by
      rw [List.length_append, List.length_replicate]
      rw [List.length_cons] at whole ⊢
      omega
    have zero : ∀ c ∈ ['0'], c.isDigit := List.forall_mem_singleton.mpr rfl
    exact readable_of_digits digits hz length zero (List.cons_ne_nil _ _)
  · rw [List.length_cons] at whole
    obtain ⟨n, hn⟩ : ∃ n, place.toNat = n + 1 := ⟨place.toNat - 1, by omega⟩
    rw [hn, List.take_succ_cons, List.drop_succ_cons]
    refine readable_of_digits ?_ hz ?_ ?_ ?_
    · intro c hc
      exact hd c (List.mem_of_mem_take (i := n + 1) (by rwa [List.take_succ_cons]))
    · rw [List.length_take]
      omega
    · exact fun c hc => hd c (List.mem_cons_of_mem _ (List.mem_of_mem_drop hc))
    · rw [Ne, List.drop_eq_nil_iff]
      omega

/-- A double's decimal is small enough for all the powers that it is scaled with. -/
theorem scales_of_inRange {d : Char} {k : Int} (hd : d.isDigit) (hz : d ≠ '0')
    (h : (digitsValue (d :: f) : ℚ) * 10 ^ k ≤ belowLargest) : Scales d f (k + f.length) := by
  by_cases down : k + f.length < 0
  · exact .inl down
  · right
    have bound : ∀ front back, f = front ++ back →
        (digitsValue (d :: front) : ℚ) * 10 ^ (k + back.length) ≤ belowLargest := by
      rintro front back rfl
      exact front_le.trans h
    constructor
    · obtain ⟨n, hn⟩ := Int.eq_ofNat_of_zero_le (not_lt.mp down)
      have first := bound [] f rfl
      have nonzero : digitsValue [d] ≠ 0 := by
        intro zero
        rw [digitsValue_eq_zero_iff (by simpa using hd)] at zero
        exact hz (List.cons.inj zero).1
      rw [hn, zpow_natCast] at first
      have := exponent_le nonzero first
      omega
    · intro front back split limit
      have later := bound front back split
      have length : -(front.length : Int) + (k + f.length) = k + back.length := by
        rw [split, List.length_append]
        push_cast
        ring
      rw [length]
      by_cases low : k + back.length < 0
      · exact scale_isSome_of_neg _ low
      · obtain ⟨n, hn⟩ := Int.eq_ofNat_of_zero_le (not_lt.mp low)
        rw [hn, zpow_natCast] at later
        rw [hn]
        exact scale_isSome limit later

/-- However many digits of the largest double are read, they can be scaled. -/
theorem scales_largest : Scales '1' "7976931348623157".toList 308 := by
  have each : ∀ i ≤ 16, (scale (digitsValue ('1' :: "7976931348623157".toList.take i))
      (-i + 308)).isSome = true := by decide +kernel
  refine .inr ⟨by decide, ?_⟩
  intro front back split _
  have length := congrArg List.length split
  rw [List.length_append] at length
  have most : front.length ≤ 16 := by
    have : "7976931348623157".toList.length = 16 := by decide
    omega
  have taken := each front.length most
  rwa [split, List.take_left] at taken

/-- Every shortest decimal is read. -/
theorem readable_text {t : Scientific} (hc : t.coefficient ≠ 0) (h : t.InRange) :
    Readable (t.text floatLayout) := by
  obtain ⟨d, f, digits, hd, hz⟩ := head_decimalDigits hc
  have all := isDigit_decimalDigits t.coefficient
  have value := digitsValue_decimalDigits t.coefficient
  rw [digits] at all value
  rw [Scientific.text, digits]
  by_cases plain : floatLayout.plain (t.exponent + (d :: f).length - 1) = true
  · rw [if_pos plain]
    have range : t.exponent + (d :: f).length - 1 < 16 := by
      have both : (decide (-5 ≤ t.exponent + (d :: f).length - 1) &&
        decide (t.exponent + (d :: f).length - 1 < 16)) = true := plain
      rw [Bool.and_eq_true, decide_eq_true_eq, decide_eq_true_eq] at both
      exact both.2
    exact readable_pointedDigits all hz (by omega)
  · rw [if_neg plain]
    have exponent : t.exponent + (d :: f).length - 1 = t.exponent + f.length := by
      rw [List.length_cons]
      push_cast
      ring
    rw [exponent]
    apply readable_scientific hd hz (fun c hc => all c (List.mem_cons_of_mem _ hc))
    rcases h with h | rfl
    · exact scales_of_inRange hd hz (by rwa [value])
    · have largest : decimalDigits largestDecimal.coefficient =
          '1' :: "7976931348623157".toList := by decide
      rw [largest] at digits
      obtain ⟨rfl, rfl⟩ := List.cons.inj digits
      exact scales_largest

theorem readable_zero : Readable ['0', '.', '0'] := by
  have zero : ∀ c ∈ ['0'], c.isDigit := List.forall_mem_singleton.mpr rfl
  have read := readable_pointed (Nat.zero_le significandLimit) zero (List.cons_ne_nil _ _)
  rwa [decimalDigits_zero] at read

theorem isDigit_of_readNumber {c : Char} {cs : List Char} {r : Json × List Char}
    (h : readNumber negative (c :: cs) = some r) : c.isDigit := by
  unfold readNumber at h
  split at h
  · rename_i he
    obtain ⟨rfl, -⟩ := List.cons.inj he
    decide
  · rename_i he
    obtain ⟨rfl, -⟩ := List.cons.inj he
    by_contra digit
    rw [if_neg digit] at h
    cases h
  · cases h

theorem chars_float (x : Double) :
    (Json.float x).chars = (x.finiteText? floatLayout).getD Json.null.chars := rfl

/-- The magnitude of a finite number is printed so that it can be read. -/
theorem readable_magnitude {x : Double} {m : Nat} (hx : x.reading = .finite negative m e) :
    Readable (if m = 0 then pointedDigits true ['0'] 1
      else (shortestOf .toEven .double m e).text floatLayout) := by
  obtain ⟨mantissa, exponent⟩ := Double.reading_bounds hx
  by_cases zero : m = 0
  · rw [if_pos zero]
    exact readable_zero
  · rw [if_neg zero]
    rcases shortestOf_inRange zero .toEven mantissa exponent with nothing | ⟨some, range⟩
    · rw [nothing]
      exact readable_zero
    · exact readable_text some range

theorem readsAs_of_readable (depth : Nat) {j : Json} {cs : List Char} (h : Readable cs)
    (text : j.chars = if negative then '-' :: cs else cs) : ∃ j', ReadsAs depth j j' := by
  obtain ⟨j', read⟩ := h negative
  refine ⟨j', ?_⟩
  intro rest hr
  have number := read rest hr
  rw [text]
  cases negative with
  | true => exact number
  | false =>
    rw [if_neg Bool.false_ne_true]
    cases hcs : cs ++ rest with
    | nil =>
      rw [hcs] at number
      cases number
    | cons c more =>
      rw [hcs] at number
      rw [readValue_digit (isDigit_of_readNumber number), number]

/-- Every float is read back as something, NaN and the infinities as null. -/
theorem readsAs_float (depth : Nat) (x : Double) : ∃ j, ReadsAs depth (.float x) j := by
  cases hx : x.reading with
  | nan =>
    have text : (Json.float x).chars = Json.null.chars := by
      rw [chars_float, Double.finiteText?, hx]
      rfl
    exact ⟨.null, by rw [ReadsAs, text]; exact readsAs_null⟩
  | infinite negative =>
    have text : (Json.float x).chars = Json.null.chars := by
      rw [chars_float, Double.finiteText?, hx]
      rfl
    exact ⟨.null, by rw [ReadsAs, text]; exact readsAs_null⟩
  | finite negative m e =>
    apply readsAs_of_readable depth (readable_magnitude hx)
    rw [chars_float, Double.finiteText?, hx]
    rfl

end SqlClient.Json
