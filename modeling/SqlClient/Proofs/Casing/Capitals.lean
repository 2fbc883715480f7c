import SqlClient.Proofs.Casing.Normal
import SqlClient.Proofs.Casing.RoundTrip
/-!
# Application case, twice

Application case keeps the beginning of a word as a capital letter only. Read again, a capital
begins a word where the last letter before it is small, or where that is a capital too and a small
letter comes next; any other capital is lost. A second conversion leaves a key as it is just if
every capital of the key can be read in this way, and a third never changes anything.
-/
namespace SqlClient

namespace Casing

open SqlClient.Text

/-- Whether a word begins with `c`, when `mode` is the case of the letter before it and `cs` comes
after it. -/
def beginsWord (mode : Mode) (c : Char) (cs : List Char) : Bool :=
  isUppercase c && (mode = .lower || mode = .upper && cs.head?.any isLowercase)

/-- Every capital begins a word, where `mode` is the case of the last letter before the text. -/
def Marked (mode : Mode) (cs : List Char) : Prop :=
  ∀ before c after, cs = before ++ c :: after → isUppercase c →
    beginsWord (before.foldl Mode.after mode) c after

def markedKeys : Set String := {k | Marked .none k.toList}

/-- A run in application case, letter by letter: capitals stay where they begin words. -/
def respell (mode : Mode) : List Char → List Char
  | [] => []
  | c :: cs => (if beginsWord mode c cs then c else c.toLower) :: respell (mode.after c) cs

theorem marked_cons {mode : Mode} {c : Char} {cs : List Char} : Marked mode (c :: cs) ↔
    (isUppercase c → beginsWord mode c cs) ∧ Marked (mode.after c) cs := by
  constructor
  · intro h
    refine ⟨h [] c cs rfl, fun before d after he => ?_⟩
    subst he
    exact h (c :: before) d after rfl
  · rintro ⟨first, later⟩ before d after he
    cases before with
    | nil =>
      cases he
      exact first
    | cons b before =>
      obtain ⟨rfl, rfl⟩ := List.cons.inj he
      exact later before d after rfl

theorem beginsWord_iff {mode : Mode} {c : Char} {cs : List Char} : beginsWord mode c cs ↔
    isUppercase c ∧ (mode = .lower ∨ mode = .upper ∧ ∃ d ∈ cs.head?, isLowercase d) := by
  cases cs <;> simp [beginsWord]

theorem marked_nil {mode : Mode} : Marked mode [] := fun before c after he =>
  absurd he.symm (List.append_ne_nil_of_right_ne_nil before (List.cons_ne_nil c after))

theorem beginsWord_of_not_upper {c : Char} (h : isUppercase c = false) (mode : Mode)
    (cs : List Char) : beginsWord mode c cs = false := by
  rw [beginsWord, h, Bool.false_and]

theorem not_upper_of_lower {c : Char} (hc : c.toNat < 128) (h : isLowercase c) :
    isUppercase c = false :=
  of_ascii (P := fun c => isLowercase c → isUppercase c = false) (by decide +kernel) hc h

theorem not_lower_of_upper {c : Char} (hc : c.toNat < 128) (h : isUppercase c) :
    isLowercase c = false := by
  by_contra low
  rw [not_upper_of_lower hc (Bool.not_eq_false _ ▸ low)] at h
  cases h

theorem toUpper_of_upper {c : Char} (hc : c.toNat < 128) (h : isUppercase c) : c.toUpper = c :=
  of_ascii (P := fun c => isUppercase c → c.toUpper = c) (by decide +kernel) hc h

theorem isLowercase_toLower {c : Char} (hc : c.toNat < 128) (h : isUppercase c) :
    isLowercase c.toLower :=
  of_ascii (P := fun c => isUppercase c → isLowercase c.toLower) (by decide +kernel) hc h

theorem not_upper_toLower {c : Char} (hc : c.toNat < 128) : isUppercase c.toLower = false :=
  of_ascii (P := fun c => isUppercase c.toLower = false) (by decide +kernel) hc

/-- Only a capital has another small letter. -/
theorem toLower_eq_self_iff {c : Char} (hc : c.toNat < 128) :
    c.toLower = c ↔ isUppercase c = false :=
  of_ascii (P := fun c => c.toLower = c ↔ isUppercase c = false) (by decide +kernel) hc

theorem Mode.after_of_upper {c : Char} (hc : c.toNat < 128) (h : isUppercase c) (mode : Mode) :
    mode.after c = .upper := by
  have small : ¬ isLowercase c = true := fun low => by
    rw [not_upper_of_lower hc low] at h
    cases h
  rw [Mode.after, if_neg small, if_pos h]

theorem Mode.after_of_lower {c : Char} (h : isLowercase c) (mode : Mode) :
    mode.after c = .lower := by
  rw [Mode.after, if_pos h]

/-- Behind a small letter it matters no more what stood before it. -/
theorem respell_of_lower {c : Char} (hc : c.toNat < 128) (h : isLowercase c) (mode mode' : Mode)
    (cs : List Char) : respell mode (c :: cs) = respell mode' (c :: cs) := by
  have small := not_upper_of_lower hc h
  rw [respell, respell, Mode.after_of_lower h, Mode.after_of_lower h,
    beginsWord_of_not_upper small, beginsWord_of_not_upper small]

/-- A run is spelled as it was just if each of its capitals begins a word. -/
theorem respell_eq_self_iff {mode : Mode} {cs : List Char} (h : ∀ c ∈ cs, c.toNat < 128) :
    respell mode cs = cs ↔ Marked mode cs := by
  induction cs generalizing mode with
  | nil => exact iff_of_true rfl marked_nil
  | cons c cs ih =>
    obtain ⟨first, later⟩ := List.forall_mem_cons.mp h
    rw [respell, List.cons.injEq, ih later, marked_cons]
    refine and_congr_left fun _ => ?_
    by_cases begins : beginsWord mode c cs = true
    · rw [if_pos begins]
      exact iff_of_true rfl fun _ => begins
    · rw [if_neg begins, toLower_eq_self_iff first, ← Bool.not_eq_true]
      exact ⟨fun small upper => absurd upper small, fun marked upper => begins (marked upper)⟩

def spelled : List (List Char) → List Char
  | [] => []
  | word :: rest => lowercaseWord word ++ rest.flatMap capitalizeWord

theorem applicationChars_eq (cs : List Char) : applicationChars cs = spelled (words cs) := by
  rw [applicationChars]
  cases words cs <;> rfl

section Ascii

variable {c : Char} {ws : List (List Char)}

theorem spelled_consHead (h : ∀ d ∈ c :: ws.flatten, d.toNat < 128) :
    spelled (consHead c ws) = c.toLower :: spelled ws ∧
      (consHead c ws).flatMap capitalizeWord = c.toUpper :: spelled ws := by
  obtain ⟨first, later⟩ := List.forall_mem_cons.mp h
  cases ws with
  | nil =>
    have word := lowercaseWord_of_ascii (List.forall_mem_singleton.mpr first)
    rw [List.map_singleton] at word
    simp [consHead, spelled, word, capitalizeWord, toUppercase_ascii first, lowercaseWord.eq_1]
  | cons w ws =>
    rw [List.flatten_cons, List.forall_mem_append] at later
    have word := lowercaseWord_of_ascii (List.forall_mem_cons.mpr ⟨first, later.1⟩)
    rw [consHead, spelled, word, spelled, List.flatMap_cons, capitalizeWord,
      toUppercase_ascii first, lowercaseWord_of_ascii later.1]
    exact ⟨rfl, rfl⟩

/-- What begins after a word is spelled as it would be at the front, but for its first letter. -/
theorem capitalized_runWords {c : Char} {cs : List Char} (h : ∀ d ∈ c :: cs, d.toNat < 128) :
    ∃ tail, spelled (runWords .none (c :: cs)) = c.toLower :: tail ∧
      (runWords .none (c :: cs)).flatMap capitalizeWord = c.toUpper :: tail := by
  have text := flatten_runWords .none (c :: cs)
  have some : [] ∉ runWords .none (c :: cs) := (nil_notMem_runWords .none (c :: cs)).2 nofun
  generalize runWords .none (c :: cs) = ws at text some
  cases ws with
  | nil => cases text
  | cons w ws =>
    cases w with
    | nil => exact absurd List.mem_cons_self some
    | cons d w =>
      rw [List.flatten_cons, List.cons_append] at text
      obtain ⟨rfl, rest⟩ := List.cons.inj text
      have ascii : ∀ e ∈ d :: (w :: ws).flatten, e.toNat < 128 := by
        rwa [List.flatten_cons, rest]
      exact ⟨_, spelled_consHead ascii⟩

end Ascii

/-- No word begins where no letter came before. -/
theorem beginsWord_none (c : Char) (cs : List Char) : beginsWord .none c cs = false := by
  rw [beginsWord]
  exact Bool.and_false _

theorem not_beginsWord {mode : Mode} {c : Char} {cs : List Char}
    (behind : mode = .lower → isUppercase c = false)
    (among : mode = .upper → isUppercase c → ∀ d ∈ cs.head?, isLowercase d = false) :
    beginsWord mode c cs = false := by
  cases mode with
  | none => exact beginsWord_none c cs
  | lower => exact beginsWord_of_not_upper (behind rfl) _ _
  | upper =>
    by_cases upper : isUppercase c = true
    · have next := among rfl upper
      cases cs with
      | nil => simp [beginsWord]
      | cons d cs => simp [beginsWord, next d rfl]
    · exact beginsWord_of_not_upper (Bool.eq_false_iff.mpr upper) _ _

/-- The words of a run in application case; a capital behind a small letter would have begun a word
before it. -/
theorem spelled_runWords {mode : Mode} {cs : List Char} (h : ∀ c ∈ cs, c.toNat < 128)
    (hm : mode = .lower → ∀ c ∈ cs.head?, isUppercase c = false) :
    spelled (runWords mode cs) = respell mode cs := by
  have start {ds : List Char} : Mode.none = .lower → ∀ d ∈ ds.head?, isUppercase d = false :=
    fun he => absurd he (by decide)
  fun_induction runWords mode cs with
  | case1 => rfl
  | case2 mode c =>
    have inside : beginsWord mode c [] = false :=
      not_beginsWord (fun lower => hm lower c rfl) fun _ _ d hd => absurd hd (Option.not_mem_none d)
    have alone : consHead c [] = [[c]] := rfl
    rw [← alone, (spelled_consHead h).1, respell, inside]
    rfl
  | case3 mode c next rest small ih =>
    rw [Bool.and_eq_true, decide_eq_true_eq] at small
    obtain ⟨low, upper⟩ := small
    obtain ⟨first, later⟩ := List.forall_mem_cons.mp h
    have ascii := later next List.mem_cons_self
    have inside : beginsWord mode c (next :: rest) = false := by
      refine not_beginsWord (fun lower => hm lower c rfl) fun _ _ => ?_
      rintro d ⟨⟩
      exact not_lower_of_upper ascii upper
    have outside := beginsWord_none next rest
    have begins : beginsWord .lower next rest = true := by
      rw [beginsWord, upper]
      rfl
    obtain ⟨tail, front, behind⟩ := capitalized_runWords later
    rw [ih later start, respell, outside, Mode.after_of_upper ascii upper] at front
    obtain rfl := (List.cons.inj front).2
    rw [spelled, behind, lowercaseWord_of_ascii (List.forall_mem_singleton.mpr first), respell,
      inside, low, respell, begins, Mode.after_of_upper ascii upper, toUpper_of_upper ascii upper]
    rfl
  | case4 mode c next rest small capital ih =>
    simp only [Bool.and_eq_true, decide_eq_true_eq] at capital
    obtain ⟨⟨rfl, upper⟩, low⟩ := capital
    obtain ⟨first, later⟩ := List.forall_mem_cons.mp h
    have begins : beginsWord .upper c (next :: rest) = true := by
      rw [beginsWord, upper, List.head?_cons, Option.any_some, low]
      rfl
    have ascii : ∀ d ∈ c :: (runWords .none (next :: rest)).flatten, d.toNat < 128 := by
      rwa [flatten_runWords]
    have words := spelled_consHead ascii
    rw [spelled, lowercaseWord, List.nil_append, words.2, ih later start,
      toUpper_of_upper first upper, respell.eq_2 .upper, begins, Mode.after_of_upper first upper,
      respell_of_lower (later next List.mem_cons_self) low .none .upper]
    rfl
  | case5 mode c next rest small capital ih =>
    obtain ⟨first, later⟩ := List.forall_mem_cons.mp h
    simp only [Bool.and_eq_true, decide_eq_true_eq, not_and, Bool.not_eq_true] at small capital
    have inside : beginsWord mode c (next :: rest) = false := by
      refine not_beginsWord (fun lower => hm lower c rfl) fun upper capitals => ?_
      rintro d ⟨⟩
      exact capital ⟨upper, capitals⟩
    have ascii : ∀ d ∈ c :: (runWords (mode.after c) (next :: rest)).flatten, d.toNat < 128 := by
      rwa [flatten_runWords]
    have words := spelled_consHead ascii
    rw [words.1, respell, inside, ih later]
    · rfl
    · rintro low d ⟨⟩
      exact small low

theorem words_of_alphanum {cs : List Char} (h : ∀ c ∈ cs, c.isAlphanum) :
    words cs = runWords .none cs := by
  have whole : cs.splitOnP (!isAlphanumeric ·) = [cs] := by
    apply List.splitOnP_eq_singleton
    intro c hc
    rw [isAlphanumeric_ascii (lt_128_of_isAlphanum (h c hc)), h c hc]
    rfl
  rw [words, whole, List.flatMap_singleton]

theorem applicationChars_of_alphanum {cs : List Char} (h : ∀ c ∈ cs, c.isAlphanum) :
    applicationChars cs = respell .none cs := by
  have run : spelled (runWords .none cs) = respell .none cs :=
    spelled_runWords (fun c hc => lt_128_of_isAlphanum (h c hc)) nofun
  rw [applicationChars_eq, words_of_alphanum h, run]

/-- The case of a letter, and the case that it is spelled in: a capital may have become small. -/
inductive Lowered : Mode → Mode → Prop where
  | none : Lowered .none .none
  | lower : Lowered .lower .lower
  | upper : Lowered .upper .upper
  | lowered : Lowered .upper .lower

theorem Lowered.after {mode mode' : Mode} (h : Lowered mode mode') {c : Char}
    (hc : c.toNat < 128) : Lowered (mode.after c) (mode'.after c.toLower) := by
  by_cases upper : isUppercase c = true
  · rw [Mode.after_of_upper hc upper, Mode.after_of_lower (isLowercase_toLower hc upper)]
    exact .lowered
  · rw [Bool.not_eq_true] at upper
    rw [(toLower_eq_self_iff hc).mpr upper, Mode.after, Mode.after, upper]
    split
    · exact .lower
    · exact h

/-- Capitals that stay begin words again. -/
theorem Lowered.marked_respell {mode mode' : Mode} (hm : Lowered mode mode') {cs : List Char}
    (h : ∀ c ∈ cs, c.toNat < 128) : Marked mode' (respell mode cs) := by
  induction cs generalizing mode mode' with
  | nil => exact marked_nil
  | cons c cs ih =>
    obtain ⟨first, later⟩ := List.forall_mem_cons.mp h
    rw [respell, marked_cons]
    by_cases begins : beginsWord mode c cs = true
    · rw [if_pos begins]
      obtain ⟨upper, before⟩ := beginsWord_iff.mp begins
      rw [Mode.after_of_upper first upper, Mode.after_of_upper first upper]
      refine ⟨fun _ => beginsWord_iff.mpr ⟨upper, ?_⟩, ih .upper later⟩
      cases hm with
      | none => rcases before with he | ⟨he, -⟩ <;> cases he
      | lower => exact .inl rfl
      | lowered => exact .inl rfl
      | upper =>
        obtain ⟨-, d, next, low⟩ := before.resolve_left nofun
        refine .inr ⟨rfl, d, ?_, low⟩
        obtain ⟨ds, rfl⟩ := List.head?_eq_some_iff.mp next
        have small := not_upper_of_lower (later d List.mem_cons_self) low
        rw [respell, beginsWord_of_not_upper small, List.head?_cons]
        exact congrArg some ((toLower_eq_self_iff (later d List.mem_cons_self)).mpr small)
    · rw [if_neg begins]
      refine ⟨fun upper => ?_, ih (hm.after first) later⟩
      rw [not_upper_toLower first] at upper
      cases upper

theorem isAlphanum_toUpper {c : Char} (h : c.isAlphanum) : c.toUpper.isAlphanum :=
  of_ascii (P := fun c => c.isAlphanum → c.toUpper.isAlphanum) (by decide +kernel)
    (lt_128_of_isAlphanum h) h

theorem AsciiWord.isAlphanum_capitalizeWord {w : List Char} (h : AsciiWord w) :
    ∀ c ∈ capitalizeWord w, c.isAlphanum := by
  have small := h.storageWord_lowercaseWord.small
  obtain ⟨some, plain⟩ := h
  obtain ⟨c, cs, rfl⟩ := List.exists_cons_of_ne_nil some
  obtain ⟨first, later⟩ := List.forall_mem_cons.mp plain
  have ascii : ∀ d ∈ c :: cs, d.toNat < 128 := fun d hd => lt_128_of_isAlphanum (plain d hd)
  rw [lowercaseWord_of_ascii ascii, List.map_cons] at small
  rw [capitalizeWord, toUppercase_ascii (lt_128_of_isAlphanum first),
    lowercaseWord_of_ascii (List.forall_mem_cons.mp ascii).2, List.singleton_append]
  exact List.forall_mem_cons.mpr ⟨isAlphanum_toUpper first,
    fun d hd => ((List.forall_mem_cons.mp small).2 d hd).isAlphanum⟩

/-- Application case has no separators. -/
theorem isAlphanum_applicationChars {cs : List Char} (h : ∀ c ∈ cs, c.toNat < 128) :
    ∀ c ∈ applicationChars cs, c.isAlphanum := by
  have ascii : ∀ w ∈ words cs, AsciiWord w := fun w hw => asciiWord_of_mem_words h hw
  rw [applicationChars_eq]
  cases hw : words cs with
  | nil => exact List.forall_mem_nil _
  | cons w ws =>
    rw [hw] at ascii
    obtain ⟨first, others⟩ := List.forall_mem_cons.mp ascii
    rw [spelled, List.forall_mem_append]
    refine ⟨fun c hc => (first.storageWord_lowercaseWord.small c hc).isAlphanum, fun c hc => ?_⟩
    obtain ⟨v, hv, hc⟩ := List.mem_flatMap.mp hc
    exact (others v hv).isAlphanum_capitalizeWord c hc

section Keys

variable {k : String} (hk : k ∈ asciiKeys)

include hk

theorem isAlphanum_applicationKey : ∀ c ∈ (applicationKey k).toList, c.isAlphanum := by
  rw [applicationKey, String.toList_ofList]
  exact isAlphanum_applicationChars hk

theorem applicationKey_mem_asciiKeys : applicationKey k ∈ asciiKeys := fun c hc =>
  lt_128_of_isAlphanum (isAlphanum_applicationKey hk c hc)

theorem toList_applicationKey_applicationKey :
    (applicationKey (applicationKey k)).toList = respell .none (applicationKey k).toList := by
  rw [applicationKey, String.toList_ofList,
    applicationChars_of_alphanum (isAlphanum_applicationKey hk)]

/-- A second conversion keeps a key just if its capitals all begin words. -/
theorem applicationKey_applicationKey_iff :
    applicationKey (applicationKey k) = applicationKey k ↔ applicationKey k ∈ markedKeys := by
  rw [← String.toList_inj, toList_applicationKey_applicationKey hk]
  exact respell_eq_self_iff (applicationKey_mem_asciiKeys hk)

theorem applicationKey_applicationKey_mem : applicationKey (applicationKey k) ∈ markedKeys := by
  change Marked .none (applicationKey (applicationKey k)).toList
  rw [toList_applicationKey_applicationKey hk]
  exact Lowered.none.marked_respell (applicationKey_mem_asciiKeys hk)

end Keys

end Casing

namespace Value

open SqlClient.Casing

variable {f : String → String} {v : Value}

theorem renameKeys_of_leaf (ha : v.asArray? = none) (hm : v.asMap? = none) :
    renameKeys f v = v := by
  cases v with
  | array => cases ha
  | map => cases hm
  | _ => rfl

theorem KeyedBy.renameKeys {source target : Set String} (maps : Set.MapsTo f source target)
    (h : v.KeyedBy source) : (renameKeys f v).KeyedBy target := by
  induction v using Value.induction with
  | leaf v ha hm =>
    rw [renameKeys_of_leaf ha hm]
    exact keyedBy_of_leaf ha hm
  | array items ih =>
    rw [keyedBy_array] at h
    rw [Casing.renameKeys, renameItems_eq_map, keyedBy_array]
    exact List.forall_mem_map.mpr fun v hv => ih v hv (h v hv)
  | map fields ih =>
    rw [keyedBy_map] at h
    rw [Casing.renameKeys, renameFields_eq_map, keyedBy_map]
    refine ⟨Record.nodup_keys _, fun p hp => ?_⟩
    obtain ⟨q, hq, rfl⟩ := List.mem_map.mp (Record.mem_of_mem_ofList hp)
    exact ⟨maps (h.2 q hq).1, ih q hq (h.2 q hq).2⟩

theorem map_eq_self_iff {α : Type} {g : α → α} {xs : List α} :
    xs.map g = xs ↔ ∀ x ∈ xs, g x = x := by
  have fixed : xs.map g = xs.map id ↔ ∀ x ∈ xs, g x = id x := List.map_inj_left
  rwa [List.map_id] at fixed

/-- Where two keys became one, a record would be shorter. -/
theorem ofList_eq_iff {pairs fields : List (String × Value)} (length : pairs.length = fields.length)
    (distinct : (fields.map Prod.fst).Nodup) :
    (Record.ofList pairs).fields = fields ↔ pairs = fields := by
  constructor
  · intro he
    have keys := Record.keys_ofList pairs
    rw [Record.keys, he, Fields.keys] at keys
    have same : (pairs.map Prod.fst).eraseDups.length = (pairs.map Prod.fst).length := by
      rw [← keys, List.length_map, List.length_map, length]
    rwa [ofList_eq_self (nodup_of_length_eraseDups same)] at he
  · rintro rfl
    exact ofList_eq_self distinct

/-- A conversion leaves a value as it is just if it leaves each of its keys as it is. -/
theorem renameKeys_eq_self_iff (h : v.KeyedBy Set.univ) :
    renameKeys f v = v ↔ v.KeyedBy {k | f k = k} := by
  induction v using Value.induction with
  | leaf v ha hm => exact iff_of_true (renameKeys_of_leaf ha hm) (keyedBy_of_leaf ha hm)
  | array items ih =>
    rw [keyedBy_array] at h
    rw [Casing.renameKeys, renameItems_eq_map, keyedBy_array, Value.array.injEq, map_eq_self_iff]
    exact forall₂_congr fun v hv => ih v hv (h v hv)
  | map fields ih =>
    obtain ⟨distinct, values⟩ := keyedBy_map.mp h
    rw [Casing.renameKeys, renameFields_eq_map, keyedBy_map, Value.map.injEq,
      ofList_eq_iff (List.length_map _) distinct, map_eq_self_iff, and_iff_right distinct]
    refine forall₂_congr fun p hp => ?_
    rw [Prod.ext_iff]
    exact and_congr Iff.rfl (ih p hp (values p hp).2)

end Value

namespace Casing

theorem applicationKey_thrice {k : String} (hk : k ∈ asciiKeys) :
    applicationKey (applicationKey (applicationKey k)) = applicationKey (applicationKey k) :=
  (applicationKey_applicationKey_iff (applicationKey_mem_asciiKeys hk)).mpr
    (applicationKey_applicationKey_mem hk)

/-- A second conversion to application case changes nothing just where every capital begins a word,
in a key and in all keys of a value; whatever there was to begin with, a third changes nothing. -/
theorem application_case_settles {k : String} {v : Value} (hk : k ∈ asciiKeys)
    (hv : v.KeyedBy asciiKeys) :
    (applicationKey (applicationKey k) = applicationKey k ↔ applicationKey k ∈ markedKeys) ∧
    applicationKey (applicationKey (applicationKey k)) = applicationKey (applicationKey k) ∧
    (toApplicationCase (toApplicationCase v) = toApplicationCase v ↔
      (toApplicationCase v).KeyedBy markedKeys) ∧
    toApplicationCase (toApplicationCase (toApplicationCase v)) =
      toApplicationCase (toApplicationCase v) := by
  refine ⟨applicationKey_applicationKey_iff hk, applicationKey_thrice hk, ?_, ?_⟩
  · have once : (toApplicationCase v).KeyedBy (applicationKey '' asciiKeys) :=
      hv.renameKeys (Set.mapsTo_image _ _)
    have distinct : (toApplicationCase v).KeyedBy Set.univ := hv.renameKeys (Set.mapsTo_univ _ _)
    refine (Value.renameKeys_eq_self_iff distinct).trans (once.iff_of_forall ?_)
    rintro _ ⟨k, hk, rfl⟩
    exact applicationKey_applicationKey_iff hk
  · have twice : (toApplicationCase (toApplicationCase v)).KeyedBy {k | applicationKey k = k} := by
      refine (hv.renameKeys (Set.mapsTo_image _ _)).renameKeys ?_
      rintro _ ⟨k, hk, rfl⟩
      exact applicationKey_thrice hk
    have distinct : (toApplicationCase (toApplicationCase v)).KeyedBy Set.univ :=
      (hv.renameKeys (Set.mapsTo_univ _ _)).renameKeys (Set.mapsTo_univ _ _)
    exact (Value.renameKeys_eq_self_iff distinct).mpr twice

/-- A capital behind a digit is read by the letter before the digit; a key inside an array. -/
theorem application_case_settles_versions :
    let row : Value := .array [.map [("api_v2_url", .null), ("a_b_c", .bool true)]]
    "api_v2_url" ∈ asciiKeys ∧ applicationKey "api_v2_url" = "apiV2Url" ∧
      "apiV2Url" ∈ markedKeys ∧ applicationKey "apiV2Url" = "apiV2Url" ∧
      row.KeyedBy asciiKeys ∧
      toApplicationCase (toApplicationCase (toApplicationCase row)) =
        toApplicationCase (toApplicationCase row) := by
  intro row
  have url : "api_v2_url" ∈ asciiKeys := by decide +kernel
  have letters : "a_b_c" ∈ asciiKeys := by decide +kernel
  have spelled : applicationKey "api_v2_url" = "apiV2Url" := by decide +kernel
  have ascii : "apiV2Url" ∈ asciiKeys := by decide +kernel
  have marked : "apiV2Url" ∈ markedKeys := (respell_eq_self_iff ascii).mp (by decide +kernel)
  have keyed : row.KeyedBy asciiKeys :=
    ⟨⟨by decide, url, trivial, letters, trivial, trivial⟩, trivial⟩
  obtain ⟨kept, -, -, settled⟩ := application_case_settles url keyed
  rw [spelled] at kept
  exact ⟨url, spelled, marked, kept.mpr marked, keyed, settled⟩

/-- Words of one letter come out of the first conversion as one word. -/
theorem one_letter_words_join :
    "a_b_c" ∈ asciiKeys ∧ applicationKey "a_b_c" = "aBC" ∧
      applicationKey (applicationKey "a_b_c") = "aBc" ∧
      applicationKey (applicationKey "a_b_c") ≠ applicationKey "a_b_c" := by
  have once : applicationKey "a_b_c" = "aBC" := by decide +kernel
  have twice : applicationKey (applicationKey "a_b_c") = "aBc" := by decide +kernel
  refine ⟨by decide +kernel, once, twice, ?_⟩
  rw [twice, once]
  decide

end Casing

end SqlClient
