import Mathlib.Data.Set.Function
import SqlClient.Proofs.Casing.Words
import SqlClient.Proofs.Value.Named
/-!
# Storage case as a normal form

However a name in ASCII is spelled, its words come out of the scanner without gaps between them and
none of them empty. In small letters they have no place left where a word could begin, so joined by
underscores they are found again as they are: storage case is settled after one conversion, and
application case can be taken from it as well as from the name.
-/
namespace SqlClient

namespace Casing

open SqlClient.Text

theorem flatten_consHead (c : Char) (ws : List (List Char)) :
    (consHead c ws).flatten = c :: ws.flatten := by
  cases ws <;> rfl

/-- The words of a run are the run. -/
theorem flatten_runWords (mode : Mode) (cs : List Char) : (runWords mode cs).flatten = cs := by
  fun_induction runWords mode cs with
  | case1 => rfl
  | case2 => rfl
  | case3 mode c next rest _ ih => rw [List.flatten_cons, ih, List.singleton_append]
  | case4 mode c next rest _ _ ih =>
    rw [List.flatten_cons, List.nil_append, flatten_consHead, ih]
  | case5 mode c next rest _ _ ih => rw [flatten_consHead, ih]

theorem nil_notMem_consHead {ws : List (List Char)} (h : [] ∉ ws.tail) (c : Char) :
    [] ∉ consHead c ws := by
  cases ws with
  | nil => simp [consHead]
  | cons w ws => simpa [consHead] using h

/-- Only what is left of a word under way can be empty, and only behind a capital. -/
theorem nil_notMem_runWords (mode : Mode) (cs : List Char) :
    [] ∉ (runWords mode cs).tail ∧ (mode ≠ .upper → [] ∉ runWords mode cs) := by
  fun_induction runWords mode cs with
  | case1 => simp
  | case2 => simp
  | case3 mode c next rest _ ih =>
    have others := ih.2 nofun
    exact ⟨others, fun _ => List.not_mem_cons_of_ne_of_not_mem nofun others⟩
  | case4 mode c next rest _ capital ih =>
    -- the capital before this one ends a word, and nothing is left of it
    have upper : mode = .upper := by
      simp only [Bool.and_eq_true, decide_eq_true_eq] at capital
      exact capital.1.1
    exact ⟨nil_notMem_consHead ih.1 c, fun other => absurd upper other⟩
  | case5 mode c next rest _ _ ih =>
    have some := nil_notMem_consHead ih.1 c
    exact ⟨fun tail => some (List.mem_of_mem_tail tail), fun _ => some⟩

theorem mem_of_mem_splitOnP {p : Char → Bool} {cs run : List Char} (h : run ∈ cs.splitOnP p) :
    ∀ c ∈ run, c ∈ cs ∧ p c = false := by
  induction cs generalizing run with
  | nil =>
    obtain rfl := List.mem_singleton.mp h
    exact List.forall_mem_nil _
  | cons d cs ih =>
    have later {run : List Char} (hr : run ∈ cs.splitOnP p) :
        ∀ c ∈ run, c ∈ d :: cs ∧ p c = false := fun c hc =>
      ⟨List.mem_cons_of_mem _ (ih hr c hc).1, (ih hr c hc).2⟩
    rw [List.splitOnP_cons_eq_if_modifyHead] at h
    by_cases hd : p d = true
    · rw [if_pos hd] at h
      rcases List.mem_cons.mp h with rfl | h
      · exact List.forall_mem_nil _
      · exact later h
    · obtain ⟨first, rest, hs⟩ := List.exists_cons_of_ne_nil (List.splitOnP_ne_nil p cs)
      rw [if_neg hd, hs, List.modifyHead_cons] at h
      rw [hs] at later
      rcases List.mem_cons.mp h with rfl | h
      · exact List.forall_mem_cons.mpr ⟨⟨List.mem_cons_self, Bool.eq_false_iff.mpr hd⟩,
          later List.mem_cons_self⟩
      · exact later (List.mem_cons_of_mem _ h)

structure AsciiWord (w : List Char) : Prop where
  some : w ≠ []
  plain : ∀ c ∈ w, c.isAlphanum

theorem asciiWord_of_mem_words {cs w : List Char} (h : ∀ c ∈ cs, c.toNat < 128)
    (hw : w ∈ words cs) : AsciiWord w := by
  obtain ⟨run, cut, hw⟩ := List.mem_flatMap.mp hw
  refine ⟨?_, fun c hc => ?_⟩
  · rintro rfl
    exact (nil_notMem_runWords .none run).2 nofun hw
  · have inside : c ∈ run := by
      rw [← flatten_runWords .none run]
      exact List.mem_flatten_of_mem hw hc
    obtain ⟨hc, plain⟩ := mem_of_mem_splitOnP cut c inside
    rwa [isAlphanumeric_ascii (h c hc), Bool.not_eq_false'] at plain

theorem isSmall_toLower {c : Char} (h : c.isAlphanum) : IsSmall c.toLower :=
  of_ascii (P := fun c => c.isAlphanum → c.toLower.isLower ∨ c.toLower.isDigit)
    (by decide +kernel) (lt_128_of_isAlphanum h) h

theorem toUpper_toLower {c : Char} (h : c.toNat < 128) : c.toLower.toUpper = c.toUpper :=
  of_ascii (P := fun c => c.toLower.toUpper = c.toUpper) (by decide +kernel) h

theorem AsciiWord.storageWord_lowercaseWord {w : List Char} (h : AsciiWord w) :
    StorageWord (lowercaseWord w) := by
  rw [lowercaseWord_of_ascii fun c hc => lt_128_of_isAlphanum (h.plain c hc)]
  exact ⟨fun he => h.some (List.map_eq_nil_iff.mp he),
    List.forall_mem_map.mpr fun c hc => isSmall_toLower (h.plain c hc)⟩

/-- The capital that a word gets is the same from either case. -/
theorem AsciiWord.capitalizeWord_lowercaseWord {w : List Char} (h : AsciiWord w) :
    capitalizeWord (lowercaseWord w) = capitalizeWord w := by
  have ascii : ∀ c ∈ w, c.toNat < 128 := fun c hc => lt_128_of_isAlphanum (h.plain c hc)
  have small := h.storageWord_lowercaseWord.small
  obtain ⟨c, cs, rfl⟩ := List.exists_cons_of_ne_nil h.some
  obtain ⟨first, later⟩ := List.forall_mem_cons.mp ascii
  rw [lowercaseWord_of_ascii ascii, List.map_cons] at small ⊢
  obtain ⟨lower, rest⟩ := List.forall_mem_cons.mp small
  rw [capitalizeWord, capitalizeWord, toUppercase_ascii (lt_128_of_isAlphanum lower.isAlphanum),
    toUpper_toLower first, toUppercase_ascii first, lowercaseWord_small rest,
    lowercaseWord_of_ascii later]

section Ascii

variable {cs : List Char} (h : ∀ c ∈ cs, c.toNat < 128)

include h

theorem storageWord_of_mem_words : ∀ w ∈ (words cs).map lowercaseWord, StorageWord w :=
  List.forall_mem_map.mpr fun _ hw => (asciiWord_of_mem_words h hw).storageWord_lowercaseWord

/-- No boundary between words is made, lost or moved. -/
theorem words_storageChars : words (storageChars cs) = (words cs).map lowercaseWord :=
  words_intercalate (storageWord_of_mem_words h)

theorem storageChars_storageChars : storageChars (storageChars cs) = storageChars cs := by
  rw [storageChars, words_storageChars h, storageChars]
  congr 1
  refine (List.map_congr_left fun w hw => ?_).trans (List.map_id _)
  exact lowercaseWord_small (storageWord_of_mem_words h w hw).small

theorem applicationChars_storageChars :
    applicationChars (storageChars cs) = applicationChars cs := by
  have ascii : ∀ w ∈ words cs, AsciiWord w := fun w hw => asciiWord_of_mem_words h hw
  have storage := storageWord_of_mem_words h
  rw [applicationChars, words_storageChars h, applicationChars]
  generalize words cs = ws at ascii storage
  cases ws with
  | nil => rfl
  | cons w ws =>
    obtain ⟨-, others⟩ := List.forall_mem_cons.mp ascii
    rw [List.map_cons]
    dsimp only
    rw [lowercaseWord_small (storage _ List.mem_cons_self).small, List.flatMap_map]
    congr 1
    exact List.flatMap_congr fun v hv => (others v hv).capitalizeWord_lowercaseWord

end Ascii

def asciiKeys : Set String := {k | ∀ c ∈ k.toList, c.toNat < 128}

-- along the key, and not over all characters
instance (k : String) : Decidable (k ∈ asciiKeys) :=
  decidable_of_iff (k.toList.all fun c => c.toNat < 128) <|
    List.all_eq_true.trans (forall₂_congr fun _ _ => decide_eq_true_iff)

/-- Nothing, or words of `[a-z0-9]+` with single underscores between them. -/
def storageKeys : Set String :=
  {k | ∃ ws : List (List Char), (∀ w ∈ ws, StorageWord w) ∧ k.toList = List.intercalate ['_'] ws}

theorem mapsTo_storageKeys : Set.MapsTo storageKey asciiKeys storageKeys := fun _ hk =>
  ⟨_, storageWord_of_mem_words hk, String.toList_ofList⟩

theorem storageKey_storageKey {k : String} (hk : k ∈ asciiKeys) :
    storageKey (storageKey k) = storageKey k := by
  rw [storageKey, storageKey, String.toList_ofList, storageChars_storageChars hk]

theorem applicationKey_storageKey {k : String} (hk : k ∈ asciiKeys) :
    applicationKey (storageKey k) = applicationKey k := by
  rw [applicationKey, storageKey, String.toList_ofList, applicationChars_storageChars hk,
    applicationKey]

/-- Two conversions one after the other give the keys of both at once. -/
theorem keys_renameRecord_renameRecord (f g : String → String) (r : Record) :
    (renameRecord g (renameRecord f r)).keys = (r.keys.map fun k => g (f k)).eraseDups := by
  rw [keys_renameRecord, keys_renameRecord, eraseDups_map_eraseDups, List.map_map]
  rfl

/-- Storage case is reached in one step from any name in ASCII, kept from then on, and has the same
application case as the name: a row that is written under its columns is read back under the keys
that it would have been read under as it was. -/
theorem storage_case_normal :
    Set.MapsTo storageKey asciiKeys storageKeys ∧
    (∀ k ∈ asciiKeys, storageKey (storageKey k) = storageKey k ∧
      applicationKey (storageKey k) = applicationKey k) ∧
    ∀ r : Record, (∀ k ∈ r.keys, k ∈ asciiKeys) →
      (RowCasing.camel.outbound (RowCasing.camel.outbound r)).keys =
        (RowCasing.camel.outbound r).keys ∧
      (RowCasing.camel.inbound (RowCasing.camel.outbound r)).keys =
        (RowCasing.camel.inbound r).keys := by
  refine ⟨mapsTo_storageKeys,
    fun k hk => ⟨storageKey_storageKey hk, applicationKey_storageKey hk⟩, fun r hr => ⟨?_, ?_⟩⟩
  · rw [RowCasing.outbound, RowCasing.outbound, keys_renameRecord_renameRecord, keys_renameRecord,
      List.map_congr_left fun k hk => storageKey_storageKey (hr k hk)]
  · rw [RowCasing.inbound, RowCasing.outbound, RowCasing.inbound, keys_renameRecord_renameRecord,
      keys_renameRecord, List.map_congr_left fun k hk => applicationKey_storageKey (hr k hk)]

/-- Separators at both ends and in a row, several capitals, and digits between letters. -/
theorem storage_case_normal_mixed :
    let key := "__HTTPServer2go--ID_"
    key ∈ asciiKeys ∧ storageKey key = "http_server2go_id" ∧
      "http_server2go_id" ∈ storageKeys ∧
      storageKey "http_server2go_id" = "http_server2go_id" ∧
      applicationKey "http_server2go_id" = applicationKey key ∧
      (RowCasing.camel.inbound (RowCasing.camel.outbound (Record.ofList [(key, .null)]))).keys =
        (RowCasing.camel.inbound (Record.ofList [(key, .null)])).keys := by
  intro key
  have all : (key.toList.all fun c => c.toNat < 128) = true := by decide +kernel
  have ascii : key ∈ asciiKeys := fun c hc => of_decide_eq_true (List.all_eq_true.mp all c hc)
  have stored : storageKey key = "http_server2go_id" := by decide +kernel
  obtain ⟨maps, keys, rows⟩ := storage_case_normal
  have normal := maps ascii
  have settled := keys key ascii
  rw [stored] at normal settled
  exact ⟨ascii, stored, normal, settled.1, settled.2,
    (rows (Record.ofList [(key, .null)]) (List.forall_mem_singleton.mpr ascii)).2⟩

end Casing

end SqlClient
