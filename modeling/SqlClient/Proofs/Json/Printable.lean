import SqlClient.Proofs.Json.Floats
import SqlClient.Proofs.Json.Members
/-!
# Documents that are read from their text

Every document that nests below the limit and whose integers fit 64 bits is printed as a text that
the parser accepts; and what the parser reads is such a document again.
-/
namespace SqlClient.Json

open SqlClient.Number

/-- Integers of at most 64 bits, and no more than `depth` containers inside one another. -/
inductive Printable : Nat → Json → Prop where
  | null {depth : Nat} : Printable depth .null
  | bool {depth : Nat} (b : Bool) : Printable depth (.bool b)
  | integer {depth : Nat} {n : Int} : -int64Limit ≤ n → n ≤ significandLimit →
      Printable depth (.integer n)
  | float {depth : Nat} (x : Double) : Printable depth (.float x)
  | string {depth : Nat} (s : String) : Printable depth (.string s)
  | array {depth : Nat} {items : List Json} : (∀ j ∈ items, Printable depth j) →
      Printable (depth + 1) (.array items)
  | object {depth : Nat} {members : List (String × Json)} :
      (∀ m ∈ members, Printable depth m.2) → Printable (depth + 1) (.object members)

variable {depth : Nat} {j : Json} {cs rest : List Char} {negative : Bool}

theorem exists_forall₂ {α β : Type} {R : α → β → Prop} {as : List α} (h : ∀ a ∈ as, ∃ b, R a b) :
    ∃ bs, List.Forall₂ R as bs := by
  induction as with
  | nil => exact ⟨[], .nil⟩
  | cons a as ih =>
    obtain ⟨b, first⟩ := h a List.mem_cons_self
    obtain ⟨bs, later⟩ := ih fun a ha => h a (List.mem_cons_of_mem _ ha)
    exact ⟨b :: bs, .cons first later⟩

/-- A printable document is read from its text as some document. -/
theorem Printable.readsAs (h : Printable depth j) : ∃ j', ReadsAs depth j j' := by
  induction h with
  | null => exact ⟨_, readsAs_null⟩
  | bool b => exact ⟨_, readsAs_bool b⟩
  | integer low high => exact ⟨_, readsAs_integer low high⟩
  | float x => exact readsAs_float _ x
  | string s => exact ⟨_, readsAs_string s⟩
  | array _ ih =>
    obtain ⟨items, read⟩ := exists_forall₂ ih
    exact ⟨_, readsAs_array read⟩
  | @object depth members _ ih =>
    have each : ∀ m ∈ members, ∃ m', MemberReadsAs depth m m' := by
      intro m hm
      obtain ⟨j, read⟩ := ih m hm
      exact ⟨(m.1, j), rfl, read⟩
    obtain ⟨members', read⟩ := exists_forall₂ each
    exact ⟨_, readsAs_object read⟩

theorem printable_ofMembers {members : List (String × Json)}
    (h : ∀ m ∈ members, Printable depth m.2) : Printable (depth + 1) (ofMembers members) := by
  rw [ofMembers_eq]
  exact .object fun m hm => h m (mem_sorted hm)

theorem takeDigits_le {s : Nat} (hs : s ≤ significandLimit) (taken : Nat) (cs : List Char) :
    (takeDigits s taken cs).significand ≤ significandLimit := by
  induction cs generalizing s taken with
  | nil => exact hs
  | cons c cs ih =>
    rw [takeDigits]
    split
    · rename_i fits
      rw [Bool.and_eq_true, decide_eq_true_eq] at fits
      exact ih fits.2 _
    · exact hs

section Numbers

variable {s : Nat} {e : Int}

theorem printable_readExponentPart (h : readExponentPart negative s e cs = some (j, rest)) :
    Printable depth j := by
  unfold readExponentPart at h
  dsimp only at h
  split at h
  all_goals
    split_ifs at h
    all_goals
      first
      | cases h
        exact .float _
      | obtain ⟨x, -, he⟩ := Option.map_eq_some_iff.mp h
        cases he
        exact .float _

theorem printable_finishFloat (h : finishFloat negative s e cs = some (j, rest)) :
    Printable depth j := by
  unfold finishFloat at h
  split at h
  · split at h
    · exact printable_readExponentPart h
    · obtain ⟨x, -, he⟩ := Option.map_eq_some_iff.mp h
      cases he
      exact .float _
  · obtain ⟨x, -, he⟩ := Option.map_eq_some_iff.mp h
    cases he
    exact .float _

theorem printable_readFractionPart (h : readFractionPart negative s e cs = some (j, rest)) :
    Printable depth j := by
  unfold readFractionPart at h
  split at h
  · split at h
    · exact printable_finishFloat h
    · cases h
  · cases h

theorem printable_whole {run : DigitRun} (hs : run.significand ≤ significandLimit) {dropped : Nat}
    (h : finishNumber.whole negative run dropped cs = some (j, rest)) : Printable depth j := by
  unfold finishNumber.whole at h
  dsimp only at h
  split_ifs at h with some positive zero
  · exact printable_finishFloat h
  · cases h
    exact .integer (by omega) (by omega)
  · cases h
    exact .float _
  · cases h
    rw [Bool.or_eq_true, decide_eq_true_eq, decide_eq_true_eq] at zero
    exact .integer (by omega) (by omega)

theorem printable_finishNumber {run : DigitRun} (hs : run.significand ≤ significandLimit)
    (h : finishNumber negative run = some (j, rest)) : Printable depth j := by
  unfold finishNumber at h
  dsimp only at h
  split at h
  · exact printable_readFractionPart h
  · split at h
    · exact printable_finishFloat h
    · exact printable_whole hs h
  · exact printable_whole hs h

theorem printable_readNumber (h : readNumber negative cs = some (j, rest)) : Printable depth j := by
  unfold readNumber at h
  split at h
  · split at h
    · split at h
      · cases h
      · exact printable_finishNumber (Nat.zero_le significandLimit) h
    · exact printable_finishNumber (Nat.zero_le significandLimit) h
  · split at h
    · exact printable_finishNumber (takeDigits_le (Nat.zero_le _) _ _) h
    · cases h
  · cases h

end Numbers

section Containers

variable {item : Reader} {fuel : Nat}
  (hi : ∀ {cs rest : List Char} {j : Json}, item cs = some (j, rest) → Printable depth j)

include hi

theorem printable_readItems {acc items : List Json} (ha : ∀ j ∈ acc, Printable depth j)
    (h : readItems item fuel acc cs = some (items, rest)) : ∀ j ∈ items, Printable depth j := by
  induction fuel generalizing acc cs with
  | zero => cases h
  | succ fuel ih =>
    rw [readItems] at h
    split at h
    · cases h
      intro j hj
      exact ha j (List.mem_reverse.mp hj)
    · split at h
      · rename_i read
        exact ih (List.forall_mem_cons.mpr ⟨hi read, ha⟩) h
      · cases h
    · cases h

theorem printable_readMember {m : String × Json} (h : readMember item cs = some (m, rest)) :
    Printable depth m.2 := by
  unfold readMember at h
  split at h
  · split at h
    · split at h
      · split at h
        · rename_i read
          cases h
          exact hi read
        · cases h
      · cases h
    · cases h
  · cases h

theorem printable_readMembers {acc members : List (String × Json)}
    (ha : ∀ m ∈ acc, Printable depth m.2)
    (h : readMembers item fuel acc cs = some (members, rest)) :
    ∀ m ∈ members, Printable depth m.2 := by
  induction fuel generalizing acc cs with
  | zero => cases h
  | succ fuel ih =>
    rw [readMembers] at h
    split at h
    · cases h
      intro m hm
      exact ha m (List.mem_reverse.mp hm)
    · split at h
      · rename_i read
        exact ih (List.forall_mem_cons.mpr ⟨printable_readMember hi read, ha⟩) h
      · cases h
    · cases h

end Containers

/-- What is read within so many levels nests fewer of them. -/
theorem printable_readValue (h : readValue depth cs = some (j, rest)) :
    ∃ n, depth = n + 1 ∧ Printable n j := by
  induction depth generalizing cs rest j with
  | zero => cases h
  | succ depth ih =>
    refine ⟨depth, rfl, ?_⟩
    have items {n : Nat} (hn : depth = n + 1) {cs rest : List Char} {j : Json}
        (read : readValue depth cs = some (j, rest)) : Printable n j := by
      obtain ⟨n', hn', printable⟩ := ih read
      obtain rfl : n = n' := by omega
      exact printable
    unfold readValue at h
    split at h
    · cases h
    · obtain ⟨r, -, he⟩ := Option.map_eq_some_iff.mp h
      cases he
      exact .string _
    · split at h
      · split at h
        · cases h
        · rename_i hd
          cases h
          obtain ⟨n, rfl⟩ := Nat.exists_eq_succ_of_ne_zero hd
          exact .array (List.forall_mem_nil _)
      · split at h
        · rename_i read
          obtain ⟨n, hn, first⟩ := ih read
          obtain ⟨r, later, he⟩ := Option.map_eq_some_iff.mp h
          cases he
          subst hn
          exact .array (printable_readItems (items rfl) (List.forall_mem_singleton.mpr first) later)
        · cases h
    · split at h
      · split at h
        · cases h
        · rename_i hd
          cases h
          obtain ⟨n, rfl⟩ := Nat.exists_eq_succ_of_ne_zero hd
          exact .object (List.forall_mem_nil _)
      · split at h
        · rename_i read
          split at h
          · cases h
          · rename_i hd
            obtain ⟨n, rfl⟩ := Nat.exists_eq_succ_of_ne_zero hd
            obtain ⟨r, later, he⟩ := Option.map_eq_some_iff.mp h
            cases he
            have first := printable_readMember (items rfl) read
            exact printable_ofMembers
              (printable_readMembers (items rfl) (List.forall_mem_singleton.mpr first) later)
        · cases h
    · exact printable_readNumber h
    · split_ifs at h
      · exact printable_readNumber h
      all_goals
        obtain ⟨r, -, he⟩ := Option.map_eq_some_iff.mp h
        cases he
      · exact .null
      · exact .bool true
      · exact .bool false

/-- Whatever was parsed is parsed again after it was printed. -/
theorem printable_of_parse {s : String} (h : parse s = some j) : Printable 127 j := by
  unfold parse parseWithin at h
  split at h
  · rename_i read
    split at h
    · cases h
      obtain ⟨n, hn, printable⟩ := printable_readValue read
      obtain rfl : 127 = n := by omega
      exact printable
    · cases h
  · cases h

end SqlClient.Json
