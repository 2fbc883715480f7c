import SqlClient.Monitor
/-!
# Statements cut short

What is taken of a text for a number of bytes is its longest start of whole characters that has no
more of them. The same start is found from the other end, by going back from the limit to a byte
with which a character begins, in three steps at most. A tracer shows all of a statement, or that
start and three points.
-/
namespace SqlClient

namespace Text

structure IsLongestStart (limit : Nat) (s start : String) : Prop where
  starts : start.toList <+: s.toList
  fits : start.utf8ByteSize ≤ limit
  longest : ∀ p : String, p.toList <+: s.toList → p.utf8ByteSize ≤ limit →
    p.toList <+: start.toList

def opening (limit : Nat) (s : String) : String := String.ofList (takeBytes limit s.toList)

/-- The last place up to `place` that is not inside a character. -/
def boundary (s : String) : Nat → Nat
  | 0 => 0
  | place + 1 => if String.Pos.Raw.isValid s ⟨place + 1⟩ then place + 1 else boundary s place

/-- The text before a place, which must neither be inside a character nor behind the text. -/
def before? (s : String) (place : Nat) : Option String :=
  if h : String.Pos.Raw.IsValid s ⟨place⟩ then some (s.sliceTo ⟨⟨place⟩, h⟩).copy else none

/-- The start of a text that fits, found backward from the limit. -/
def cutBack? (s : String) (limit : Nat) : Option String :=
  if s.utf8ByteSize ≤ limit then some s else before? s (boundary s limit)

variable {limit place : Nat} {cs p : List Char} {s start : String}

theorem utf8ByteSize_ofList (cs : List Char) : (String.ofList cs).utf8ByteSize = byteLength cs := by
  induction cs with
  | nil => rfl
  | cons c cs ih =>
    rw [String.ofList_cons, String.utf8ByteSize_append, String.utf8ByteSize_singleton, ih,
      byteLength]

theorem byteLength_toList (s : String) : byteLength s.toList = s.utf8ByteSize := by
  rw [← utf8ByteSize_ofList, String.ofList_toList]

theorem takeBytes_starts (limit : Nat) (cs : List Char) : takeBytes limit cs <+: cs := by
  induction cs generalizing limit with
  | nil => exact List.nil_prefix
  | cons c cs ih =>
    rw [takeBytes]
    split
    · exact List.prefix_cons_inj c |>.mpr (ih _)
    · exact List.nil_prefix

theorem byteLength_takeBytes_le (limit : Nat) (cs : List Char) :
    byteLength (takeBytes limit cs) ≤ limit := by
  induction cs generalizing limit with
  | nil => exact Nat.zero_le _
  | cons c cs ih =>
    rw [takeBytes]
    split
    · have rest := ih (limit - c.utf8Size)
      rw [byteLength]
      omega
    · exact Nat.zero_le _

theorem prefix_takeBytes (h : p <+: cs) (fits : byteLength p ≤ limit) :
    p <+: takeBytes limit cs := by
  induction p generalizing limit cs with
  | nil => exact List.nil_prefix
  | cons c p ih =>
    obtain ⟨rest, rfl⟩ := h
    rw [byteLength] at fits
    rw [List.cons_append, takeBytes, if_pos (by omega)]
    exact List.prefix_cons_inj c |>.mpr (ih (List.prefix_append p rest) (by omega))

/-- The character that does not fit has four bytes at most. -/
theorem lt_byteLength_takeBytes (h : limit < byteLength cs) :
    limit < byteLength (takeBytes limit cs) + 4 := by
  induction cs generalizing limit with
  | nil => exact absurd h (Nat.not_lt_zero _)
  | cons c cs ih =>
    have small := c.utf8Size_le_four
    rw [byteLength] at h
    rw [takeBytes]
    split
    · have rest : limit - c.utf8Size < byteLength (takeBytes (limit - c.utf8Size) cs) + 4 :=
        ih (by omega)
      rw [byteLength]
      omega
    · omega

theorem takeBytes_eq_self (h : byteLength cs ≤ limit) : takeBytes limit cs = cs :=
  (takeBytes_starts limit cs).eq_of_length_le (prefix_takeBytes List.prefix_rfl h).length_le

theorem toList_opening (limit : Nat) (s : String) :
    (opening limit s).toList = takeBytes limit s.toList := String.toList_ofList

theorem isLongestStart_opening (limit : Nat) (s : String) :
    IsLongestStart limit s (opening limit s) where
  starts := by
    rw [toList_opening]
    exact takeBytes_starts limit s.toList
  fits := by
    rw [opening, utf8ByteSize_ofList]
    exact byteLength_takeBytes_le limit s.toList
  longest p h fits := by
    rw [← byteLength_toList] at fits
    rw [toList_opening]
    exact prefix_takeBytes h fits

theorem opening_eq_self_iff : opening limit s = s ↔ s.utf8ByteSize ≤ limit := by
  constructor
  · intro whole
    have fits := (isLongestStart_opening limit s).fits
    rwa [whole] at fits
  · intro fits
    rw [← byteLength_toList] at fits
    rw [opening, takeBytes_eq_self fits, String.ofList_toList]

theorem le_utf8ByteSize_opening (h : limit < s.utf8ByteSize) :
    limit ≤ (opening limit s).utf8ByteSize + 3 := by
  rw [← byteLength_toList] at h
  rw [opening, utf8ByteSize_ofList]
  exact Nat.le_of_lt_succ (lt_byteLength_takeBytes h)

theorem exists_eq_append (h : start.toList <+: s.toList) : ∃ rest, s = start ++ rest := by
  obtain ⟨rest, same⟩ := h
  refine ⟨String.ofList rest, ?_⟩
  rw [← String.toList_inj, String.toList_append, String.toList_ofList, same]

theorem isValid_iff : String.Pos.Raw.IsValid s ⟨place⟩ ↔
    ∃ start : String, start.toList <+: s.toList ∧ start.utf8ByteSize = place := by
  rw [String.Pos.Raw.isValid_iff_exists_append]
  constructor
  · rintro ⟨start, rest, rfl, same⟩
    have size := congrArg String.Pos.Raw.byteIdx same
    exact ⟨start, ⟨rest.toList, String.toList_append.symm⟩, size.symm⟩
  · rintro ⟨start, h, rfl⟩
    obtain ⟨rest, whole⟩ := exists_eq_append h
    exact ⟨start, rest, whole, rfl⟩

theorem before?_eq_some (h : start.toList <+: s.toList) :
    before? s start.utf8ByteSize = some start := by
  have valid : String.Pos.Raw.IsValid s ⟨start.utf8ByteSize⟩ := isValid_iff.mpr ⟨start, h, rfl⟩
  obtain ⟨rest, whole⟩ := exists_eq_append h
  have parts : (String.Pos.mk ⟨start.utf8ByteSize⟩ valid).Splits start rest := ⟨whole, rfl⟩
  rw [before?, dif_pos valid, (String.Pos.splits _).eq_left parts]

theorem isValid_boundary (s : String) (place : Nat) :
    String.Pos.Raw.IsValid s ⟨boundary s place⟩ := by
  induction place with
  | zero => exact String.Pos.Raw.isValid_zero
  | succ place ih =>
    rw [boundary]
    split
    · rename_i valid
      exact String.Pos.Raw.isValid_eq_true_iff.mp valid
    · exact ih

theorem boundary_le (s : String) (place : Nat) : boundary s place ≤ place := by
  induction place with
  | zero => exact Nat.le_refl 0
  | succ place ih =>
    rw [boundary]
    split
    · exact Nat.le_refl _
    · exact Nat.le_succ_of_le ih

theorem le_boundary (valid : String.Pos.Raw.IsValid s ⟨place⟩) (h : place ≤ limit) :
    place ≤ boundary s limit := by
  induction limit with
  | zero => exact h
  | succ limit ih =>
    rw [boundary]
    split
    · exact h
    · rename_i inner
      rcases Nat.le_succ_iff.mp h with before | rfl
      · exact ih before
      · exact absurd (String.Pos.Raw.isValid_eq_true_iff.mpr valid) inner

theorem boundary_eq (s : String) (limit : Nat) :
    boundary s limit = (opening limit s).utf8ByteSize := by
  have longest := isLongestStart_opening limit s
  apply Nat.le_antisymm
  -- What stands before the boundary is itself a start that fits.
  · obtain ⟨start, starts, size⟩ := isValid_iff.mp (isValid_boundary s limit)
    have fits : start.utf8ByteSize ≤ limit := size ▸ boundary_le s limit
    obtain ⟨rest, more⟩ := exists_eq_append (longest.longest start starts fits)
    rw [← size, more, String.utf8ByteSize_append]
    exact Nat.le_add_right _ _
  · exact le_boundary (isValid_iff.mpr ⟨_, longest.starts, rfl⟩) longest.fits

/-- Going back from the limit ends at a place where the text can be cut, and takes the same. -/
theorem cutBack?_eq (s : String) (limit : Nat) : cutBack? s limit = some (opening limit s) := by
  rw [cutBack?]
  split
  · rename_i fits
    rw [opening_eq_self_iff.mpr fits]
  · rw [boundary_eq, before?_eq_some (isLongestStart_opening limit s).starts]

end Text

namespace Monitor.Tracer

open SqlClient.Text

variable {t : Tracer} {limit : Nat} {s : String}

theorem shorten_of_unlimited (h : t.maxBytes = none) (s : String) : t.shorten s = s := by
  rw [shorten, h]

theorem shorten_of_le (h : t.maxBytes = some limit) (fits : s.utf8ByteSize ≤ limit) :
    t.shorten s = s := by
  rw [shorten, h]
  exact if_neg (by rw [byteLength_toList]; omega)

theorem shorten_of_lt (h : t.maxBytes = some limit) (long : limit < s.utf8ByteSize) :
    t.shorten s = opening limit s ++ "..." := by
  rw [shorten, h]
  exact if_pos (by rwa [byteLength_toList])

/-- The longest start of whole characters within a limit is found by going back from the limit, in
three steps at most and to a place between characters. A tracer shows a statement unchanged just if
there is no limit, or the statement is within it, or three points are all that stands behind that
start; of a statement beyond the limit it shows that start and three points. -/
theorem shorten_opens (t : Tracer) (s : String) :
    (∀ limit, IsLongestStart limit s (opening limit s) ∧
      cutBack? s limit = some (opening limit s) ∧
      String.Pos.Raw.IsValid s ⟨boundary s limit⟩ ∧
      (limit < s.utf8ByteSize → limit ≤ boundary s limit + 3)) ∧
    (t.shorten s = s ↔ t.maxBytes = none ∨ ∃ limit, t.maxBytes = some limit ∧
      (s.utf8ByteSize ≤ limit ∨ s = opening limit s ++ "...")) ∧
    ∀ limit, t.maxBytes = some limit → limit < s.utf8ByteSize →
      t.shorten s = opening limit s ++ "..." := by
  refine ⟨fun limit => ?_, ⟨fun same => ?_, ?_⟩, fun limit h long => shorten_of_lt h long⟩
  · refine ⟨isLongestStart_opening limit s, cutBack?_eq s limit, isValid_boundary s limit, ?_⟩
    rw [boundary_eq]
    exact le_utf8ByteSize_opening
  · cases h : t.maxBytes with
    | none => exact .inl rfl
    | some limit =>
      rcases Nat.lt_or_ge limit s.utf8ByteSize with long | fits
      · exact .inr ⟨limit, rfl, .inr (same.symm.trans (shorten_of_lt h long))⟩
      · exact .inr ⟨limit, rfl, .inl fits⟩
  · rintro (unlimited | ⟨limit, h, fits | opened⟩)
    · exact shorten_of_unlimited unlimited s
    · exact shorten_of_le h fits
    · rcases Nat.lt_or_ge limit s.utf8ByteSize with long | fits
      · exact (shorten_of_lt h long).trans opened.symm
      · exact shorten_of_le h fits

/-- A character of two bytes at the limit is left out. -/
theorem shorten_opens_between :
    let t : Tracer := { maxBytes := some 2 }
    t.maxBytes = some 2 ∧ 2 < "héllo".utf8ByteSize ∧ boundary "héllo" 2 = 1 ∧
      cutBack? "héllo" 2 = some "h" ∧ t.shorten "héllo" = "h..." ∧ t.shorten "héllo" ≠ "héllo" := by
  intro t
  obtain ⟨starts, unchanged, cut⟩ := shorten_opens t "héllo"
  have long : 2 < "héllo".utf8ByteSize := by decide
  have start : opening 2 "héllo" = "h" := by decide +kernel
  have shown : t.shorten "héllo" = "h..." := (cut 2 rfl long).trans (by rw [start]; decide +kernel)
  refine ⟨rfl, long, by decide, (starts 2).2.1.trans (congrArg some start), shown, ?_⟩
  rw [Ne, unchanged]
  rintro (unlimited | ⟨limit, ⟨⟩, fits | opened⟩)
  · cases unlimited
  · exact absurd fits (by decide)
  · rw [start] at opened
    exact absurd opened (by decide +kernel)

/-- A text of eleven bytes is shown unchanged under a limit of eight: its last three are cut off,
and they are points as those that take their place. -/
theorem points_put_back :
    let t : Tracer := { maxBytes := some 8 }
    let s := "SELECT 1..."
    ¬ (t.shorten s = s ↔
      t.maxBytes = none ∨ ∃ limit, t.maxBytes = some limit ∧ s.utf8ByteSize ≤ limit) := by
  intro t s h
  have same : t.shorten s = s := by decide +kernel
  rcases h.mp same with unlimited | ⟨limit, ⟨⟩, fits⟩
  · cases unlimited
  · exact absurd fits (by decide)

end Monitor.Tracer

end SqlClient
