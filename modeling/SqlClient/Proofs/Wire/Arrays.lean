import SqlClient.Proofs.Wire.Writers
/-!
# Arrays on the wire

An array is sent as a header and a frame for each element. What the elements' readers make of the
frames is what is read back, element by element.
-/
namespace SqlClient.Wire

open Writer

/-- An element behind its length, which for `NULL` is minus one. -/
def frame : Option Bytes → Bytes
  | none => signedBytes 4 (-1)
  | some b => signedBytes 4 b.length ++ b

def Framable (cell : Option Bytes) : Prop := ∀ b ∈ cell, b.length < lengthLimit

def writtenAs : Option Bytes → Written
  | none => .null
  | some _ => .bytes

theorem run_patch {hole b : Bytes} (h : hole.length = b.length) (front tail : Bytes) :
    (patch front.length b : Writer EncodeError Unit).run (front ++ hole ++ tail) =
      (.ok (), front ++ b ++ tail) := by
  change (Except.ok (), (front ++ hole ++ tail).take front.length ++ b ++
    (front ++ hole ++ tail).drop (front.length + b.length)) = _
  have kept : (front ++ hole ++ tail).take front.length = front := by
    rw [List.append_assoc, List.take_left]
  have rest : (front ++ hole ++ tail).drop (front.length + b.length) = tail := by
    rw [← h, ← List.length_append, List.drop_left]
  rw [kept, rest]

section Framed

variable {w : Writing} {cell : Option Bytes} {out : Bytes}

theorem run_patch_length (i j : Int) (front tail : Bytes) :
    (patch front.length (signedBytes 4 j) : Writer EncodeError Unit).run
      (front ++ signedBytes 4 i ++ tail) = (.ok (), front ++ signedBytes 4 j ++ tail) :=
  run_patch ((length_signedBytes 4 i).trans (length_signedBytes 4 j).symm) front tail

theorem run_framed_error {e : EncodeError} (h : w.Whole) (he : w.result = .error e) :
    (framed w).run out = (.error e, out ++ signedBytes 4 0) := by
  change ((w >>= _) : Writing).run (out ++ signedBytes 4 0) = _
  rw [run_bind, h, he]
  rfl

theorem run_framed_null (h : w.Whole) (hr : w.result = .ok none) :
    (framed w).run out = (.ok .null, out ++ frame none) := by
  have patched := run_patch_length 0 (-1) out []
  rw [List.append_nil, List.append_nil] at patched
  change ((w >>= _) : Writing).run (out ++ signedBytes 4 0) = _
  rw [run_bind, h, hr]
  change ((patch out.length (signedBytes 4 (-1)) >>= fun _ => return .null) : Writing).run
    (out ++ signedBytes 4 0) = _
  rw [run_bind, patched]
  rfl

theorem run_framed_bytes {b : Bytes} (h : w.Whole) (hr : w.result = .ok (some b)) :
    (framed w).run out =
      if lengthLimit ≤ b.length then (.error .tooLarge, out ++ signedBytes 4 0 ++ b)
      else (.ok .bytes, out ++ frame (some b)) := by
  have patched := run_patch_length 0 b.length out b
  have length : (out ++ signedBytes 4 0 ++ b).length - out.length - 4 = b.length := by
    rw [List.length_append, List.length_append, length_signedBytes]
    omega
  change ((w >>= _) : Writing).run (out ++ signedBytes 4 0) = _
  rw [run_bind, h, hr]
  change ((do
      if lengthLimit ≤ (out ++ signedBytes 4 0 ++ b).length - out.length - 4 then throw .tooLarge
      patch out.length
        (signedBytes 4 ((out ++ signedBytes 4 0 ++ b).length - out.length - 4 : Nat))
      return .bytes) : Writing).run (out ++ signedBytes 4 0 ++ b) = _
  rw [length]
  by_cases hl : lengthLimit ≤ b.length
  · rw [if_pos hl, if_pos hl]
    rfl
  · rw [if_neg hl, if_neg hl]
    change ((patch out.length (signedBytes 4 b.length) >>= fun _ => return .bytes) : Writing).run
      (out ++ signedBytes 4 0 ++ b) = _
    rw [run_bind, patched, List.append_assoc]
    rfl

/-- A frame is written for what can be sent, and nothing else is. -/
theorem run_framed_eq_ok_iff (h : w.Whole) {r : Written} {out' : Bytes} :
    (framed w).run out = (.ok r, out') ↔ ∃ cell, w.result = .ok cell ∧ Framable cell ∧
      r = writtenAs cell ∧ out' = out ++ frame cell := by
  cases hr : w.result with
  | error e => simp [run_framed_error h hr]
  | ok cell =>
    cases cell with
    | none => simp [run_framed_null h hr, Framable, writtenAs, eq_comm]
    | some b =>
      rw [run_framed_bytes h hr]
      by_cases hl : lengthLimit ≤ b.length
      · simp [hl, Framable]
      · simp [hl, Framable, Nat.not_le.mp hl, writtenAs, eq_comm]

end Framed

variable {id : TypeName} {member : PgType}

def SentAs (member : PgType) (v : Value) (cell : Option Bytes) : Prop :=
  encode member v = .ok cell ∧ Framable cell

theorem framable_of_sent {items : List Value} {cells : List (Option Bytes)}
    (h : List.Forall₂ (SentAs member) items cells) : ∀ cell ∈ cells, Framable cell := by
  induction h with
  | nil => exact List.forall_mem_nil _
  | cons first _ ih => exact List.forall_mem_cons.mpr ⟨first.2, ih⟩

theorem run_writeItems (hm : member.isScalar) {items : List Value} {out out' : Bytes}
    {hasNulls : Bool} (h : (writeItems member items).run out = (.ok hasNulls, out')) :
    ∃ cells, List.Forall₂ (SentAs member) items cells ∧ hasNulls = cells.any Option.isNone ∧
      out' = out ++ cells.flatMap frame := by
  induction items generalizing out out' hasNulls with
  | nil =>
    rw [writeItems] at h
    cases h
    exact ⟨[], .nil, rfl, (List.append_nil _).symm⟩
  | cons v items ih =>
    rw [writeItems, run_bind] at h
    rcases hf : (framed (write member v)).run out with ⟨_ | r, b⟩
    · rw [hf] at h
      cases h
    · rw [hf] at h
      obtain ⟨cell, sent, framable, rfl, rfl⟩ :=
        (run_framed_eq_ok_iff (whole_write (.inl hm))).mp hf
      dsimp only at h
      rw [run_bind] at h
      rcases hi : (writeItems member items).run (out ++ frame cell) with ⟨_ | nulls, b⟩
      · rw [hi] at h
        cases h
      · rw [hi] at h
        obtain ⟨cells, each, rfl, rfl⟩ := ih hi
        cases h
        refine ⟨cell :: cells, .cons ⟨sent, framable⟩ each, ?_, ?_⟩
        · cases cell <;> rfl
        · rw [List.flatMap_cons, List.append_assoc]

theorem length_arrayHeader (type member : PgType) (hasNulls : Bool) (length : Nat) :
    (arrayHeader type member hasNulls length).length = 20 := by
  rw [arrayHeader]
  simp only [List.length_append, length_signedBytes, length_bigEndian]

theorem run_writeArray {type member : PgType} {length : Nat} {elements : Writer EncodeError Bool}
    (h : length < lengthLimit) (out : Bytes) : (writeArray type member length elements).run out =
      match elements.run (out ++ arrayHeader type member false length) with
      | (.ok hasNulls, b) =>
        (.ok .bytes, ((patch out.length (arrayHeader type member hasNulls length) :
          Writer EncodeError Unit).run b).2)
      | (.error e, b) => (.error e, b) := by
  rw [writeArray, if_neg (Nat.not_le.mpr h)]
  change ((elements >>= _) : Writing).run (out ++ arrayHeader type member false length) = _
  rw [run_bind]
  rcases elements.run (out ++ arrayHeader type member false length) with ⟨_ | hasNulls, b⟩ <;> rfl

/-- An array that is written is a header and a frame for each of its elements. -/
theorem run_array (hm : member.isScalar) {items : List Value} {out b : Bytes} {r : Written}
    (h : (write (.array id member) (.array items)).run out = (.ok r, b)) :
    items.length < lengthLimit ∧ ∃ cells, List.Forall₂ (SentAs member) items cells ∧
      r = .bytes ∧ b = out ++ (arrayHeader (.array id member) member (cells.any Option.isNone)
        items.length ++ cells.flatMap frame) := by
  have unfolded : write (.array id member) (.array items) =
      writeArray (.array id member) member items.length (writeItems member items) := by
    rw [write]
    rfl
  rw [unfolded] at h
  by_cases hl : items.length < lengthLimit
  · refine ⟨hl, ?_⟩
    rw [run_writeArray hl] at h
    rcases hi : (writeItems member items).run
      (out ++ arrayHeader (.array id member) member false items.length) with ⟨_ | nulls, b⟩
    · rw [hi] at h
      cases h
    · rw [hi] at h
      obtain ⟨cells, each, rfl, rfl⟩ := run_writeItems hm hi
      have patched := run_patch ((length_arrayHeader (.array id member) member false
        items.length).trans (length_arrayHeader (.array id member) member
          (cells.any Option.isNone) items.length).symm) out (cells.flatMap frame)
      dsimp only at h
      rw [patched] at h
      cases h
      exact ⟨cells, each, rfl, List.append_assoc _ _ _⟩
  · rw [writeArray, if_pos (Nat.not_lt.mp hl)] at h
    cases h

theorem encode_array (hm : member.isScalar) {items : List Value} {cell : Option Bytes}
    (h : encode (.array id member) (.array items) = .ok cell) :
    items.length < lengthLimit ∧ ∃ cells, List.Forall₂ (SentAs member) items cells ∧
      cell = some (arrayHeader (.array id member) member (cells.any Option.isNone) items.length ++
        cells.flatMap frame) := by
  rw [encode, Writing.result] at h
  rcases hw : (write (.array id member) (.array items)).run [] with ⟨_ | r, b⟩
  · rw [hw] at h
    cases h
  · rw [hw] at h
    obtain ⟨short, cells, sent, rfl, rfl⟩ := run_array hm hw
    cases h
    exact ⟨short, cells, sent, rfl⟩

section Reading

variable {α : Type} {read : Bytes → Option α}

def ReadAs (read : Bytes → Option α) : Option Bytes → Option α → Prop
  | none, a => a = none
  | some b, a => ∃ a', read b = some a' ∧ a = some a'

theorem fitsSigned_length {n : Nat} (h : n < lengthLimit) : fitsSigned 4 n = true := by
  rw [fitsSigned_iff]
  have : lengthLimit = signedLimit 4 := rfl
  omega

theorem readElements_frames {cells : List (Option Bytes)} {as : List (Option α)}
    (hf : ∀ cell ∈ cells, Framable cell) (h : List.Forall₂ (ReadAs read) cells as) :
    readElements read cells.length (cells.flatMap frame) = some as := by
  induction h with
  | nil => rfl
  | @cons cell a cells as first rest ih =>
    have later := ih fun c hc => hf c (List.mem_cons_of_mem _ hc)
    rw [List.length_cons, List.flatMap_cons, readElements]
    cases cell with
    | none =>
      obtain rfl : a = none := first
      rw [frame, takeInt_signedBytes (by decide)]
      simp [later]
    | some b =>
      obtain ⟨a, read, rfl⟩ := first
      have fits := fitsSigned_length (hf (some b) List.mem_cons_self b rfl)
      have enough : ¬ (b ++ cells.flatMap frame).length < b.length := by
        rw [List.length_append]
        omega
      rw [frame, List.append_assoc, takeInt_signedBytes fits]
      dsimp only [Option.bind_eq_bind, Option.bind_some]
      rw [if_neg (by omega), Int.toNat_natCast, if_neg enough, List.take_left, List.drop_left,
        read, later]
      rfl

theorem readArray_frames {type : PgType} {hasNulls : Bool} {cells : List (Option Bytes)}
    {as : List (Option α)} (hl : cells.length < lengthLimit)
    (hf : ∀ cell ∈ cells, Framable cell) (h : List.Forall₂ (ReadAs read) cells as) :
    readArray read (arrayHeader type member hasNulls cells.length ++ cells.flatMap frame) =
      some as := by
  have flag : fitsSigned 4 (if hasNulls then 1 else 0) = true := by cases hasNulls <;> decide
  have bound : fitsSigned 4
      (if type = .int2Vector || type = .oidVector then 0 else 1) = true := by
    split <;> decide
  rw [readArray, arrayHeader]
  simp only [List.append_assoc]
  rw [takeInt_signedBytes (by decide)]
  dsimp only [Option.bind_eq_bind, Option.bind_some]
  rw [takeInt_signedBytes flag]
  dsimp only [Option.bind_some]
  rw [takeInt_append (length_bigEndian 4 _)]
  dsimp only [Option.bind_some]
  rw [if_neg (by decide), if_pos rfl, takeInt_signedBytes (fitsSigned_length hl)]
  dsimp only [Option.bind_some]
  rw [takeInt_signedBytes bound]
  dsimp only [Option.bind_some]
  rw [if_neg (by omega), Int.toNat_natCast, readElements_frames hf h]

end Reading

end SqlClient.Wire
