import SqlClient.Proofs.Sql.Marks
/-!
# Placeholders

A compiled fragment binds the values of the tree in reading order, and each value's placeholder
stands where the value was bound. Literal text without a `$`, and without a digit right after a
value, cannot be taken for a part of a placeholder: then the text alone tells them apart.
-/
namespace SqlClient.Sql.Fragment

def values : Fragment → List Value
  | .text _ => []
  | .bind _ v rest => v :: rest.values
  | .splice _ g rest => g.values ++ rest.values

def spans : Fragment → List String
  | .text t => [t]
  | .bind t _ rest => t :: rest.spans
  | .splice t g rest => t :: (g.spans ++ rest.spans)

/-- Literal text and placeholders in reading order, where the first value has number `next`. -/
def marks (next : Nat) : Fragment → List Mark
  | .text t => Mark.literal t.toList
  | .bind t _ rest => Mark.literal t.toList ++ .slot (Nat.toDigits 10 next) :: marks (next + 1) rest
  | .splice t g rest =>
    Mark.literal t.toList ++ (marks next g ++ marks (next + g.values.length) rest)

theorem length_values (f : Fragment) : f.values.length = f.paramCount := by
  induction f with
  | text => rfl
  | bind _ _ _ ih => simp [values, paramCount, ih]
  | splice _ _ _ ihg ihr => simp [values, paramCount, ihg, ihr]

theorem slots_marks (f : Fragment) (next : Nat) :
    Mark.slots (f.marks next) = (List.range' next f.values.length).map (Nat.toDigits 10) := by
  induction f generalizing next with
  | text => simp [marks, values]
  | bind _ _ rest ih => simp [marks, values, Mark.slots, ih, List.range'_succ]
  | splice _ g rest ihg ihr =>
    simp [marks, values, ihg, ihr, ← List.range'_append_1]

def pieceMarks (next : Nat) : List Piece → List Mark
  | [] => []
  | .text t :: rest => Mark.literal t.toList ++ pieceMarks next rest
  | .param _ :: rest => .slot (Nat.toDigits 10 next) :: pieceMarks (next + 1) rest

theorem flatten_numbered (ps : List Piece) (next : Nat) :
    (numbered next ps).flatten = Mark.spell (pieceMarks next ps) := by
  induction ps generalizing next with
  | nil => rfl
  | cons p ps ih => cases p <;> simp [numbered, pieceMarks, Mark.chars, placeholder, ih]

theorem params_consText (t : String) (ps : List Piece) : params (consText t ps) = params ps := by
  unfold consText
  split <;> rfl

theorem pieceMarks_consText (t : String) (ps : List Piece) (next : Nat) :
    pieceMarks next (consText t ps) = Mark.literal t.toList ++ pieceMarks next ps := by
  unfold consText
  split
  · rename_i h
    simp [String.isEmpty_iff.mp h, Mark.literal]
  · rfl

theorem params_piecesBefore (f : Fragment) (after : List Piece) :
    params (f.piecesBefore after) = f.values ++ params after := by
  induction f generalizing after with
  | text => simp [piecesBefore, params_consText, values]
  | bind _ _ _ ih => simp [piecesBefore, params_consText, params, values, ih]
  | splice _ _ _ ihg ihr => simp [piecesBefore, params_consText, values, ihg, ihr]

theorem pieceMarks_piecesBefore (f : Fragment) (after : List Piece) (next : Nat) :
    pieceMarks next (f.piecesBefore after) =
      f.marks next ++ pieceMarks (next + f.values.length) after := by
  induction f generalizing after next with
  | text => simp [piecesBefore, pieceMarks_consText, marks, values]
  | bind _ _ rest ih =>
    have hn : next + 1 + rest.values.length = next + (rest.values.length + 1) := by omega
    simp [piecesBefore, pieceMarks_consText, pieceMarks, marks, values, ih, hn]
  | splice _ _ _ ihg ihr =>
    simp [piecesBefore, pieceMarks_consText, marks, values, ihg, ihr, Nat.add_assoc]

theorem params_pieces (f : Fragment) : params f.pieces = f.values := by
  simp [pieces, params_piecesBefore, params]

theorem pieceMarks_pieces (f : Fragment) (next : Nat) :
    pieceMarks next f.pieces = f.marks next := by
  simp [pieces, pieceMarks_piecesBefore, pieceMarks]

theorem mem_consText {p : Piece} {t : String} {ps : List Piece} (h : p ∈ consText t ps) :
    p ∈ ps ∨ p = .text t ∧ t ≠ "" := by
  unfold consText at h
  split at h
  · exact .inl h
  · rename_i ht
    rcases List.mem_cons.mp h with rfl | h
    · exact .inr ⟨rfl, fun he => ht (String.isEmpty_iff.mpr he)⟩
    · exact .inl h

theorem mem_piecesBefore {f : Fragment} {after : List Piece} {t : String}
    (h : .text t ∈ f.piecesBefore after) : .text t ∈ after ∨ t ∈ f.spans ∧ t ≠ "" := by
  induction f generalizing after with
  | text s =>
    rcases mem_consText h with h | ⟨he, hn⟩
    · exact .inl h
    · obtain rfl := Piece.text.inj he
      exact .inr ⟨by simp [spans], hn⟩
  | bind s v rest ih =>
    rcases mem_consText h with h | ⟨he, hn⟩
    · rcases ih ((List.mem_cons.mp h).resolve_left nofun) with h | ⟨hs, hn⟩
      · exact .inl h
      · exact .inr ⟨by simp [spans, hs], hn⟩
    · obtain rfl := Piece.text.inj he
      exact .inr ⟨by simp [spans], hn⟩
  | splice s g rest ihg ihr =>
    rcases mem_consText h with h | ⟨he, hn⟩
    · rcases ihg h with h | ⟨hs, hn⟩
      · rcases ihr h with h | ⟨hs, hn⟩
        · exact .inl h
        · exact .inr ⟨by simp [spans, hs], hn⟩
      · exact .inr ⟨by simp [spans, hs], hn⟩
    · obtain rfl := Piece.text.inj he
      exact .inr ⟨by simp [spans], hn⟩

theorem mem_pieces {f : Fragment} {t : String} (h : .text t ∈ f.pieces) : t ∈ f.spans ∧ t ≠ "" :=
  (mem_piecesBefore h).resolve_left (List.not_mem_nil)

def Piece.Apart : Piece → Piece → Prop
  | .param _, .text t => ∀ c ∈ t.toList.head?, c.isDigit = false
  | _, _ => True

theorem wellFormed_slot (n : Nat) : (Mark.slot (Nat.toDigits 10 n)).WellFormed :=
  ⟨Nat.toDigits_ne_nil, fun _ hc => Nat.isDigit_of_mem_toDigits (by decide) (by decide) hc⟩

theorem wellFormed_pieceMarks (ps : List Piece) (next : Nat) :
    ∀ m ∈ pieceMarks next ps, m.WellFormed := by
  induction ps generalizing next with
  | nil => exact fun m hm => absurd hm List.not_mem_nil
  | cons p ps ih =>
    intro m hm
    cases p with
    | text t =>
      rcases List.mem_append.mp hm with hm | hm
      · obtain ⟨c, -, rfl⟩ := List.mem_map.mp hm
        trivial
      · exact ih next m hm
    | param v =>
      rcases List.mem_cons.mp hm with rfl | hm
      · exact wellFormed_slot next
      · exact ih (next + 1) m hm

theorem isChain_literal (cs : List Char) : (Mark.literal cs).IsChain Mark.Apart := by
  rw [Mark.literal, List.isChain_map]
  exact List.Pairwise.isChain (List.pairwise_of_forall fun _ _ => trivial)

theorem isChain_pieceMarks {ps : List Piece} (hn : ∀ t, .text t ∈ ps → t ≠ "")
    (h : ps.IsChain Piece.Apart) (next : Nat) : (pieceMarks next ps).IsChain Mark.Apart := by
  induction ps generalizing next with
  | nil => exact .nil
  | cons p ps ih =>
    have ih := ih (fun t ht => hn t (List.mem_cons_of_mem p ht)) h.tail
    cases p with
    | text t =>
      refine (isChain_literal t.toList).append (ih next) fun m hm _ _ => ?_
      obtain ⟨c, -, rfl⟩ := List.mem_map.mp (List.mem_of_mem_getLast? hm)
      trivial
    | param v =>
      refine (ih (next + 1)).cons fun m hm => ?_
      cases ps with
      | nil => simp [pieceMarks] at hm
      | cons q ps =>
        cases q with
        | param w =>
          obtain rfl : Mark.slot _ = m := by simpa [pieceMarks] using hm
          trivial
        | text t =>
          -- the text is not empty, so the mark that follows is its first character
          obtain ⟨c, cs, hc⟩ : ∃ c cs, t.toList = c :: cs :=
            List.exists_cons_of_ne_nil fun he => hn t (by simp) (String.toList_eq_nil_iff.mp he)
          obtain rfl : Mark.char c = m := by simpa [pieceMarks, Mark.literal, hc] using hm
          exact h.rel c (by simp [hc])

theorem char_mem_pieceMarks {c : Char} {ps : List Piece} {next : Nat}
    (h : .char c ∈ pieceMarks next ps) : ∃ t, .text t ∈ ps ∧ c ∈ t.toList := by
  induction ps generalizing next with
  | nil => exact absurd h List.not_mem_nil
  | cons p ps ih =>
    cases p with
    | text t =>
      rcases List.mem_append.mp h with h | h
      · obtain ⟨d, hd, he⟩ := List.mem_map.mp h
        exact ⟨t, List.mem_cons_self, Mark.char.inj he ▸ hd⟩
      · obtain ⟨s, hs, hc⟩ := ih h
        exact ⟨s, List.mem_cons_of_mem _ hs, hc⟩
    | param v =>
      obtain ⟨s, hs, hc⟩ := ih ((List.mem_cons.mp h).resolve_left nofun)
      exact ⟨s, List.mem_cons_of_mem _ hs, hc⟩

theorem wellFormed_marks (f : Fragment) (next : Nat) : ∀ m ∈ f.marks next, m.WellFormed :=
  pieceMarks_pieces f next ▸ wellFormed_pieceMarks f.pieces next

theorem scannable_marks {f : Fragment} (hs : ∀ t ∈ f.spans, '$' ∉ t.toList)
    (h : f.pieces.IsChain Piece.Apart) (next : Nat) : Mark.Scannable (f.marks next) := by
  refine ⟨wellFormed_marks f next, fun hm => ?_, ?_⟩
  · rw [← pieceMarks_pieces] at hm
    obtain ⟨t, ht, hc⟩ := char_mem_pieceMarks hm
    exact hs t (mem_pieces ht).1 hc
  · rw [← pieceMarks_pieces]
    exact isChain_pieceMarks (fun t ht => (mem_pieces ht).2) h next

theorem params_compile (f : Fragment) : f.compile.params = f.values := params_pieces f

theorem text_compile (f : Fragment) :
    f.compile.text = String.ofList (Text.tidyLines (Mark.spell (f.marks 1))) := by
  rw [compile, flatten_numbered, pieceMarks_pieces]

/-- The values are bound in reading order, and the text is the tidied literal text with the k-th of
them written as `$k`. If no literal text can be taken for a part of a placeholder, the placeholders
that are found in the text are `$1` to `$N`, each at the place of its value. -/
theorem compile_placeholders (f : Fragment) :
    f.compile.params = f.values ∧
    f.compile.params.length = f.paramCount ∧
    f.compile.text = String.ofList (Text.tidyLines (Mark.spell (f.marks 1))) ∧
    ((∀ t ∈ f.spans, '$' ∉ t.toList) → f.pieces.IsChain Piece.Apart →
      Mark.scan f.compile.text.toList = Mark.tidy (f.marks 1) ∧
      Mark.slots (Mark.scan f.compile.text.toList) =
        (List.range' 1 f.compile.params.length).map (Nat.toDigits 10)) := by
  refine ⟨params_compile f, by rw [params_compile, length_values], text_compile f, ?_⟩
  intro hs h
  have scanned : Mark.scan f.compile.text.toList = Mark.tidy (f.marks 1) := by
    rw [text_compile, String.toList_ofList, Mark.tidyLines_spell (wellFormed_marks f 1)]
    exact Mark.scan_spell (scannable_marks hs h 1).tidy
  refine ⟨scanned, ?_⟩
  rw [scanned, Mark.slots_tidy, slots_marks, params_compile]

theorem compile_placeholders_nested :
    let f : Fragment := .bind "a = " .null
      (.splice " AND b IN (" (.bind "" .null (.bind "" .null (.text ", 7)\n  ")))
        (.text "\nLIMIT 5"))
    (∀ t ∈ f.spans, '$' ∉ t.toList) ∧ f.pieces.IsChain Piece.Apart ∧
      Mark.slots (Mark.scan f.compile.text.toList) = [['1'], ['2'], ['3']] := by
  intro f
  have hs : ∀ t ∈ f.spans, '$' ∉ t.toList := by decide
  have h : f.pieces.IsChain Piece.Apart := by
    simp [f, pieces, piecesBefore, consText, Piece.Apart]
  have hc := ((compile_placeholders f).2.2.2 hs h).2
  exact ⟨hs, h, hc.trans (by rw [params_compile]; decide)⟩

end SqlClient.Sql.Fragment
