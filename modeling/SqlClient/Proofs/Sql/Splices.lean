import SqlClient.Proofs.Sql.Inserts
/-!
# Splices and templates

A fragment in a slot compiles as if its spans and slots were written out there. A slot is named by
the way to it: the slots to go into from the outside, and its own place among the slots of the
fragment reached. A template that is written with doubled braces and markers between the spans is
cut into the same spans again: cutting takes two characters at every brace of it, so a brace of the
text beside a marker is never taken for a part of the marker.
-/
namespace SqlClient.Sql

namespace Fragment

/-- Spans one after the other; the last of the first and the first of the second become one. -/
def joinSpans : List String → List String → List String
  | [], us => us
  | [t], [] => [t]
  | [t], u :: us => (t ++ u) :: us
  | t :: t' :: ts, us => t :: joinSpans (t' :: ts) us

def nested? (f : Fragment) (slot : Nat) : Option Fragment :=
  match f.slots[slot]? with
  | some (.fragment g) => some g
  | _ => none

def reached? : List Nat → Fragment → Option Fragment
  | [], f => some f
  | slot :: way, f => (f.nested? slot).bind (reached? way)

/-- A slot replaced by the spans and slots of the fragment in it. -/
def written? (slot : Nat) (f : Fragment) : Option Fragment :=
  (f.nested? slot).bind fun g =>
    (ofParts
      (joinSpans (joinSpans (f.texts.take (slot + 1)) g.texts) (f.texts.drop (slot + 1)))
      (f.slots.take slot ++ g.slots ++ f.slots.drop (slot + 1))).toOption

def writtenAt? (slot : Nat) : List Nat → Fragment → Option Fragment
  | [], f => f.written? slot
  | outer :: way, f =>
    (f.nested? outer).bind fun g => (writtenAt? slot way g).bind fun g' =>
      (ofParts f.texts (f.slots.set outer (.fragment g'))).toOption

def around (before inner after : Fragment) : Fragment :=
  before.extend fun t => .splice t inner after

section Parts

variable (f g before inner after : Fragment)

theorem texts_precede (t : String) : joinSpans [t] f.texts = (f.precede t).texts := by
  cases f <;> rfl

theorem slots_precede (t : String) : (f.precede t).slots = f.slots := by
  cases f <;> rfl

theorem joinSpans_cons (t : String) (us : List String) :
    joinSpans (t :: f.texts) us = t :: joinSpans f.texts us := by
  cases f <;> rfl

theorem texts_append : (f ++ g).texts = joinSpans f.texts g.texts := by
  change (f.extend fun t => g.precede t).texts = _
  induction f with
  | text t => exact (texts_precede g t).symm
  | bind t v rest ih => rw [extend, texts, ih, texts, joinSpans_cons]
  | splice t inner rest _ ih => rw [extend, texts, ih, texts, joinSpans_cons]

theorem slots_append : (f ++ g).slots = f.slots ++ g.slots := by
  change (f.extend fun t => g.precede t).slots = _
  induction f with
  | text t => exact slots_precede g t
  | bind t v rest ih => rw [extend, slots, ih, slots, List.cons_append]
  | splice t inner rest _ ih => rw [extend, slots, ih, slots, List.cons_append]

theorem texts_around : (around before inner after).texts = before.texts ++ after.texts := by
  change (before.extend _).texts = _
  induction before with
  | text t => rfl
  | bind t v rest ih => rw [extend, texts, ih, texts, List.cons_append]
  | splice t g rest _ ih => rw [extend, texts, ih, texts, List.cons_append]

theorem slots_around :
    (around before inner after).slots = before.slots ++ .fragment inner :: after.slots := by
  change (before.extend _).slots = _
  induction before with
  | text t => rfl
  | bind t v rest ih => rw [extend, slots, ih, slots, List.cons_append]
  | splice t g rest _ ih => rw [extend, slots, ih, slots, List.cons_append]

/-- A fragment is its spans and slots. -/
theorem ofParts_parts : ofParts f.texts f.slots = .ok f := by
  have pairs : ∃ first rest, f.texts = first :: rest ∧ rest.length = f.slots.length ∧
      ofPairs first (f.slots.zip rest) = f := by
    induction f with
    | text t => exact ⟨t, [], rfl, rfl, rfl⟩
    | bind t v rest ih =>
      obtain ⟨first, spans, ht, hl, hp⟩ := ih
      refine ⟨t, rest.texts, rfl, ?_, ?_⟩
      · rw [ht, List.length_cons, hl, slots, List.length_cons]
      · rw [ht, slots, List.zip_cons_cons, ofPairs, hp]
    | splice t inner rest _ ih =>
      obtain ⟨first, spans, ht, hl, hp⟩ := ih
      refine ⟨t, rest.texts, rfl, ?_, ?_⟩
      · rw [ht, List.length_cons, hl, slots, List.length_cons]
      · rw [ht, slots, List.zip_cons_cons, ofPairs, hp]
  obtain ⟨first, rest, ht, hl, hp⟩ := pairs
  rw [ht, ofParts, if_pos hl, hp]

end Parts

section Compile

variable {f g : Fragment}

/-- A fragment in a slot has something before and after it. -/
theorem exists_around {slot : Nat} (h : f.nested? slot = some g) :
    ∃ before after, f = around before g after ∧ before.slots.length = slot := by
  have held : f.slots[slot]? = some (.fragment g) := by
    rw [nested?] at h
    split at h
    · rename_i inner found
      cases h
      exact found
    · cases h
  clear h
  induction f generalizing slot with
  | text t => cases held
  | bind t v rest ih =>
    cases slot with
    | zero => cases held
    | succ slot =>
      obtain ⟨before, after, hr, hl⟩ := ih held
      refine ⟨.bind t v before, after, ?_, ?_⟩
      · rw [hr]
        rfl
      · rw [slots, List.length_cons, hl]
  | splice t inner rest _ ih =>
    cases slot with
    | zero =>
      cases held
      exact ⟨.text t, rest, rfl, rfl⟩
    | succ slot =>
      obtain ⟨before, after, hr, hl⟩ := ih held
      refine ⟨.splice t inner before, after, ?_, ?_⟩
      · rw [hr]
        rfl
      · rw [slots, List.length_cons, hl]

/-- Two fragments of the same values and text, whatever number the first value has. -/
def SameSpelling (f g : Fragment) : Prop :=
  f.values = g.values ∧ ∀ next, Mark.spell (f.marks next) = Mark.spell (g.marks next)

theorem SameSpelling.compile_eq (h : f.SameSpelling g) : f.compile = g.compile := by
  have text : f.compile.text = g.compile.text := by
    rw [text_compile, text_compile, h.2]
  have params : f.compile.params = g.compile.params := by
    rw [params_compile, params_compile, h.1]
  calc f.compile = ⟨f.compile.text, f.compile.params⟩ := rfl
    _ = g.compile := by rw [text, params]

theorem values_around (before inner after : Fragment) :
    (around before inner after).values = before.values ++ (inner.values ++ after.values) := by
  change (before.extend _).values = _
  induction before with
  | text t => rfl
  | bind t v rest ih => rw [extend, values, ih, values, List.cons_append]
  | splice t g rest _ ih => rw [extend, values, ih, values, List.append_assoc]

theorem spell_around (before inner after : Fragment) (next : Nat) :
    Mark.spell ((around before inner after).marks next) =
      Mark.spell (before.marks next) ++
        (Mark.spell (inner.marks (next + before.values.length)) ++
          Mark.spell (after.marks (next + before.values.length + inner.values.length))) := by
  change Mark.spell ((before.extend _).marks next) = _
  induction before generalizing next with
  | text t => simp [extend, marks, values]
  | bind t v rest ih =>
    have hn : next + 1 + rest.values.length = next + (rest.values.length + 1) := by omega
    simp [extend, marks, values, ih, hn]
  | splice t g rest _ ih => simp [extend, marks, values, ih, Nat.add_assoc]

/-- Written out in its place, a fragment spells what it spells in a slot. -/
theorem sameSpelling_append (before inner after : Fragment) :
    (before ++ inner ++ after).SameSpelling (around before inner after) := by
  constructor
  · rw [values_append, values_append, values_around, List.append_assoc]
  · intro next
    rw [spell_append, spell_append, spell_around, values_append, List.length_append,
      List.append_assoc, Nat.add_assoc]

theorem SameSpelling.around (h : f.SameSpelling g) (before after : Fragment) :
    (around before f after).SameSpelling (around before g after) := by
  constructor
  · rw [values_around, values_around, h.1]
  · intro next
    rw [spell_around, spell_around, h.2, h.1]

theorem nested?_around (before inner after : Fragment) :
    (around before inner after).nested? before.slots.length = some inner := by
  rw [nested?, slots_around, List.getElem?_append_right le_rfl, Nat.sub_self]
  rfl

/-- The spans and slots around a fragment, with its own between them. -/
theorem ofParts_around (before inner after : Fragment) :
    let f := around before inner after
    let slot := before.slots.length
    ofParts (joinSpans (joinSpans (f.texts.take (slot + 1)) inner.texts) (f.texts.drop (slot + 1)))
      (f.slots.take slot ++ inner.slots ++ f.slots.drop (slot + 1)) =
        .ok (before ++ inner ++ after) := by
  intro f slot
  have texts : joinSpans (joinSpans (f.texts.take (slot + 1)) inner.texts)
      (f.texts.drop (slot + 1)) = (before ++ inner ++ after).texts := by
    rw [texts_around, ← length_texts, List.take_left, List.drop_left, texts_append, texts_append]
  have slots : f.slots.take slot ++ inner.slots ++ f.slots.drop (slot + 1) =
      (before ++ inner ++ after).slots := by
    rw [slots_around, List.take_left, List.drop_length_add_append, slots_append, slots_append]
    rfl
  rw [texts, slots, ofParts_parts]

theorem ofParts_set (before inner after g : Fragment) :
    ofParts (around before inner after).texts
      ((around before inner after).slots.set before.slots.length (.fragment g)) =
        .ok (around before g after) := by
  have replaced : (around before inner after).slots.set before.slots.length (.fragment g) =
      (around before g after).slots := by
    rw [slots_around, slots_around, List.set_append_right _ _ le_rfl, Nat.sub_self]
    rfl
  have same : (around before inner after).texts = (around before g after).texts := by
    rw [texts_around, texts_around]
  rw [replaced, same, ofParts_parts]

theorem written?_sameSpelling {slot : Nat} (h : f.nested? slot = some g) :
    ∃ f', f.written? slot = some f' ∧ f'.SameSpelling f := by
  obtain ⟨before, after, rfl, rfl⟩ := exists_around h
  refine ⟨before ++ g ++ after, ?_, sameSpelling_append before g after⟩
  rw [written?, nested?_around]
  exact congrArg Except.toOption (ofParts_around before g after)

/-- Induction on the way to the slot: what is around it stays as it is. -/
theorem writtenAt?_sameSpelling {slot : Nat} {way : List Nat}
    (h : (reached? way f).bind (·.nested? slot) = some g) :
    ∃ f', writtenAt? slot way f = some f' ∧ f'.SameSpelling f := by
  induction way generalizing f with
  | nil => exact written?_sameSpelling h
  | cons outer way ih =>
    rw [reached?, Option.bind_assoc] at h
    obtain ⟨inner, entered, rest⟩ := Option.bind_eq_some_iff.mp h
    obtain ⟨inner', out, same⟩ := ih rest
    obtain ⟨before, after, rfl, rfl⟩ := exists_around entered
    refine ⟨around before inner' after, ?_, same.around before after⟩
    rw [writtenAt?, entered]
    dsimp only [Option.bind]
    rw [out]
    dsimp only
    rw [ofParts_set]
    rfl

end Compile

section Parts

variable {f q : Fragment} {texts : List String} {slots : List Slot}

theorem parts_ofPairs (t : String) (pairs : List (Slot × String)) :
    (ofPairs t pairs).texts = t :: pairs.map Prod.snd ∧
      (ofPairs t pairs).slots = pairs.map Prod.fst := by
  induction pairs generalizing t with
  | nil => exact ⟨rfl, rfl⟩
  | cons p pairs ih =>
    obtain ⟨slot, next⟩ := p
    obtain ⟨ht, hs⟩ := ih next
    cases slot with
    | param v => exact ⟨congrArg (t :: ·) ht, congrArg (Slot.param v :: ·) hs⟩
    | fragment g => exact ⟨congrArg (t :: ·) ht, congrArg (Slot.fragment g :: ·) hs⟩

theorem parts_of_ofParts (h : ofParts texts slots = .ok f) : f.texts = texts ∧ f.slots = slots := by
  cases texts with
  | nil => cases h
  | cons first rest =>
    rw [ofParts] at h
    split at h
    · rename_i hl
      cases h
      obtain ⟨ht, hs⟩ := parts_ofPairs first (slots.zip rest)
      constructor
      · rw [ht, List.map_snd_zip hl.le]
      · rw [hs, List.map_fst_zip hl.ge]
    · cases h

/-- The parts of a fragment, with a fragment in one of its slots written out. -/
theorem compile_parts {before after : List Slot}
    (h : ofParts texts (before ++ .fragment q :: after) = .ok f) :
    ∃ f', ofParts (joinSpans (joinSpans (texts.take (before.length + 1)) q.texts)
      (texts.drop (before.length + 1))) (before ++ q.slots ++ after) = .ok f' ∧
        f'.compile = f.compile := by
  obtain ⟨rfl, hs⟩ := parts_of_ofParts h
  have held : f.nested? before.length = some q := by
    rw [nested?, hs, List.getElem?_append_right le_rfl, Nat.sub_self]
    rfl
  obtain ⟨head, tail, rfl, hl⟩ := exists_around held
  refine ⟨head ++ q ++ tail, ?_, (sameSpelling_append head q tail).compile_eq⟩
  have out := ofParts_around head q tail
  dsimp only at out
  rw [hl, hs, List.take_left, List.drop_length_add_append] at out
  exact out

end Parts

def Flat (f : Fragment) : Prop := f.slots = f.values.map Slot.param

section Flat

variable {f g : Fragment}

theorem flat_text (t : String) : (text t).Flat := rfl

theorem Flat.precede (h : f.Flat) (t : String) : (f.precede t).Flat := by
  rw [Flat, slots_precede, values_precede]
  exact h

theorem Flat.append (hf : f.Flat) (hg : g.Flat) : (f ++ g).Flat := by
  rw [Flat, slots_append, values_append, List.map_append, hf, hg]

theorem flat_commas {fs : List Fragment} (h : ∀ f ∈ fs, f.Flat) : (commas fs).Flat := by
  match fs, h with
  | [], _ => exact flat_text ""
  | [f], h => exact h f List.mem_cons_self
  | f :: g :: fs, h =>
    have rest : (commas (g :: fs)).Flat := flat_commas fun x hx => h x (List.mem_cons_of_mem f hx)
    exact (h f List.mem_cons_self).append (rest.precede ", ")

end Flat

end Fragment

namespace Insert

variable {table : IdentPath} {rows : List Record} {returning : List String}

open Fragment

theorem flat_names (names : List String) : (Fragment.commas (names.map quotedName)).Flat := by
  apply flat_commas
  intro f hf
  obtain ⟨s, -, rfl⟩ := List.mem_map.mp hf
  exact flat_text _

theorem flat_cell (row : Record) (column : String) : (cell row column).Flat := by
  rw [cell]
  cases row.get? column with
  | none => exact flat_text "DEFAULT"
  | some v => exact rfl

theorem flat_tuple (columns : List String) (row : Record) : (tuple columns row).Flat := by
  have cells : (Fragment.commas (columns.map (cell row))).Flat := by
    apply flat_commas
    intro f hf
    obtain ⟨column, -, rfl⟩ := List.mem_map.mp hf
    exact flat_cell row column
  exact ((flat_text "(").append cells).append (flat_text ")")

theorem flat_body (columns : List String) (rows : List Record) : (body columns rows).Flat := by
  have tuples : (Fragment.commas (rows.map (tuple columns))).Flat := by
    apply flat_commas
    intro f hf
    obtain ⟨row, -, rfl⟩ := List.mem_map.mp hf
    exact flat_tuple columns row
  rw [body]
  split
  · exact flat_text "\nDEFAULT VALUES"
  · have names := ((flat_text " (").append (flat_names columns)).append (flat_text ")\nVALUES ")
    exact names.append tuples

theorem flat_returningClause (returning : List String) : (returningClause returning).Flat := by
  rw [returningClause]
  apply (flat_text "\nRETURNING ").append
  split
  · exact flat_text "*"
  · exact flat_names returning

/-- An insert is text and values: no slot of it holds a fragment. -/
theorem flat_fragment {casing : Casing.RowCasing} {q : Fragment}
    (h : fragment table rows returning casing = .ok q) : q.Flat := by
  rw [fragment, build] at h
  split_ifs at h
  cases h
  apply Flat.append
  · exact ((flat_text "INSERT INTO ").append (flat_text table.quoted)).append (flat_body _ _)
  · exact flat_returningClause returning

end Insert

namespace Fragment

/-- A fragment compiles to the same statement when any slot that holds a fragment is replaced by
that fragment's own spans and slots, however deep the slot lies. In particular an insert in a slot
of a template, whatever the slots around it, can be written out as its text and its values. -/
theorem compile_written :
    (∀ (f g : Fragment) (way : List Nat) (slot : Nat),
      (reached? way f).bind (·.nested? slot) = some g →
        ∃ f', writtenAt? slot way f = some f' ∧ f'.compile = f.compile) ∧
    (∀ (table : IdentPath) (rows : List Record) (returning : List String)
      (casing : Casing.RowCasing) (q : Fragment),
      Insert.fragment table rows returning casing = .ok q →
      ∀ (texts : List String) (before after : List Slot) (f : Fragment),
        ofParts texts (before ++ .fragment q :: after) = .ok f →
        ∃ f', ofParts (joinSpans (joinSpans (texts.take (before.length + 1)) q.texts)
          (texts.drop (before.length + 1))) (before ++ q.values.map .param ++ after) = .ok f' ∧
            f'.compile = f.compile) := by
  constructor
  · intro f g way slot h
    obtain ⟨f', out, same⟩ := writtenAt?_sameSpelling h
    exact ⟨f', out, same.compile_eq⟩
  · intro table rows returning casing q hq texts before after f h
    rw [← Insert.flat_fragment hq]
    exact compile_parts h

/-- An empty fragment beside a nested one, two slots deep, and an insert behind a parameter. -/
theorem compile_written_adjacent :
    let leaf : Fragment := .bind "b = " (.int 2) (.text "")
    let f : Fragment := .bind "a = " (.int 1)
      (.splice " AND " (.splice "" (.text "") (.splice "" leaf (.text "\n"))) (.text " LIMIT 1"))
    let table : IdentPath := .name "t"
    let rows : List Record := [.ofList [("k", .null)]]
    (reached? [1] f).bind (·.nested? 1) = some leaf ∧
      (∃ f', writtenAt? 1 [1] f = some f' ∧ f'.compile = f.compile) ∧
      ∃ q g g', Insert.fragment table rows [] .camel = .ok q ∧
        ofTemplate "WITH n AS (SELECT {}), i AS ({}) TABLE i" [.param .null, .fragment q] = .ok g ∧
        ofParts (joinSpans (joinSpans ["WITH n AS (SELECT ", "), i AS ("] q.texts) [") TABLE i"])
          (.param .null :: q.values.map .param) = .ok g' ∧ g'.compile = g.compile := by
  intro leaf f table rows
  have held : (reached? [1] f).bind (·.nested? 1) = some leaf := rfl
  obtain ⟨every, inserts⟩ := compile_written
  refine ⟨held, every f leaf [1] 1 held, ?_⟩
  obtain ⟨q, hq⟩ : ∃ q, Insert.fragment table rows [] .camel = .ok q := ⟨_, rfl⟩
  obtain ⟨g, hg⟩ : ∃ g, ofTemplate "WITH n AS (SELECT {}), i AS ({}) TABLE i"
      [.param .null, .fragment q] = .ok g := ⟨_, rfl⟩
  obtain ⟨g', out, same⟩ := inserts _ _ _ _ q hq _ [.param .null] [] g hg
  rw [List.append_nil] at out
  exact ⟨q, g, g', hq, hg, out, same⟩

end Fragment

namespace Template

def written (spans : List String) : String := String.ofList (write (spans.map String.toList))

@[simp] theorem split_marker (rest : List Char) :
    split ('\x7b' :: '\x7d' :: rest) = [] :: split rest := rfl

theorem split_ne_nil (cs : List Char) : split cs ≠ [] := by
  have filled (c : Char) (spans : List (List Char)) : consHead c spans ≠ [] := by
    cases spans <;> exact List.cons_ne_nil _ _
  fun_cases split cs
  · exact List.cons_ne_nil _ _
  · exact filled _ _
  · exact filled _ _
  · exact List.cons_ne_nil _ _
  · exact filled _ _

theorem consHead_eq_modifyHead (c : Char) {spans : List (List Char)} (h : spans ≠ []) :
    consHead c spans = spans.modifyHead (c :: ·) := by
  obtain ⟨span, rest, rfl⟩ := List.exists_cons_of_ne_nil h
  rfl

/-- A character is read back from its escape, whatever follows. -/
theorem split_escape_cons (c : Char) (rest : List Char) :
    split (escape [c] ++ rest) = (split rest).modifyHead (c :: ·) := by
  rw [← consHead_eq_modifyHead c (split_ne_nil rest)]
  by_cases hl : c = '\x7b'
  · subst hl
    rfl
  · by_cases hr : c = '\x7d'
    · subst hr
      rfl
    · simp [escape, split, hl, hr]

/-- Escaped text is read into the first of the spans that follow. -/
theorem split_escape_append (cs rest : List Char) :
    split (escape cs ++ rest) = (split rest).modifyHead (cs ++ ·) := by
  induction cs with
  | nil => cases h : split rest <;> simp [escape, h]
  | cons c cs ih =>
    have parts : escape (c :: cs) = escape [c] ++ escape cs := by simp [escape]
    rw [parts, List.append_assoc, split_escape_cons, ih, List.modifyHead_modifyHead]
    rfl

/-- Induction on the spans after the first: the marker behind it ends the text that is read. -/
theorem split_write (first : List Char) (rest : List (List Char)) :
    split (write (first :: rest)) = first :: rest := by
  induction rest generalizing first with
  | nil =>
    have ends := split_escape_append first []
    simpa [write, split] using ends
  | cons next rest ih =>
    have parts : write (first :: next :: rest) =
        escape first ++ '\x7b' :: '\x7d' :: write (next :: rest) := by
      simp [write, List.intercalate_cons_cons]
    rw [parts, split_escape_append, split_marker, ih, List.modifyHead_cons, List.append_nil]

theorem spans_written (first : String) (rest : List String) :
    spans (written (first :: rest)) = first :: rest := by
  rw [spans, written, String.toList_ofList, List.map_cons, split_write, List.map_cons,
    String.ofList_toList, List.map_map]
  simp [Function.comp_def]

theorem written_spans (template : String) : spans (written (spans template)) = spans template := by
  obtain ⟨first, rest, h⟩ := List.exists_cons_of_ne_nil (split_ne_nil template.toList)
  have cut : spans template = String.ofList first :: rest.map String.ofList := by
    rw [spans, h, List.map_cons]
  rw [cut, spans_written]

end Template

namespace Fragment

variable {texts : List String} {slots : List Slot}

theorem ofParts_eq_ok_iff {f : Fragment} :
    ofParts texts slots = .ok f ↔ f.texts = texts ∧ f.slots = slots := by
  constructor
  · exact parts_of_ofParts
  · rintro ⟨rfl, rfl⟩
    exact ofParts_parts f

theorem ofParts_eq_error_iff {first : String} {rest : List String} {m : SpanMismatch} :
    ofParts (first :: rest) slots = .error m ↔
      slots.length ≠ rest.length ∧ m = ⟨rest.length + 1, slots.length⟩ := by
  rw [ofParts]
  split
  · rename_i h
    simp [h]
  · rename_i h
    simp [eq_comm, h]

/-- Writing a template and cutting it are inverse: spans with any characters come back, so a
template so written is filled as its spans are, and is refused exactly when there is not one slot
for each marker. Written anew, any template has the spans that it had. -/
theorem ofTemplate_written :
    (∀ (first : String) (rest : List String) (slots : List Slot),
      let template := Template.written (first :: rest)
      Template.spans template = first :: rest ∧
      ofTemplate template slots = ofParts (first :: rest) slots ∧
      (∀ f, ofTemplate template slots = .ok f ↔ f.texts = first :: rest ∧ f.slots = slots) ∧
      ∀ m, ofTemplate template slots = .error m ↔
        slots.length ≠ rest.length ∧ m = ⟨rest.length + 1, slots.length⟩) ∧
    ∀ template : String,
      Template.spans (Template.written (Template.spans template)) = Template.spans template := by
  refine ⟨fun first rest slots => ?_, Template.written_spans⟩
  intro template
  have cut : Template.spans template = first :: rest := Template.spans_written first rest
  have same : ofTemplate template slots = ofParts (first :: rest) slots := by
    rw [ofTemplate, cut]
  refine ⟨cut, same, fun f => ?_, fun m => ?_⟩
  · rw [same]
    exact ofParts_eq_ok_iff
  · rw [same]
    exact ofParts_eq_error_iff

/-- Braces beside a marker, and a lone brace of a template that is not in the written form. -/
example : Template.spans (Template.written ["\x7b", "\x7d", ""]) = ["\x7b", "\x7d", ""] ∧
    Template.spans "\x7b\x7b\x7b\x7d\x7d" = ["\x7b", "\x7d"] := by decide

end Fragment

end SqlClient.Sql
