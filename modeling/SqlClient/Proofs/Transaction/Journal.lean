import Mathlib.Data.List.Basic
import Mathlib.Data.List.TakeWhile
import SqlClient.Proofs.Driver.Requests
import SqlClient.Proofs.Transaction.Ledger
/-!
# Lost answers and journals of savepoints

A ledger whose answers may get lost: while it carries a request out, the call that waits for the
answer is dropped. Its journal says about savepoints that were discarded: every savepoint stands on
those of the scopes around its own, and if none of a scope's name was left over when it was opened,
all savepoints that it and the scopes inside it go back to were set later, and what was pending
before is spared. A scope that is rolled back leaves its savepoint behind, and then the name may
mean that one.
-/
namespace SqlClient

open SqlClient.Sql SqlClient.Ledger ScopeCommand Act

namespace Ledger

structure Turn where
  command : ScopeCommand
  before : Books
  after : Books
  deriving DecidableEq, Repr

def Books.saved (b : Books) : List Savepoint := (b.block.map Block.saved).getD []

def Books.pending (b : Books) : List Write := (b.block.map Block.pending).getD []

theorem Books.saved_abort (b : Books) : b.abort.saved = b.saved := by
  cases h : b.block <;> simp [abort, saved, h]

theorem Books.pending_abort (b : Books) : b.abort.pending = b.pending := by
  cases h : b.block <;> simp [abort, pending, h]

theorem Books.saved_record (w : Write) (b : Books) : (b.record w).saved = b.saved := by
  cases h : b.block <;> simp [record, saved, h]

theorem Books.pending_record (w : Write) (b : Books) : b.pending <+: (b.record w).pending := by
  cases h : b.block <;> simp [record, pending, h]

end Ledger

structure Lossy (γ : Type) where
  ledger : Ledger γ
  /-- For each request to come, at which level the call that waits for it is dropped, if it is. -/
  losses : List (Option Nat)
  /-- The last command first. -/
  journal : List Turn

namespace Lossy

variable {γ α : Type}

def serve (f : Ledger γ → Except ServerError α × Ledger γ) (l : Lossy γ) : Reply α × Lossy γ :=
  let (x, ledger) := f l.ledger
  (match l.losses.head?.join with
    | some level => .unanswered level
    | none => reply x, { l with ledger, losses := l.losses.tail })

def obey (c : ScopeCommand) (l : Ledger γ) : Except ServerError Unit × Ledger γ :=
  ((runCommand c l.books).1, { l with books := (runCommand c l.books).2 })

def command (c : ScopeCommand) (l : Lossy γ) : Reply Unit × Lossy γ :=
  let (reply, after) := l.serve (obey c)
  (reply, { after with journal := ⟨c, l.ledger.books, after.ledger.books⟩ :: l.journal })

def server (judge : Judge γ) : Server (Lossy γ) where
  connect _ l := (.ok (), l)
  prepare _ sql := serve (Ledger.prepare judge sql)
  execute _ sql params := serve (Ledger.execute judge ⟨sql, params⟩)
  batch _ := command

def new (memory : γ) (losses : List (Option Nat)) : Lossy γ := ⟨Ledger.new memory, losses, []⟩

end Lossy

namespace Ledger

theorem sinceSavepoint_eq_cons {name : String} {t : Block} {p : Savepoint}
    {before : List Savepoint} (h : sinceSavepoint name t = p :: before) :
    p.name = name ∧ ∃ upper, t.saved = upper ++ p :: before := by
  rw [sinceSavepoint] at h
  have first : t.saved.find? (fun q => !(q.name != name)) = some p := by
    rw [List.find?_not_eq_head?_dropWhile, h]
    rfl
  have whole := List.takeWhile_append_dropWhile (p := (·.name != name)) (l := t.saved)
  rw [h] at whole
  exact ⟨by simpa using List.find?_some first, _, whole.symm⟩

/-- What a command of a scope inside a transaction does to the books, if it is not refused: set its
savepoint, go back to the most recent one of its name, or remove it with all set after it. -/
inductive Effect (depth : Nat) (b : Books) :
    ScopeAction → Except ServerError Unit → Books → Prop where
  | refused {action : ScopeAction} {e : ServerError} {b' : Books} (saved : b'.saved = b.saved)
      (pending : b'.pending = b.pending) : Effect depth b action (.error e) b'
  | set {b' : Books} (saved : b'.saved = ⟨savepointName depth, b.pending⟩ :: b.saved)
      (pending : b'.pending = b.pending) : Effect depth b .begin (.ok ()) b'
  | back {upper before : List Savepoint} {p : Savepoint} {b' : Books}
      (named : p.name = savepointName depth) (stack : b.saved = upper ++ p :: before)
      (saved : b'.saved = p :: before) (pending : b'.pending = p.pending) :
      Effect depth b .rollback (.ok ()) b'
  | released {upper before : List Savepoint} {p : Savepoint} {b' : Books}
      (named : p.name = savepointName depth) (stack : b.saved = upper ++ p :: before)
      (saved : b'.saved = before) (pending : b'.pending = b.pending) :
      Effect depth b .commit (.ok ()) b'
  | discarded {upper before : List Savepoint} {p : Savepoint} {b' : Books}
      (named : p.name = savepointName depth) (stack : b.saved = upper ++ p :: before)
      (saved : b'.saved = before) (pending : b'.pending = p.pending) :
      Effect depth b .discard (.ok ()) b'

section Effect

variable {above : Nat} {b : Books}

theorem runControls_singleton (c : Control) : runControls [c] b = control b c := by
  rw [runControls]
  obtain ⟨x, b'⟩ := control b c
  cases x <;> rfl

theorem effect_changeBlock {action : ScopeAction} {f : Block → Except ServerError Block}
    (h : ∀ t t', b.block = some t → f t = .ok t' →
      Effect (above + 2) b action (.ok ()) { b with block := some t' }) :
    Effect (above + 2) b action (changeBlock f b).1 (changeBlock f b).2 := by
  rw [changeBlock]
  cases hb : b.block with
  | none => exact .refused rfl rfl
  | some t =>
    dsimp only
    cases hf : f t with
    | error e => exact .refused b.saved_abort b.pending_abort
    | ok t' => exact h t t' hb hf

theorem effect_savepoint : Effect (above + 2) b .begin
    (control b (.savepoint (savepointName (above + 2)))).1
    (control b (.savepoint (savepointName (above + 2)))).2 := by
  refine effect_changeBlock fun t t' hb hf => ?_
  split at hf
  · cases hf
  · cases hf
    exact .set (by simp [Books.saved, Books.pending, hb]) (by simp [Books.pending, hb])

theorem effect_rollbackTo : Effect (above + 2) b .rollback
    (control b (.rollbackTo (savepointName (above + 2)))).1
    (control b (.rollbackTo (savepointName (above + 2)))).2 := by
  refine effect_changeBlock fun t t' hb hf => ?_
  split at hf
  · cases hf
  · rename_i p before found
    cases hf
    obtain ⟨named, upper, stack⟩ := sinceSavepoint_eq_cons found
    exact .back named (by simpa [Books.saved, hb] using stack) rfl rfl

theorem effect_release : Effect (above + 2) b .commit
    (control b (.release (savepointName (above + 2)))).1
    (control b (.release (savepointName (above + 2)))).2 := by
  refine effect_changeBlock fun t t' hb hf => ?_
  split at hf
  · cases hf
  · split at hf
    · cases hf
    · rename_i p before found
      cases hf
      obtain ⟨named, upper, stack⟩ := sinceSavepoint_eq_cons found
      have stands : b.saved = upper ++ p :: before := by simpa [Books.saved, hb] using stack
      exact .released named stands rfl (by simp [Books.pending, hb])

/-- The savepoint that was gone back to is there to be removed. -/
theorem effect_discard {name : String} (hn : name = savepointName (above + 2)) :
    Effect (above + 2) b .discard (runControls [.rollbackTo name, .release name] b).1
      (runControls [.rollbackTo name, .release name] b).2 := by
  rw [runControls]
  cases hb : b.block with
  | none =>
    have refused : control b (.rollbackTo name) = (.error noTransaction, b) := by
      simp [control, changeBlock, hb]
    rw [refused]
    exact .refused rfl rfl
  | some t =>
    cases found : sinceSavepoint name t with
    | nil =>
      have refused : control b (.rollbackTo name) = (.error noSavepoint, b.abort) := by
        simp [control, changeBlock, hb, found]
      rw [refused]
      exact .refused b.saved_abort b.pending_abort
    | cons p before =>
      obtain ⟨named, upper, stack⟩ := sinceSavepoint_eq_cons found
      have back : control b (.rollbackTo name) =
          (.ok (), { b with block := some ⟨p :: before, p.pending, false⟩ }) := by
        simp [control, changeBlock, hb, found]
      have again : sinceSavepoint name ⟨p :: before, p.pending, false⟩ = p :: before := by
        simp [sinceSavepoint, named]
      have removed : control { b with block := some ⟨p :: before, p.pending, false⟩ }
          (.release name) = (.ok (), { b with block := some ⟨before, p.pending, false⟩ }) := by
        simp [control, changeBlock, again]
      rw [back]
      dsimp only
      rw [runControls_singleton, removed]
      exact .discarded (named.trans hn) (by simpa [Books.saved, hb] using stack) rfl rfl

theorem effect_run (action : ScopeAction) (above : Nat) (b : Books) :
    Effect (above + 2) b action (runCommand ⟨action, above + 2⟩ b).1
      (runCommand ⟨action, above + 2⟩ b).2 := by
  rw [runCommand_eq, controls, if_neg (by simp)]
  cases action with
  | begin => exact runControls_singleton _ ▸ effect_savepoint
  | commit => exact runControls_singleton _ ▸ effect_release
  | rollback => exact runControls_singleton _ ▸ effect_rollbackTo
  | discard => exact effect_discard rfl

/-- The commands of a transaction itself leave its savepoints, or end or begin it. -/
theorem saved_outermost (action : ScopeAction) {depth : Nat} (h : depth ≤ 1) :
    (runCommand ⟨action, depth⟩ b).2.saved = b.saved ∨
      (runCommand ⟨action, depth⟩ b).2.saved = [] := by
  rw [runCommand_eq, controls, if_pos h]
  cases action with
  | begin =>
    cases hb : b.block with
    | none => simp [runControls, control, hb, Books.saved]
    | some t => by_cases ha : t.aborted <;> simp [runControls, control, hb, ha, Books.saved]
  | commit => cases hb : b.block <;> simp [runControls, control, hb, Books.saved]
  | rollback => exact .inr rfl
  | discard => exact .inr rfl

end Effect

def Stands (depth : Nat) (saved : List Savepoint) : Prop :=
  ∃ p ∈ saved, p.name = savepointName depth

instance (depth : Nat) (saved : List Savepoint) : Decidable (Stands depth saved) :=
  inferInstanceAs (Decidable (∃ p ∈ saved, p.name = savepointName depth))

inductive Stacked : List Savepoint → Prop where
  | nil : Stacked []
  | cons {depth : Nat} {p : Savepoint} {before : List Savepoint}
      (named : p.name = savepointName depth)
      (around : ∀ d, 2 ≤ d → d < depth → Stands d before) (h : Stacked before) :
      Stacked (p :: before)

theorem Stands.mono {depth : Nat} {saved saved' : List Savepoint} (h : Stands depth saved)
    (hs : ∀ p ∈ saved, p ∈ saved') : Stands depth saved' := by
  obtain ⟨p, hp, named⟩ := h
  exact ⟨p, hs p hp, named⟩

theorem Stacked.of_append {upper before : List Savepoint} (h : Stacked (upper ++ before)) :
    Stacked before := by
  induction upper with
  | nil => exact h
  | cons q upper ih =>
    cases h with
    | cons _ _ h => exact ih h

theorem Stacked.around {depth d : Nat} {p : Savepoint} {before : List Savepoint}
    (h : Stacked (p :: before)) (named : p.name = savepointName depth) (hd : 2 ≤ d)
    (hlt : d < depth) : Stands d before := by
  cases h with
  | cons named' around _ => exact around d hd (savepointName_inj (named'.symm.trans named) ▸ hlt)

/-- Where a scope has no savepoint, none of the scopes inside it has one. -/
theorem Stacked.lt {depth d : Nat} {p : Savepoint} {saved : List Savepoint} (h : Stacked saved)
    (hp : p ∈ saved) (named : p.name = savepointName d) (hd : 2 ≤ depth)
    (free : ¬Stands depth saved) : d < depth := by
  by_contra hle
  rcases Nat.lt_or_ge depth d with hlt | hge
  · obtain ⟨upper, before, rfl⟩ := List.append_of_mem hp
    refine free ((h.of_append.around named hd hlt).mono ?_)
    exact fun q hq => List.mem_append_right _ (List.mem_cons_of_mem _ hq)
  · obtain rfl : d = depth := by omega
    exact free ⟨p, hp, named⟩

def opening? (depth : Nat) (journal : List Turn) : Option Turn :=
  journal.find? (·.command = ⟨.begin, depth⟩)

/-- What was pending when the scope at `depth` was opened is the start of this. -/
def Spared (depth : Nat) (pending : List Write) (journal : List Turn) : Prop :=
  ∃ opening, opening? depth journal = some opening ∧
    (¬Stands depth opening.before.saved → opening.before.pending <+: pending)

theorem opening?_cons {depth : Nat} {turn : Turn} {journal : List Turn}
    (other : turn.command ≠ ⟨.begin, depth⟩) :
    opening? depth (turn :: journal) = opening? depth journal :=
  List.find?_cons_of_neg (by simpa using other)

/-- No discarding of a savepoint undid what was pending before its scope was opened. -/
def Sound (journal : List Turn) : Prop :=
  ∀ turn earlier, turn :: earlier <:+ journal → ∀ depth, 2 ≤ depth →
    turn.command = ⟨.discard, depth⟩ → Spared depth turn.after.pending earlier

theorem sound_nil : Sound [] := by
  intro turn earlier h
  exact absurd (List.suffix_nil.mp h) (List.cons_ne_nil _ _)

theorem Sound.cons {journal : List Turn} {turn : Turn} (h : Sound journal)
    (hturn : ∀ depth, 2 ≤ depth → turn.command = ⟨.discard, depth⟩ →
      Spared depth turn.after.pending journal) : Sound (turn :: journal) := by
  intro turn' earlier hs
  rcases List.suffix_cons_iff.mp hs with he | hs
  · cases he
    exact hturn
  · exact h turn' earlier hs

/-- What was pending when the scope at `depth` was opened is still there, whichever savepoint of
its own or of a scope inside it is gone back to. -/
def Kept (depth : Nat) (b : Books) (journal : List Turn) : Prop :=
  ∃ opening, opening? depth journal = some opening ∧
    (¬Stands depth opening.before.saved → opening.before.pending <+: b.pending ∧
      ∀ p ∈ b.saved, ∀ d, depth ≤ d → p.name = savepointName d →
        opening.before.pending <+: p.pending)

section Kept

variable {depth d : Nat} {b b' : Books} {journal : List Turn} {action : ScopeAction}
  {x : Except ServerError Unit}

theorem Kept.spared (h : Kept depth b journal) : Spared depth b.pending journal := by
  obtain ⟨opening, found, kept⟩ := h
  exact ⟨opening, found, fun free => (kept free).1⟩

theorem Kept.grown (h : Kept depth b journal) (saved : b'.saved = b.saved)
    (pending : b.pending <+: b'.pending) : Kept depth b' journal := by
  obtain ⟨opening, found, kept⟩ := h
  refine ⟨opening, found, fun free => ⟨(kept free).1.trans pending, ?_⟩⟩
  rw [saved]
  exact (kept free).2

/-- A command of that scope or of one inside it keeps what was pending. -/
theorem Kept.command (h : Kept depth b journal) (effect : Effect d b action x b') (hd : depth ≤ d)
    (other : action = .begin → depth ≠ d) : Kept depth b' (⟨⟨action, d⟩, b, b'⟩ :: journal) := by
  obtain ⟨opening, found, kept⟩ := h
  have still : opening? depth (⟨⟨action, d⟩, b, b'⟩ :: journal) = some opening := by
    rw [opening?_cons, found]
    rintro ⟨⟩
    exact other rfl rfl
  refine ⟨opening, still, fun free => ?_⟩
  obtain ⟨now, saves⟩ := kept free
  cases effect with
  | refused saved pending => rw [saved, pending]; exact ⟨now, saves⟩
  | set saved pending =>
    rw [saved, pending]
    refine ⟨now, fun p hp => ?_⟩
    rcases List.mem_cons.mp hp with rfl | hp
    · exact fun _ _ _ => now
    · exact saves p hp
  | @back upper before p _ named stack saved pending =>
    rw [saved, pending]
    rw [stack] at saves
    refine ⟨saves p (by simp) d hd named, fun q hq => saves q (List.mem_append_right _ hq)⟩
  | @released upper before p _ named stack saved pending =>
    rw [saved, pending]
    rw [stack] at saves
    exact ⟨now, fun q hq => saves q (List.mem_append_right _ (List.mem_cons_of_mem _ hq))⟩
  | @discarded upper before p _ named stack saved pending =>
    rw [saved, pending]
    rw [stack] at saves
    refine ⟨saves p (by simp) d hd named, fun q hq => ?_⟩
    exact saves q (List.mem_append_right _ (List.mem_cons_of_mem _ hq))

theorem Kept.opened (stacked : Stacked b.saved) (hd : 2 ≤ d) (effect : Effect d b .begin x b') :
    Kept d b' (⟨⟨.begin, d⟩, b, b'⟩ :: journal) := by
  refine ⟨_, List.find?_cons_of_pos (by simp), fun free => ?_⟩
  -- savepoints of scopes inside this one stand only where it has one itself
  have old : ∀ p ∈ b.saved, ∀ e, d ≤ e → p.name = savepointName e → b.pending <+: p.pending := by
    intro p hp e he named
    have shallower := stacked.lt hp named hd free
    omega
  cases effect with
  | refused saved pending =>
    rw [saved, pending]
    exact ⟨List.prefix_rfl, old⟩
  | set saved pending =>
    rw [saved, pending]
    refine ⟨List.prefix_rfl, fun p hp => ?_⟩
    rcases List.mem_cons.mp hp with rfl | hp
    · exact fun _ _ _ => List.prefix_rfl
    · exact old p hp

end Kept

/-- The savepoints of the scopes around stay, and all stand on each other as before. -/
theorem Effect.stacked {d : Nat} {b b' : Books} {action : ScopeAction}
    {x : Except ServerError Unit} (effect : Effect d b action x b') (h : Stacked b.saved)
    (around : ∀ j, 2 ≤ j → j < d → Stands j b.saved) :
    Stacked b'.saved ∧ ∀ j, 2 ≤ j → j < d → Stands j b'.saved := by
  cases effect with
  | refused saved => rw [saved]; exact ⟨h, around⟩
  | set saved =>
    rw [saved]
    exact ⟨.cons rfl around h, fun j hj hlt =>
      (around j hj hlt).mono fun p hp => List.mem_cons_of_mem _ hp⟩
  | back named stack saved =>
    rw [saved]
    rw [stack] at h
    exact ⟨h.of_append, fun j hj hlt =>
      (h.of_append.around named hj hlt).mono fun p hp => List.mem_cons_of_mem _ hp⟩
  | released named stack saved | discarded named stack saved =>
    rw [saved]
    rw [stack] at h
    exact ⟨(List.append_cons .. ▸ h).of_append, fun j hj hlt => h.of_append.around named hj hlt⟩

/-- What the server holds while scopes are open down to `depth`, and perhaps one more was left: the
savepoints of all open scopes, and what was pending when each was opened. -/
structure Orderly (depth : Nat) (a : Abandoned) (b : Books) (journal : List Turn) : Prop where
  left : a = .none ∨ a = ⟨some (depth + 1)⟩
  stacked : Stacked b.saved
  standing : ∀ d, 2 ≤ d → d ≤ depth → Stands d b.saved
  kept : ∀ d, 2 ≤ d → d ≤ depth ∨ a = ⟨some d⟩ → Kept d b journal
  sound : Sound journal

section Orderly

variable {depth : Nat} {a : Abandoned} {b b' : Books} {journal : List Turn}

theorem Orderly.grown (h : Orderly depth a b journal) (saved : b'.saved = b.saved)
    (pending : b.pending <+: b'.pending) : Orderly depth a b' journal where
  left := h.left
  stacked := saved ▸ h.stacked
  standing := saved ▸ h.standing
  kept d hd open_ := (h.kept d hd open_).grown saved pending
  sound := h.sound

theorem Orderly.settled (h : Orderly depth a b journal) : Orderly depth .none b journal where
  left := .inl rfl
  stacked := h.stacked
  standing := h.standing
  kept d hd open_ := h.kept d hd (.inl (open_.resolve_right nofun))
  sound := h.sound

/-- The innermost scope is left as it is. -/
theorem Orderly.letGo (h : Orderly (depth + 1) a b journal) :
    Orderly depth ⟨some (depth + 1)⟩ b journal where
  left := .inr rfl
  stacked := h.stacked
  standing d hd hle := h.standing d hd (by omega)
  kept d hd open_ := by
    refine h.kept d hd (.inl ?_)
    rcases open_ with hle | he
    · omega
    · cases he
      exact Nat.le_refl _
  sound := h.sound

theorem Orderly.outermost (action : ScopeAction) (h : Orderly 0 a b journal) :
    Orderly 0 ⟨some 1⟩ (runCommand ⟨action, 1⟩ b).2
      (⟨⟨action, 1⟩, b, (runCommand ⟨action, 1⟩ b).2⟩ :: journal) := by
  refine ⟨.inr rfl, ?_, fun d hd hle => by omega, ?_, h.sound.cons ?_⟩
  · rcases saved_outermost action (Nat.le_refl 1) (b := b) with saved | saved
    · rw [saved]
      exact h.stacked
    · rw [saved]
      exact .nil
  · rintro d hd (hle | he)
    · omega
    · cases he
      omega
  · intro d hd he
    cases he
    omega

/-- Whatever is sent for the scope that was left, the scopes around it keep what they had. -/
theorem Orderly.command {action : ScopeAction} (h : Orderly depth ⟨some (depth + 1)⟩ b journal)
    (ends : action ≠ .begin) : Orderly depth ⟨some (depth + 1)⟩
      (runCommand ⟨action, depth + 1⟩ b).2
      (⟨⟨action, depth + 1⟩, b, (runCommand ⟨action, depth + 1⟩ b).2⟩ :: journal) := by
  cases depth with
  | zero => exact h.outermost action
  | succ above =>
    have effect := effect_run action above b
    generalize runCommand ⟨action, above + 1 + 1⟩ b = result at effect ⊢
    have standing : ∀ d, 2 ≤ d → d < above + 2 → Stands d b.saved :=
      fun d hd hlt => h.standing d hd (by omega)
    have kept : ∀ d, 2 ≤ d → d ≤ above + 2 →
        Kept d result.2 (⟨⟨action, above + 2⟩, b, result.2⟩ :: journal) := by
      intro d hd hle
      refine Kept.command (h.kept d hd ?_) effect hle fun hb => absurd hb ends
      rcases Nat.lt_or_ge d (above + 2) with hlt | hge
      · exact .inl (by omega)
      · exact .inr (by rw [Nat.le_antisymm hle hge])
    obtain ⟨stacked, standing⟩ := effect.stacked h.stacked standing
    refine ⟨.inr rfl, stacked, fun d hd hle => standing d hd (by omega), ?_, h.sound.cons ?_⟩
    · rintro d hd (hle | he)
      · exact kept d hd (by omega)
      · cases he
        exact kept _ hd (Nat.le_refl _)
    · intro d hd he
      obtain ⟨rfl, rfl⟩ := ScopeCommand.mk.inj he
      obtain ⟨opening, found, spared⟩ := (kept _ hd (Nat.le_refl _)).spared
      exact ⟨opening, (opening?_cons (by simp)).symm.trans found, spared⟩

/-- A scope that is being opened may be there afterwards or not. -/
theorem Orderly.begun (h : Orderly depth .none b journal) :
    Orderly depth ⟨some (depth + 1)⟩ (runCommand ⟨.begin, depth + 1⟩ b).2
      (⟨⟨.begin, depth + 1⟩, b, (runCommand ⟨.begin, depth + 1⟩ b).2⟩ :: journal) := by
  cases depth with
  | zero => exact h.outermost .begin
  | succ above =>
    have effect := effect_run .begin above b
    generalize runCommand ⟨.begin, above + 1 + 1⟩ b = result at effect ⊢
    obtain ⟨stacked, standing⟩ := effect.stacked h.stacked fun d hd hlt =>
      h.standing d hd (by omega)
    refine ⟨.inr rfl, stacked, fun d hd hle => standing d hd (by omega), ?_, h.sound.cons nofun⟩
    rintro d hd (hle | he)
    · exact (h.kept d hd (.inl hle)).command effect (by omega) fun _ => by omega
    · cases he
      exact .opened h.stacked hd effect

theorem Orderly.entered (h : Orderly depth ⟨some (depth + 1)⟩ b journal)
    (stands : 2 ≤ depth + 1 → Stands (depth + 1) b.saved) :
    Orderly (depth + 1) .none b journal where
  left := .inl rfl
  stacked := h.stacked
  standing d hd hle := by
    rcases Nat.lt_or_ge d (depth + 1) with hlt | hge
    · exact h.standing d hd (by omega)
    · obtain rfl : d = depth + 1 := by omega
      exact stands hd
  kept d hd open_ := by
    refine h.kept d hd ?_
    rcases Nat.lt_or_ge d (depth + 1) with hlt | hge
    · exact .inl (by omega)
    · have hle := open_.resolve_right nofun
      exact .inr (by rw [Nat.le_antisymm hle hge])
  sound := h.sound

theorem stands_begun (depth : Nat) (b : Books)
    (ok : (runCommand ⟨.begin, depth + 1⟩ b).1 = .ok ()) (hd : 2 ≤ depth + 1) :
    Stands (depth + 1) (runCommand ⟨.begin, depth + 1⟩ b).2.saved := by
  obtain ⟨above, rfl⟩ : ∃ above, depth = above + 1 := ⟨depth - 1, by omega⟩
  have effect := effect_run .begin above b
  rw [ok] at effect
  cases effect with
  | set saved => exact ⟨_, saved ▸ List.mem_cons_self, rfl⟩

end Orderly

end Ledger

end SqlClient
