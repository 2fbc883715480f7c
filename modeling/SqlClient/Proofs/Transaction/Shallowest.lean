import Mathlib.Data.Finset.Max
import SqlClient.Driver.Basic
/-!
# One depth for all abandoned scopes

Beside the depth that is kept stand the set of all scopes abandoned and not discarded since, and the
depth as a bare number. Discarding the shallowest scope empties the set, because everything inside
that scope goes with it. The number is 0 where there is no scope: scopes begin at depth 1.
-/
namespace SqlClient.Abandoned

def IsShallowest (scopes : Finset Nat) (d : Nat) : Prop := d ∈ scopes ∧ ∀ e ∈ scopes, d ≤ e

instance (scopes : Finset Nat) (d : Nat) : Decidable (IsShallowest scopes d) :=
  inferInstanceAs (Decidable (_ ∧ _))

inductive Step where
  | abandon (depth : Nat)
  | settle (depth : Nat)
  deriving DecidableEq, Repr

namespace Step

def OfScope : Step → Prop
  | .abandon d => 1 ≤ d
  | .settle _ => True

instance (step : Step) : Decidable step.OfScope :=
  match step with
  | .abandon d => inferInstanceAs (Decidable (1 ≤ d))
  | .settle _ => isTrue trivial

def apply : Step → Abandoned → Abandoned
  | .abandon d, a => a.abandon d
  | .settle d, a => a.settle d

/-- The set of scopes is emptied when its shallowest is settled, and no other settles anything. -/
def gather : Step → Finset Nat → Finset Nat
  | .abandon d, scopes => insert d scopes
  | .settle d, scopes => if IsShallowest scopes d then ∅ else scopes

def count : Step → Nat → Nat
  | .abandon d, number => if number = 0 ∨ d < number then d else number
  | .settle d, number => if number = d then 0 else number

end Step

def after (steps : List Step) (a : Abandoned) : Abandoned := steps.foldl (fun a s => s.apply a) a

def gathered (steps : List Step) (scopes : Finset Nat) : Finset Nat :=
  steps.foldl (fun scopes s => s.gather scopes) scopes

def counted (steps : List Step) (number : Nat) : Nat :=
  steps.foldl (fun number s => s.count number) number

/-- The shallowest of the scopes, if it is inside the one at `depth`. -/
def leastBelow? (scopes : Finset Nat) (depth : Nat) : Option Nat :=
  if h : scopes.Nonempty then
    if depth < scopes.min' h then some (scopes.min' h) else .none
  else .none

def readBelow? (number depth : Nat) : Option Nat :=
  if number = 0 then .none else if depth < number then some number else .none

inductive Stands : Abandoned → Finset Nat → Prop where
  | nothing : Stands none ∅
  | least {scopes : Finset Nat} {d : Nat} (h : IsShallowest scopes d) : Stands ⟨some d⟩ scopes

variable {a : Abandoned} {scopes : Finset Nat} {depth d e : Nat}

theorem abandon_some (e d : Nat) :
    abandon ⟨some e⟩ d = if d < e then ⟨some d⟩ else ⟨some e⟩ := rfl

theorem IsShallowest.unique (h : IsShallowest scopes d) (h' : IsShallowest scopes e) : d = e :=
  Nat.le_antisymm (h.2 e h'.1) (h'.2 d h.1)

theorem isShallowest_min' (lost : scopes.Nonempty) : IsShallowest scopes (scopes.min' lost) :=
  ⟨scopes.min'_mem lost, scopes.min'_le⟩

/-- The deeper of two scopes is forgotten, and no later step asks for it. -/
theorem Stands.abandon (h : Stands a scopes) (d : Nat) :
    Stands (a.abandon d) (insert d scopes) := by
  cases h with
  | nothing => exact .least ⟨Finset.mem_insert_self d ∅, by simp⟩
  | @least scopes e h =>
    obtain ⟨member, least⟩ := h
    rw [abandon_some]
    split
    · refine .least ⟨Finset.mem_insert_self d scopes, fun x hx => ?_⟩
      rcases Finset.mem_insert.mp hx with rfl | hx
      · exact Nat.le_refl x
      · exact Nat.le_trans (Nat.le_of_lt ‹d < e›) (least x hx)
    · refine .least ⟨Finset.mem_insert_of_mem member, fun x hx => ?_⟩
      rcases Finset.mem_insert.mp hx with rfl | hx
      · exact Nat.not_lt.mp ‹¬ x < e›
      · exact least x hx

/-- Only the scope that is kept can empty the set, and it does. -/
theorem Stands.settle (h : Stands a scopes) (d : Nat) :
    Stands (a.settle d) (if IsShallowest scopes d then ∅ else scopes) := by
  cases h with
  | nothing =>
    rw [ite_self]
    exact .nothing
  | @least scopes e h =>
    rw [Abandoned.settle]
    by_cases same : e = d
    · rw [if_pos (congrArg some same), if_pos (same ▸ h)]
      exact .nothing
    -- A set has one least depth, so neither side is cleared at another one.
    · rw [if_neg fun kept => same (Option.some.inj kept), if_neg fun h' => same (h.unique h')]
      exact .least h

theorem Stands.apply (h : Stands a scopes) (step : Step) :
    Stands (step.apply a) (step.gather scopes) := by
  cases step with
  | abandon d => exact h.abandon d
  | settle d => exact h.settle d

theorem Stands.after (h : Stands a scopes) (steps : List Step) :
    Stands (a.after steps) (gathered steps scopes) := by
  induction steps generalizing a scopes with
  | nil => exact h
  | cons step steps ih => exact ih (h.apply step)

theorem Stands.below?_eq (h : Stands a scopes) (depth : Nat) :
    a.below? depth = leastBelow? scopes depth := by
  cases h with
  | nothing => rfl
  | least h =>
    have lost : scopes.Nonempty := ⟨_, h.1⟩
    rw [below?, leastBelow?, dif_pos lost, (isShallowest_min' lost).unique h, Option.filter_some]
    simp only [decide_eq_true_eq]

def number (a : Abandoned) : Nat := a.shallowest.getD 0

theorem number_some (e : Nat) : number ⟨some e⟩ = e := rfl

theorem readBelow?_number (a : Abandoned) (depth : Nat) :
    readBelow? a.number depth = a.below? depth := by
  obtain ⟨_ | e⟩ := a
  · rfl
  · rw [readBelow?, below?, number_some, Option.filter_some]
    by_cases h : depth < e
    · rw [if_neg (by omega), if_pos h, if_pos (decide_eq_true h)]
    · rw [if_neg h, ite_self, if_neg (by simpa using h)]

theorem shallowest_apply_ne_zero (h : a.shallowest ≠ some 0) {step : Step} (hs : step.OfScope) :
    (step.apply a).shallowest ≠ some 0 := by
  cases step with
  | abandon d =>
    have positive : some d ≠ some 0 := fun same => by
      cases same
      exact absurd hs (by decide)
    obtain ⟨_ | e⟩ := a
    · exact positive
    · rw [Step.apply, abandon_some]
      split
      · exact positive
      · exact h
  | settle d =>
    rw [Step.apply, settle]
    split
    · exact (Option.some_ne_none 0).symm
    · exact h

theorem number_abandon (h : a.shallowest ≠ some 0) (d : Nat) :
    (a.abandon d).number = if a.number = 0 ∨ d < a.number then d else a.number := by
  obtain ⟨_ | e⟩ := a
  · exact (if_pos (.inl rfl)).symm
  · have positive : e ≠ 0 := fun same => h (congrArg some same)
    rw [abandon_some, number_some]
    by_cases outer : d < e
    · rw [if_pos outer, if_pos (.inr outer), number_some]
    · rw [if_neg outer, if_neg (not_or.mpr ⟨positive, outer⟩), number_some]

theorem number_settle (a : Abandoned) (d : Nat) :
    (a.settle d).number = if a.number = d then 0 else a.number := by
  obtain ⟨_ | e⟩ := a
  · exact (ite_self 0).symm
  · rw [settle, number_some]
    by_cases same : e = d
    · rw [if_pos (congrArg some same), if_pos same]
      rfl
    · rw [if_neg fun h => same (Option.some.inj h), if_neg same, number_some]

/-- As long as nothing of depth 0 is abandoned, 0 is free to mean that there is no scope. -/
theorem number_after {steps : List Step} (hs : ∀ step ∈ steps, step.OfScope)
    (h : a.shallowest ≠ some 0) : (a.after steps).number = counted steps a.number := by
  induction steps generalizing a with
  | nil => rfl
  | cons step steps ih =>
    have counts : (step.apply a).number = step.count a.number := by
      cases step with
      | abandon d => exact number_abandon h d
      | settle d => exact number_settle a d
    have rest := ih (fun step member => hs step (List.mem_cons_of_mem _ member))
      (shallowest_apply_ne_zero h (hs step List.mem_cons_self))
    rwa [counts] at rest

/-- After any history, what is abandoned inside a scope is the shallowest of all scopes abandoned
and not discarded since, if that one is inside it. The bare number tells the same. -/
theorem one_depth_suffices {steps : List Step} (h : ∀ step ∈ steps, step.OfScope) (depth : Nat) :
    (none.after steps).below? depth = leastBelow? (gathered steps ∅) depth ∧
      readBelow? (counted steps 0) depth = leastBelow? (gathered steps ∅) depth := by
  have least := (Stands.nothing.after steps).below?_eq depth
  have noted : (none.after steps).number = counted steps 0 :=
    number_after h (Option.some_ne_none 0).symm
  refine ⟨least, ?_⟩
  rw [← noted, readBelow?_number, least]

/-- The scope at depth 2 stands for those at 3 and 4, whatever else is settled meanwhile; one that
is abandoned after it has been discarded stands for itself. -/
theorem one_depth_suffices_stale :
    let first : List Step := [.abandon 3, .abandon 2, .settle 3, .abandon 4, .settle 4]
    let later : List Step := first ++ [.settle 2, .abandon 4, .settle 2]
    (∀ step ∈ later, step.OfScope) ∧
      gathered first ∅ = {2, 3, 4} ∧
      (none.after first).below? 1 = some 2 ∧ (none.after first).below? 2 = .none ∧
      (none.after later).below? 2 = some 4 ∧ readBelow? (counted later 0) 2 = some 4 := by
  intro first later
  have scopes : ∀ step ∈ later, step.OfScope := by decide
  have all : gathered first ∅ = {2, 3, 4} := by decide
  have before := @one_depth_suffices first (by decide)
  obtain ⟨kept, noted⟩ := one_depth_suffices scopes 2
  rw [all] at before
  exact ⟨scopes, all, (before 1).1.trans (by decide), (before 2).1.trans (by decide),
    kept.trans (by decide), noted.trans (by decide)⟩

end SqlClient.Abandoned
