/-
Logs of resources that are acquired, used and released, latest event first.
-/
import Mathlib.Data.List.Basic

universe u

namespace Usage

/-- One event of a log. -/
inductive Event (R : Type u)
  | acquired (resource : R)
  | used (resource : R)
  | released (resource : R)
deriving DecidableEq, Repr

variable {R : Type u} [DecidableEq R]

/-- The resources that have been acquired and not been released since. -/
def held : List (Event R) → List R
  | [] => []
  | .acquired resource :: earlier => resource :: held earlier
  | .used _ :: earlier => held earlier
  | .released resource :: earlier => (held earlier).filter (· ≠ resource)

/-- Only what is held is used or released. -/
def Proper : List (Event R) → Prop
  | [] => True
  | .acquired _ :: earlier => Proper earlier
  | .used resource :: earlier => resource ∈ held earlier ∧ Proper earlier
  | .released resource :: earlier => resource ∈ held earlier ∧ Proper earlier

instance decidableProper : (log : List (Event R)) → Decidable (Proper log)
  | [] => isTrue trivial
  | .acquired _ :: earlier => decidableProper earlier
  | .used resource :: earlier =>
      @instDecidableAnd _ _ (inferInstanceAs (Decidable (resource ∈ held earlier)))
        (decidableProper earlier)
  | .released resource :: earlier =>
      @instDecidableAnd _ _ (inferInstanceAs (Decidable (resource ∈ held earlier)))
        (decidableProper earlier)

section Lemmas

variable {log : List (Event R)} {resource other : R}

@[simp] theorem mem_held_acquired :
    other ∈ held (.acquired resource :: log) ↔ other = resource ∨ other ∈ held log :=
  List.mem_cons

@[simp] theorem held_used : held (.used resource :: log) = held log :=
  rfl

@[simp] theorem mem_held_released :
    other ∈ held (.released resource :: log) ↔ other ∈ held log ∧ other ≠ resource := by
  rw [held, List.mem_filter, decide_eq_true_eq]

/-- Whatever a release leaves held had been held before. -/
theorem held_released_of_not_mem (hfree : resource ∉ held log) :
    held (.released resource :: log) = held log := by
  rw [held, List.filter_eq_self]
  intro other hother
  rw [decide_eq_true_eq]
  exact fun hsame => hfree (hsame ▸ hother)

/-- Dropping a resource that is held: it is used for the last time and then
released. -/
theorem Proper.drop (hproper : Proper log) (hheld : resource ∈ held log) :
    Proper (.released resource :: .used resource :: log) :=
  ⟨hheld, hheld, hproper⟩

/-- A resource that is acquired and released at once leaves what is held as it
was. -/
theorem Proper.acquired_released (hproper : Proper log) :
    Proper (.released resource :: .acquired resource :: log) :=
  ⟨mem_held_acquired.2 (Or.inl rfl), hproper⟩

theorem held_acquired_released (hfresh : resource ∉ held log) :
    held (.released resource :: .acquired resource :: log) = held log := by
  rw [held, held, List.filter_cons_of_neg (by simp)]
  exact held_released_of_not_mem hfresh

end Lemmas

end Usage
