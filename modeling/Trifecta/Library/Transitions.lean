/-
Runs of a deterministic transition system, and runs whose actions each meet a
condition in the state they are taken in.
-/
import Mathlib.Data.List.Infix

universe u v

namespace Transitions

variable {S : Type u} {A : Type v} (step : S → A → S)

def run (state : S) (actions : List A) : S :=
  actions.foldl step state

/-- Every action meets `meets` in the state it is taken in. -/
def Along (meets : S → A → Prop) : S → List A → Prop
  | _, [] => True
  | state, action :: later => meets state action ∧ Along meets (step state action) later

instance decidableAlong (meets : S → A → Prop) [∀ state action, Decidable (meets state action)] :
    (state : S) → (actions : List A) → Decidable (Along step meets state actions)
  | _, [] => isTrue trivial
  | state, action :: later =>
      @instDecidableAnd _ _ (inferInstanceAs (Decidable (meets state action)))
        (decidableAlong meets (step state action) later)

variable {step} {meets allowed : S → A → Prop} {inv good : S → Prop}

theorem along_of_forall (hmeets : ∀ state action, meets state action) (state : S)
    (actions : List A) : Along step meets state actions := by
  induction actions generalizing state with
  | nil => trivial
  | cons action later ih => exact ⟨hmeets state action, ih (step state action)⟩

/-- What a run meets, its beginnings meet. -/
theorem Along.of_prefix {state : S} {front actions : List A} (hfront : front <+: actions)
    (halong : Along step meets state actions) : Along step meets state front := by
  induction front generalizing state actions with
  | nil => trivial
  | cons action front ih =>
      obtain ⟨later, rfl⟩ := hfront
      exact ⟨halong.1, ih (List.prefix_append front later) halong.2⟩

theorem along_append {state : S} {front back : List A} :
    Along step meets state (front ++ back) ↔
      Along step meets state front ∧ Along step meets (run step state front) back := by
  induction front generalizing state with
  | nil => exact (and_iff_right trivial).symm
  | cons action front ih => exact (and_congr_right fun _ => ih).trans and_assoc.symm

/-- What every allowed action preserves holds at the end of a run. -/
theorem run_invariant (hstep : ∀ state action, inv state → allowed state action →
      inv (step state action)) {state : S} {actions : List A} (hstart : inv state)
    (hallowed : Along step allowed state actions) : inv (run step state actions) := by
  induction actions generalizing state with
  | nil => exact hstart
  | cons action later ih => exact ih (hstep state action hstart hallowed.1) hallowed.2

/-- A property that an action keeps exactly when it meets a condition holds at
the end of a run exactly when all its actions have met the condition. -/
theorem good_run_iff (hinv : ∀ state action, inv state → allowed state action →
      inv (step state action))
    (hgood : ∀ state action, inv state → allowed state action →
      (good (step state action) ↔ good state ∧ meets state action))
    {state : S} {actions : List A} (hstart : inv state)
    (hallowed : Along step allowed state actions) :
    good (run step state actions) ↔ good state ∧ Along step meets state actions := by
  induction actions generalizing state with
  | nil => exact (and_iff_left trivial).symm
  | cons action later ih =>
      have hnext := ih (hinv state action hstart hallowed.1) hallowed.2
      have hstep := hgood state action hstart hallowed.1
      calc good (run step state (action :: later))
          ↔ good (step state action) ∧ Along step meets (step state action) later := hnext
        _ ↔ (good state ∧ meets state action) ∧ Along step meets (step state action) later :=
          and_congr_left fun _ => hstep
        _ ↔ good state ∧ Along step meets state (action :: later) := and_assoc

/-- Likewise for a property in every state that a run passes, when an action
keeps it exactly under the condition as long as it holds. -/
theorem forall_prefix_run_iff (hinv : ∀ state action, inv state → good state →
      meets state action → inv (step state action))
    (hgood : ∀ state action, inv state → good state →
      (good (step state action) ↔ meets state action))
    {state : S} {actions : List A} (hstart : inv state) (hholds : good state) :
    (∀ front, front <+: actions → good (run step state front)) ↔
      Along step meets state actions := by
  induction actions generalizing state with
  | nil =>
      refine ⟨fun _ => trivial, fun _ front hfront => ?_⟩
      rw [List.prefix_nil.1 hfront]
      exact hholds
  | cons action later ih =>
      have hstep := hgood state action hstart hholds
      constructor
      · intro hall
        have hnext : good (step state action) := hall [action] (List.prefix_append [action] later)
        have hmeets := hstep.1 hnext
        refine ⟨hmeets, (ih (hinv state action hstart hholds hmeets) hnext).1 ?_⟩
        intro front hfront
        exact hall (action :: front) (List.cons_prefix_cons.2 ⟨rfl, hfront⟩)
      · rintro ⟨hmeets, hlater⟩ front hfront
        have hnext := hstep.2 hmeets
        cases front with
        | nil => exact hholds
        | cons other front =>
            obtain ⟨rfl, htail⟩ := List.cons_prefix_cons.1 hfront
            exact (ih (hinv state other hstart hholds hmeets) hnext).2 hlater front htail

/-- A rank that own actions lower, and that no other action raises, is at most
what their number leaves of it. -/
theorem rank_run_le (rank : S → Nat) (own : A → Bool)
    (hinv : ∀ state action, inv state → allowed state action → inv (step state action))
    (hrank : ∀ state action, inv state → allowed state action →
      rank (step state action) ≤ rank state - if own action then 1 else 0)
    {state : S} {actions : List A} (hstart : inv state)
    (hallowed : Along step allowed state actions) :
    rank (run step state actions) ≤ rank state - actions.countP own := by
  induction actions generalizing state with
  | nil => exact Nat.le_refl _
  | cons action later ih =>
      have hfirst := hrank state action hstart hallowed.1
      have hlater := ih (hinv state action hstart hallowed.1) hallowed.2
      rw [List.countP_cons]
      exact hlater.trans (by omega)

end Transitions
