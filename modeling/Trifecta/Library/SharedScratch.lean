/-
Calls on the parts of a system that share one scratch value, and what a part gets out
of a run in which the calls on all parts are mixed.
-/
import Mathlib.Data.List.Basic
import Mathlib.Logic.Function.Basic

universe u v w x y

namespace SharedScratch

variable {H : Type u} {C : Type v} {R : Type w} {S : Type x} {K : Type y}

/-- What a call returns, and what it leaves in its part and in the scratch. -/
structure Outcome (R : Type w) (S : Type x) (K : Type y) where
  result : R
  part : S
  scratch : K

/-- The parts by their names, and the scratch. -/
structure World (H : Type u) (S : Type x) (K : Type y) where
  parts : H → S
  scratch : K

/-- The calls, or results, of one part. -/
def own [DecidableEq H] {A : Type*} (part : H) (mixed : List (H × A)) : List A :=
  mixed.filterMap fun entry => if entry.1 = part then some entry.2 else none

section Own

variable [DecidableEq H] {A : Type*} {part : H}

@[simp] theorem own_nil : own part ([] : List (H × A)) = [] := rfl

theorem own_cons_self (entry : A) (mixed : List (H × A)) :
    own part ((part, entry) :: mixed) = entry :: own part mixed := by
  simp [own]

theorem own_cons_other {other : H} (hother : other ≠ part) (entry : A) (mixed : List (H × A)) :
    own part ((other, entry) :: mixed) = own part mixed := by
  simp [own, hother]

theorem own_append (front back : List (H × A)) :
    own part (front ++ back) = own part front ++ own part back :=
  List.filterMap_append

end Own

variable (call : K → S → C → Outcome R S K)

/-- Neither the result of a call nor what it leaves in its part depends on the scratch. -/
def Clean : Prop :=
  ∀ first second part request,
    (call first part request).result = (call second part request).result ∧
      (call first part request).part = (call second part request).part

/-- The results of calls on one part, which has a scratch of its own. -/
def alone (scratch : K) (part : S) : List C → List R
  | [] => []
  | request :: later =>
      let outcome := call scratch part request
      outcome.result :: alone outcome.scratch outcome.part later

section Runs

variable [DecidableEq H]

/-- A call on one part of a system. -/
def World.perform (world : World H S K) (request : H × C) : World H S K :=
  let outcome := call world.scratch (world.parts request.1) request.2
  { parts := Function.update world.parts request.1 outcome.part
    scratch := outcome.scratch }

theorem World.parts_perform (world : World H S K) (request : H × C) (other : H) :
    (world.perform call request).parts other =
      if other = request.1 then (call world.scratch (world.parts request.1) request.2).part
      else world.parts other :=
  Function.update_apply _ _ _ _

/-- The results of mixed calls, each with the part that was called. -/
def World.results (world : World H S K) : List (H × C) → List (H × R)
  | [] => []
  | request :: later =>
      (request.1, (call world.scratch (world.parts request.1) request.2).result) ::
        results (world.perform call request) later

theorem World.results_append (world : World H S K) (front back : List (H × C)) :
    world.results call (front ++ back) =
      world.results call front ++ (front.foldl (World.perform call) world).results call back := by
  induction front generalizing world with
  | nil => rfl
  | cons request front ih =>
      rw [List.cons_append, World.results, World.results, ih, List.cons_append]
      rfl

variable {call}

theorem alone_scratch (hclean : Clean call) (first second : K) (part : S) (requests : List C) :
    alone call first part requests = alone call second part requests := by
  induction requests generalizing first second part with
  | nil => rfl
  | cons request later ih =>
      obtain ⟨hresult, hpart⟩ := hclean first second part request
      rw [alone, alone, hresult, hpart]
      exact congrArg _ (ih _ _ _)

/-- In a run of mixed calls, a part gets the results that its own calls alone give. -/
theorem own_results (hclean : Clean call) (world : World H S K) (scratch : K) (part : H)
    (requests : List (H × C)) :
    own part (world.results call requests) =
      alone call scratch (world.parts part) (own part requests) := by
  induction requests generalizing world scratch with
  | nil => rfl
  | cons request later ih =>
      obtain ⟨called, asked⟩ := request
      have hlater := ih (world.perform call (called, asked))
      rw [World.results]
      by_cases hcalled : called = part
      · subst hcalled
        rw [own_cons_self, own_cons_self, alone_scratch hclean scratch world.scratch, alone,
          hlater (call world.scratch (world.parts called) asked).scratch]
        simp only [World.perform, Function.update_self]
      · rw [own_cons_other hcalled, own_cons_other hcalled, hlater scratch]
        simp only [World.perform, Function.update_of_ne (Ne.symm hcalled)]

end Runs

end SharedScratch
