/-
A table with a fixed number of slots that are filled in turn.  A key keeps its
slot until as many other keys have been entered as there are slots.
-/
import Trifecta.Library.Transitions
import Mathlib.Data.Fintype.Basic
import Mathlib.Data.Fin.SuccPred
import Mathlib.Logic.Function.Basic
import Mathlib.Data.Nat.ModEq

universe u

open Transitions

/-- The keys in the slots, and how many have been entered so far. -/
structure RoundRobin (slots : Nat) (K : Type u) where
  key : Fin slots → Option K
  entered : Nat

namespace RoundRobin

variable {slots : Nat} {K : Type u}

@[ext] theorem ext {first second : RoundRobin slots K} (hkey : first.key = second.key)
    (hentered : first.entered = second.entered) : first = second := by
  cases first
  cases second
  simp_all

def empty : RoundRobin slots K where
  key _ := none
  entered := 0

def Mapped (table : RoundRobin slots K) (key : K) : Prop :=
  ∃ slot, table.key slot = some key

instance [DecidableEq K] (table : RoundRobin slots K) (key : K) : Decidable (table.Mapped key) :=
  inferInstanceAs (Decidable (∃ slot, table.key slot = some key))

/-- No key is in two slots. -/
def Distinct (table : RoundRobin slots K) : Prop :=
  ∀ first second key, table.key first = some key → table.key second = some key → first = second

theorem distinct_empty : (empty : RoundRobin slots K).Distinct := by
  intro first second key hfirst
  exact absurd hfirst (by simp [empty])

variable [NeZero slots]

/-- The slot that is filled next. -/
def turn (table : RoundRobin slots K) : Fin slots :=
  Fin.ofNat slots table.entered

def enter (table : RoundRobin slots K) (key : K) : RoundRobin slots K where
  key := Function.update table.key table.turn (some key)
  entered := table.entered + 1

theorem key_enter (table : RoundRobin slots K) (key : K) (slot : Fin slots) :
    (table.enter key).key slot = if slot = table.turn then some key else table.key slot :=
  Function.update_apply table.key table.turn (some key) slot

/-- The entry of number `number` is in its slot. -/
structure Keeps (table : RoundRobin slots K) (number : Nat) (key : K) : Prop where
  holds : table.key (Fin.ofNat slots number) = some key
  before : number < table.entered

theorem keeps_enter (table : RoundRobin slots K) (key : K) :
    (table.enter key).Keeps table.entered key where
  holds := (key_enter table key table.turn).trans (if_pos rfl)
  before := Nat.lt_succ_self table.entered

variable [DecidableEq K]

/-- A key that is not in the table is entered. -/
def request (table : RoundRobin slots K) (key : K) : RoundRobin slots K :=
  if table.Mapped key then table else table.enter key

/-- How many of the requested keys are not in the table when they are requested. -/
def misses : RoundRobin slots K → List K → Nat
  | _, [] => 0
  | table, key :: later => (if table.Mapped key then 0 else 1) + misses (table.request key) later

theorem distinct_request {table : RoundRobin slots K} (hdistinct : table.Distinct) (key : K) :
    (table.request key).Distinct := by
  rw [request]
  split
  · exact hdistinct
  · next habsent =>
      intro first second other hfirst hsecond
      rw [key_enter] at hfirst hsecond
      split at hfirst <;> split at hsecond
      · next hturn hturn' => exact hturn.trans hturn'.symm
      · exact absurd ⟨second, hsecond.trans hfirst.symm⟩ habsent
      · exact absurd ⟨first, hfirst.trans hsecond.symm⟩ habsent
      · exact hdistinct first second other hfirst hsecond

theorem distinct_run {table : RoundRobin slots K} (hdistinct : table.Distinct) (keys : List K) :
    (run request table keys).Distinct :=
  @run_invariant _ _ request (fun _ _ => True) Distinct
    (fun _ key hdistinct _ => distinct_request hdistinct key) table keys hdistinct
    (along_of_forall (fun _ _ => trivial) table keys)

theorem entered_request (table : RoundRobin slots K) (key : K) :
    (table.request key).entered = table.entered + if table.Mapped key then 0 else 1 := by
  rw [request]
  split <;> rfl

theorem entered_run (table : RoundRobin slots K) (keys : List K) :
    (run request table keys).entered = table.entered + misses table keys := by
  induction keys generalizing table with
  | nil => rfl
  | cons key later ih =>
      have hlater : (run request table (key :: later)).entered =
          (table.request key).entered + misses (table.request key) later := ih (table.request key)
      rw [hlater, entered_request, misses, Nat.add_assoc]

theorem misses_le_length (table : RoundRobin slots K) (keys : List K) :
    misses table keys ≤ keys.length := by
  induction keys generalizing table with
  | nil => exact Nat.le_refl 0
  | cons key later ih =>
      have hlater := ih (table.request key)
      rw [misses, List.length_cons]
      split <;> omega

/-- Two numbers of one round have different slots. -/
theorem ofNat_ne_of_lt {number later : Nat} (hlt : number < later)
    (hround : later < number + slots) : Fin.ofNat slots number ≠ Fin.ofNat slots later := by
  intro hsame
  have hmod : number % slots = later % slots := congrArg Fin.val hsame
  have hdvd : slots ∣ later - number := (Nat.modEq_iff_dvd' (Nat.le_of_lt hlt)).1 hmod
  have hle := Nat.le_of_dvd (Nat.sub_pos_of_lt hlt) hdvd
  omega

theorem keeps_request {table : RoundRobin slots K} {number : Nat} {key : K}
    (hkeeps : table.Keeps number key) (other : K)
    (hround : (table.request other).entered ≤ number + slots) :
    (table.request other).Keeps number key := by
  rw [request] at hround ⊢
  split
  · exact hkeeps
  · next habsent =>
      rw [if_neg habsent] at hround
      refine ⟨?_, Nat.lt_succ_of_lt hkeeps.before⟩
      have hother : Fin.ofNat slots number ≠ table.turn :=
        ofNat_ne_of_lt hkeeps.before hround
      rw [key_enter, if_neg hother]
      exact hkeeps.holds

/-- An entry stays in its slot for a whole round of entries, its own included. -/
theorem keeps_run {table : RoundRobin slots K} {number : Nat} {key : K}
    (hkeeps : table.Keeps number key) (keys : List K)
    (hround : table.entered + misses table keys ≤ number + slots) :
    (run request table keys).Keeps number key := by
  induction keys generalizing table with
  | nil => exact hkeeps
  | cons other later ih =>
      have hentered := entered_request table other
      rw [misses] at hround
      exact ih (keeps_request hkeeps other (by omega)) (by omega)

/-- The entry that completes the round takes the slot. -/
theorem not_mapped_request {table : RoundRobin slots K} {number : Nat} {key other : K}
    (hkeeps : table.Keeps number key) (hdistinct : table.Distinct)
    (hround : table.entered = number + slots) (habsent : ¬ table.Mapped other) :
    ¬ (table.request other).Mapped key := by
  have hturn : table.turn = Fin.ofNat slots number := by
    apply Fin.ext
    simp [turn, hround]
  have hne : other ≠ key := by
    rintro rfl
    exact habsent ⟨_, hkeeps.holds⟩
  rw [request, if_neg habsent]
  rintro ⟨slot, hslot⟩
  rw [key_enter] at hslot
  split at hslot
  · exact hne (Option.some.inj hslot)
  · next hother =>
      have hsame := hdistinct slot _ key hslot hkeeps.holds
      exact hother (hsame.trans hturn.symm)

end RoundRobin
