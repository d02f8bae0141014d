/-
Sequences of assignments to named registers.  The final contents depend only
on the last assignment to each register, which makes two sequences
interchangeable exactly when they agree on those.
-/
import Mathlib.Logic.Function.Basic
import Mathlib.Data.List.Basic

universe u v w

namespace Registers

variable {K : Type u} {V : Type v} [DecidableEq K]

/-- Carry out assignments from left to right. -/
def assignAll (state : K → V) (writes : List (K × V)) : K → V :=
  writes.foldl (fun current write => Function.update current write.1 write.2) state

/-- The value last assigned to `key`, if any assignment names it. -/
def lastWrite (key : K) : List (K × V) → Option V
  | [] => none
  | write :: rest =>
      (lastWrite key rest).or (if write.1 = key then some write.2 else none)

theorem assignAll_append (state : K → V) (first second : List (K × V)) :
    assignAll state (first ++ second) = assignAll (assignAll state first) second := by
  simp [assignAll]

theorem lastWrite_append (key : K) (first second : List (K × V)) :
    lastWrite key (first ++ second) =
      (lastWrite key second).or (lastWrite key first) := by
  induction first with
  | nil => simp [lastWrite]
  | cons write rest ih => rw [List.cons_append, lastWrite, ih, lastWrite, Option.or_assoc]

theorem assignAll_apply (state : K → V) (writes : List (K × V)) (key : K) :
    assignAll state writes key = (lastWrite key writes).getD (state key) := by
  induction writes generalizing state with
  | nil => rfl
  | cons write rest ih =>
      change assignAll (Function.update state write.1 write.2) rest key = _
      rw [ih, lastWrite]
      by_cases hkey : write.1 = key
      · subst hkey
        cases lastWrite write.1 rest <;> simp
      · have hother : key ≠ write.1 := fun heq => hkey heq.symm
        simp [hkey, Function.update_of_ne hother]

theorem lastWrite_isSome_iff (key : K) (writes : List (K × V)) :
    (lastWrite key writes).isSome ↔ ∃ write ∈ writes, write.1 = key := by
  induction writes with
  | nil => simp [lastWrite]
  | cons write rest ih =>
      rw [lastWrite, Option.isSome_or, Bool.or_eq_true, ih]
      by_cases hkey : write.1 = key <;> simp [hkey]

theorem mem_of_lastWrite {key : K} {writes : List (K × V)} {value : V}
    (hlast : lastWrite key writes = some value) : (key, value) ∈ writes := by
  induction writes with
  | nil => simp [lastWrite] at hlast
  | cons write rest ih =>
      rw [lastWrite, Option.or_eq_some_iff] at hlast
      rcases hlast with hrest | ⟨_, hhead⟩
      · exact List.mem_cons_of_mem write (ih hrest)
      · split at hhead
        · next hkey =>
            obtain rfl := Option.some.inj hhead
            obtain rfl := hkey
            exact List.mem_cons_self
        · simp at hhead

/-- Changing every assigned value changes the last one in the same way. -/
theorem lastWrite_map (change : K → V → V) (key : K) (writes : List (K × V)) :
    lastWrite key (writes.map fun write => (write.1, change write.1 write.2)) =
      (lastWrite key writes).map (change key) := by
  induction writes with
  | nil => rfl
  | cons write rest ih =>
      rw [List.map_cons, lastWrite, lastWrite, ih, Option.map_or]
      by_cases hkey : write.1 = key
      · subst hkey
        simp
      · simp [hkey]

/-- Two sequences of assignments that differ by such a change have the same
outcome exactly when it fixes every value assigned last. -/
theorem assignAll_map_eq_iff (change : K → V → V) (state : K → V)
    (writes : List (K × V)) :
    assignAll state (writes.map fun write => (write.1, change write.1 write.2)) =
        assignAll state writes ↔
      ∀ key, ∀ value ∈ lastWrite key writes, change key value = value := by
  rw [funext_iff]
  apply forall_congr'
  intro key
  rw [assignAll_apply, assignAll_apply, lastWrite_map]
  cases lastWrite key writes <;> simp

/-- Assignments to registers that are all assigned again later leave no
trace. -/
theorem assignAll_absorb (state : K → V) {early late : List (K × V)}
    (hcovered : ∀ write ∈ early, ∃ later ∈ late, later.1 = write.1) :
    assignAll (assignAll state early) late = assignAll state late := by
  funext key
  rw [assignAll_apply, assignAll_apply, assignAll_apply]
  cases hlate : lastWrite key late with
  | some value => rfl
  | none =>
      cases hearly : lastWrite key early with
      | none => rfl
      | some value =>
          obtain ⟨later, hlater, hkey⟩ := hcovered _ (mem_of_lastWrite hearly)
          have hsome := (lastWrite_isSome_iff key late).2 ⟨later, hlater, hkey⟩
          simp [hlate] at hsome

/-- Running a list of commands again from each of its commands on leaves what
one run leaves. -/
theorem assignAll_tails {C : Type w} (writes : C → List (K × V)) (state : K → V)
    (cmds : List C) :
    assignAll state (cmds.tails.flatten.flatMap writes) =
      assignAll state (cmds.flatMap writes) := by
  induction cmds generalizing state with
  | nil => rfl
  | cons cmd rest ih =>
      have htails : (cmd :: rest).tails.flatten = cmd :: rest ++ rest.tails.flatten := rfl
      rw [htails, List.flatMap_append, assignAll_append, ih, List.flatMap_cons,
        assignAll_append]
      exact assignAll_absorb _ fun write hwrite => ⟨write, hwrite, rfl⟩

/-- A row of values assigned to consecutive registers of a family. -/
def rowWrites (register : Nat → K) (values : List V) : List (K × V) :=
  values.zipIdx.map fun entry => (register entry.2, entry.1)

theorem lastWrite_rowWrites {register : Nat → K} (hregister : Function.Injective register)
    (values : List V) (index : Nat) :
    lastWrite (register index) (rowWrites register values) = values[index]? := by
  have hstart : ∀ (values : List V) (start : Nat),
      lastWrite (register index)
          ((values.zipIdx start).map fun entry => (register entry.2, entry.1)) =
        if start ≤ index then values[index - start]? else none := by
    intro values
    induction values with
    | nil => simp [lastWrite]
    | cons value rest ih =>
        intro start
        rw [List.zipIdx_cons, List.map_cons, lastWrite, ih (start + 1)]
        simp only [hregister.eq_iff]
        by_cases hbefore : start + 1 ≤ index
        · have hindex : index - start = index - (start + 1) + 1 := by omega
          have hne : start ≠ index := by omega
          simp [hbefore, Nat.le_of_succ_le hbefore, hindex, hne]
        · by_cases heq : start = index
          · subst heq
            simp [hbefore]
          · have hlt : ¬ start ≤ index := by omega
            simp [hbefore, heq, hlt]
  rw [rowWrites, hstart values 0]
  simp

/-- When every register that is assigned can be seen to hold something else
than any given value, two sequences of assignments act alike on all states
exactly when each register's last assignment agrees. -/
theorem forall_assignAll_eq_iff {S : Type w} (view : S → K → V)
    (first second : List (K × V))
    (hrich : ∀ write ∈ first ++ second, ∀ value, ∃ state, view state write.1 ≠ value) :
    (∀ state, assignAll (view state) first = assignAll (view state) second) ↔
      ∀ key, lastWrite key first = lastWrite key second := by
  constructor
  · intro hagree key
    have hkey : ∀ state, (lastWrite key first).getD (view state key) =
        (lastWrite key second).getD (view state key) := by
      intro state
      rw [← assignAll_apply, ← assignAll_apply, hagree state]
    cases hfirst : lastWrite key first with
    | none =>
        cases hsecond : lastWrite key second with
        | none => rfl
        | some value =>
            obtain ⟨state, hstate⟩ :=
              hrich _ (List.mem_append_right _ (mem_of_lastWrite hsecond)) value
            exact absurd (by simpa [hfirst, hsecond] using hkey state) hstate
    | some value =>
        obtain ⟨state, hstate⟩ :=
          hrich _ (List.mem_append_left _ (mem_of_lastWrite hfirst)) value
        cases hsecond : lastWrite key second with
        | none =>
            exact absurd (by simpa [hfirst, hsecond] using (hkey state).symm) hstate
        | some other => simpa [hfirst, hsecond] using hkey state
  · intro hlast state
    funext key
    rw [assignAll_apply, assignAll_apply, hlast key]

end Registers
