/-
Reading a list as segments that end in a separator, followed by an open
remainder.
-/
import Mathlib.Data.List.Basic

universe u

namespace Segments

variable {α : Type u} [DecidableEq α]

/-- The segments of `input` that end in `sep`, without their separators. -/
def terminated (sep : α) (input : List α) : List (List α) :=
  (input.splitOn sep).dropLast

theorem terminated_of_not_mem {sep : α} {input : List α} (hinput : sep ∉ input) :
    terminated sep input = [] := by
  rw [terminated, List.splitOn_eq_singleton hinput, List.dropLast_singleton]

theorem terminated_append_cons {sep : α} {segment : List α} (hsegment : sep ∉ segment)
    (rest : List α) :
    terminated sep (segment ++ sep :: rest) = segment :: terminated sep rest := by
  rw [terminated, List.splitOn_append_cons_self_of_not_mem hsegment,
    List.dropLast_cons_of_ne_nil (List.splitOn_ne_nil sep rest), terminated]

omit [DecidableEq α] in
/-- A list of one element has one last element. -/
theorem concat_prefix_singleton {front : List α} {last only : α}
    (hfront : front ++ [last] <+: [only]) : front = [] ∧ last = only := by
  obtain ⟨back, hback⟩ := hfront
  cases front with
  | nil => exact ⟨rfl, (List.cons.inj hback).1⟩
  | cons first others => simp at hback

theorem exists_last_split {sep : α} {input : List α} (hmem : sep ∈ input) :
    ∃ front back, input = front ++ sep :: back ∧ sep ∉ back := by
  induction input with
  | nil => exact absurd hmem List.not_mem_nil
  | cons first rest ih =>
      by_cases hrest : sep ∈ rest
      · obtain ⟨front, back, rfl, hback⟩ := ih hrest
        exact ⟨first :: front, back, rfl, hback⟩
      · obtain rfl | htail := List.mem_cons.1 hmem
        · exact ⟨[], rest, rfl, hrest⟩
        · exact absurd htail hrest

omit [DecidableEq α] in
/-- A list is cut at the first separator in one way only. -/
theorem append_cons_unique {sep : α} {front front' rest rest' : List α}
    (hfront : sep ∉ front) (hfront' : sep ∉ front')
    (heq : front ++ sep :: rest = front' ++ sep :: rest') : front = front' ∧ rest = rest' := by
  induction front generalizing front' with
  | nil =>
      cases front' with
      | nil => exact ⟨rfl, (List.cons.inj heq).2⟩
      | cons first others =>
          exact absurd (List.mem_cons.2 (Or.inl (List.cons.inj heq).1)) hfront'
  | cons first others ih =>
      cases front' with
      | nil => exact absurd (List.mem_cons.2 (Or.inl (List.cons.inj heq).1.symm)) hfront
      | cons first' others' =>
          obtain ⟨rfl, hrest⟩ := List.cons.inj heq
          obtain ⟨rfl, rfl⟩ := ih (List.not_mem_of_not_mem_cons hfront)
            (List.not_mem_of_not_mem_cons hfront') hrest
          exact ⟨rfl, rfl⟩

omit [DecidableEq α] in
/-- Where the separator of one cut lies in the other. -/
theorem append_eq_append_cons {sep : α} {front rest pre post : List α}
    (heq : front ++ rest = pre ++ sep :: post) :
    (∃ back, front = pre ++ sep :: back ∧ post = back ++ rest) ∨
      ∃ back, pre = front ++ back ∧ rest = back ++ sep :: post := by
  rcases List.append_eq_append_iff.1 heq with ⟨back, hpre, hrest⟩ | ⟨back, hfront, hpost⟩
  · exact Or.inr ⟨back, hpre, hrest⟩
  · cases back with
    | nil =>
        refine Or.inr ⟨[], ?_, hpost.symm⟩
        rw [hfront, List.append_nil, List.append_nil]
    | cons first back =>
        obtain ⟨rfl, rfl⟩ := List.cons.inj hpost
        exact Or.inl ⟨back, hfront, rfl⟩

omit [DecidableEq α] in
/-- A list is cut at the last separator in one way only. -/
theorem append_cons_unique_last {sep : α} {front front' back back' : List α}
    (hback : sep ∉ back) (hback' : sep ∉ back')
    (heq : front ++ sep :: back = front' ++ sep :: back') : front = front' ∧ back = back' := by
  rcases append_eq_append_cons heq with ⟨more, _, rfl⟩ | ⟨more, hfront, hmore⟩
  · exact absurd (List.mem_append_right more List.mem_cons_self) hback'
  · cases more with
    | nil =>
        rw [List.append_nil] at hfront
        exact ⟨hfront.symm, (List.cons.inj hmore).2⟩
    | cons first more =>
        obtain ⟨_, rfl⟩ := List.cons.inj hmore
        exact absurd (List.mem_append_right more List.mem_cons_self) hback

/-- Induct over an input one terminated segment at a time. -/
theorem segment_induction (sep : α) {motive : List α → Prop}
    (remainder : ∀ input, sep ∉ input → motive input)
    (segment : ∀ front rest, sep ∉ front → motive rest → motive (front ++ sep :: rest))
    (input : List α) : motive input := by
  induction hlength : input.length using Nat.strongRecOn generalizing input with
  | ind length ih =>
      by_cases hmem : sep ∈ input
      · obtain ⟨front, rest, rfl, hfront⟩ := List.eq_append_cons_of_mem hmem
        apply segment front rest hfront
        apply ih rest.length _ rest rfl
        simp only [← hlength, List.length_append, List.length_cons]
        omega
      · exact remainder input hmem

/-- No separator is left in the parts. -/
theorem not_mem_of_mem_splitOn {sep : α} {input part : List α} (hpart : part ∈ input.splitOn sep) :
    sep ∉ part := by
  induction input using segment_induction sep with
  | remainder input hinput =>
      rw [List.splitOn_eq_singleton hinput, List.mem_singleton] at hpart
      exact hpart ▸ hinput
  | segment front rest hfront ih =>
      rw [List.splitOn_append_cons_self_of_not_mem hfront, List.mem_cons] at hpart
      rcases hpart with rfl | hlater
      · exact hfront
      · exact ih hlater

/-- The segments of a beginning are segments of the whole. -/
theorem mem_terminated_append {sep : α} {input segment : List α} (more : List α)
    (hsegment : segment ∈ terminated sep input) :
    segment ∈ terminated sep (input ++ more) := by
  induction input using segment_induction sep with
  | remainder input hinput =>
      rw [terminated_of_not_mem hinput] at hsegment
      exact absurd hsegment List.not_mem_nil
  | segment front rest hfront ih =>
      rw [terminated_append_cons hfront] at hsegment
      rw [List.append_assoc, List.cons_append, terminated_append_cons hfront]
      rcases List.mem_cons.1 hsegment with rfl | hrest
      · exact List.mem_cons_self
      · exact List.mem_cons_of_mem front (ih hrest)

theorem subset_of_mem_terminated {sep : α} {input segment : List α}
    (hsegment : segment ∈ terminated sep input) : segment ⊆ input := by
  induction input using segment_induction sep with
  | remainder input hinput =>
      rw [terminated_of_not_mem hinput] at hsegment
      exact absurd hsegment List.not_mem_nil
  | segment front rest hfront ih =>
      rw [terminated_append_cons hfront] at hsegment
      rcases List.mem_cons.1 hsegment with rfl | hrest
      · exact List.subset_append_left _ _
      · intro value hvalue
        exact List.mem_append_right front (List.mem_cons_of_mem sep (ih hrest hvalue))

/-- What is put in front lengthens the first segment only. -/
theorem mem_terminated_of_append {sep : α} {pre input segment : List α} (hpre : sep ∉ pre)
    (hsegment : segment ∈ terminated sep (pre ++ input)) :
    (∃ back, segment = pre ++ back) ∨ segment ∈ terminated sep input := by
  by_cases hmem : sep ∈ input
  · obtain ⟨front, rest, rfl, hfront⟩ := List.eq_append_cons_of_mem hmem
    have hboth : sep ∉ pre ++ front := by
      rw [List.mem_append, not_or]
      exact ⟨hpre, hfront⟩
    rw [← List.append_assoc, terminated_append_cons hboth] at hsegment
    rw [terminated_append_cons hfront]
    rcases List.mem_cons.1 hsegment with rfl | hrest
    · exact Or.inl ⟨front, rfl⟩
    · exact Or.inr (List.mem_cons_of_mem front hrest)
  · have hnone : sep ∉ pre ++ input := by
      rw [List.mem_append, not_or]
      exact ⟨hpre, hmem⟩
    rw [terminated_of_not_mem hnone] at hsegment
    exact absurd hsegment List.not_mem_nil

/-- Joining segments, each followed by the separator. -/
def join (sep : α) (segments : List (List α)) : List α :=
  segments.flatMap fun segment => segment ++ [sep]

end Segments
