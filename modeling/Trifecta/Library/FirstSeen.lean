/-
The distinct values of a list in the order in which they appear first, up to a
capacity, and how such a list is extended by further values.
-/
import Mathlib.Data.List.Infix

universe u

namespace FirstSeen

variable {α : Type u} [DecidableEq α] (capacity : Nat)

/-- The values in the order in which they were seen first. -/
def firstSeen (values : List α) : List α :=
  values.eraseDups.take capacity

/-- Enter a value that is new, if there is room. -/
def enter (found : List α) (value : α) : List α :=
  if value ∈ found ∨ capacity ≤ found.length then found else found ++ [value]

def enterAll (found values : List α) : List α :=
  values.foldl (enter capacity) found

@[simp] theorem enterAll_nil (found : List α) : enterAll capacity found [] = found := rfl

theorem enterAll_concat (found values : List α) (value : α) :
    enterAll capacity found (values ++ [value]) =
      enter capacity (enterAll capacity found values) value :=
  List.foldl_concat (enter capacity) found value values

@[simp] theorem firstSeen_nil : firstSeen capacity ([] : List α) = [] := by
  rw [firstSeen, List.eraseDups_nil, List.take_nil]

theorem length_firstSeen_le (values : List α) :
    (firstSeen capacity values).length ≤ capacity :=
  List.length_take_le capacity values.eraseDups

theorem eraseDups_concat (values : List α) (value : α) :
    (values ++ [value]).eraseDups =
      if value ∈ values then values.eraseDups else values.eraseDups ++ [value] := by
  rw [List.eraseDups_append]
  by_cases hmem : value ∈ values
  · simp [List.removeAll, hmem]
  · simp [List.removeAll, hmem, List.eraseDups_cons]

/-- What is missing from the first values has found no room. -/
theorem mem_firstSeen_or_full {values : List α} {value : α} (hvalue : value ∈ values) :
    value ∈ firstSeen capacity values ∨ capacity ≤ (firstSeen capacity values).length := by
  rw [firstSeen, List.length_take]
  by_cases hshort : values.eraseDups.length ≤ capacity
  · rw [List.take_of_length_le hshort]
    exact Or.inl (List.mem_eraseDups.2 hvalue)
  · exact Or.inr (by omega)

theorem firstSeen_concat (values : List α) (value : α) :
    firstSeen capacity (values ++ [value]) = enter capacity (firstSeen capacity values) value := by
  have hlength : (firstSeen capacity values).length = min capacity values.eraseDups.length :=
    List.length_take
  rw [firstSeen, eraseDups_concat, enter]
  by_cases hmem : value ∈ values
  · rw [if_pos hmem, if_pos (mem_firstSeen_or_full capacity hmem)]
    rfl
  · have hnew : value ∉ firstSeen capacity values := fun hfound =>
      hmem (List.mem_eraseDups.1 (List.mem_of_mem_take hfound))
    rw [if_neg hmem]
    by_cases hfull : capacity ≤ (firstSeen capacity values).length
    · rw [if_pos (Or.inr hfull), List.take_append_of_le_length (by omega)]
      rfl
    · have hshort : values.eraseDups.length < capacity := by omega
      have hroom : (values.eraseDups ++ [value]).length ≤ capacity := by
        rw [List.length_append, List.length_singleton]
        exact hshort
      rw [if_neg (not_or_intro hnew hfull), firstSeen, List.take_of_length_le hroom,
        List.take_of_length_le hshort.le]

/-- Further values are entered one after the other. -/
theorem firstSeen_append (values later : List α) :
    firstSeen capacity (values ++ later) =
      enterAll capacity (firstSeen capacity values) later := by
  induction later using List.reverseRecOn with
  | nil => rw [List.append_nil, enterAll_nil]
  | append_singleton later value ih =>
      rw [← List.append_assoc, firstSeen_concat, ih, enterAll_concat]

theorem firstSeen_eq_enterAll (values : List α) :
    firstSeen capacity values = enterAll capacity [] values := by
  have hall := firstSeen_append capacity ([] : List α) values
  rwa [List.nil_append, firstSeen_nil] at hall

theorem found_prefix_enter (found : List α) (value : α) : found <+: enter capacity found value := by
  rw [enter]
  split_ifs
  · exact List.prefix_rfl
  · exact List.prefix_append found [value]

theorem found_prefix_enterAll (found values : List α) :
    found <+: enterAll capacity found values := by
  induction values generalizing found with
  | nil => exact List.prefix_rfl
  | cons value values ih => exact (found_prefix_enter capacity found value).trans (ih _)

/-- Nothing is entered when everything is known or there is no room. -/
theorem enterAll_eq_self {found values : List α}
    (hknown : ∀ value ∈ values, value ∈ found ∨ capacity ≤ found.length) :
    enterAll capacity found values = found := by
  induction values with
  | nil => rfl
  | cons value values ih =>
      have hvalue : enter capacity found value = found :=
        if_pos (hknown value List.mem_cons_self)
      change enterAll capacity (enter capacity found value) values = found
      rw [hvalue]
      exact ih fun other hother => hknown other (List.mem_cons_of_mem value hother)

/-- Values are entered as into an empty list when the list is a beginning of what
they give there. -/
theorem enterAll_eq_firstSeen {found values : List α}
    (hbegins : found <+: firstSeen capacity values) :
    enterAll capacity found values = firstSeen capacity values := by
  induction values using List.reverseRecOn with
  | nil =>
      rw [firstSeen_nil] at hbegins ⊢
      exact List.prefix_nil.1 hbegins
  | append_singleton values value ih =>
      by_cases hshorter : found <+: firstSeen capacity values
      · rw [enterAll_concat, ih hshorter, firstSeen_concat]
      · have hfound : found = firstSeen capacity (values ++ [value]) := by
          rw [firstSeen_concat, enter] at hbegins ⊢
          split_ifs at hbegins ⊢
          · exact absurd hbegins hshorter
          · exact (List.prefix_concat_iff.1 hbegins).resolve_right hshorter
        rw [hfound]
        exact enterAll_eq_self capacity fun other hother => mem_firstSeen_or_full capacity hother

/-- Writing the values of a later part over the beginning of the list gives the
values of both parts exactly when one list is a beginning of the other. -/
theorem overwritten_iff (values later : List α) :
    firstSeen capacity later ++
          (firstSeen capacity values).drop (firstSeen capacity later).length =
        firstSeen capacity (values ++ later) ↔
      firstSeen capacity later <+: firstSeen capacity values ∨
        firstSeen capacity values <+: firstSeen capacity later := by
  rw [firstSeen_append]
  constructor
  · intro hsame
    have hlater :
        firstSeen capacity later <+: enterAll capacity (firstSeen capacity values) later := by
      rw [← hsame]
      exact List.prefix_append _ _
    exact List.prefix_or_prefix_of_prefix hlater (found_prefix_enterAll capacity _ later)
  · rintro (hlater | hvalues)
    · have hknown : ∀ value ∈ later, value ∈ firstSeen capacity values ∨
          capacity ≤ (firstSeen capacity values).length := by
        intro value hvalue
        rcases mem_firstSeen_or_full capacity hvalue with hmem | hfull
        · exact Or.inl (hlater.subset hmem)
        · exact Or.inr (hfull.trans hlater.length_le)
      rw [enterAll_eq_self capacity hknown]
      obtain ⟨rest, hrest⟩ := hlater
      rw [← hrest, List.drop_left]
    · rw [enterAll_eq_firstSeen capacity hvalues, List.drop_eq_nil_of_le hvalues.length_le,
        List.append_nil]

end FirstSeen
