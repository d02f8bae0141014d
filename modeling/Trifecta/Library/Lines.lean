/-
The lines of a text, each with its terminator, and the offsets at which they
start.
-/
import Mathlib.Data.List.TakeDrop

namespace Lines

universe u

variable {α : Type u} [DecidableEq α]

/-- The lines of `text`, each with the terminator that ends it.  Only the last
one may lack it. -/
def splitLines (sep : α) : List α → List (List α)
  | [] => []
  | symbol :: rest =>
      if symbol = sep then [symbol] :: splitLines sep rest
      else
        match splitLines sep rest with
        | [] => [[symbol]]
        | line :: later => (symbol :: line) :: later

theorem flatten_splitLines (sep : α) (text : List α) : (splitLines sep text).flatten = text := by
  induction text with
  | nil => rfl
  | cons symbol rest ih =>
      rw [splitLines]
      split
      · simp [ih]
      · cases hlines : splitLines sep rest with
        | nil =>
            have hrest : rest = [] := by simpa [hlines] using ih.symm
            simp [hrest]
        | cons line later =>
            rw [hlines] at ih
            simpa using ih

/-- The first line is all there is, without a terminator, or it ends with one
and the later lines are those of the rest. -/
theorem splitLines_eq_cons {sep : α} {text line : List α} {later : List (List α)}
    (hlines : splitLines sep text = line :: later) :
    (sep ∉ line ∧ line ≠ [] ∧ later = []) ∨
      ∃ body, line = body ++ [sep] ∧ sep ∉ body ∧ splitLines sep later.flatten = later := by
  induction text generalizing line later with
  | nil => simp [splitLines] at hlines
  | cons symbol rest ih =>
      rw [splitLines] at hlines
      split at hlines
      · next hsymbol =>
          obtain ⟨rfl, rfl⟩ := List.cons.inj hlines
          right
          exact ⟨[], by simp [hsymbol], List.not_mem_nil, by rw [flatten_splitLines]⟩
      · next hsymbol =>
          cases hrest : splitLines sep rest with
          | nil =>
              rw [hrest] at hlines
              obtain ⟨rfl, rfl⟩ := List.cons.inj hlines
              left
              simpa using Ne.symm hsymbol
          | cons next more =>
              rw [hrest] at hlines
              obtain ⟨rfl, rfl⟩ := List.cons.inj hlines
              rcases ih hrest with ⟨hnone, _, rfl⟩ | ⟨body, rfl, hbody, hmore⟩
              · left
                simp [hnone, Ne.symm hsymbol]
              · right
                exact ⟨symbol :: body, rfl, by simp [hbody, Ne.symm hsymbol], hmore⟩

theorem splitLines_append_cons {sep : α} {body : List α} (hbody : sep ∉ body) (rest : List α) :
    splitLines sep (body ++ sep :: rest) = (body ++ [sep]) :: splitLines sep rest := by
  induction body with
  | nil => simp [splitLines]
  | cons symbol body ih =>
      rw [List.mem_cons, not_or] at hbody
      rw [List.cons_append, splitLines, if_neg (Ne.symm hbody.1), ih hbody.2]
      rfl

/-- Lines that each end with their only terminator are the lines of their text. -/
theorem splitLines_flatten {sep : α} {lines : List (List α)}
    (hlines : ∀ line ∈ lines, ∃ body, line = body ++ [sep] ∧ sep ∉ body) :
    splitLines sep lines.flatten = lines := by
  induction lines with
  | nil => rfl
  | cons line later ih =>
      obtain ⟨body, rfl, hbody⟩ := hlines line List.mem_cons_self
      rw [List.flatten_cons, List.append_assoc, List.singleton_append,
        splitLines_append_cons hbody,
        ih fun other hother => hlines other (List.mem_cons_of_mem _ hother)]

/-- Where line number `index` starts. -/
def offset (lines : List (List α)) (index : Nat) : Nat :=
  (lines.take index).flatten.length

omit [DecidableEq α] in
theorem drop_offset (lines : List (List α)) (index : Nat) :
    lines.flatten.drop (offset lines index) = (lines.drop index).flatten := by
  have hsplit : lines.flatten = (lines.take index).flatten ++ (lines.drop index).flatten := by
    rw [← List.flatten_append, List.take_append_drop]
  rw [hsplit, offset, List.drop_left]

omit [DecidableEq α] in
/-- An offset, counted from the end of the text. -/
theorem offset_eq_sub (lines : List (List α)) (index : Nat) :
    offset lines index = lines.flatten.length - (lines.drop index).flatten.length := by
  have hsplit : lines.flatten.length =
      (lines.take index).flatten.length + (lines.drop index).flatten.length := by
    rw [← List.length_append, ← List.flatten_append, List.take_append_drop]
  rw [hsplit, offset, Nat.add_sub_cancel]

/-- What is left of a text after whole lines has the lines left as its lines. -/
theorem splitLines_flatten_drop {sep : α} {text : List α} {lines : List (List α)}
    (hlines : splitLines sep text = lines) (index : Nat) :
    splitLines sep (lines.drop index).flatten = lines.drop index := by
  induction index generalizing text lines with
  | zero =>
      subst hlines
      rw [List.drop_zero, flatten_splitLines]
  | succ index ih =>
      cases lines with
      | nil => rfl
      | cons line later =>
          rw [List.drop_succ_cons]
          rcases splitLines_eq_cons hlines with ⟨_, _, rfl⟩ | ⟨_, _, _, hlater⟩
          · simp [splitLines]
          · exact ih hlater

end Lines
