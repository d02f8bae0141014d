/-
Cells joined by a separator: the length of the text, and what splitting a text
gives that was cut at a limit.
-/
import Mathlib.Algebra.BigOperators.Group.List.Basic
import Mathlib.Algebra.GroupWithZero.Nat

namespace JoinedCells

universe u

variable {α : Type u} {sep : α}

/-- The text of `cells` with a separator behind each but the last. -/
abbrev joined (sep : α) (cells : List (List α)) : List α :=
  [sep].intercalate cells

theorem joined_cons {cells : List (List α)} (hne : cells ≠ []) (cell : List α) :
    joined sep (cell :: cells) = cell ++ sep :: joined sep cells := by
  rw [joined, List.intercalate_cons_of_ne_nil hne, List.append_assoc, List.singleton_append]

/-- Every cell brings one separator, the last one none. -/
theorem length_joined_add_one {cells : List (List α)} (hne : cells ≠ []) :
    (joined sep cells).length + 1 = (cells.map List.length).sum + cells.length := by
  induction cells with
  | nil => exact absurd rfl hne
  | cons cell rest ih =>
      rw [List.map_cons, List.sum_cons, List.length_cons]
      by_cases hrest : rest = []
      · simp [hrest, joined]
      · have hlater := ih hrest
        rw [joined_cons hrest, List.length_append, List.length_cons]
        omega

/-- What stands in joined cells stands in one of them, apart from the separators. -/
theorem not_mem_joined {symbol : α} (hsep : symbol ≠ sep) {cells : List (List α)}
    (hcells : ∀ cell ∈ cells, symbol ∉ cell) : symbol ∉ joined sep cells := by
  induction cells with
  | nil => simp [joined]
  | cons cell rest ih =>
      rw [List.forall_mem_cons] at hcells
      by_cases hrest : rest = []
      · simpa [hrest, joined] using hcells.1
      · rw [joined_cons hrest, List.mem_append, List.mem_cons, not_or, not_or]
        exact ⟨hcells.1, hsep, ih hcells.2⟩

/-- A text behind joined cells belongs to the last cell. -/
theorem joined_concat_append (sep : α) (cells : List (List α)) (last tail : List α) :
    joined sep (cells ++ [last]) ++ tail = joined sep (cells ++ [last ++ tail]) := by
  induction cells with
  | nil => simp [joined]
  | cons cell rest ih =>
      have hne : ∀ final : List α, rest ++ [final] ≠ [] := by simp
      rw [List.cons_append, List.cons_append, joined_cons (hne _), joined_cons (hne _),
        List.append_assoc, List.cons_append, ih]

variable [DecidableEq α]

/-- A text cut at a limit that still splits into as many cells was cut inside
the last one. -/
theorem splitOn_take_joined {cells : List (List α)} {last : List α}
    (hcells : ∀ cell ∈ cells, sep ∉ cell) (hlast : sep ∉ last) {limit : Nat}
    (hlength : (((joined sep (cells ++ [last])).take limit).splitOn sep).length =
      cells.length + 1) :
    ∃ kept, ((joined sep (cells ++ [last])).take limit).splitOn sep =
      cells ++ [last.take kept] := by
  induction cells generalizing limit with
  | nil =>
      refine ⟨limit, ?_⟩
      rw [List.nil_append, joined, List.intercalate_singleton]
      exact List.splitOn_eq_singleton fun hmem => hlast (List.mem_of_mem_take hmem)
  | cons cell rest ih =>
      rw [List.forall_mem_cons] at hcells
      rw [List.cons_append, joined_cons (by simp)] at hlength ⊢
      by_cases hlimit : limit ≤ cell.length
      · rw [List.take_append_of_le_length hlimit, List.splitOn_eq_singleton fun hmem =>
          hcells.1 (List.mem_of_mem_take hmem)] at hlength
        simp at hlength
      · obtain ⟨more, rfl⟩ : ∃ more, limit = cell.length + (more + 1) :=
          ⟨limit - cell.length - 1, by omega⟩
        rw [List.take_length_add_append, List.take_succ_cons,
          List.splitOn_append_cons_self_of_not_mem hcells.1] at hlength ⊢
        obtain ⟨kept, hkept⟩ := ih hcells.2 (by simpa using hlength)
        exact ⟨kept, by rw [hkept, List.cons_append]⟩

/-- Reading a text up to its terminator, when both are cut at a limit. -/
theorem takeWhile_take_append {text : List α} (htext : sep ∉ text) (limit : Nat) :
    ((text ++ [sep]).take limit).takeWhile (· ≠ sep) = text.take limit := by
  have hkept : ∀ symbol ∈ text.take limit, decide (symbol ≠ sep) = true := by
    intro symbol hsymbol
    have hne : symbol ≠ sep := by
      rintro rfl
      exact htext (List.mem_of_mem_take hsymbol)
    simp [hne]
  rw [List.take_append, List.takeWhile_append_of_pos hkept]
  cases hroom : limit - text.length with
  | zero => simp
  | succ room => simp

end JoinedCells
