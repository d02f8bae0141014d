/-
A table of cells that several threads fill one cell at a time and read back afterwards:
each finds its own values exactly as long as no store of another thread changes one.
-/
import Mathlib.Data.List.Range
import Mathlib.Logic.Function.Basic

universe u v w

namespace SharedTable

variable {T : Type u} {V : Type v}

/-- The values that a thread stores in the cells from the first one on, and how many of
them it has stored. -/
structure Filling (V : Type v) where
  values : List V
  stored : Nat

/-- The value that is stored next, if one is left. -/
def Filling.next? (filling : Filling V) : Option V :=
  filling.values[filling.stored]?

/-- The cells, and what each thread is filling them with. -/
structure Table (T : Type u) (V : Type v) where
  cells : Nat → V
  fillings : T → Filling V

/-- The first `count` cells. -/
def readBack (cells : Nat → V) (count : Nat) : List V :=
  (List.range count).map cells

/-- The thread would find everything that it has stored. -/
def Table.Kept (table : Table T V) (thread : T) : Prop :=
  ∀ index < (table.fillings thread).stored,
    (table.fillings thread).values[index]? = some (table.cells index)

/-- The next store of the thread puts nothing else in a cell that another one has filled. -/
def Table.Spares (table : Table T V) (thread : T) : Prop :=
  ∀ value, (table.fillings thread).next? = some value → ∀ other, other ≠ thread →
    (table.fillings thread).stored < (table.fillings other).stored →
      (table.fillings other).values[(table.fillings thread).stored]? = some value

theorem length_readBack (cells : Nat → V) (count : Nat) : (readBack cells count).length = count := by
  rw [readBack, List.length_map, List.length_range]

theorem take_readBack (cells : Nat → V) {count total : Nat} (hcount : count ≤ total) :
    (readBack cells total).take count = readBack cells count := by
  rw [readBack, readBack, ← List.map_take, List.take_range, Nat.min_eq_left hcount]

/-- Values that are all there are read back. -/
theorem readBack_of_stored {cells : Nat → V} {values : List V} {count : Nat}
    (hstored : ∀ index < count, values[index]? = some (cells index)) :
    readBack cells count = values.take count := by
  apply List.ext_getElem?
  intro index
  by_cases hindex : index < count
  · rw [List.getElem?_take_of_lt hindex, hstored index hindex, readBack, List.getElem?_map,
      List.getElem?_range hindex, Option.map_some]
  · rw [List.getElem?_take_eq_none (Nat.le_of_not_lt hindex)]
    exact List.getElem?_eq_none (by simpa [readBack] using hindex)

/-- A thread does not disturb threads that have stored nothing yet. -/
theorem spares_of_apart {table : Table T V} {thread : T}
    (hapart : ∀ other, other ≠ thread → (table.fillings other).stored = 0) :
    table.Spares thread := by
  intro value _ other hother hless
  rw [hapart other hother] at hless
  exact absurd hless (Nat.not_lt_zero _)

/-- Neither does one that has nothing left to store. -/
theorem spares_of_done {table : Table T V} {thread : T}
    (hdone : (table.fillings thread).next? = none) : table.Spares thread := by
  intro value hvalue
  rw [hdone] at hvalue
  cases hvalue

variable [DecidableEq T]

/-- A thread turns to other values. -/
def Table.start (table : Table T V) (thread : T) (values : List V) : Table T V :=
  { table with fillings := Function.update table.fillings thread ⟨values, 0⟩ }

/-- A thread stores its next value. -/
def Table.store (table : Table T V) (thread : T) (value : V) : Table T V :=
  let filling := table.fillings thread
  { cells := Function.update table.cells filling.stored value
    fillings := Function.update table.fillings thread
      { filling with stored := filling.stored + 1 } }

/-! The table of a system whose threads have states of their own. -/

section View

variable {S : Type w} {filling : S → Filling V} {cells : Nat → V} {threads : T → S} {thread : T}
  {state : S}

variable (filling) in
omit [DecidableEq T] in
/-- The table as threads in these states fill it. -/
def view (cells : Nat → V) (threads : T → S) : Table T V where
  cells := cells
  fillings thread := filling (threads thread)

theorem fillings_view_update :
    (view filling cells (Function.update threads thread state)).fillings =
      Function.update (view filling cells threads).fillings thread (filling state) :=
  funext fun other => Function.apply_update (fun _ => filling) threads thread state other

theorem view_update_same (hsame : filling state = filling (threads thread)) :
    view filling cells (Function.update threads thread state) = view filling cells threads := by
  have hfilling : filling state = (view filling cells threads).fillings thread := hsame
  have hfillings := @fillings_view_update T V _ S filling cells threads thread state
  rw [hfilling, Function.update_eq_self] at hfillings
  exact congrArg (Table.mk cells) hfillings

theorem view_update_start {values : List V} (hstart : filling state = ⟨values, 0⟩) :
    view filling cells (Function.update threads thread state) =
      (view filling cells threads).start thread values := by
  rw [Table.start, ← hstart, ← fillings_view_update]
  rfl

theorem view_update_store (value : V) (hstore : filling state =
      ⟨(filling (threads thread)).values, (filling (threads thread)).stored + 1⟩) :
    view filling (Function.update cells (filling (threads thread)).stored value)
        (Function.update threads thread state) =
      (view filling cells threads).store thread value := by
  have hfillings := @fillings_view_update T V _ S filling cells threads thread state
  rw [hstore] at hfillings
  exact congrArg (Table.mk _) hfillings

end View

section Steps

variable {table : Table T V} {thread : T}

/-- Turning to other values loses nothing for anyone. -/
theorem kept_start {values : List V} (hkept : ∀ other, table.Kept other) (other : T) :
    (table.start thread values).Kept other := by
  intro index hindex
  by_cases hother : other = thread
  · simp only [hother, Table.start, Function.update_self] at hindex
    exact absurd hindex (Nat.not_lt_zero _)
  · simp only [Table.start, Function.update_of_ne hother] at hindex ⊢
    exact hkept other index hindex

theorem kept_store_self {value : V} (hnext : (table.fillings thread).next? = some value)
    (hkept : table.Kept thread) : (table.store thread value).Kept thread := by
  intro index hindex
  simp only [Table.store, Function.update_self] at hindex ⊢
  rcases Nat.lt_succ_iff_lt_or_eq.1 hindex with hold | rfl
  · rw [Function.update_of_ne (Nat.ne_of_lt hold)]
    exact hkept index hold
  · rw [Function.update_self]
    exact hnext

theorem kept_store_other_iff {value : V} {other : T} (hother : other ≠ thread)
    (hkept : table.Kept other) :
    (table.store thread value).Kept other ↔
      ((table.fillings thread).stored < (table.fillings other).stored →
        (table.fillings other).values[(table.fillings thread).stored]? = some value) := by
  simp only [Table.Kept, Table.store, Function.update_of_ne hother]
  constructor
  · intro hstored hless
    have hcell := hstored _ hless
    rwa [Function.update_self] at hcell
  · intro hsame index hindex
    by_cases hcell : index = (table.fillings thread).stored
    · rw [hcell, Function.update_self]
      exact hsame (hcell ▸ hindex)
    · rw [Function.update_of_ne hcell]
      exact hkept index hindex

/-- A store keeps the values of all threads exactly when it spares them. -/
theorem kept_store_iff {value : V} (hnext : (table.fillings thread).next? = some value)
    (hkept : ∀ other, table.Kept other) :
    (∀ other, (table.store thread value).Kept other) ↔ table.Spares thread := by
  constructor
  · intro hall found hfound other hother
    obtain rfl := Option.some.inj (hnext.symm.trans hfound)
    exact (kept_store_other_iff hother (hkept other)).1 (hall other)
  · intro hspares other
    by_cases hother : other = thread
    · rw [hother]
      exact kept_store_self hnext (hkept thread)
    · exact (kept_store_other_iff hother (hkept other)).2 (hspares value hnext other hother)

end Steps

end SharedTable
