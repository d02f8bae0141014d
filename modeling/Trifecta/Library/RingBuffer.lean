/-
Circular buffers of a fixed size, with head, tail and element count kept
side by side, and their reading as a first-in first-out list.
-/
import Mathlib.Data.List.DropRight
import Mathlib.Data.Nat.ModEq
import Mathlib.Logic.Function.Basic

universe u

variable {α : Type u} {size : Nat}

/-- A circular buffer as it lies in memory.  `head` is the next slot to be
written and `tail` the oldest element; the last two fields keep the three
counters consistent, so an inconsistent buffer cannot be built. -/
structure RingBuffer (α : Type u) (size : Nat) where
  buffer : Fin size → α
  head : Fin size
  tail : Fin size
  count : Nat
  count_le : count ≤ size
  head_eq : head.val = (tail.val + count) % size

namespace RingBuffer

/-- The slot `offset` places after `start`, wrapping at the end. -/
def slotFrom (start : Fin size) (offset : Nat) : Fin size :=
  ⟨(start.val + offset) % size, Nat.mod_lt _ start.pos⟩

@[simp] theorem slotFrom_val (start : Fin size) (offset : Nat) :
    (slotFrom start offset).val = (start.val + offset) % size := rfl

theorem slotFrom_zero (start : Fin size) : slotFrom start 0 = start := by
  apply Fin.ext
  simp [Nat.mod_eq_of_lt start.isLt]

theorem slotFrom_slotFrom (start : Fin size) (first second : Nat) :
    slotFrom (slotFrom start first) second = slotFrom start (first + second) := by
  apply Fin.ext
  simp [Nat.add_assoc]

/-- Two offsets below the size meet in one slot only when they agree. -/
theorem slotFrom_injective (start : Fin size) {first second : Nat}
    (hfirst : first < size) (hsecond : second < size)
    (heq : slotFrom start first = slotFrom start second) : first = second := by
  have hval : (start.val + first) % size = (start.val + second) % size :=
    congrArg Fin.val heq
  have hmod : first % size = second % size :=
    Nat.ModEq.add_left_cancel' start.val hval
  rwa [Nat.mod_eq_of_lt hfirst, Nat.mod_eq_of_lt hsecond] at hmod

theorem head_eq_slotFrom (rb : RingBuffer α size) :
    rb.head = slotFrom rb.tail rb.count :=
  Fin.ext rb.head_eq

/-- The element `index` places after the oldest one. -/
def get (rb : RingBuffer α size) (index : Nat) : α :=
  rb.buffer (slotFrom rb.tail index)

/-- The stored elements, oldest first. -/
def toList (rb : RingBuffer α size) : List α :=
  (List.range rb.count).map rb.get

@[simp] theorem length_toList (rb : RingBuffer α size) :
    rb.toList.length = rb.count := by
  simp [toList]

theorem toList_eq_nil_iff (rb : RingBuffer α size) :
    rb.toList = [] ↔ rb.count = 0 := by
  rw [← List.length_eq_zero_iff, length_toList]

theorem getElem?_toList (rb : RingBuffer α size) (index : Nat) :
    rb.toList[index]? = if index < rb.count then some (rb.get index) else none := by
  by_cases hindex : index < rb.count
  · simp [toList, hindex]
  · simp [toList, hindex]

/-- An empty buffer over the cells `buffer`. -/
def init (buffer : Fin size → α) (hsize : 0 < size) : RingBuffer α size where
  buffer := buffer
  head := ⟨0, hsize⟩
  tail := ⟨0, hsize⟩
  count := 0
  count_le := Nat.zero_le size
  head_eq := by simp

/-- Write `value` at the head of a buffer that has room. -/
def store (rb : RingBuffer α size) (value : α) (hroom : rb.count < size) :
    RingBuffer α size where
  buffer := Function.update rb.buffer rb.head value
  head := slotFrom rb.head 1
  tail := rb.tail
  count := rb.count + 1
  count_le := hroom
  head_eq := by
    rw [head_eq_slotFrom, slotFrom_slotFrom, slotFrom_val]

/-- Write `value` at the head of a full buffer, giving up the oldest
element. -/
def overwrite (rb : RingBuffer α size) (value : α) (hfull : ¬ rb.count < size) :
    RingBuffer α size where
  buffer := Function.update rb.buffer rb.head value
  head := slotFrom rb.head 1
  tail := slotFrom rb.tail 1
  count := rb.count
  count_le := rb.count_le
  head_eq := by
    have hcount : rb.count = size := Nat.le_antisymm rb.count_le (Nat.le_of_not_lt hfull)
    rw [head_eq_slotFrom]
    simp [hcount]

/-- Append unless full. -/
def push (rb : RingBuffer α size) (value : α) : Option (RingBuffer α size) :=
  if hroom : rb.count < size then some (rb.store value hroom) else none

/-- Append, dropping the oldest element of a full buffer. -/
def pushForce (rb : RingBuffer α size) (value : α) : RingBuffer α size :=
  if hroom : rb.count < size then rb.store value hroom else rb.overwrite value hroom

/-- Remove and return the oldest element. -/
def pop (rb : RingBuffer α size) : Option (α × RingBuffer α size) :=
  if hcount : 0 < rb.count then
    some (rb.buffer rb.tail,
      { rb with
        tail := slotFrom rb.tail 1
        count := rb.count - 1
        count_le := Nat.le_trans (Nat.sub_le _ _) rb.count_le
        head_eq := by
          rw [head_eq_slotFrom, slotFrom_val, slotFrom_val, Nat.mod_add_mod]
          congr 1
          omega })
  else none

theorem buffer_head_ne_get {rb : RingBuffer α size} {offset : Nat}
    (hoffset : offset < rb.count) (hroom : rb.count < size) :
    slotFrom rb.tail offset ≠ rb.head := by
  intro heq
  rw [head_eq_slotFrom] at heq
  have := slotFrom_injective rb.tail (Nat.lt_trans hoffset hroom) hroom heq
  omega

theorem toList_store (rb : RingBuffer α size) (value : α) (hroom : rb.count < size) :
    (rb.store value hroom).toList = rb.toList ++ [value] := by
  have hlast : (rb.store value hroom).get rb.count = value := by
    simp [get, store, ← head_eq_slotFrom]
  have hold : ∀ offset ∈ List.range rb.count,
      (rb.store value hroom).get offset = rb.get offset := by
    intro offset hoffset
    have hne := buffer_head_ne_get (List.mem_range.mp hoffset) hroom
    simp [get, store, Function.update_of_ne hne]
  change (List.range (rb.count + 1)).map _ = _
  rw [List.range_succ, List.map_append, List.map_congr_left hold]
  simp [toList, hlast]

theorem toList_overwrite (rb : RingBuffer α size) (value : α)
    (hfull : ¬ rb.count < size) :
    (rb.overwrite value hfull).toList = rb.toList.tail ++ [value] := by
  have hcount : rb.count = size := Nat.le_antisymm rb.count_le (Nat.le_of_not_lt hfull)
  have hpos : 0 < rb.count := Nat.lt_of_lt_of_eq rb.head.pos hcount.symm
  have hhead : rb.head = rb.tail := by
    apply Fin.ext
    rw [rb.head_eq, hcount, Nat.add_mod_right, Nat.mod_eq_of_lt rb.tail.isLt]
  have hget : ∀ offset, offset + 1 < rb.count →
      (rb.overwrite value hfull).get offset = rb.get (offset + 1) := by
    intro offset hoffset
    have hne : slotFrom rb.tail (offset + 1) ≠ rb.head := by
      rw [hhead]
      intro heq
      have := slotFrom_injective rb.tail (Nat.lt_of_lt_of_le hoffset rb.count_le)
        rb.head.pos (heq.trans (slotFrom_zero rb.tail).symm)
      omega
    simp only [get, overwrite, slotFrom_slotFrom, Nat.add_comm 1]
    exact Function.update_of_ne hne value rb.buffer
  have hlast : (rb.overwrite value hfull).get (rb.count - 1) = value := by
    have hslot : slotFrom rb.tail (1 + (rb.count - 1)) = rb.head := by
      rw [head_eq_slotFrom]
      congr 1
      omega
    simp [get, overwrite, slotFrom_slotFrom, hslot]
  apply List.ext_getElem?
  intro index
  rw [getElem?_toList]
  change (if index < rb.count then _ else none) = _
  rcases Nat.lt_trichotomy index (rb.count - 1) with hlt | heq | hgt
  · have hin : index + 1 < rb.count := by omega
    rw [List.getElem?_append_left (by simpa using hlt), List.getElem?_tail,
      getElem?_toList, if_pos (by omega), if_pos hin, hget index hin]
  · subst heq
    rw [if_pos (by omega), hlast, List.getElem?_append_right (by simp)]
    simp
  · rw [if_neg (by omega), List.getElem?_eq_none]
    simp
    omega

theorem push_eq_none_iff (rb : RingBuffer α size) (value : α) :
    rb.push value = none ↔ rb.count = size := by
  have hle := rb.count_le
  by_cases hroom : rb.count < size
  · simp [push, hroom]
    omega
  · simp [push, hroom]
    omega

theorem exists_push {rb : RingBuffer α size} (value : α) (hroom : rb.count < size) :
    ∃ next, rb.push value = some next ∧ next.toList = rb.toList ++ [value] :=
  ⟨rb.store value hroom, by simp [push, hroom], toList_store rb value hroom⟩

theorem rtake_of_length_le {n : Nat} {l : List α} (hlength : l.length ≤ n) :
    l.rtake n = l := by
  rw [List.rtake, Nat.sub_eq_zero_of_le hlength, List.drop_zero]

/-- A forced push keeps the newest `size` elements. -/
theorem toList_pushForce (rb : RingBuffer α size) (value : α) :
    (rb.pushForce value).toList = (rb.toList ++ [value]).rtake size := by
  by_cases hroom : rb.count < size
  · rw [pushForce, dif_pos hroom, toList_store, rtake_of_length_le]
    simpa using Nat.succ_le_of_lt hroom
  · have hcount : rb.count = size := Nat.le_antisymm rb.count_le (Nat.le_of_not_lt hroom)
    have hpos : 1 ≤ rb.toList.length := by
      rw [length_toList, hcount]
      exact rb.head.pos
    have hlength : (rb.toList ++ [value]).length - size = 1 := by simp [hcount]
    rw [pushForce, dif_neg hroom, toList_overwrite, List.rtake, hlength,
      List.drop_append_of_le_length hpos, List.drop_one]

theorem pop_eq_none_iff (rb : RingBuffer α size) : rb.pop = none ↔ rb.toList = [] := by
  rw [toList_eq_nil_iff, pop]
  split <;> simp <;> omega

/-- A pop succeeds as long as anything is stored. -/
theorem exists_pop (rb : RingBuffer α size) (hcount : rb.count ≠ 0) :
    ∃ value rest, rb.pop = some (value, rest) := by
  cases hpop : rb.pop with
  | none => exact absurd ((toList_eq_nil_iff rb).1 ((pop_eq_none_iff rb).1 hpop)) hcount
  | some popped => exact ⟨popped.1, popped.2, rfl⟩

/-- A successful pop returns the head of the list and leaves its tail. -/
theorem toList_pop {rb rest : RingBuffer α size} {value : α}
    (hpop : rb.pop = some (value, rest)) : rb.toList = value :: rest.toList := by
  by_cases hcount : 0 < rb.count
  · simp only [pop, hcount, ↓reduceDIte, Option.some.injEq, Prod.mk.injEq] at hpop
    obtain ⟨hvalue, hrest⟩ := hpop
    have hget : ∀ offset, rest.get offset = rb.get (offset + 1) := by
      intro offset
      simp [← hrest, get, slotFrom_slotFrom, Nat.add_comm 1]
    have hzero : rb.get 0 = value := by
      rw [get, slotFrom_zero, hvalue]
    have hsplit : rb.count = rest.count + 1 := by
      rw [← hrest]
      simp only
      omega
    rw [toList, hsplit, List.range_succ_eq_map, List.map_cons, hzero, List.map_map]
    congr 1
    exact List.map_congr_left fun offset _ => (hget offset).symm
  · simp [pop, hcount] at hpop

theorem count_pop {rb rest : RingBuffer α size} {value : α}
    (hpop : rb.pop = some (value, rest)) : rb.count = rest.count + 1 := by
  have hlength := congrArg List.length (toList_pop hpop)
  simpa using hlength

/-- Append every value of a list in turn. -/
def pushAll (rb : RingBuffer α size) (values : List α) : RingBuffer α size :=
  values.foldl pushForce rb

/-- Older elements already dropped make no difference to what is kept. -/
theorem rtake_rtake_append (n : Nat) (front back : List α) :
    (front.rtake n ++ back).rtake n = (front ++ back).rtake n := by
  simp only [List.rtake_eq_reverse_take_reverse, List.reverse_append,
    List.reverse_reverse, List.take_append, List.take_take]
  congr 3
  omega

theorem toList_pushAll (rb : RingBuffer α size) (values : List α) :
    (rb.pushAll values).toList = (rb.toList ++ values).rtake size := by
  induction values generalizing rb with
  | nil => simp [pushAll, rb.count_le, rtake_of_length_le]
  | cons value rest ih =>
      change ((rb.pushForce value).pushAll rest).toList = _
      rw [ih, toList_pushForce, rtake_rtake_append, List.append_assoc,
        List.singleton_append]

/-- Every forced push moves the head one slot on. -/
theorem head_pushAll (rb : RingBuffer α size) (values : List α) :
    (rb.pushAll values).head = slotFrom rb.head values.length := by
  induction values generalizing rb with
  | nil => exact (slotFrom_zero rb.head).symm
  | cons value rest ih =>
      have hhead : (rb.pushForce value).head = slotFrom rb.head 1 := by
        unfold pushForce
        split <;> rfl
      change ((rb.pushForce value).pushAll rest).head = _
      rw [ih, hhead, slotFrom_slotFrom, List.length_cons, Nat.add_comm]

/-- The oldest `limit` elements, or all of them when there are fewer. -/
def peek (rb : RingBuffer α size) (limit : Nat) : List α :=
  (List.range (min rb.count limit)).map rb.get

theorem peek_eq_take (rb : RingBuffer α size) (limit : Nat) :
    rb.peek limit = rb.toList.take limit := by
  rw [peek, toList, ← List.map_take, List.take_range, Nat.min_comm]

/-- Drop the oldest `limit` elements, or all of them when there are fewer. -/
def discard (rb : RingBuffer α size) : Nat → RingBuffer α size
  | 0 => rb
  | limit + 1 =>
      match rb.pop with
      | none => rb
      | some (_, rest) => rest.discard limit

theorem toList_discard (rb : RingBuffer α size) (limit : Nat) :
    (rb.discard limit).toList = rb.toList.drop limit := by
  induction limit generalizing rb with
  | zero => rfl
  | succ limit ih =>
      rw [discard]
      split
      · next hpop => simp [(pop_eq_none_iff rb).mp hpop]
      · next rest hpop => rw [ih, toList_pop hpop, List.drop_succ_cons]

end RingBuffer
