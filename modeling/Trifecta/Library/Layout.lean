/-
Packed records inside a memory region: members one behind the other, reading
and assigning a member by its name, and clearing a record.
-/
import Trifecta.Library.Block

universe u

/-- The members of a packed record in order, each with its size in bytes. -/
abbrev Layout (F : Type u) : Type u := List (F × Nat)

namespace Layout

variable {F : Type u} [DecidableEq F] {size : Nat}

/-- `sizeof`. -/
def totalSize (layout : Layout F) : Nat :=
  (layout.map Prod.snd).sum

/-- Offset and size of the first member `field`, counted from `start`. -/
def memberFrom (field : F) : Nat → Layout F → Option (Nat × Nat)
  | _, [] => none
  | start, entry :: rest =>
      if entry.1 = field then some (start, entry.2)
      else memberFrom field (start + entry.2) rest

/-- Offset and size of a member. -/
def member (layout : Layout F) (field : F) : Option (Nat × Nat) :=
  memberFrom field 0 layout

/-- The bytes of a member. -/
def get (layout : Layout F) (field : F) (block : Block size) : Option (List UInt8) :=
  (layout.member field).map fun place => block.read place.1 place.2

/-- Set every byte of the record to zero. -/
def clear (layout : Layout F) (block : Block size) : Block size :=
  block.write 0 (List.replicate layout.totalSize 0)

/-- Assign the bytes that `value` gives for the size of the member. -/
def set (layout : Layout F) (field : F) (value : Nat → List UInt8) (block : Block size) :
    Block size :=
  match layout.member field with
  | none => block
  | some place => block.write place.1 (value place.2)

omit [DecidableEq F] in
theorem totalSize_cons (entry : F × Nat) (rest : Layout F) :
    totalSize (entry :: rest) = entry.2 + totalSize rest := by
  simp [totalSize]

theorem memberFrom_range {field : F} {layout : Layout F} {start : Nat} {place : Nat × Nat}
    (hplace : memberFrom field start layout = some place) :
    start ≤ place.1 ∧ place.1 + place.2 ≤ start + totalSize layout := by
  induction layout generalizing start with
  | nil => simp [memberFrom] at hplace
  | cons entry rest ih =>
      rw [totalSize_cons]
      rw [memberFrom] at hplace
      split at hplace
      · obtain rfl := Option.some.inj hplace
        exact ⟨Nat.le_refl _, by dsimp only; omega⟩
      · obtain ⟨hlow, hhigh⟩ := ih hplace
        omega

theorem member_range {layout : Layout F} {field : F} {place : Nat × Nat}
    (hplace : layout.member field = some place) : place.1 + place.2 ≤ layout.totalSize := by
  simpa using (memberFrom_range hplace).2

/-- Members of different names do not overlap. -/
theorem memberFrom_disjoint {field other : F} (hne : field ≠ other) {layout : Layout F}
    {start : Nat} {place otherPlace : Nat × Nat}
    (hplace : memberFrom field start layout = some place)
    (hother : memberFrom other start layout = some otherPlace) :
    place.1 + place.2 ≤ otherPlace.1 ∨ otherPlace.1 + otherPlace.2 ≤ place.1 := by
  induction layout generalizing start with
  | nil => simp [memberFrom] at hplace
  | cons entry rest ih =>
      rw [memberFrom] at hplace hother
      split at hplace
      · next hfield =>
          obtain rfl := Option.some.inj hplace
          rw [if_neg (fun hsame => hne (hfield.symm.trans hsame))] at hother
          exact Or.inl (memberFrom_range hother).1
      · split at hother
        · obtain rfl := Option.some.inj hother
          exact Or.inr (memberFrom_range hplace).1
        · exact ih hplace hother

theorem get_set_of_ne {layout : Layout F} {field other : F} (hne : field ≠ other)
    {value : Nat → List UInt8} (hvalue : ∀ width, (value width).length = width)
    (block : Block size) : layout.get field (layout.set other value block) =
      layout.get field block := by
  rw [set, get, get]
  cases hother : layout.member other with
  | none => rfl
  | some otherPlace =>
      cases hplace : layout.member field with
      | none => rfl
      | some place =>
          refine congrArg some (Block.read_write_disjoint block ?_)
          rw [hvalue]
          exact memberFrom_disjoint hne hplace hother

theorem get_set_same {layout : Layout F} {field : F} {value : Nat → List UInt8}
    (hvalue : ∀ width, (value width).length = width) (hsize : layout.totalSize ≤ size)
    (block : Block size) : layout.get field (layout.set field value block) =
      (layout.member field).map fun place => value place.2 := by
  rw [set, get]
  cases hplace : layout.member field with
  | none => rfl
  | some place =>
      have hrange := member_range hplace
      have hread : (block.write place.1 (value place.2)).read place.1 (value place.2).length =
          value place.2 := Block.read_write_same (by rw [hvalue]; omega)
      rw [hvalue] at hread
      exact congrArg some hread

/-- Assignments to different members can be exchanged. -/
theorem set_comm (layout : Layout F) {field other : F} (hne : field ≠ other)
    {value otherValue : Nat → List UInt8} (hvalue : ∀ width, (value width).length = width)
    (hother : ∀ width, (otherValue width).length = width) (block : Block size) :
    layout.set other otherValue (layout.set field value block) =
      layout.set field value (layout.set other otherValue block) := by
  rw [set, set, set, set]
  cases hplace : layout.member field with
  | none => rfl
  | some place =>
      cases hotherPlace : layout.member other with
      | none => rfl
      | some otherPlace =>
          refine Block.write_comm block ?_
          rw [hvalue, hother]
          exact memberFrom_disjoint hne hplace hotherPlace

theorem get_clear {layout : Layout F} (hsize : layout.totalSize ≤ size) (field : F)
    (block : Block size) : layout.get field (layout.clear block) =
      (layout.member field).map fun place => List.replicate place.2 0 := by
  rw [get, clear]
  cases hplace : layout.member field with
  | none => rfl
  | some place =>
      have hrange := member_range hplace
      refine congrArg some ?_
      dsimp only
      rw [Block.read, Block.bytes_write (by simpa using hsize), List.take_zero, List.nil_append,
        List.drop_append_of_le_length (by simp; omega), List.drop_replicate,
        List.take_append_of_le_length (by simp; omega), List.take_replicate]
      congr 1
      omega

theorem length_get {layout : Layout F} (hsize : layout.totalSize ≤ size) {field : F}
    {block : Block size} {bytes : List UInt8} (hget : layout.get field block = some bytes) :
    ∃ offset, layout.member field = some (offset, bytes.length) := by
  rw [get, Option.map_eq_some_iff] at hget
  obtain ⟨place, hplace, rfl⟩ := hget
  have hrange := member_range hplace
  exact ⟨place.1, by rw [hplace, Block.length_read _ (by omega)]⟩

end Layout
