/-
Memory blocks of a fixed number of bytes: reading and overwriting a range,
and the byte order of little-endian numbers stored in them.
-/
import Mathlib.Data.List.Basic
import Mathlib.Algebra.GroupWithZero.Nat

/-- `size` consecutive bytes of memory. -/
structure Block (size : Nat) where
  bytes : List UInt8
  length_bytes : bytes.length = size
deriving DecidableEq

namespace Block

variable {size : Nat}

attribute [simp] length_bytes

@[ext] theorem ext {first second : Block size} (hbytes : first.bytes = second.bytes) :
    first = second := by
  cases first
  cases second
  simpa using hbytes

/-- A block filled with zero bytes. -/
def zero (size : Nat) : Block size := ⟨List.replicate size 0, List.length_replicate⟩

/-- Every byte of the region is `byte`. -/
def fill (size : Nat) (byte : UInt8) : Block size :=
  ⟨List.replicate size byte, List.length_replicate⟩

instance : Inhabited (Block size) := ⟨zero size⟩

/-- The `length` bytes at `offset`. -/
def read (block : Block size) (offset length : Nat) : List UInt8 :=
  (block.bytes.drop offset).take length

/-- Overwrite the bytes at `offset`; data that would not fit is not written. -/
def write (block : Block size) (offset : Nat) (data : List UInt8) : Block size :=
  if hfits : offset + data.length ≤ size then
    { bytes := block.bytes.take offset ++ data ++ block.bytes.drop (offset + data.length)
      length_bytes := by
        simp
        omega }
  else block

theorem length_read (block : Block size) {offset length : Nat}
    (hrange : offset + length ≤ size) : (block.read offset length).length = length := by
  simp [read]
  omega

theorem bytes_write {block : Block size} {offset : Nat} {data : List UInt8}
    (hfits : offset + data.length ≤ size) :
    (block.write offset data).bytes =
      block.bytes.take offset ++ data ++ block.bytes.drop (offset + data.length) := by
  simp [write, hfits]

/-- What was written is read back. -/
theorem read_write_same {block : Block size} {offset : Nat} {data : List UInt8}
    (hfits : offset + data.length ≤ size) :
    (block.write offset data).read offset data.length = data := by
  have hprefix : (block.bytes.take offset).length = offset := by
    simp
    omega
  rw [read, bytes_write hfits, List.append_assoc,
    List.drop_append_of_le_length (Nat.le_of_eq hprefix.symm),
    List.drop_eq_nil_of_le (Nat.le_of_eq hprefix), List.nil_append,
    List.take_left]

/-- A range that does not meet the written one keeps its bytes. -/
theorem read_write_disjoint (block : Block size) {offset length written : Nat}
    {data : List UInt8}
    (hdisjoint : offset + length ≤ written ∨ written + data.length ≤ offset) :
    (block.write written data).read offset length = block.read offset length := by
  by_cases hfits : written + data.length ≤ size
  · simp only [read, bytes_write hfits]
    rcases hdisjoint with hbefore | hafter
    · apply List.ext_getElem?
      intro index
      by_cases hindex : index < length
      · have hwritten : offset + index < written := by omega
        simp only [List.getElem?_take, hindex, ↓reduceIte, List.getElem?_drop]
        rw [List.append_assoc, List.getElem?_append_left (by simp; omega),
          List.getElem?_take_of_lt hwritten]
      · rw [List.getElem?_take_eq_none (by omega), List.getElem?_take_eq_none (by omega)]
    · have hlength : (block.bytes.take written ++ data).length =
          written + data.length := by
        simp
        omega
      rw [List.drop_append, hlength, List.drop_eq_nil_of_le (by rw [hlength]; exact hafter),
        List.nil_append, List.drop_drop]
      congr 2
      omega
  · simp [write, hfits]

/-- A byte after writing a range. -/
theorem getElem?_write {block : Block size} {offset : Nat} {data : List UInt8}
    (hfits : offset + data.length ≤ size) (index : Nat) :
    (block.write offset data).bytes[index]? =
      if offset ≤ index ∧ index < offset + data.length then data[index - offset]?
      else block.bytes[index]? := by
  have hprefix : (block.bytes.take offset).length = offset := by
    simp
    omega
  rw [bytes_write hfits, List.append_assoc]
  by_cases hbefore : index < offset
  · rw [List.getElem?_append_left (by omega), List.getElem?_take_of_lt hbefore,
      if_neg (by omega)]
  · rw [List.getElem?_append_right (by omega), hprefix]
    by_cases hinside : index < offset + data.length
    · rw [List.getElem?_append_left (by omega), if_pos (by omega)]
    · rw [List.getElem?_append_right (by omega), List.getElem?_drop, if_neg (by omega)]
      congr 1
      omega

/-- Writes to ranges that do not meet can be exchanged. -/
theorem write_comm (block : Block size) {offset other : Nat} {data otherData : List UInt8}
    (hdisjoint : offset + data.length ≤ other ∨ other + otherData.length ≤ offset) :
    (block.write offset data).write other otherData =
      (block.write other otherData).write offset data := by
  by_cases hfits : offset + data.length ≤ size
  · by_cases hother : other + otherData.length ≤ size
    · apply ext
      apply List.ext_getElem?
      intro index
      rw [getElem?_write hother, getElem?_write hfits, getElem?_write hfits, getElem?_write hother]
      split <;> split <;> first | rfl | omega
    · have hnone : ∀ unwritten : Block size, unwritten.write other otherData = unwritten :=
        fun unwritten => dif_neg hother
      rw [hnone, hnone]
  · have hnone : ∀ unwritten : Block size, unwritten.write offset data = unwritten :=
      fun unwritten => dif_neg hfits
    rw [hnone, hnone]

/-- The bytes of a little-endian number, lowest first. -/
def littleEndian (width value : Nat) : List UInt8 :=
  (List.range width).map fun index => (value / 256 ^ index % 256).toUInt8

@[simp] theorem length_littleEndian (width value : Nat) :
    (littleEndian width value).length = width := by
  simp [littleEndian]

/-- The number stored as `bytes`, lowest byte first. -/
def ofLittleEndian : List UInt8 → Nat
  | [] => 0
  | byte :: rest => byte.toNat + 256 * ofLittleEndian rest

theorem littleEndian_succ (width value : Nat) :
    littleEndian (width + 1) value =
      (value % 256).toUInt8 :: littleEndian width (value / 256) := by
  simp only [littleEndian, List.range_succ_eq_map, List.map_cons, List.map_map, Nat.pow_zero,
    Nat.div_one]
  congr 1
  apply List.map_congr_left
  intro index _
  simp [Nat.pow_succ, Nat.div_div_eq_div_mul, Nat.mul_comm]

theorem ofLittleEndian_littleEndian (width value : Nat) :
    ofLittleEndian (littleEndian width value) = value % 256 ^ width := by
  induction width generalizing value with
  | zero => simp [littleEndian, ofLittleEndian, Nat.mod_one]
  | succ width ih =>
      have hbyte : (value % 256).toUInt8.toNat = value % 256 := by
        simp
      rw [littleEndian_succ, ofLittleEndian, ih, hbyte, Nat.pow_succ, Nat.mul_comm (256 ^ width),
        Nat.mod_mul]

theorem ofLittleEndian_lt (bytes : List UInt8) :
    ofLittleEndian bytes < 256 ^ bytes.length := by
  induction bytes with
  | nil => simp [ofLittleEndian]
  | cons byte rest ih =>
      have hbyte := byte.toNat_lt
      rw [ofLittleEndian, List.length_cons, Nat.pow_succ]
      omega

/-- The lowest bytes of a stored number are the number modulo their range. -/
theorem ofLittleEndian_take (width : Nat) (bytes : List UInt8) :
    ofLittleEndian (bytes.take width) = ofLittleEndian bytes % 256 ^ width := by
  induction width generalizing bytes with
  | zero => simp [ofLittleEndian, Nat.mod_one]
  | succ width ih =>
      cases bytes with
      | nil => simp [ofLittleEndian]
      | cons byte rest =>
          have hbyte := byte.toNat_lt
          rw [List.take_succ_cons, ofLittleEndian, ofLittleEndian, ih, Nat.pow_succ,
            Nat.mul_comm (256 ^ width), Nat.mod_mul, Nat.add_mul_mod_self_left,
            Nat.mod_eq_of_lt hbyte, Nat.add_mul_div_left _ _ (by decide),
            Nat.div_eq_of_lt hbyte, Nat.zero_add]

/-- Storing a number in the width it was read with gives its bytes back. -/
theorem littleEndian_ofLittleEndian (bytes : List UInt8) :
    littleEndian bytes.length (ofLittleEndian bytes) = bytes := by
  induction bytes with
  | nil => rfl
  | cons byte rest ih =>
      have hbyte := byte.toNat_lt
      have hlow : ((byte.toNat + 256 * ofLittleEndian rest) % 256).toUInt8 = byte := by
        rw [Nat.add_mul_mod_self_left, Nat.mod_eq_of_lt hbyte]
        simp
      have hhigh : (byte.toNat + 256 * ofLittleEndian rest) / 256 = ofLittleEndian rest := by
        omega
      rw [ofLittleEndian, List.length_cons, littleEndian_succ, hlow, hhigh, ih]

end Block
