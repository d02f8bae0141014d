/-
How many bits of a whole frame, its length and its checksum with them, must change before
its check can accept it again.
-/
import Trifecta.FrameCrc
import Trifecta.Library.CrcDistance
import Mathlib.Data.List.GetD

namespace Trifecta

open BitwiseCrc

/-- How many bits of a frame behind its start byte are transmitted differently. -/
def alteredBits (frame changed : Nat → UInt8) (totalLength : Nat) : Nat :=
  (List.range' 8 (8 * (totalLength - 1))).countP fun position =>
    transmittedBit frame position ^^ transmittedBit changed position

/-- The bits that the check is over in the order in which it takes them in: the payload,
and the checksum with its high byte first. -/
def checkedPositions (totalLength : Nat) : List Nat :=
  List.range' 16 (8 * (totalLength - 4)) ++
    (List.range' (8 * (totalLength - 1)) 8 ++ List.range' (8 * (totalLength - 2)) 8)

def checkedBits (frame : Nat → UInt8) (totalLength : Nat) : List Bool :=
  (checkedPositions totalLength).map (transmittedBit frame)

theorem length_checkedPositions (totalLength : Nat) :
    (checkedPositions totalLength).length = 8 * (totalLength - 4) + 16 := by
  simp [checkedPositions]

/-- They are all bits behind the length byte. -/
theorem checkedPositions_perm {totalLength : Nat} (hlength : 4 ≤ totalLength) :
    (checkedPositions totalLength).Perm (List.range' 16 (8 * (totalLength - 2))) := by
  have hbytes : 8 * (totalLength - 2) = 8 * (totalLength - 4) + (8 + 8) := by omega
  have hlow : 16 + 8 * (totalLength - 4) = 8 * (totalLength - 2) := by omega
  have hhigh : 8 * (totalLength - 2) + 8 = 8 * (totalLength - 1) := by omega
  rw [hbytes, ← List.range'_append_1, ← List.range'_append_1, hlow, hhigh]
  exact List.Perm.append_left _ List.perm_append_comm

theorem byteBits_eq_map (frame : Nat → UInt8) (index : Nat) :
    byteBits (frame index) = (List.range' (8 * index) 8).map (transmittedBit frame) := by
  rw [List.range'_eq_map_range, List.map_map, byteBits]
  apply List.map_congr_left
  intro offset hoffset
  rw [List.mem_range] at hoffset
  have hbyte : (8 * index + offset) / 8 = index := by omega
  have hbit : (8 * index + offset) % 8 = offset := by omega
  rw [Function.comp_apply, transmittedBit, hbyte, hbit]

theorem checkedBits_eq {frame : Nat → UInt8} {totalLength : Nat}
    (hlength : totalLength = (frame 1).toNat + 4) :
    checkedBits frame totalLength = payloadBits frame ++
      (byteBits (frame (totalLength - 1)) ++ byteBits (frame (totalLength - 2))) := by
  have hpayload : totalLength - 4 = (frame 1).toNat := by omega
  rw [checkedBits, checkedPositions, List.map_append, List.map_append, byteBits_eq_map,
    byteBits_eq_map, payloadBits, hpayload, List.range'_eq_map_range, List.map_map]
  rfl

/-- The two bytes of the checksum as the register they are compared with. -/
theorem place_checksum (low high : UInt8) :
    place 16 (byteBits high ++ byteBits low) =
      (low.toUInt16 ||| (high.toUInt16 <<< 8)).toBitVec := by
  have hwhole : (low.toUInt16 ||| (high.toUInt16 <<< 8)).toBitVec =
      low.toBitVec.setWidth 16 ||| high.toBitVec.setWidth 16 <<< 8 := rfl
  apply BitVec.eq_of_getMsbD_eq
  intro index hindex
  rw [hwhole, getMsbD_place, BitVec.getMsbD_or, BitVec.getMsbD_shiftLeft,
    BitVec.getMsbD_setWidth, BitVec.getMsbD_setWidth]
  by_cases hhigh : index < 8
  · rw [List.getD_append _ _ _ _ hhigh, byteBits]
    simp [hindex, hhigh]
  · have hlow : index - 8 < 8 := by omega
    rw [List.getD_append_right _ _ _ _ (Nat.not_lt.1 hhigh)]
    change (_ && (byteBits low).getD (index - 8) false) = _
    simp [byteBits, hindex, hlow, Nat.not_lt.1 hhigh]

/-- The check as one over all bits of the payload and of the checksum. -/
theorem validateCrc16_eq_true_iff {frame : Nat → UInt8} {totalLength : Nat} :
    validateCrc16 frame totalLength = some true ↔
      totalLength = (frame 1).toNat + 4 ∧ totalLength < 256 ∧
        run 0x1021#16 0xFFFF#16 (checkedBits frame totalLength) = 0#16 := by
  rw [validateCrc16_eq, Option.some_inj, decide_eq_true_iff]
  refine and_congr_right fun hlength => and_congr_right fun _ => ?_
  have hroom : (byteBits (frame (totalLength - 1)) ++
      byteBits (frame (totalLength - 2))).length ≤ 16 := Nat.le_refl 16
  rw [checkedBits_eq hlength, run_append, ← toBitVec_payloadCrc,
    run_eq_zero_iff_place (by decide) hroom, place_checksum, UInt16.toBitVec_inj]
  exact eq_comm

/-- Powers of the generator's root that the positions of a frame stand for. -/
theorem avoids_generator :
    avoids 0x1021#16 (top 16 true) 2039 (shift 0x1021#16 (top 16 true)) = true := by
  decide +kernel

theorem shift_iterate_ne {count : Nat} (hpos : 0 < count) (hless : count < 2040) :
    (shift 0x1021#16)^[count] (top 16 true) ≠ top 16 true := by
  obtain ⟨count, rfl⟩ := Nat.exists_eq_add_one.2 hpos
  rw [Function.iterate_succ_apply]
  exact iterate_ne_of_avoids avoids_generator (Nat.lt_of_succ_lt_succ hless)

section Altered

variable {frame changed : Nat → UInt8} {totalLength : Nat}

theorem flips_checkedBits :
    (flips (checkedBits frame totalLength) (checkedBits changed totalLength)).count true =
      (checkedPositions totalLength).countP fun position =>
        transmittedBit frame position ^^ transmittedBit changed position := by
  rw [flips, checkedBits, checkedBits, List.zipWith_map, List.zipWith_self, List.count,
    List.countP_map]
  exact List.countP_congr fun position _ => by simp

/-- With the length byte in place, the check is over all bits that changed. -/
theorem count_flips_eq (hlength : 4 ≤ totalLength) (hbyte : changed 1 = frame 1) :
    (flips (checkedBits frame totalLength) (checkedBits changed totalLength)).count true =
      alteredBits frame changed totalLength := by
  have hbits : 8 * (totalLength - 1) = 8 + 8 * (totalLength - 2) := by omega
  have hsame : (List.range' 8 8).countP (fun position =>
      transmittedBit frame position ^^ transmittedBit changed position) = 0 := by
    rw [List.countP_eq_zero]
    intro position hposition
    rw [List.mem_range'_1] at hposition
    have hindex : position / 8 = 1 := by omega
    rw [transmittedBit, transmittedBit, hindex, hbyte]
    simp
  rw [flips_checkedBits, (checkedPositions_perm hlength).countP_eq, alteredBits, hbits,
    ← List.range'_append_1, List.countP_append, hsame, Nat.zero_add]

/-- A frame that is accepted is rejected with any two of its bits inverted, and with any
odd number of them: bits of the payload, the checksum or the length. -/
theorem validateCrc16_detects_flips (haccepted : validateCrc16 frame totalLength = some true)
    (hflips : alteredBits frame changed totalLength = 2 ∨
      alteredBits frame changed totalLength % 2 = 1) :
    validateCrc16 changed totalLength = some false := by
  obtain ⟨hlength, hshort, hrun⟩ := validateCrc16_eq_true_iff.1 haccepted
  have hrejected : validateCrc16 changed totalLength ≠ some true := by
    rw [Ne, validateCrc16_eq_true_iff]
    rintro ⟨hlength', _, hrun'⟩
    have hbyte : changed 1 = frame 1 := by
      apply UInt8.toNat_inj.1
      omega
    have hcount := @count_flips_eq frame changed totalLength (by omega) hbyte
    have hlengths : (checkedBits frame totalLength).length =
        (checkedBits changed totalLength).length := by
      rw [checkedBits, checkedBits, List.length_map, List.length_map]
    have hplaces : (checkedBits frame totalLength).length ≤ 2040 := by
      rw [checkedBits, List.length_map, length_checkedPositions]
      omega
    rw [← hcount] at hflips
    have hsame := hrun.trans hrun'.symm
    rcases hflips with htwo | hodd
    · exact run_ne_of_two_flips (by decide) (fun _ => shift_iterate_ne) _ hlengths hplaces
        htwo hsame
    · exact run_ne_of_odd_flips (by decide) _ hlengths hodd hsame
  rw [validateCrc16_eq] at hrejected ⊢
  simpa using hrejected

end Altered

/-- The last bit of the payload inverted, and one of the checksum. -/
theorem validateCrc16_detects_flips_letter :
    validateCrc16 (Function.update invertedFrame 3 20) 5 = some false := by
  apply @validateCrc16_detects_flips letterFrame _ 5 (by decide)
  exact Or.inl (by decide)

end Trifecta
