/-
The checksum of a frame, and that no short burst of errors in the payload gets past
its check.
-/
import Trifecta.Library.BitwiseCrc
import Mathlib.Data.List.Range
import Mathlib.Tactic.SplitIfs

namespace Trifecta

open BitwiseCrc

/-- One round of the inner loop of `compute_crc16`. -/
def crcShift (crc : UInt16) : UInt16 :=
  if crc &&& 0x8000 ≠ 0 then (crc <<< 1) ^^^ 0x1021 else crc <<< 1

/-- The body of the outer loop of `compute_crc16`. -/
def crcByte (crc : UInt16) (byte : UInt8) : UInt16 :=
  crcShift^[8] (crc ^^^ (byte.toUInt16 <<< 8))

/-- The outer loop of `compute_crc16` for at most `rounds` tests of its counter, a
`uint8_t`. -/
def crcLoop (data : Nat → UInt8) (length : Nat) : Nat → UInt8 → UInt16 → Option UInt16
  | 0, _, _ => none
  | rounds + 1, i, crc =>
      if i.toNat < length then crcLoop data length rounds (i + 1) (crcByte crc (data i.toNat))
      else some crc

/-- `compute_crc16`.  A counter of 8 bits ends the loop within 256 tests or never. -/
def computeCrc16 (data : Nat → UInt8) (length : Nat) : Option UInt16 :=
  crcLoop data length 256 0 0xFFFF

/-- The checksum at the end of a frame, low byte first. -/
def receivedCrc (frame : Nat → UInt8) (totalLength : Nat) : UInt16 :=
  (frame (totalLength - 2)).toUInt16 ||| ((frame (totalLength - 1)).toUInt16 <<< 8)

/-- `validate_crc16`, `none` when the checksum is never computed. -/
def validateCrc16 (frame : Nat → UInt8) (totalLength : Nat) : Option Bool :=
  if totalLength < 4 then some false
  else
    let payloadLen := frame 1
    let expectedTotal : UInt8 := 1 + 1 + payloadLen + 2
    if expectedTotal.toNat ≠ totalLength then some false
    else
      (computeCrc16 (fun index => frame (2 + index)) payloadLen.toNat).map fun computedCrc =>
        decide (receivedCrc frame totalLength = computedCrc)

/-- The bits of a frame in transmission order, the most significant of each byte
first. -/
def transmittedBit (frame : Nat → UInt8) (position : Nat) : Bool :=
  (frame (position / 8)).toBitVec.getMsbD (position % 8)

/-- A change of the payload that is confined to 16 consecutive bits. -/
structure PayloadBurst (frame changed : Nat → UInt8) : Prop where
  outside : ∀ index, index < 2 ∨ 2 + (frame 1).toNat ≤ index → changed index = frame index
  changes : ∃ index, changed index ≠ frame index
  confined : ∃ start, ∀ position,
    transmittedBit changed position ≠ transmittedBit frame position →
      start ≤ position ∧ position < start + 16

/-! The checksum as a check over the bits of the payload. -/

/-- The bits of a byte, the most significant first. -/
def byteBits (byte : UInt8) : List Bool :=
  (List.range 8).map byte.toBitVec.getMsbD

/-- The test for the most significant bit. -/
theorem and_topBit_ne_zero_iff (crc : UInt16) :
    crc &&& 0x8000 ≠ 0 ↔ crc.toBitVec.msb = true := by
  have hmask : (crc &&& 0x8000).toBitVec = crc.toBitVec &&& BitVec.twoPow 16 15 := rfl
  rw [ne_eq, ← UInt16.toBitVec_inj, hmask, BitVec.and_twoPow, BitVec.msb_eq_getLsbD_last]
  cases crc.toBitVec.getLsbD (16 - 1) <;> decide

theorem toBitVec_crcShift (crc : UInt16) :
    (crcShift crc).toBitVec = shift 0x1021#16 crc.toBitVec := by
  rw [crcShift, shift]
  by_cases hmsb : crc.toBitVec.msb = true
  · rw [if_pos ((and_topBit_ne_zero_iff crc).2 hmsb), if_pos hmsb]
    rfl
  · rw [if_neg (mt (and_topBit_ne_zero_iff crc).1 hmsb), if_neg hmsb]
    rfl

/-- A byte shifted to the top of the checksum is its bits placed there. -/
theorem place_byteBits (byte : UInt8) :
    place 16 (byteBits byte) = (byte.toUInt16 <<< 8).toBitVec := by
  have hshifted : (byte.toUInt16 <<< 8).toBitVec = byte.toBitVec.setWidth 16 <<< 8 := rfl
  apply BitVec.eq_of_getMsbD_eq
  intro index hindex
  rw [hshifted, getMsbD_place, BitVec.getMsbD_shiftLeft, BitVec.getMsbD_setWidth, byteBits]
  by_cases hbyte : index < 8
  · simp [hindex, hbyte]
  · have hpast := byte.toBitVec.getMsbD_of_ge index (Nat.not_lt.1 hbyte)
    simp [hbyte, hpast]

theorem toBitVec_crcByte (crc : UInt16) (byte : UInt8) :
    (crcByte crc byte).toBitVec = run 0x1021#16 crc.toBitVec (byteBits byte) := by
  have hshifts : Function.Semiconj UInt16.toBitVec crcShift (shift 0x1021#16) :=
    toBitVec_crcShift
  have hlength : (byteBits byte).length = 8 := rfl
  rw [run_eq_shifts _ (by rw [hlength]; decide), hlength, place_byteBits]
  exact hshifts.iterate_right 8 _

/-- The loop takes in the bytes from its counter on. -/
theorem crcLoop_eq (data : Nat → UInt8) {length : Nat} (hlength : length ≤ 255)
    {rounds : Nat} {i : UInt8} (hrounds : length < rounds + i.toNat) (hi : i.toNat ≤ length)
    (crc : UInt16) :
    crcLoop data length rounds i crc =
      some (((List.range' i.toNat (length - i.toNat)).map data).foldl crcByte crc) := by
  induction rounds generalizing i crc with
  | zero => omega
  | succ rounds ih =>
      rw [crcLoop]
      split_ifs with hmore
      · have hnext : (i + 1).toNat = i.toNat + 1 := by
          rw [UInt8.toNat_add]
          exact Nat.mod_eq_of_lt (by simp; omega)
        have hcount : length - i.toNat = length - (i.toNat + 1) + 1 := by omega
        rw [ih (by omega) (by omega), hnext, hcount, List.range'_succ, List.map_cons,
          List.foldl_cons]
      · have hdone : length - i.toNat = 0 := by omega
        rw [hdone]
        rfl

theorem computeCrc16_eq (data : Nat → UInt8) {length : Nat} (hlength : length ≤ 255) :
    computeCrc16 data length =
      some (((List.range length).map data).foldl crcByte 0xFFFF) := by
  rw [computeCrc16, crcLoop_eq data hlength (by simp; omega) (Nat.zero_le _),
    List.range_eq_range']
  rfl

theorem toBitVec_foldl_crcByte (bytes : List UInt8) (crc : UInt16) :
    (bytes.foldl crcByte crc).toBitVec =
      run 0x1021#16 crc.toBitVec (bytes.flatMap byteBits) := by
  induction bytes generalizing crc with
  | nil => rfl
  | cons byte bytes ih =>
      rw [List.foldl_cons, ih, toBitVec_crcByte, List.flatMap_cons, run_append]

/-- The bits of a payload, in transmission order. -/
theorem flatMap_byteBits (data : Nat → UInt8) (length : Nat) :
    ((List.range length).map data).flatMap byteBits =
      (List.range (8 * length)).map (transmittedBit data) := by
  induction length with
  | zero => rfl
  | succ length ih =>
      have hlast : byteBits (data length) =
          (List.range 8).map fun offset => transmittedBit data (8 * length + offset) := by
        apply List.map_congr_left
        intro offset hoffset
        rw [List.mem_range] at hoffset
        have hbyte : (8 * length + offset) / 8 = length := by omega
        have hbit : (8 * length + offset) % 8 = offset := by omega
        rw [transmittedBit, hbyte, hbit]
      rw [List.range_succ, List.map_append, List.flatMap_append, ih, Nat.mul_succ, List.range_add,
        List.map_append, List.map_singleton, List.flatMap_singleton, hlast, List.map_map]
      rfl

/-- The checksum that a frame should end with. -/
def payloadCrc (frame : Nat → UInt8) : UInt16 :=
  ((List.range (frame 1).toNat).map fun index => frame (2 + index)).foldl crcByte 0xFFFF

/-- The bits that the checksum is computed from. -/
def payloadBits (frame : Nat → UInt8) : List Bool :=
  (List.range (8 * (frame 1).toNat)).map fun position => transmittedBit frame (16 + position)

theorem toBitVec_payloadCrc (frame : Nat → UInt8) :
    (payloadCrc frame).toBitVec = run 0x1021#16 0xFFFF#16 (payloadBits frame) := by
  have hposition : ∀ position, transmittedBit (fun index => frame (2 + index)) position =
      transmittedBit frame (16 + position) := by
    intro position
    have hbyte : (16 + position) / 8 = 2 + position / 8 := by omega
    have hbit : (16 + position) % 8 = position % 8 := by omega
    rw [transmittedBit, transmittedBit, hbyte, hbit]
  rw [payloadCrc, toBitVec_foldl_crcByte, flatMap_byteBits, payloadBits]
  exact congrArg (run _ _) (List.map_congr_left fun position _ => hposition position)

/-- The check always comes to an end, and accepts frames of the right length and
checksum. -/
theorem validateCrc16_eq (frame : Nat → UInt8) (totalLength : Nat) :
    validateCrc16 frame totalLength = some (decide (totalLength = (frame 1).toNat + 4 ∧
      totalLength < 256 ∧ receivedCrc frame totalLength = payloadCrc frame)) := by
  have hpayload := (frame 1).toNat_lt
  have htotal : (1 + 1 + frame 1 + 2 : UInt8).toNat = ((frame 1).toNat + 4) % 256 := by
    have hheader : (1 + 1 : UInt8).toNat = 2 := rfl
    have hchecksum : (2 : UInt8).toNat = 2 := rfl
    rw [UInt8.toNat_add, UInt8.toNat_add, hheader, hchecksum]
    omega
  rw [validateCrc16]
  dsimp only
  rw [htotal]
  split_ifs with hshort hmalformed
  · rw [decide_eq_false (by omega)]
  · rw [decide_eq_false (by omega)]
  · rw [computeCrc16_eq _ (by omega), Option.map_some]
    apply congrArg some
    apply decide_eq_decide.2
    constructor
    · intro hcrc
      exact ⟨by omega, by omega, hcrc⟩
    · intro haccepted
      exact haccepted.2.2

section Burst

variable {frame changed : Nat → UInt8}

theorem PayloadBurst.payloadLen_eq (hburst : PayloadBurst frame changed) :
    changed 1 = frame 1 :=
  hburst.outside 1 (Or.inl (by decide))

theorem PayloadBurst.payloadBits_ne (hburst : PayloadBurst frame changed) :
    payloadBits changed ≠ payloadBits frame := by
  intro hbits
  obtain ⟨index, hdiffers⟩ := hburst.changes
  have hinside : 2 ≤ index ∧ index < 2 + (frame 1).toNat := by
    by_contra houtside
    exact hdiffers (hburst.outside index (by omega))
  rw [payloadBits, payloadBits, hburst.payloadLen_eq, List.map_inj_left] at hbits
  apply hdiffers
  apply UInt8.toBitVec_inj.1
  apply BitVec.eq_of_getMsbD_eq
  intro bit hbit
  have hsame := hbits (8 * (index - 2) + bit) (List.mem_range.2 (by omega))
  have hbyte : (16 + (8 * (index - 2) + bit)) / 8 = index := by omega
  have hplace : (16 + (8 * (index - 2) + bit)) % 8 = bit := by omega
  rw [transmittedBit, transmittedBit, hbyte, hplace] at hsame
  exact hsame

theorem PayloadBurst.payloadBits_confined (hburst : PayloadBurst frame changed) :
    ∃ start, ∀ position, (payloadBits changed)[position]? ≠ (payloadBits frame)[position]? →
      start ≤ position ∧ position < start + 16 := by
  obtain ⟨start, hconfined⟩ := hburst.confined
  refine ⟨start - 16, fun position hposition => ?_⟩
  have hwindow : start ≤ 16 + position ∧ 16 + position < start + 16 := by
    apply hconfined
    intro hsame
    apply hposition
    rw [payloadBits, payloadBits, hburst.payloadLen_eq, List.getElem?_map, List.getElem?_map]
    rcases Nat.lt_or_ge position (8 * (frame 1).toNat) with hless | hpast
    · rw [List.getElem?_range hless, Option.map_some, Option.map_some, hsame]
    · rw [List.getElem?_eq_none (by simpa using hpast)]
      rfl
  omega

/-- Checksums of payloads that differ by a burst are different. -/
theorem PayloadBurst.payloadCrc_ne (hburst : PayloadBurst frame changed) :
    payloadCrc changed ≠ payloadCrc frame := by
  obtain ⟨start, hconfined⟩ := hburst.payloadBits_confined
  have hlength : (payloadBits changed).length = (payloadBits frame).length := by
    rw [payloadBits, payloadBits, hburst.payloadLen_eq, List.length_map, List.length_map]
  intro hsame
  have hrun := congrArg UInt16.toBitVec hsame
  rw [toBitVec_payloadCrc, toBitVec_payloadCrc] at hrun
  exact run_ne_of_burst (by decide) _ hlength hburst.payloadBits_ne hconfined hrun

/-- A frame that is accepted is rejected when a burst of at most 16 bits changes its
payload. -/
theorem validateCrc16_detects_burst {totalLength : Nat}
    (haccepted : validateCrc16 frame totalLength = some true)
    (hburst : PayloadBurst frame changed) :
    validateCrc16 changed totalLength = some false := by
  rw [validateCrc16_eq, Option.some_inj, decide_eq_true_iff] at haccepted
  obtain ⟨hlength, _, hcrc⟩ := haccepted
  have hreceived : receivedCrc changed totalLength = receivedCrc frame totalLength := by
    rw [receivedCrc, receivedCrc, hburst.outside _ (Or.inr (by omega)),
      hburst.outside _ (Or.inr (by omega))]
  rw [validateCrc16_eq, Option.some_inj, decide_eq_false_iff_not]
  rintro ⟨_, _, hchanged⟩
  rw [hreceived, hcrc] at hchanged
  exact hburst.payloadCrc_ne hchanged.symm

end Burst

/-- A frame with a payload of one byte, and with the last bit of it inverted. -/
def letterFrame (index : Nat) : UInt8 :=
  [170, 1, 65, 21, 185].getD index 0

def invertedFrame : Nat → UInt8 :=
  Function.update letterFrame 2 64

theorem validateCrc16_detects_burst_letter : validateCrc16 invertedFrame 5 = some false := by
  have hkept : ∀ index, index ≠ 2 → invertedFrame index = letterFrame index := fun index hne =>
    Function.update_of_ne hne 64 letterFrame
  refine @validateCrc16_detects_burst letterFrame invertedFrame 5 (by decide) ⟨?_, ?_, ?_⟩
  · intro index houtside
    have hlength : (letterFrame 1).toNat = 1 := rfl
    exact hkept index (by omega)
  · exact ⟨2, by decide⟩
  · refine ⟨16, fun position hdiffers => ?_⟩
    have hbyte : position / 8 = 2 := by
      by_contra hother
      apply hdiffers
      rw [transmittedBit, transmittedBit, hkept _ hother]
    omega

end Trifecta
