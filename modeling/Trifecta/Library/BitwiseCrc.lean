/-
Cyclic redundancy checks computed bit by bit, for a register of any width and any
generator: which changes of a message always change its check value.
-/
import Mathlib.Logic.Function.Iterate

namespace BitwiseCrc

variable {w : Nat}

/-- The register shifted by one place, reduced by the generator. -/
def shift (poly reg : BitVec w) : BitVec w :=
  if reg.msb then (reg <<< 1) ^^^ poly else reg <<< 1

/-- A bit at the top of a register. -/
def top (w : Nat) (bit : Bool) : BitVec w :=
  if bit then BitVec.intMin w else 0#w

/-- Bits at the top of a register, the first one highest. -/
def place (w : Nat) : List Bool → BitVec w
  | [] => 0#w
  | bit :: bits => top w bit ^^^ (place w bits >>> 1)

/-- The register behind one bit of a message. -/
def step (poly reg : BitVec w) (bit : Bool) : BitVec w :=
  shift poly (reg ^^^ top w bit)

/-- The register behind a message. -/
def run (poly reg : BitVec w) (bits : List Bool) : BitVec w :=
  bits.foldl (step poly) reg

theorem shift_xor (poly first second : BitVec w) :
    shift poly (first ^^^ second) = shift poly first ^^^ shift poly second := by
  rw [shift, shift, shift, BitVec.msb_xor, BitVec.shiftLeft_xor_distrib]
  cases first.msb <;> cases second.msb
  · rfl
  · simp [BitVec.xor_assoc]
  · simp [BitVec.xor_assoc, BitVec.xor_comm poly]
  · simp only [Bool.xor_self, Bool.false_eq_true, ↓reduceIte]
    rw [BitVec.xor_assoc, ← BitVec.xor_assoc poly, BitVec.xor_comm poly, BitVec.xor_assoc _ poly,
      BitVec.xor_self, BitVec.xor_zero]

theorem getMsbD_top (bit : Bool) (index : Nat) :
    (top w bit).getMsbD index = (decide (0 < w) && decide (index = 0) && bit) := by
  cases bit with
  | false => simp [top]
  | true => simp [top, BitVec.getMsbD_intMin]

/-- The bits of a placed text, read off the register. -/
theorem getMsbD_place (bits : List Bool) (index : Nat) :
    (place w bits).getMsbD index = (decide (index < w) && bits.getD index false) := by
  induction bits generalizing index with
  | nil => simp [place]
  | cons bit bits ih =>
      rw [place, BitVec.getMsbD_xor, getMsbD_top, BitVec.getMsbD_ushiftRight, ih]
      cases index with
      | zero => simp
      | succ index =>
          by_cases hindex : index + 1 < w
          · simp [hindex, Nat.lt_of_succ_lt hindex]
          · simp [hindex]

theorem place_injective {first second : List Bool} (hlength : first.length = second.length)
    (hroom : first.length ≤ w) (hsame : place w first = place w second) : first = second := by
  apply List.ext_getElem hlength
  intro index hfirst hsecond
  have hbit := congrArg (fun reg => reg.getMsbD index) hsame
  simpa [getMsbD_place, Nat.lt_of_lt_of_le hfirst hroom, hfirst, hsecond] using hbit

theorem run_append (poly reg : BitVec w) (front back : List Bool) :
    run poly reg (front ++ back) = run poly (run poly reg front) back :=
  List.foldl_append

/-- Bits that leave room are shifted up by one place. -/
theorem shift_place (poly : BitVec w) {bits : List Bool} (hroom : bits.length < w) :
    shift poly (place w bits >>> 1) = place w bits := by
  have htop : (place w bits >>> 1).msb = false := by simp [BitVec.msb_ushiftRight]
  rw [shift, htop, if_neg Bool.false_ne_true]
  apply BitVec.eq_of_getMsbD_eq
  intro index hindex
  rw [BitVec.getMsbD_shiftLeft, BitVec.getMsbD_ushiftRight, Nat.add_sub_cancel, getMsbD_place]
  by_cases hlast : index + 1 < w
  · simp [hlast]
  · have hnone : bits[index]? = none := List.getElem?_eq_none (by omega)
    simp [hlast, hnone]

/-- No more bits than the register is wide are taken in all at once. -/
theorem run_eq_shifts (poly : BitVec w) {bits : List Bool} (hroom : bits.length ≤ w)
    (reg : BitVec w) : run poly reg bits = (shift poly)^[bits.length] (reg ^^^ place w bits) := by
  induction bits generalizing reg with
  | nil => simp [run, place]
  | cons bit bits ih =>
      rw [List.length_cons] at hroom
      have hpushed := shift_place poly hroom
      have hlater := ih (Nat.le_of_succ_le hroom) (step poly reg bit)
      rw [List.length_cons, Function.iterate_succ_apply, place, ← BitVec.xor_assoc, shift_xor,
        hpushed]
      exact hlater

section Generator

variable {poly : BitVec w} (hodd : poly.getLsbD 0 = true)

include hodd

/-- With a generator whose last bit is set, only zero is shifted to zero. -/
theorem shift_eq_zero {reg : BitVec w} (hzero : shift poly reg = 0#w) : reg = 0#w := by
  have hlast : (shift poly reg).getLsbD 0 = reg.msb := by
    rw [shift]
    cases reg.msb <;> simp [hodd]
  have htop : reg.msb = false := by
    rw [← hlast, hzero, BitVec.getLsbD_zero]
  rw [shift, htop, if_neg Bool.false_ne_true] at hzero
  apply BitVec.eq_of_getMsbD_eq
  intro index hindex
  rw [BitVec.getMsbD_zero]
  cases index with
  | zero => rw [← BitVec.msb_eq_getMsbD_zero, htop]
  | succ index =>
      have hbit := congrArg (fun word => word.getMsbD index) hzero
      rw [BitVec.getMsbD_shiftLeft, BitVec.getMsbD_zero] at hbit
      exact hbit

theorem shift_injective : Function.Injective (shift poly) := by
  intro first second hsame
  have hzero : shift poly (first ^^^ second) = 0#w := by
    rw [shift_xor, hsame, BitVec.xor_self]
  exact BitVec.xor_eq_zero_iff.1 (shift_eq_zero hodd hzero)

/-- Registers that differ stay different when they take in the same bits. -/
theorem run_injective (bits : List Bool) :
    Function.Injective (run poly · bits) := by
  induction bits with
  | nil => exact Function.injective_id
  | cons bit bits ih =>
      intro first second hsame
      have hstep : step poly first bit = step poly second bit := ih hsame
      exact (BitVec.xor_left_inj _).1 (shift_injective hodd hstep)

/-- Texts that differ in a window no wider than the register lead to different
registers. -/
theorem run_ne_of_window (reg : BitVec w) (front : List Bool) {first second : List Bool}
    (back : List Bool)
    (hlength : first.length = second.length) (hroom : first.length ≤ w) (hne : first ≠ second) :
    run poly reg (front ++ (first ++ back)) ≠ run poly reg (front ++ (second ++ back)) := by
  intro hsame
  rw [run_append, run_append, run_append, run_append] at hsame
  have hwindow : run poly (run poly reg front) first = run poly (run poly reg front) second :=
    run_injective hodd back hsame
  have hsecond : second.length ≤ w := hlength ▸ hroom
  generalize run poly reg front = behind at hwindow
  rw [run_eq_shifts poly hroom, run_eq_shifts poly hsecond, hlength] at hwindow
  have hplaced := (BitVec.xor_right_inj _).1 ((shift_injective hodd).iterate _ hwindow)
  exact hne (place_injective hlength hroom hplaced)

/-- Texts of one length that differ, but only within as many places as the register
is wide, lead to different registers. -/
theorem run_ne_of_burst (reg : BitVec w) {first second : List Bool}
    (hlength : first.length = second.length)
    (hne : first ≠ second) {start : Nat}
    (hburst : ∀ index, first[index]? ≠ second[index]? → start ≤ index ∧ index < start + w) :
    run poly reg first ≠ run poly reg second := by
  have hfront : first.take start = second.take start := by
    apply List.ext_getElem?
    intro index
    rw [List.getElem?_take, List.getElem?_take]
    by_cases hindex : index < start
    · rw [if_pos hindex, if_pos hindex]
      by_contra hdiffer
      exact absurd (hburst index hdiffer).1 (Nat.not_le.2 hindex)
    · rw [if_neg hindex, if_neg hindex]
  have hback : (first.drop start).drop w = (second.drop start).drop w := by
    apply List.ext_getElem?
    intro index
    rw [List.drop_drop, List.drop_drop, List.getElem?_drop, List.getElem?_drop]
    by_contra hdiffer
    exact absurd (hburst _ hdiffer).2 (Nat.not_lt.2 (Nat.le_add_right _ _))
  have hlengths : ((first.drop start).take w).length = ((second.drop start).take w).length := by
    rw [List.length_take, List.length_take, List.length_drop, List.length_drop, hlength]
  have hsplit : ∀ text : List Bool,
      text = text.take start ++ ((text.drop start).take w ++ (text.drop start).drop w) := by
    intro text
    rw [List.take_append_drop, List.take_append_drop]
  have hwindow : (first.drop start).take w ≠ (second.drop start).take w := by
    intro hsame
    apply hne
    rw [hsplit first, hsplit second, hfront, hsame, hback]
  rw [hsplit first, hsplit second, hfront, hback]
  exact run_ne_of_window hodd reg _ _ hlengths (List.length_take_le _ _) hwindow

end Generator

end BitwiseCrc
