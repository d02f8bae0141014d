/-
How many bits of a message must change before its cyclic redundancy check can fail to
notice: never an odd number with a generator that has `x + 1` as a factor, and never two
that are closer than its period.
-/
import Trifecta.Library.BitwiseCrc
import Mathlib.Tactic.SplitIfs

namespace BitwiseCrc

variable {w : Nat}

/-- Whether the number of ones is odd. -/
def oddOnes (bits : List Bool) : Bool :=
  bits.foldr xor false

/-- The places where texts of one length differ. -/
def flips (first second : List Bool) : List Bool :=
  List.zipWith xor first second

/-- Whether the number of ones in a register is odd. -/
def parity (reg : BitVec w) : Bool :=
  oddOnes ((List.range w).map reg.getMsbD)

theorem oddOnes_eq_decide (bits : List Bool) :
    oddOnes bits = decide (bits.count true % 2 = 1) := by
  induction bits with
  | nil => rfl
  | cons bit bits ih =>
      rw [oddOnes, List.foldr_cons, ← oddOnes, ih, List.count_cons]
      cases bit with
      | false => simp
      | true =>
          rcases Nat.mod_two_eq_zero_or_one (bits.count true) with heven | hodd
          · simp [heven, Nat.add_mod]
          · simp [hodd, Nat.add_mod]

theorem oddOnes_append (front back : List Bool) :
    oddOnes (front ++ back) = xor (oddOnes front) (oddOnes back) := by
  induction front with
  | nil => exact (Bool.false_xor _).symm
  | cons bit front ih =>
      have hcons : ∀ bits, oddOnes (bit :: bits) = xor bit (oddOnes bits) := fun _ => rfl
      rw [List.cons_append, hcons, hcons, ih, Bool.xor_assoc]

theorem oddOnes_map_xor {A : Type*} (first second : A → Bool) (places : List A) :
    oddOnes (places.map fun place => xor (first place) (second place)) =
      xor (oddOnes (places.map first)) (oddOnes (places.map second)) := by
  induction places with
  | nil => rfl
  | cons place places ih =>
      have hcons : ∀ bit bits, oddOnes (bit :: bits) = xor bit (oddOnes bits) := fun _ _ => rfl
      rw [List.map_cons, List.map_cons, List.map_cons, hcons, hcons, hcons, ih]
      cases first place <;> cases second place <;> simp

theorem oddOnes_map_false {A : Type*} (places : List A) :
    oddOnes (places.map fun _ => false) = false := by
  induction places with
  | nil => rfl
  | cons place places ih => exact (Bool.false_xor _).trans ih

/-! Parity goes along with a message when the generator itself has an odd number of ones
behind its first. -/

theorem parity_xor (first second : BitVec w) :
    parity (first ^^^ second) = xor (parity first) (parity second) := by
  rw [parity, parity, parity, ← oddOnes_map_xor]
  exact congrArg (fun bit => oddOnes ((List.range w).map bit))
    (funext fun index => BitVec.getMsbD_xor)

theorem parity_zero : parity (0#w) = false := by
  have hzero : (0#w).getMsbD = fun _ => false := funext fun index => BitVec.getMsbD_zero
  rw [parity, hzero]
  exact oddOnes_map_false _

theorem parity_top (hwidth : 0 < w) (bit : Bool) : parity (top w bit) = bit := by
  obtain ⟨width, rfl⟩ := Nat.exists_eq_add_one.2 hwidth
  have hlater : ((List.range width).map Nat.succ).map (top (width + 1) bit).getMsbD =
      (List.range width).map fun _ => false := by
    rw [List.map_map]
    exact List.map_congr_left fun index _ => by simp [getMsbD_top]
  rw [parity, List.range_succ_eq_map, List.map_cons, hlater]
  change xor _ (oddOnes _) = bit
  rw [oddOnes_map_false, getMsbD_top]
  simp

theorem parity_shiftLeft (reg : BitVec w) : parity (reg <<< 1) = xor (parity reg) reg.msb := by
  cases w with
  | zero => simp [parity, oddOnes, BitVec.msb_eq_getMsbD_zero]
  | succ width =>
      have hlast : (reg <<< 1).getMsbD width = false := by
        rw [BitVec.getMsbD_shiftLeft]
        exact reg.getMsbD_of_ge _ (Nat.le_refl _)
      have hlater : (List.range width).map (reg <<< 1).getMsbD =
          ((List.range width).map Nat.succ).map reg.getMsbD := by
        rw [List.map_map]
        apply List.map_congr_left
        intro index _
        rw [BitVec.getMsbD_shiftLeft]
        rfl
      have hfirst : parity reg =
          xor (reg.getMsbD 0) (oddOnes (((List.range width).map Nat.succ).map reg.getMsbD)) := by
        rw [parity, List.range_succ_eq_map, List.map_cons]
        rfl
      rw [hfirst, BitVec.msb_eq_getMsbD_zero, parity, List.range_succ, List.map_append,
        oddOnes_append, hlater, List.map_singleton, hlast]
      cases reg.getMsbD 0 <;> simp [oddOnes]

section Parity

variable {poly : BitVec w} (hparity : parity poly = true)

include hparity

theorem width_pos_of_parity : 0 < w := by
  rcases Nat.eq_zero_or_pos w with rfl | hpos
  · cases hparity
  · exact hpos

theorem parity_shift (reg : BitVec w) : parity (shift poly reg) = parity reg := by
  rw [shift]
  split_ifs with hmsb
  · rw [parity_xor, parity_shiftLeft, hparity, hmsb, Bool.xor_assoc, Bool.xor_self,
      Bool.xor_false]
  · rw [parity_shiftLeft, Bool.eq_false_iff.2 hmsb, Bool.xor_false]

theorem parity_run (reg : BitVec w) (bits : List Bool) :
    parity (run poly reg bits) = xor (parity reg) (oddOnes bits) := by
  induction bits generalizing reg with
  | nil => exact (Bool.xor_false _).symm
  | cons bit bits ih =>
      change parity (run poly (step poly reg bit) bits) = _
      rw [ih, step, parity_shift hparity, parity_xor, parity_top (width_pos_of_parity hparity),
        Bool.xor_assoc]
      rfl

end Parity

/-! Runs over two texts, by the places where they differ. -/

theorem top_xor (first second : Bool) : top w (xor first second) = top w first ^^^ top w second := by
  cases first <;> cases second <;> simp [top]

/-- A register is linear in its start and in the message. -/
theorem run_flips (poly : BitVec w) {first second : List Bool}
    (hlength : first.length = second.length) (reg other : BitVec w) :
    run poly (reg ^^^ other) (flips first second) =
      run poly reg first ^^^ run poly other second := by
  induction first generalizing second reg other with
  | nil =>
      obtain rfl := List.length_eq_zero_iff.1 hlength.symm
      rfl
  | cons bit first ih =>
      obtain ⟨bit', second, rfl⟩ := List.exists_cons_of_length_eq_add_one hlength.symm
      have hstep : step poly (reg ^^^ other) (xor bit bit') =
          step poly reg bit ^^^ step poly other bit' := by
        rw [step, step, step, ← shift_xor, top_xor]
        congr 1
        rw [BitVec.xor_assoc, BitVec.xor_assoc, ← BitVec.xor_assoc other, BitVec.xor_comm other,
          BitVec.xor_assoc]
      change run poly (step poly (reg ^^^ other) (xor bit bit')) (flips first second) = _
      rw [hstep]
      exact ih (Nat.succ.inj hlength) _ _

/-- Texts of one length lead to the same register exactly when the places where they differ
lead nowhere. -/
theorem run_eq_iff (poly reg : BitVec w) {first second : List Bool}
    (hlength : first.length = second.length) :
    run poly reg first = run poly reg second ↔ run poly 0#w (flips first second) = 0#w := by
  have hrun := run_flips poly hlength reg reg
  rw [BitVec.xor_self] at hrun
  rw [hrun, BitVec.xor_eq_zero_iff]

/-- A change in an odd number of places always shows. -/
theorem run_ne_of_odd_flips {poly : BitVec w} (hparity : parity poly = true) (reg : BitVec w)
    {first second : List Bool} (hlength : first.length = second.length)
    (hodd : (flips first second).count true % 2 = 1) :
    run poly reg first ≠ run poly reg second := by
  rw [Ne, run_eq_iff poly reg hlength]
  intro hzero
  have hrun := parity_run hparity 0#w (flips first second)
  rw [hzero, parity_zero, oddOnes_eq_decide, decide_eq_true hodd] at hrun
  cases hrun

section Period

theorem shift_zero (poly : BitVec w) : shift poly 0#w = 0#w := by
  rw [shift, BitVec.msb_zero, if_neg Bool.false_ne_true, BitVec.zero_shiftLeft]

theorem step_false (poly reg : BitVec w) : step poly reg false = shift poly reg := by
  rw [step, top, if_neg Bool.false_ne_true, BitVec.xor_zero]

variable {poly : BitVec w} (hlast : poly.getLsbD 0 = true)

include hlast

/-- Check bits that fill no more than the register lead to zero exactly when they are the
register that they follow. -/
theorem run_eq_zero_iff_place {bits : List Bool} (hroom : bits.length ≤ w) {reg : BitVec w} :
    run poly reg bits = 0#w ↔ reg = place w bits := by
  have hkept : (shift poly)^[bits.length] 0#w = 0#w :=
    Function.iterate_fixed (shift_zero poly) bits.length
  rw [run_eq_shifts poly hroom]
  constructor
  · intro hzero
    apply BitVec.xor_eq_zero_iff.1
    exact (shift_injective hlast).iterate bits.length (hzero.trans hkept.symm)
  · intro hsame
    rw [hsame, BitVec.xor_self, hkept]

theorem run_ne_zero_of_no_flips {bits : List Bool} (hnone : bits.count true = 0) {reg : BitVec w}
    (hreg : reg ≠ 0#w) : run poly reg bits ≠ 0#w := by
  induction bits generalizing reg with
  | nil => exact hreg
  | cons bit bits ih =>
      cases bit with
      | false =>
          change run poly (step poly reg false) bits ≠ 0#w
          rw [step_false]
          exact ih (by simpa using hnone) (mt (shift_eq_zero hlast) hreg)
      | true => simp at hnone

variable {period : Nat} (hperiod : ∀ count, 0 < count → count < period →
  (shift poly)^[count] (top w true) ≠ top w true)

include hperiod

theorem run_ne_zero_of_one_flip {bits : List Bool} (hone : bits.count true = 1) {count : Nat}
    (hcount : 0 < count) (hlength : count + bits.length ≤ period) :
    run poly ((shift poly)^[count] (top w true)) bits ≠ 0#w := by
  induction bits generalizing count with
  | nil => simp at hone
  | cons bit bits ih =>
      rw [List.length_cons] at hlength
      cases bit with
      | false =>
          change run poly (step poly _ false) bits ≠ 0#w
          rw [step_false, ← Function.iterate_succ_apply' (shift poly)]
          exact ih (by simpa using hone) (Nat.succ_pos _) (by omega)
      | true =>
          change run poly (step poly _ true) bits ≠ 0#w
          apply run_ne_zero_of_no_flips hlast (by simpa using hone)
          intro hzero
          exact hperiod count hcount (by omega)
            (BitVec.xor_eq_zero_iff.1 (shift_eq_zero hlast hzero))

theorem run_ne_zero_of_two_flips {bits : List Bool} (htwo : bits.count true = 2)
    (hlength : bits.length ≤ period) : run poly 0#w bits ≠ 0#w := by
  induction bits with
  | nil => simp at htwo
  | cons bit bits ih =>
      rw [List.length_cons] at hlength
      cases bit with
      | false =>
          change run poly (step poly 0#w false) bits ≠ 0#w
          rw [step_false, shift_zero]
          exact ih (by simpa using htwo) (by omega)
      | true =>
          change run poly (step poly 0#w true) bits ≠ 0#w
          rw [step, BitVec.zero_xor]
          exact run_ne_zero_of_one_flip hlast hperiod (by simpa using htwo) Nat.zero_lt_one
            (by omega)

/-- A change in two places that are closer than the period always shows. -/
theorem run_ne_of_two_flips (reg : BitVec w) {first second : List Bool}
    (hlength : first.length = second.length) (hperiod' : first.length ≤ period)
    (htwo : (flips first second).count true = 2) :
    run poly reg first ≠ run poly reg second := by
  rw [Ne, run_eq_iff poly reg hlength]
  apply run_ne_zero_of_two_flips hlast hperiod htwo
  rwa [flips, List.length_zipWith, ← hlength, Nat.min_self]

end Period

/-- The register is not met within so many places. -/
def avoids (poly target : BitVec w) : Nat → BitVec w → Bool
  | 0, _ => true
  | count + 1, reg => reg != target && avoids poly target count (shift poly reg)

theorem iterate_ne_of_avoids {poly target reg : BitVec w} {count : Nat}
    (havoids : avoids poly target count reg = true) {places : Nat} (hplaces : places < count) :
    (shift poly)^[places] reg ≠ target := by
  induction count generalizing reg places with
  | zero => exact absurd hplaces (Nat.not_lt_zero _)
  | succ count ih =>
      rw [avoids, Bool.and_eq_true, bne_iff_ne] at havoids
      cases places with
      | zero => exact havoids.1
      | succ places => exact ih havoids.2 (Nat.lt_of_succ_lt_succ hplaces)

end BitwiseCrc
