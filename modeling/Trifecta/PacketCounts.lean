/-
What cutting a buffer into packets reports against what it has enqueued: the
packets in front of an unreadable rest are enqueued and then not reported.
-/
import Trifecta.Datagrams

namespace Trifecta

/-- What is left of a buffer behind the whole packets of known types at its
front. -/
def leftOver (buf : List UInt8) : List UInt8 :=
  match buf with
  | [] => []
  | packetType :: rest =>
      if obtainPacketLength packetType.toNat = 0 ∨
          (packetType :: rest).length < obtainPacketLength packetType.toNat then
        packetType :: rest
      else leftOver ((packetType :: rest).drop (obtainPacketLength packetType.toNat))
termination_by buf.length
decreasing_by
  rw [List.length_drop, List.length_cons]
  omega

/-- What ends the cutting: an unknown type is taken for another format, and part
of a packet is an error. -/
def restCode (rest : List UInt8) (packetCount : Int) : Int :=
  if rest = [] then packetCount
  else if obtainPacketLength (rest.headD 0).toNat = 0 then 0
  else -1

theorem le_obtainPacketLength {packetType : Nat} (hknown : obtainPacketLength packetType ≠ 0) :
    85 ≤ obtainPacketLength packetType := by
  unfold obtainPacketLength at hknown ⊢
  split_ifs at hknown ⊢ <;> omega

/-- Cutting from `pos` on enqueues the whole packets in front of the rest. -/
theorem segmentPacketsFrom_leftOver (stack : Nat → FsPacketUnion) {buf : List UInt8}
    {fuel pos : Nat} (hfuel : buf.length ≤ pos + fuel) (packetCount : Int) (driver : Driver) :
    ∃ received : List FsPacketUnion,
      segmentPacketsFrom stack buf buf.length fuel pos packetCount driver =
          (restCode (leftOver (buf.drop pos)) (packetCount + received.length),
            enqueueAll driver received) ∧
        85 * received.length + (leftOver (buf.drop pos)).length ≤ (buf.drop pos).length ∧
        (received = [] → leftOver (buf.drop pos) = buf.drop pos) := by
  induction fuel generalizing pos packetCount driver with
  | zero =>
      have hdrop : buf.drop pos = [] := List.drop_eq_nil_of_le hfuel
      refine ⟨[], ?_, ?_⟩ <;> simp [hdrop, leftOver, restCode, segmentPacketsFrom, enqueueAll]
  | succ fuel ih =>
      by_cases hpos : pos < buf.length
      · obtain ⟨packetType, rest, hdrop⟩ : ∃ packetType rest, buf.drop pos = packetType :: rest :=
          List.exists_cons_of_ne_nil (by rw [Ne, List.drop_eq_nil_iff]; omega)
        have hget : buf[pos]?.getD 0 = packetType := by
          rw [← List.head?_drop, hdrop]
          rfl
        have htotal := congrArg List.length hdrop
        rw [List.length_drop] at htotal
        by_cases hstop : obtainPacketLength packetType.toNat = 0 ∨
            (packetType :: rest).length < obtainPacketLength packetType.toNat
        · -- the rest begins here
          have hleft : leftOver (buf.drop pos) = buf.drop pos := by
            rw [hdrop, leftOver, if_pos hstop]
          refine ⟨[], ?_, by simp [hleft], fun _ => hleft⟩
          rw [hleft, hdrop, segmentPacketsFrom, if_pos hpos, hget, restCode,
            if_neg (List.cons_ne_nil packetType rest), List.headD_cons]
          by_cases hunknown : obtainPacketLength packetType.toNat = 0
          · simp [hunknown, enqueueAll]
          · have hpartial : buf.length < pos + obtainPacketLength packetType.toNat := by
              have := hstop.resolve_left hunknown
              omega
            simp [hunknown, hpartial, enqueueAll]
        · rw [not_or, Nat.not_lt] at hstop
          obtain ⟨length, hlength⟩ := Nat.exists_eq_succ_of_ne_zero hstop.1
          have hlong := le_obtainPacketLength hstop.1
          have hwhole : pos + (length + 1) ≤ buf.length := by omega
          obtain ⟨packet, _, hround⟩ := segmentPacketsFrom_whole stack (Nat.le_refl _) hpos
            (hget.symm ▸ hlength) hwhole fuel packetCount driver
          obtain ⟨received, hrun, hsize, _⟩ := @ih (pos + (length + 1)) (by omega)
            (packetCount + 1) (fsEnqueueIntoPacketQueue driver packet).2
          have hleft : leftOver (buf.drop pos) = leftOver (buf.drop (pos + (length + 1))) := by
            rw [hdrop, leftOver, if_neg (by omega), hlength, ← hdrop, List.drop_drop]
          refine ⟨packet :: received, ?_, ?_, fun hnil => absurd hnil (by simp)⟩
          · have hsum : packetCount + 1 + received.length =
                packetCount + ((packet :: received).length : Nat) := by
              rw [List.length_cons]
              omega
            rw [hround, hrun, hleft, hsum]
            rfl
          · rw [List.length_drop] at hsize ⊢
            rw [hleft, List.length_cons]
            omega
      · have hdrop : buf.drop pos = [] := List.drop_eq_nil_of_le (Nat.le_of_not_lt hpos)
        refine ⟨[], ?_, ?_⟩ <;>
          simp [hdrop, leftOver, restCode, segmentPacketsFrom, enqueueAll, hpos]

/-- A result that is not negative counts the packets enqueued, and a negative
one leaves the queue and the last packet as they were. -/
def ResultTruthful (stack : Nat → FsPacketUnion) (driver : Driver) (rxBuf : List UInt8) : Prop :=
  let result := segmentPackets stack driver rxBuf rxBuf.length
  (0 ≤ result.1 → ∃ received : List FsPacketUnion, (received.length : Int) = result.1 ∧
      result.2.enqueued = driver.enqueued ++ received) ∧
    (result.1 < 0 → result.2.device.packetBufQueue = driver.device.packetBufQueue ∧
      result.2.device.lastReceivedPacket = driver.device.lastReceivedPacket)

/-- Fewer pushes than there are slots move the head. -/
theorem pushAll_ne_self {queue : FsPacketRingbuffer} {received : List FsPacketUnion}
    (hsome : received ≠ []) (hfew : received.length < fsMaxPacketQueueLength) :
    queue.pushAll received ≠ queue := by
  intro hsame
  have hhead := RingBuffer.head_pushAll queue received
  rw [hsame] at hhead
  have hzero := RingBuffer.slotFrom_injective queue.head hfew (by decide)
    (hhead.symm.trans (RingBuffer.slotFrom_zero queue.head).symm)
  exact hsome (List.length_eq_zero_iff.1 hzero)

/-- The result tells the truth exactly when the buffer is refused for its
length, is cut up without a rest, or has no whole packet in front. -/
theorem resultTruthful_iff (stack : Nat → FsPacketUnion) (driver : Driver) (rxBuf : List UInt8) :
    ResultTruthful stack driver rxBuf ↔
      fsMaxDataLength < rxBuf.length ∨ leftOver rxBuf = [] ∨ leftOver rxBuf = rxBuf := by
  unfold ResultTruthful segmentPackets
  by_cases hrefused : rxBuf.length = 0 ∨ fsMaxDataLength < rxBuf.length
  · rw [if_pos hrefused]
    refine iff_of_true ⟨fun hcode => absurd hcode (by simp), fun _ => ⟨rfl, rfl⟩⟩ ?_
    rcases hrefused with hempty | hlong
    · rw [List.length_eq_zero_iff.1 hempty]
      exact Or.inr (Or.inl (by rw [leftOver]))
    · exact Or.inl hlong
  · rw [if_neg hrefused]
    rw [not_or, Nat.not_lt] at hrefused
    obtain ⟨received, hrun, hsize, hnone⟩ :=
      segmentPacketsFrom_leftOver stack (Nat.le_add_left rxBuf.length 0) 0 driver
    rw [List.drop_zero] at hrun hsize hnone
    have hdelivers := delivers_enqueueAll driver received
    rw [hrun, or_iff_right (Nat.not_lt.2 hrefused.2), Int.zero_add]
    by_cases hwhole : leftOver rxBuf = []
    · have hcode : restCode (leftOver rxBuf) received.length = received.length := if_pos hwhole
      simp only [hcode]
      refine iff_of_true ⟨fun _ => ⟨received, rfl, hdelivers.enqueued⟩, fun hneg => ?_⟩
        (Or.inl hwhole)
      omega
    by_cases hreceived : received = []
    · subst hreceived
      have hcode : restCode (leftOver rxBuf) 0 = 0 ∨ restCode (leftOver rxBuf) 0 = -1 := by
        rw [restCode, if_neg hwhole]
        split_ifs <;> simp
      refine iff_of_true ⟨fun hnonneg => ⟨[], ?_, hdelivers.enqueued⟩, fun _ => ⟨rfl, rfl⟩⟩
        (Or.inr (hnone rfl))
      simp only [List.length_nil, Int.natCast_zero] at hnonneg ⊢
      omega
    · have hfew : received.length < fsMaxPacketQueueLength := by
        unfold fsMaxPacketQueueLength fsMaxDataLength at *
        omega
      have hpos : 0 < received.length := List.length_pos_iff.2 hreceived
      refine iff_of_false ?_ ?_
      · -- packets have been enqueued, and the code is 0 or -1
        rintro ⟨hcount, hsame⟩
        rw [restCode, if_neg hwhole] at hcount hsame
        split_ifs at hcount hsame
        · obtain ⟨others, hlength, henqueued⟩ := hcount (Int.le_refl 0)
          rw [hdelivers.enqueued, List.append_cancel_left_eq] at henqueued
          subst henqueued
          omega
        · have hkept := hdelivers.queue.symm.trans (hsame (by simp)).1
          exact pushAll_ne_self hreceived hfew hkept
      · rw [not_or]
        refine ⟨hwhole, fun hsame => ?_⟩
        rw [hsame] at hsize
        omega

/-- A whole packet and one byte of another: the packet is enqueued and the call
fails. -/
theorem not_resultTruthful_partial :
    ¬ ResultTruthful (fun _ => .zero 185) driverUninitialized
      (List.replicate 86 4) := by
  rintro ⟨_, hkept⟩
  have hcode : (segmentPackets (fun _ => .zero 185) driverUninitialized (List.replicate 86 4)
      (List.replicate 86 4 : List UInt8).length).1 = -1 := by decide +kernel
  have hcount : (segmentPackets (fun _ => .zero 185) driverUninitialized (List.replicate 86 4)
      (List.replicate 86 4 : List UInt8).length).2.device.packetBufQueue.count = 1 := by
    decide +kernel
  obtain ⟨hqueue, _⟩ := hkept (by rw [hcode]; decide)
  rw [hqueue] at hcount
  exact absurd hcount (by decide)

end Trifecta
