/-
What the accessors to the last received packet answer while the packet queue is
being drained.
-/
import Trifecta.PacketQueue
import Trifecta.PacketHelpers

namespace Trifecta

/-- `fs_get_raw_packet`. -/
def fsGetRawPacket (device : FsDeviceInfo) : Int × Option FsPacketUnion :=
  (0, some device.lastReceivedPacket)

/-- The calls that read the latest value of something. -/
inductive LatestCall
  | rawPacket
  | eulerAngles (degrees : Bool)
  | value (accessor : LatestAccessor)
deriving DecidableEq, Repr

/-- The call gives the same return code and the same output on both devices. -/
def LatestCall.Same (conversions : Conversions) (first second : FsDeviceInfo) :
    LatestCall → Prop
  | .rawPacket => fsGetRawPacket first = fsGetRawPacket second
  | .eulerAngles degrees =>
      fsGetOrientationEuler conversions first degrees =
        fsGetOrientationEuler conversions second degrees
  | .value accessor => accessor.Same conversions.toFloatScaling first second

/-- The orientation, as a quaternion or in angles. -/
def LatestCall.IsOrientation (call : LatestCall) : Prop :=
  call = .value .orientation ∨ ∃ degrees, call = .eulerAngles degrees

/-- The driver after one pop into each of the buffers. -/
def drain (driver : Driver) (buffers : List FsPacketUnion) : Driver :=
  (runCalls queueCall driver (buffers.map .pop)).2

theorem drain_cons (driver : Driver) (packetBuffer : FsPacketUnion)
    (buffers : List FsPacketUnion) :
    drain driver (packetBuffer :: buffers) =
      drain (queueCall driver (.pop packetBuffer)).2 buffers :=
  rfl

section Pop

variable (device : FsDeviceInfo) (packetBuffer : FsPacketUnion)

/-- A pop takes one packet out of the queue and leaves the last packet alone. -/
theorem fsPopRawPacketFromQueue_frame :
    (fsPopRawPacketFromQueue device packetBuffer).2.lastReceivedPacket =
        device.lastReceivedPacket ∧
      (fsPopRawPacketFromQueue device packetBuffer).2.packetBufQueue.count =
        device.packetBufQueue.count - 1 := by
  unfold fsPopRawPacketFromQueue
  split_ifs with hempty
  · exact ⟨rfl, by rw [hempty]⟩
  · obtain ⟨packet, rest, hpop⟩ := RingBuffer.exists_pop _ hempty
    have hcount := RingBuffer.count_pop hpop
    rw [hpop, hcount]
    exact ⟨rfl, rfl⟩

end Pop

/-- Draining takes one packet for each pop as long as there are any. -/
theorem drain_frame (driver : Driver) (buffers : List FsPacketUnion) :
    (drain driver buffers).device.lastReceivedPacket = driver.device.lastReceivedPacket ∧
      (drain driver buffers).device.packetBufQueue.count =
        driver.device.packetBufQueue.count - buffers.length := by
  induction buffers generalizing driver with
  | nil => exact ⟨rfl, rfl⟩
  | cons packetBuffer buffers ih =>
      have hpop := fsPopRawPacketFromQueue_frame driver.device packetBuffer
      have hrest := ih (queueCall driver (.pop packetBuffer)).2
      have hlatest : (queueCall driver (.pop packetBuffer)).2.device.lastReceivedPacket =
          driver.device.lastReceivedPacket := hpop.1
      have hcount : (queueCall driver (.pop packetBuffer)).2.device.packetBufQueue.count =
          driver.device.packetBufQueue.count - 1 := hpop.2
      rw [drain_cons, hrest.1, hrest.2, hlatest, hcount, List.length_cons]
      exact ⟨rfl, by omega⟩

section Latest

variable {first second : FsDeviceInfo}
  (hlatest : first.lastReceivedPacket = second.lastReceivedPacket)

include hlatest

theorem latestValue_congr {β : Type} (read : Layout FsFieldId → FsPacketUnion → β) :
    latestValue first read = latestValue second read := by
  rw [latestValue, latestValue, hlatest]

theorem latestSolution_congr {β : Type} (read : Layout FsFieldId → FsPacketUnion → β) :
    latestSolution first read = latestSolution second read := by
  rw [latestSolution, latestSolution, hlatest]

/-- Only the orientation depends on anything but the last packet. -/
theorem same_of_not_isOrientation (conversions : Conversions) {call : LatestCall}
    (hcall : ¬ call.IsOrientation) : call.Same conversions first second := by
  cases call with
  | rawPacket => exact congrArg (fun packet => ((0 : Int), some packet)) hlatest
  | eulerAngles degrees => exact absurd (Or.inr ⟨degrees, rfl⟩) hcall
  | value accessor =>
      cases accessor with
      | orientation => exact absurd (Or.inl rfl) hcall
      | acceleration => exact latestValue_congr hlatest _
      | angularVelocity => exact latestValue_congr hlatest _
      | magneticField => exact latestValue_congr hlatest _
      | velocity => exact latestSolution_congr hlatest _
      | movementState => exact latestValue_congr hlatest _
      | position => exact latestSolution_congr hlatest _
      | lastTimestamp =>
          exact congrArg
            (fun packet => ((0 : Int), some (floatMember (compositeLayout 4) packet .time))) hlatest

end Latest

/-- The orientation can be read when the queue holds a packet and the last packet
has a structure. -/
theorem code_fsGetOrientation (device : FsDeviceInfo) :
    (fsGetOrientation device).1 = 0 ↔
      device.packetBufQueue.count ≠ 0 ∧
        latestLayout device.lastReceivedPacket.type.toNat ≠ none := by
  rw [fsGetOrientation]
  split_ifs with hempty
  · exact iff_of_false (by decide) fun hboth => hboth.1 hempty
  · rw [latestValue]
    cases latestLayout device.lastReceivedPacket.type.toNat with
    | none => simp
    | some layout => simp [hempty]

theorem fsGetOrientation_of_code {device : FsDeviceInfo} (hcode : (fsGetOrientation device).1 ≠ 0) :
    fsGetOrientation device = (-1, none) := by
  rw [Ne, code_fsGetOrientation, not_and_or, not_not, not_not] at hcode
  rw [fsGetOrientation]
  split_ifs with hempty
  · rfl
  · rw [latestValue, hcode.resolve_left hempty]

theorem code_fsGetOrientationEuler (conversions : Conversions) (device : FsDeviceInfo)
    (degrees : Bool) :
    (fsGetOrientationEuler conversions device degrees).1 = 0 ↔ (fsGetOrientation device).1 = 0 := by
  rw [fsGetOrientationEuler]
  split_ifs with hcode
  · exact iff_of_false (by decide) hcode
  · exact iff_of_true rfl (not_not.1 hcode)

/-- With the same last packet the orientation is the same when it can be read on
both devices or on neither. -/
theorem fsGetOrientation_eq_iff {first second : FsDeviceInfo}
    (hlatest : first.lastReceivedPacket = second.lastReceivedPacket) :
    fsGetOrientation first = fsGetOrientation second ↔
      ((fsGetOrientation first).1 = 0 ↔ (fsGetOrientation second).1 = 0) := by
  constructor
  · intro hsame
    rw [hsame]
  · intro hcodes
    by_cases hread : (fsGetOrientation first).1 = 0
    · have hfirst := ((code_fsGetOrientation first).1 hread).1
      have hsecond := ((code_fsGetOrientation second).1 (hcodes.1 hread)).1
      rw [fsGetOrientation, fsGetOrientation, if_neg hfirst, if_neg hsecond]
      exact latestValue_congr hlatest _
    · rw [fsGetOrientation_of_code hread, fsGetOrientation_of_code (mt hcodes.2 hread)]

theorem orientation_same_iff (conversions : Conversions) {call : LatestCall}
    (hcall : call.IsOrientation) {first second : FsDeviceInfo}
    (hlatest : first.lastReceivedPacket = second.lastReceivedPacket) :
    call.Same conversions first second ↔
      ((fsGetOrientation first).1 = 0 ↔ (fsGetOrientation second).1 = 0) := by
  rcases hcall with rfl | ⟨degrees, rfl⟩
  · exact fsGetOrientation_eq_iff hlatest
  · constructor
    · intro hsame
      rw [← code_fsGetOrientationEuler conversions first degrees,
        ← code_fsGetOrientationEuler conversions second degrees]
      exact iff_of_eq (congrArg (fun got => got.1 = 0) hsame)
    · intro hcodes
      have hsame := (fsGetOrientation_eq_iff hlatest).2 hcodes
      change fsGetOrientationEuler conversions first degrees = _
      rw [fsGetOrientationEuler, fsGetOrientationEuler, hsame]

/-- Draining the queue changes the answer of a call exactly when the call reads
the orientation, the last packet has one, and the pops empty a queue that held
packets. -/
theorem drain_same_iff (conversions : Conversions) (call : LatestCall) (driver : Driver)
    (buffers : List FsPacketUnion) :
    call.Same conversions (drain driver buffers).device driver.device ↔
      ¬ call.IsOrientation ∨ driver.device.packetBufQueue.count = 0 ∨
        buffers.length < driver.device.packetBufQueue.count ∨
        latestLayout driver.device.lastReceivedPacket.type.toNat = none := by
  obtain ⟨hlatest, hcount⟩ := drain_frame driver buffers
  by_cases hcall : call.IsOrientation
  · rw [orientation_same_iff conversions hcall hlatest, code_fsGetOrientation,
      code_fsGetOrientation, hlatest, hcount, or_iff_right (not_not.2 hcall)]
    by_cases hlayout : latestLayout driver.device.lastReceivedPacket.type.toNat = none
    · simp [hlayout]
    · simp only [hlayout, ne_eq, not_false_iff, and_true, or_false]
      omega
  · exact iff_of_true (same_of_not_isOrientation hlatest conversions hcall) (Or.inl hcall)

/-- One packet arrives and is popped. -/
theorem not_same_drained :
    ¬ ∀ (conversions : Conversions) (call : LatestCall) (history : List QueueCall)
      (buffers : List FsPacketUnion),
      call.Same conversions
        (drain (runCalls queueCall idleDriver history).2 buffers).device
        (runCalls queueCall idleDriver history).2.device := by
  intro hall
  have hsame := hall plainConversions (.value .orientation) [.enqueue (blankPacket 0)]
    [blankPacket 0]
  have hcode := congrArg Prod.fst (show fsGetOrientation _ = fsGetOrientation _ from hsame)
  exact absurd hcode (by decide +kernel)

end Trifecta
