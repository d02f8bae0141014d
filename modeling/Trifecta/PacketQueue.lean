/-
The calls on the packet queue of a device, and the list that keeps the newest
packets, which they cannot be told from.
-/
import Trifecta.Packets

namespace Trifecta

/-- `fs_device_get_packet_at_index`: the return code and what the caller's buffer
holds afterwards. -/
def fsDeviceGetPacketAtIndex (device : FsDeviceInfo) (packetBuffer : FsPacketUnion)
    (index : Int) : Int × FsPacketUnion :=
  let rb := device.packetBufQueue
  if index < 0 ∨ (rb.count : Int) ≤ index then (-1, packetBuffer)
  else
    let packet := rb.get index.toNat
    (packet.type.toNat, packet)

/-- `fs_device_get_packet_pointer_at_index`. -/
def fsDeviceGetPacketPointerAtIndex (device : FsDeviceInfo) (index : Int) :
    Option FsPacketUnion :=
  if index < 0 then none
  else
    let rb := device.packetBufQueue
    if (rb.count : Int) ≤ index then none else some (rb.get index.toNat)

/-- `fs_get_raw_packet_queue_size`. -/
def fsGetRawPacketQueueSize (device : FsDeviceInfo) : Int :=
  device.packetBufQueue.count

/-- `fs_get_raw_packet_from_queue`. -/
def fsGetRawPacketFromQueue (device : FsDeviceInfo) (packetBuffer : FsPacketUnion)
    (pos : Int) : Int × FsPacketUnion :=
  if pos < 0 ∨ (device.packetBufQueue.count : Int) ≤ pos then (-1, packetBuffer)
  else
    match fsDeviceGetPacketPointerAtIndex device pos with
    | none => (-1, packetBuffer)
    | some pkt => (0, pkt)

/-- `fs_pop_raw_packet_from_queue`. -/
def fsPopRawPacketFromQueue (device : FsDeviceInfo) (packetBuffer : FsPacketUnion) :
    (Int × FsPacketUnion) × FsDeviceInfo :=
  if device.packetBufQueue.count = 0 then ((-1, packetBuffer), device)
  else
    match device.packetBufQueue.pop with
    | none => ((-1, packetBuffer), device)
    | some (packet, rest) => ((0, packet), { device with packetBufQueue := rest })

/-- A call on the packet queue, with what the caller's buffer holds before. -/
inductive QueueCall
  | enqueue (packet : FsPacketUnion)
  | pop (packetBuffer : FsPacketUnion)
  | rawAt (packetBuffer : FsPacketUnion) (pos : Int)
  | packetAt (packetBuffer : FsPacketUnion) (index : Int)
  | size

/-- The return code, and what the caller's buffer holds if the call has one. -/
abbrev QueueResult : Type := Int × Option FsPacketUnion

def withBuffer (result : Int × FsPacketUnion) : QueueResult :=
  (result.1, some result.2)

def queueCall (driver : Driver) : QueueCall → QueueResult × Driver
  | .enqueue packet =>
      let result := fsEnqueueIntoPacketQueue driver packet
      ((result.1, none), result.2)
  | .pop packetBuffer =>
      let result := fsPopRawPacketFromQueue driver.device packetBuffer
      (withBuffer result.1, { driver with device := result.2 })
  | .rawAt packetBuffer pos =>
      (withBuffer (fsGetRawPacketFromQueue driver.device packetBuffer pos), driver)
  | .packetAt packetBuffer index =>
      (withBuffer (fsDeviceGetPacketAtIndex driver.device packetBuffer index), driver)
  | .size => ((fsGetRawPacketQueueSize driver.device, none), driver)

/-- Calls one after another: their results, and the state they leave. -/
def runCalls {σ : Type} (call : σ → QueueCall → QueueResult × σ) :
    σ → List QueueCall → List QueueResult × σ
  | state, [] => ([], state)
  | state, next :: later =>
      let result := call state next
      let rest := runCalls call result.2 later
      (result.1 :: rest.1, rest.2)

/-! The list that the queue stands for. -/

/-- Append, and drop the oldest element of a list that has become too long. -/
def appendNewest (packets : List FsPacketUnion) (packet : FsPacketUnion) : List FsPacketUnion :=
  let longer := packets ++ [packet]
  if fsMaxPacketQueueLength < longer.length then longer.tail else longer

/-- Reading at a position succeeds exactly inside the list. -/
def readAt (packets : List FsPacketUnion) (code : FsPacketUnion → Int)
    (packetBuffer : FsPacketUnion) (position : Int) : Int × FsPacketUnion :=
  if 0 ≤ position ∧ position < packets.length then
    match packets[position.toNat]? with
    | some packet => (code packet, packet)
    | none => (-1, packetBuffer)
  else (-1, packetBuffer)

def listCall (packets : List FsPacketUnion) : QueueCall → QueueResult × List FsPacketUnion
  | .enqueue packet => ((0, none), appendNewest packets packet)
  | .pop packetBuffer =>
      match packets with
      | [] => ((-1, some packetBuffer), [])
      | oldest :: rest => ((0, some oldest), rest)
  | .rawAt packetBuffer pos => (withBuffer (readAt packets (fun _ => 0) packetBuffer pos), packets)
  | .packetAt packetBuffer index =>
      (withBuffer (readAt packets (fun packet => packet.type.toNat) packetBuffer index), packets)
  | .size => ((packets.length, none), packets)

theorem appendNewest_eq {packets : List FsPacketUnion}
    (hpackets : packets.length ≤ fsMaxPacketQueueLength) (packet : FsPacketUnion) :
    appendNewest packets packet = (packets ++ [packet]).rtake fsMaxPacketQueueLength := by
  unfold appendNewest
  simp only [List.length_append, List.length_singleton]
  split_ifs with hlong
  · have hone : (packets ++ [packet]).length - fsMaxPacketQueueLength = 1 := by
      rw [List.length_append, List.length_singleton]
      omega
    rw [List.rtake, hone, List.drop_one]
  · rw [RingBuffer.rtake_of_length_le]
    rw [List.length_append, List.length_singleton]
    omega

section Calls

variable (device : FsDeviceInfo) (packetBuffer : FsPacketUnion)

theorem readAt_queue (code : FsPacketUnion → Int) (position : Int) :
    readAt device.packetBufQueue.toList code packetBuffer position =
      if position < 0 ∨ (device.packetBufQueue.count : Int) ≤ position then (-1, packetBuffer)
      else
        (code (device.packetBufQueue.get position.toNat),
          device.packetBufQueue.get position.toNat) := by
  rw [readAt, RingBuffer.length_toList, RingBuffer.getElem?_toList]
  by_cases houtside : position < 0 ∨ (device.packetBufQueue.count : Int) ≤ position
  · rw [if_neg (by omega), if_pos houtside]
  · rw [if_pos (by omega), if_neg houtside, if_pos (by omega)]

theorem fsDeviceGetPacketAtIndex_eq (index : Int) :
    fsDeviceGetPacketAtIndex device packetBuffer index =
      readAt device.packetBufQueue.toList (fun packet => packet.type.toNat) packetBuffer
        index := by
  rw [readAt_queue]
  rfl

theorem fsGetRawPacketFromQueue_eq (pos : Int) :
    fsGetRawPacketFromQueue device packetBuffer pos =
      readAt device.packetBufQueue.toList (fun _ => 0) packetBuffer pos := by
  rw [readAt_queue, fsGetRawPacketFromQueue]
  split_ifs with houtside
  · rfl
  · rw [not_or] at houtside
    rw [fsDeviceGetPacketPointerAtIndex, if_neg houtside.1]
    simp only [if_neg houtside.2]

theorem fsPopRawPacketFromQueue_eq :
    (withBuffer (fsPopRawPacketFromQueue device packetBuffer).1,
        (fsPopRawPacketFromQueue device packetBuffer).2.packetBufQueue.toList) =
      listCall device.packetBufQueue.toList (.pop packetBuffer) := by
  unfold fsPopRawPacketFromQueue
  split_ifs with hempty
  · rw [← RingBuffer.toList_eq_nil_iff] at hempty
    simp [withBuffer, listCall, hempty]
  · obtain ⟨packet, rest, hpop⟩ := RingBuffer.exists_pop _ hempty
    rw [hpop, RingBuffer.toList_pop hpop]
    rfl

end Calls

/-- Each call answers as the list does and leaves the list that the list leaves. -/
theorem queueCall_refines (driver : Driver) (call : QueueCall) :
    ((queueCall driver call).1, (queueCall driver call).2.device.packetBufQueue.toList) =
      listCall driver.device.packetBufQueue.toList call := by
  cases call with
  | enqueue packet =>
      have hlength : driver.device.packetBufQueue.toList.length ≤ fsMaxPacketQueueLength := by
        rw [RingBuffer.length_toList]
        exact driver.device.packetBufQueue.count_le
      rw [listCall, appendNewest_eq hlength]
      exact Prod.ext rfl (RingBuffer.toList_pushForce _ packet)
  | pop packetBuffer => exact fsPopRawPacketFromQueue_eq driver.device packetBuffer
  | rawAt packetBuffer pos =>
      simp only [queueCall, listCall, fsGetRawPacketFromQueue_eq]
  | packetAt packetBuffer index =>
      simp only [queueCall, listCall, fsDeviceGetPacketAtIndex_eq]
  | size =>
      simp only [queueCall, listCall, fsGetRawPacketQueueSize, RingBuffer.length_toList]

theorem runCalls_refines (calls : List QueueCall) (driver : Driver) :
    ((runCalls queueCall driver calls).1,
        (runCalls queueCall driver calls).2.device.packetBufQueue.toList) =
      runCalls listCall driver.device.packetBufQueue.toList calls := by
  induction calls generalizing driver with
  | nil => rfl
  | cons call later ih =>
      have hcall := queueCall_refines driver call
      have hresult := congrArg Prod.fst hcall
      have hleft := congrArg Prod.snd hcall
      have hrest := ih (queueCall driver call).2
      simp only at hresult hleft
      rw [hleft] at hrest
      simp only [runCalls, ← hrest, hresult]

/-- After any calls on an empty queue the indices of the ring agree with its
count, and all results were those of the list. -/
theorem packetQueue_keeps_newest (driver : Driver)
    (hempty : driver.device.packetBufQueue.toList = []) (calls : List QueueCall) :
    (runCalls queueCall driver calls).1 = (runCalls listCall [] calls).1 ∧
      (runCalls queueCall driver calls).2.device.packetBufQueue.toList =
        (runCalls listCall [] calls).2 ∧
      (runCalls queueCall driver calls).2.device.packetBufQueue.count ≤ fsMaxPacketQueueLength ∧
      (runCalls queueCall driver calls).2.device.packetBufQueue.head.val =
        ((runCalls queueCall driver calls).2.device.packetBufQueue.tail.val +
          (runCalls queueCall driver calls).2.device.packetBufQueue.count) %
            fsMaxPacketQueueLength := by
  have hrun := runCalls_refines calls driver
  rw [hempty] at hrun
  exact ⟨congrArg Prod.fst hrun, congrArg Prod.snd hrun,
    (runCalls queueCall driver calls).2.device.packetBufQueue.count_le,
    (runCalls queueCall driver calls).2.device.packetBufQueue.head_eq⟩

/-- More pops than packets. -/
theorem packetQueue_keeps_newest_pops :
    let driver : Driver := ⟨fsDeviceInfoUninitialized, .zero fsMaxPacketLength, []⟩
    let calls := [.enqueue (.fill 185 1), .enqueue (.fill 185 2), .pop (.zero 185),
      .pop (.zero 185), .pop (.zero 185)]
    (runCalls queueCall driver calls).1 = (runCalls listCall [] calls).1 ∧
      (runCalls queueCall driver calls).2.device.packetBufQueue.toList =
        (runCalls listCall [] calls).2 ∧
      (runCalls queueCall driver calls).2.device.packetBufQueue.count ≤ fsMaxPacketQueueLength ∧
      (runCalls queueCall driver calls).2.device.packetBufQueue.head.val =
        ((runCalls queueCall driver calls).2.device.packetBufQueue.tail.val +
          (runCalls queueCall driver calls).2.device.packetBufQueue.count) %
            fsMaxPacketQueueLength :=
  packetQueue_keeps_newest ⟨fsDeviceInfoUninitialized, .zero fsMaxPacketLength, []⟩ rfl _

end Trifecta
