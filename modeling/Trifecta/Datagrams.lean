/-
Network datagrams: the packets of a datagram are cut apart by their own lengths
and all of them are queued and saved.
-/
import Trifecta.StreamSplits

namespace Trifecta

/-- Packets enqueued one after another. -/
def enqueueAll (driver : Driver) (received : List FsPacketUnion) : Driver :=
  received.foldl (fun current packet => (fsEnqueueIntoPacketQueue current packet).2) driver

/-- Packets one behind the other, as they are sent over a network. -/
def datagram (packets : List FsPacketUnion) : List UInt8 :=
  packets.flatMap packetBytes

theorem delivers_enqueueAll (driver : Driver) (received : List FsPacketUnion) :
    Delivers driver (enqueueAll driver received) received := by
  induction received generalizing driver with
  | nil => exact .refl driver
  | cons packet rest ih =>
      have hfirst : Delivers driver (fsEnqueueIntoPacketQueue driver packet).2 [packet] :=
        ⟨rfl, rfl, rfl⟩
      exact hfirst.trans (ih (fsEnqueueIntoPacketQueue driver packet).2)

theorem saveContext_enqueueAll (driver : Driver) (received : List FsPacketUnion) :
    (enqueueAll driver received).device.saveContext =
      driver.device.saveContext.map fun saver => received.foldl fsSaveOnPacket saver := by
  induction received generalizing driver with
  | nil => simp [enqueueAll]
  | cons packet rest ih =>
      have hrest := ih (fsEnqueueIntoPacketQueue driver packet).2
      simp only [fsEnqueueIntoPacketQueue, Option.map_map] at hrest
      exact hrest

/-- A running saver takes all packets in their order. -/
theorem foldl_fsSaveOnPacket {saver : FsSaveDevice} (hrunning : saver.running = .running)
    (received : List FsPacketUnion) :
    received.foldl fsSaveOnPacket saver =
      { saver with packetsToSave := saver.packetsToSave.pushAll received } := by
  induction received generalizing saver with
  | nil => rfl
  | cons packet rest ih =>
      have hstep : fsSaveOnPacket saver packet =
          { saver with packetsToSave := saver.packetsToSave.pushForce packet } := by
        simp [fsSaveOnPacket, hrunning]
      rw [List.foldl_cons, hstep]
      exact @ih { saver with packetsToSave := saver.packetsToSave.pushForce packet } hrunning

/-- Cutting started behind `front`, where the first packet begins. -/
theorem segmentPacketsFrom_datagram (stack : Nat → FsPacketUnion) (packets : List FsPacketUnion)
    (hknown : ∀ packet ∈ packets, obtainPacketLength (FsPacketUnion.type packet).toNat ≠ 0)
    (front : List UInt8) {fuel : Nat} (hfuel : (datagram packets).length ≤ fuel)
    (packetCount : Int) (driver : Driver) :
    ∃ received : List FsPacketUnion, List.Forall₂ SamePacket packets received ∧
      segmentPacketsFrom stack (front ++ datagram packets) (front ++ datagram packets).length
          fuel front.length packetCount driver =
        (packetCount + packets.length, enqueueAll driver received) := by
  induction packets generalizing front fuel packetCount driver with
  | nil =>
      refine ⟨[], .nil, ?_⟩
      cases fuel <;> simp [segmentPacketsFrom, datagram, enqueueAll]
  | cons packet rest ih =>
      have hpacket := hknown packet List.mem_cons_self
      obtain ⟨bytes, hbytes⟩ := type_of_packetBytes hpacket
      obtain ⟨length, hlength⟩ := Nat.exists_eq_succ_of_ne_zero hpacket
      have hsize := length_packetBytes packet
      have hsplit : datagram (packet :: rest) = packetBytes packet ++ datagram rest := by
        simp [datagram]
      have htotal := congrArg List.length hsplit
      rw [List.length_append, hsize, hlength] at htotal
      obtain ⟨rounds, rfl⟩ : ∃ rounds, fuel = rounds + 1 := ⟨fuel - 1, by omega⟩
      have htype : ((front ++ datagram (packet :: rest))[front.length]?).getD 0 =
          FsPacketUnion.type packet := by
        rw [hsplit, hbytes, List.getElem?_append_right (Nat.le_refl _), Nat.sub_self]
        rfl
      have hwhole : front.length + (length + 1) ≤ (front ++ datagram (packet :: rest)).length := by
        rw [List.length_append]
        omega
      obtain ⟨received, hreceived, hround⟩ := segmentPacketsFrom_whole stack (Nat.le_refl _)
        (by omega) (by rw [htype, hlength]) hwhole rounds packetCount driver
      have hsame : packetBytes received = packetBytes packet := by
        rw [hreceived, List.drop_left, hsplit, List.take_left' (by rw [hsize, hlength])]
      have hnext : front ++ datagram (packet :: rest) =
          (front ++ packetBytes packet) ++ datagram rest := by
        rw [hsplit, List.append_assoc]
      have hpos : front.length + (length + 1) = (front ++ packetBytes packet).length := by
        rw [List.length_append, hsize, hlength]
      obtain ⟨others, hall, hrest⟩ := ih
        (fun other hother => hknown other (List.mem_cons_of_mem packet hother))
        (front ++ packetBytes packet) (show (datagram rest).length ≤ rounds by omega)
        (packetCount + 1) (fsEnqueueIntoPacketQueue driver received).2
      refine ⟨received :: others, .cons ?_ hall, ?_⟩
      · -- the type stands in the bytes that agree
        have hlengths := congrArg List.length hsame
        rw [length_packetBytes, length_packetBytes] at hlengths
        rw [SamePacket, ← hlengths]
        exact hsame
      · rw [hround, hpos, hnext, hrest, List.length_cons]
        refine Prod.ext ?_ rfl
        simp only
        omega

/-- A datagram of known packets is decoded without loss: all packets are counted,
queued with the older ones given up first, remembered and saved. -/
theorem fsDeviceParsePacket_datagram (stack : Nat → FsPacketUnion) (driver : Driver)
    {source : FsCommunicationMode} (hsource : source = .tcpUdp ∨ source = .i2c ∨ source = .spi)
    {packets : List FsPacketUnion} (hpackets : packets ≠ [])
    (hknown : ∀ packet ∈ packets, obtainPacketLength (FsPacketUnion.type packet).toNat ≠ 0)
    (hlength : (datagram packets).length ≤ fsMaxDataLength) :
    ∃ after received,
      segmentPackets stack driver (datagram packets) (datagram packets).length =
        ((packets.length : Int), after) ∧
      fsDeviceParsePacket stack driver (datagram packets) source = some (0, after) ∧
      List.Forall₂ SamePacket packets received ∧
      after.device.packetBufQueue.toList =
        (driver.device.packetBufQueue.toList ++ received).rtake fsMaxPacketQueueLength ∧
      received.getLast? = some after.device.lastReceivedPacket ∧
      ∀ saver, driver.device.saveContext = some saver → saver.running = .running →
        after.device.saveContext =
          some { saver with packetsToSave := saver.packetsToSave.pushAll received } := by
  obtain ⟨received, hall, hrun⟩ := segmentPacketsFrom_datagram stack packets hknown []
    (Nat.le_refl _) 0 driver
  have hdelivers := delivers_enqueueAll driver received
  have hne : datagram packets ≠ [] := by
    obtain ⟨packet, rest, rfl⟩ := List.exists_cons_of_ne_nil hpackets
    obtain ⟨bytes, hbytes⟩ := type_of_packetBytes (hknown packet List.mem_cons_self)
    simp [datagram, hbytes]
  have hsegment : segmentPackets stack driver (datagram packets) (datagram packets).length =
      ((packets.length : Int), enqueueAll driver received) := by
    rw [segmentPackets, if_neg]
    · rw [List.nil_append, List.length_nil, Int.zero_add] at hrun
      exact hrun
    · rw [not_or, List.length_eq_zero_iff]
      exact ⟨hne, Nat.not_lt.2 hlength⟩
  have hparse : fsDeviceParsePacket stack driver (datagram packets) source =
      some (0, enqueueAll driver received) := by
    have hcount : ¬ (packets.length : Int) < 0 := by omega
    rcases hsource with rfl | rfl | rfl <;>
      simp only [fsDeviceParsePacket, if_neg hne, hsegment, if_neg hcount]
  refine ⟨enqueueAll driver received, received, hsegment, hparse, hall, ?_, ?_, ?_⟩
  · rw [hdelivers.queue, RingBuffer.toList_pushAll]
  · have hreceived : received ≠ [] := by
      intro hnil
      rw [hnil] at hall
      exact hpackets (List.forall₂_nil_right_iff.1 hall)
    rw [hdelivers.last, List.getLast?_eq_some_getLast hreceived, Option.getD_some]
  · intro saver hsaver hrunning
    rw [saveContext_enqueueAll, hsaver, Option.map_some, foldl_fsSaveOnPacket hrunning]

/-- Two packets of different lengths in one datagram. -/
theorem fsDeviceParsePacket_datagram_two :
    ∃ after received,
      segmentPackets (fun _ => .zero 185) driverUninitialized
          (datagram [.zero 185, .fill 185 4]) (datagram [.zero 185, .fill 185 4]).length =
        (((([.zero 185, .fill 185 4] : List FsPacketUnion).length : Nat) : Int), after) ∧
      fsDeviceParsePacket (fun _ => .zero 185) driverUninitialized
          (datagram [.zero 185, .fill 185 4]) .tcpUdp = some (0, after) ∧
      List.Forall₂ SamePacket [.zero 185, .fill 185 4] received ∧
      after.device.packetBufQueue.toList =
        (driverUninitialized.device.packetBufQueue.toList ++ received).rtake
          fsMaxPacketQueueLength ∧
      received.getLast? = some after.device.lastReceivedPacket ∧
      ∀ saver, driverUninitialized.device.saveContext = some saver → saver.running = .running →
        after.device.saveContext =
          some { saver with packetsToSave := saver.packetsToSave.pushAll received } := by
  refine fsDeviceParsePacket_datagram (fun _ => .zero 185) driverUninitialized (Or.inl rfl)
    (by simp) (by decide) ?_
  simp only [datagram, List.flatMap_cons, List.flatMap_nil, List.length_append,
    length_packetBytes]
  decide

end Trifecta
