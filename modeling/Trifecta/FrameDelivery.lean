/-
Base64 frames sent back to back, received in any chunks: every packet is
delivered once and in order.
-/
import Trifecta.FramerProgress
import Mathlib.Data.List.Forall2

namespace Trifecta

open CText Segments

/-- The bytes of a packet that its type says are sent. -/
def packetBytes (packet : FsPacketUnion) : List UInt8 :=
  packet.read 0 (obtainPacketLength (FsPacketUnion.type packet).toNat)

/-- A packet as it is sent over a serial line. -/
def base64Frame (packet : FsPacketUnion) : List UInt8 :=
  packetHeader :: (fsBase64Encode (packetBytes packet) fsMaxPacketLength).getD [] ++
    [packetFooter]

/-- Agreement on the bytes that the type of the first packet says are sent. -/
def SamePacket (original received : FsPacketUnion) : Prop :=
  received.read 0 (obtainPacketLength (FsPacketUnion.type original).toNat) =
    packetBytes original

/-- Chunks passed to `fs_device_parse_packet` from a UART. -/
def parseRun (stack : Nat → FsPacketUnion) (driver : Driver) (chunks : List (List UInt8)) :
    Option Driver :=
  chunks.foldlM (fun current chunk =>
    (fsDeviceParsePacket stack current chunk .uart).map Prod.snd) driver

theorem parseRun_concat (stack : Nat → FsPacketUnion) (driver : Driver)
    (chunks : List (List UInt8)) (chunk : List UInt8) :
    parseRun stack driver (chunks ++ [chunk]) =
      (parseRun stack driver chunks).bind fun before =>
        (fsDeviceParsePacket stack before chunk .uart).map Prod.snd := by
  simp [parseRun]

theorem fsDeviceParsePacket_nil (stack : Nat → FsPacketUnion) (driver : Driver)
    (source : FsCommunicationMode) :
    fsDeviceParsePacket stack driver [] source = some (-1, driver) :=
  rfl

theorem fsDeviceParsePacket_uart (stack : Nat → FsPacketUnion) (driver : Driver)
    {rxBuf : List UInt8} (hrxBuf : rxBuf ≠ []) :
    (fsDeviceParsePacket stack driver rxBuf .uart).map Prod.snd =
      (fsDeviceProcessPacketsSerial stack driver rxBuf).map Prod.snd := by
  rw [fsDeviceParsePacket, if_neg hrxBuf]
  cases fsDeviceProcessPacketsSerial stack driver rxBuf with
  | none => rfl
  | some processed =>
      simp only
      split <;> rfl

theorem length_packetBytes (packet : FsPacketUnion) :
    (packetBytes packet).length = obtainPacketLength (FsPacketUnion.type packet).toNat :=
  packet.length_read (by rw [Nat.zero_add]; exact obtainPacketLength_le _)

theorem base64Frame_eq (packet : FsPacketUnion) :
    base64Frame packet =
      packetHeader :: encodeTriples (packetBytes packet) ++ [packetFooter] := by
  have hlength := length_packetBytes packet
  have hle := obtainPacketLength_le (FsPacketUnion.type packet).toNat
  rw [base64Frame, fsBase64Encode_eq (by unfold fsMaxPacketLength; omega), Option.getD_some]

theorem not_mem_encodeTriples (delimiter : UInt8) (hdelimiter : isBase64 delimiter = false)
    (data : List UInt8) : delimiter ∉ encodeTriples data := by
  intro hmem
  rw [isBase64_of_mem_encodeTriples hmem] at hdelimiter
  exact absurd hdelimiter (by decide)

/-- The effect of delivering packets: they are appended to the history and to
the queue, and the last one is remembered. -/
structure Delivers (before after : Driver) (delivered : List FsPacketUnion) : Prop where
  enqueued : after.enqueued = before.enqueued ++ delivered
  queue : after.device.packetBufQueue = before.device.packetBufQueue.pushAll delivered
  last : after.device.lastReceivedPacket =
    delivered.getLast?.getD before.device.lastReceivedPacket

theorem Delivers.refl (driver : Driver) : Delivers driver driver [] :=
  ⟨(List.append_nil _).symm, rfl, rfl⟩

theorem Delivers.trans {first second third : Driver} {early late : List FsPacketUnion}
    (hearly : Delivers first second early) (hlate : Delivers second third late) :
    Delivers first third (early ++ late) := by
  refine ⟨?_, ?_, ?_⟩
  · rw [hlate.enqueued, hearly.enqueued, List.append_assoc]
  · rw [hlate.queue, hearly.queue, RingBuffer.pushAll, RingBuffer.pushAll, RingBuffer.pushAll,
      List.foldl_append]
  · rw [hlate.last, hearly.last, List.getLast?_append]
    cases late.getLast? <;> rfl

/-- The bytes that are sent start with the type. -/
theorem type_of_packetBytes {packet : FsPacketUnion}
    (hknown : obtainPacketLength (FsPacketUnion.type packet).toNat ≠ 0) :
    ∃ rest, packetBytes packet = FsPacketUnion.type packet :: rest := by
  obtain ⟨length, hlength⟩ := Nat.exists_eq_succ_of_ne_zero hknown
  cases hall : packet.bytes with
  | nil =>
      have hsize := packet.length_bytes
      rw [hall] at hsize
      exact absurd hsize (by decide)
  | cons first others =>
      refine ⟨others.take length, ?_⟩
      rw [packetBytes, hlength, Block.read, List.drop_zero, hall, List.take_succ_cons,
        FsPacketUnion.type, hall]
      rfl

/-- A frame at the front of the buffer is delivered and taken off. -/
theorem serialRound_base64Frame (stack : Nat → FsPacketUnion) {driver : Driver}
    {packet : FsPacketUnion}
    (hpacket : obtainPacketLength (FsPacketUnion.type packet).toNat ≠ 0) {post : List UInt8}
    (hpending : driver.pending = base64Frame packet ++ post) :
    ∃ next received, serialRound stack driver = some (.again next) ∧ next.pending = post ∧
      Delivers driver next [received] ∧ SamePacket packet received := by
  have hlength := length_packetBytes packet
  have hle := obtainPacketLength_le (FsPacketUnion.type packet).toNat
  have hfooter := not_mem_encodeTriples packetFooter (by decide) (packetBytes packet)
  have hheader := not_mem_encodeTriples packetHeader (by decide) (packetBytes packet)
  have hheaderV2 := not_mem_encodeTriples packetHeaderV2 (by decide) (packetBytes packet)
  have hcontent : driver.pending =
      [] ++ packetHeader :: encodeTriples (packetBytes packet) ++ packetFooter :: post := by
    rw [hpending, base64Frame_eq]
    simp
  have hbinary : packetHeaderV2 ∉ [] ++ packetHeader :: encodeTriples (packetBytes packet) := by
    simp only [List.nil_append, List.mem_cons, not_or]
    exact ⟨by decide, hheaderV2⟩
  have hround := @serialRound_base64 stack driver _ _ _ hcontent List.not_mem_nil hfooter hheader
    hbinary
  obtain ⟨hdecodable, htext⟩ := @decodable_encodeTriples (packetBytes packet) (by omega)
  obtain ⟨zeros, hquads⟩ := decodeQuads_encodeTriples (packetBytes packet)
  have hroom := length_decodeQuads_le hdecodable
  -- what is decoded starts with the packet's bytes, its type first
  obtain ⟨rest, hbytes⟩ := type_of_packetBytes hpacket
  have htype : ∀ buffer : Block fsMaxPacketLength,
      FsPacketUnion.type (packetInBuffer (buffer.write 0
        (decodeQuads (encodeTriples (packetBytes packet))))) = FsPacketUnion.type packet := by
    intro buffer
    rw [hquads, hbytes, List.cons_append] at hroom ⊢
    exact type_packetInBuffer hroom
  rw [base64ToPacket_of_decodable _ _ _ (by rw [payloadText, htext]; exact hdecodable),
    payloadText, htext] at hround
  simp only [htype, if_neg hpacket, Option.map_some] at hround
  refine ⟨_, _, hround, ?_, ⟨rfl, rfl, rfl⟩, ?_⟩
  · exact serialRound_pending_base64 hcontent List.not_mem_nil hfooter hheader hbinary hround
  · have hread := @read_packetInBuffer_of_le driver.currentDecodeBuffer
      (decodeQuads (encodeTriples (packetBytes packet))) hroom
      (obtainPacketLength (FsPacketUnion.type packet).toNat)
      (by rw [hquads, List.length_append]; omega) hle
    rw [hquads, ← hlength, List.take_left, hlength, ← hquads] at hread
    exact hread

/-- Frames at the front of the buffer are delivered one by one, and the loop
stops at an unfinished rest. -/
theorem processSerialLoop_frames (stack : Nat → FsPacketUnion) (packets : List FsPacketUnion)
    (hpackets : ∀ packet ∈ packets,
      obtainPacketLength (FsPacketUnion.type packet).toNat ≠ 0) {tail : List UInt8}
    (hfooter : packetFooter ∉ tail) (hterminator : cmdTerminator ∉ tail) (fuel : Nat)
    (driver : Driver) (hpending : driver.pending = packets.flatMap base64Frame ++ tail)
    (hfuel : driver.pending.length < fuel) :
    ∃ code after delivered, processSerialLoop stack fuel driver = some (code, after) ∧
      after.pending = tail ∧ Delivers driver after delivered ∧
      List.Forall₂ SamePacket packets delivered := by
  induction packets generalizing fuel driver with
  | nil =>
      rw [List.flatMap_nil, List.nil_append] at hpending
      obtain ⟨rounds, rfl⟩ := Nat.exists_eq_succ_of_ne_zero (Nat.ne_of_gt (Nat.zero_lt_of_lt hfuel))
      have hnoFrame : NoFrame driver.pending := by
        rintro pre post hsplit _
        rw [← hpending, hsplit] at hfooter
        simp at hfooter
      by_cases hempty : driver.pending = []
      · refine ⟨0, driver, [], ?_, hpending, .refl driver, .nil⟩
        rw [processSerialLoop, serialRound_empty hempty]
      · refine ⟨-1, driver, [], ?_, hpending, .refl driver, .nil⟩
        rw [processSerialLoop,
          serialRound_incomplete hempty (by rw [hpending]; exact hterminator) hnoFrame]
  | cons packet rest ih =>
      rw [List.flatMap_cons, List.append_assoc] at hpending
      obtain ⟨rounds, rfl⟩ := Nat.exists_eq_succ_of_ne_zero (Nat.ne_of_gt (Nat.zero_lt_of_lt hfuel))
      obtain ⟨next, received, hround, hpost, hfirst, hsame⟩ :=
        serialRound_base64Frame stack (hpackets packet List.mem_cons_self) hpending
      have hless := serialRound_progress stack driver next hround
      obtain ⟨code, after, delivered, hloop, htail, hrest, hall⟩ := ih
        (fun other hother => hpackets other (List.mem_cons_of_mem packet hother)) rounds next
        hpost (by omega)
      refine ⟨code, after, received :: delivered, ?_, htail, hfirst.trans hrest,
        .cons hsame hall⟩
      rw [processSerialLoop, hround]
      exact hloop

/-- The start of a stream of frames is some whole frames and an unfinished
one. -/
theorem prefix_of_frames {packets : List FsPacketUnion} {start : List UInt8}
    (hstart : start <+: packets.flatMap base64Frame) :
    ∃ done rest tail, packets = done ++ rest ∧ start = done.flatMap base64Frame ++ tail ∧
      packetFooter ∉ tail ∧ cmdTerminator ∉ tail := by
  induction packets generalizing start with
  | nil =>
      obtain rfl := List.prefix_nil.1 hstart
      exact ⟨[], [], [], rfl, rfl, List.not_mem_nil, List.not_mem_nil⟩
  | cons packet packets ih =>
      rw [List.flatMap_cons] at hstart
      by_cases hwhole : (base64Frame packet).length ≤ start.length
      · obtain ⟨more, rfl⟩ :=
          List.prefix_of_prefix_length_le (List.prefix_append _ _) hstart hwhole
        obtain ⟨done, rest, tail, rfl, rfl, htail⟩ := ih ((List.prefix_append_right_inj _).1 hstart)
        exact ⟨packet :: done, rest, tail, rfl, by rw [List.flatMap_cons, List.append_assoc], htail⟩
      · -- a frame that is cut short has lost its footer
        have hlength : start.length ≤
            (packetHeader :: encodeTriples (packetBytes packet)).length := by
          rw [base64Frame_eq, List.length_append, List.length_singleton] at hwhole
          omega
        have hcut : start <+: packetHeader :: encodeTriples (packetBytes packet) := by
          rw [base64Frame_eq, List.append_assoc] at hstart
          exact List.prefix_of_prefix_length_le hstart (List.prefix_append _ _) hlength
        have hplain : ∀ delimiter, isBase64 delimiter = false → delimiter ≠ packetHeader →
            delimiter ∉ start := by
          intro delimiter hdelimiter hne hmem
          rcases List.mem_cons.1 (hcut.subset hmem) with heq | hbody
          · exact hne heq
          · exact not_mem_encodeTriples delimiter hdelimiter _ hbody
        exact ⟨[], packet :: packets, start, rfl, rfl,
          hplain packetFooter (by decide) (by decide),
          hplain cmdTerminator (by decide) (by decide)⟩

/-- One call on a chunk that goes on with a stream of frames. -/
theorem fsDeviceParsePacket_frames (stack : Nat → FsPacketUnion) {driver : Driver}
    {chunk : List UInt8} {packets : List FsPacketUnion}
    (hpackets : ∀ packet ∈ packets,
      obtainPacketLength (FsPacketUnion.type packet).toNat ≠ 0) {tail : List UInt8}
    (hfooter : packetFooter ∉ tail) (hterminator : cmdTerminator ∉ tail)
    (hcontent : driver.pending ++ chunk = packets.flatMap base64Frame ++ tail)
    (hroom : driver.pending.length + chunk.length ≤ fsMaxDataLength) (hchunk : chunk ≠ []) :
    ∃ after delivered,
      (fsDeviceParsePacket stack driver chunk .uart).map Prod.snd = some after ∧
      after.pending = tail ∧ Delivers driver after delivered ∧
      List.Forall₂ SamePacket packets delivered := by
  obtain ⟨code, after, delivered, hloop, htail, hdelivers, hall⟩ :=
    processSerialLoop_frames stack packets hpackets hfooter hterminator
      ((driver.receive chunk).pending.length + 1) (driver.receive chunk)
      (by rw [pending_receive_of_room hroom, hcontent]) (Nat.lt_succ_self _)
  refine ⟨after, delivered, ?_, htail, ⟨hdelivers.enqueued, hdelivers.queue, hdelivers.last⟩,
    hall⟩
  rw [fsDeviceParsePacket_uart stack driver hchunk, fsDeviceProcessPacketsSerial_eq, hloop]
  rfl

/-- After any chunks of a stream of frames, the packets of its finished frames
have been delivered and the unfinished one waits. -/
theorem parseRun_frames (stack : Nat → FsPacketUnion) (driver : Driver)
    (packets : List FsPacketUnion)
    (hpackets : ∀ packet ∈ packets,
      obtainPacketLength (FsPacketUnion.type packet).toNat ≠ 0)
    (hempty : driver.pending = []) (chunks : List (List UInt8))
    (hstream : chunks.flatten <+: packets.flatMap base64Frame)
    (hroom : ∀ front chunk, front ++ [chunk] <+: chunks →
      ∀ before, parseRun stack driver front = some before →
        before.pending.length + chunk.length ≤ fsMaxDataLength) :
    ∃ after delivered done rest tail, packets = done ++ rest ∧
      chunks.flatten = done.flatMap base64Frame ++ tail ∧ packetFooter ∉ tail ∧
      parseRun stack driver chunks = some after ∧ after.pending = tail ∧
      Delivers driver after delivered ∧ List.Forall₂ SamePacket done delivered := by
  induction chunks using List.reverseRecOn with
  | nil =>
      exact ⟨driver, [], [], packets, [], rfl, rfl, List.not_mem_nil, rfl, hempty,
        .refl driver, .nil⟩
  | append_singleton chunks chunk ih =>
      have hflatten : (chunks ++ [chunk]).flatten = chunks.flatten ++ chunk := by simp
      rw [hflatten] at hstream ⊢
      obtain ⟨before, delivered, done, rest, tail, rfl, hdone, hfooter, hbefore, hpending,
        hdelivers, hall⟩ := ih ((List.prefix_append _ _).trans hstream)
        fun front other hfront => hroom front other (hfront.trans (List.prefix_append _ _))
      by_cases hchunk : chunk = []
      · refine ⟨before, delivered, done, rest, tail, rfl, ?_, hfooter, ?_, hpending, hdelivers,
          hall⟩
        · rw [hchunk, List.append_nil, hdone]
        · rw [parseRun_concat, hbefore, hchunk, Option.bind_some, fsDeviceParsePacket_nil]
          rfl
      · have hmore : tail ++ chunk <+: rest.flatMap base64Frame := by
          rw [hdone, List.flatMap_append, List.append_assoc] at hstream
          exact (List.prefix_append_right_inj _).1 hstream
        obtain ⟨next, left, tail', rfl, hcontent, hfooter', hterminator'⟩ :=
          prefix_of_frames hmore
        rw [← hpending] at hcontent
        obtain ⟨after, received, hcall, htail, hstep, hsame⟩ := fsDeviceParsePacket_frames stack
          (fun packet hpacket => hpackets packet (by simp [hpacket])) hfooter' hterminator'
          hcontent (hroom chunks chunk List.prefix_rfl before hbefore) hchunk
        refine ⟨after, delivered ++ received, done ++ next, left, tail',
          (List.append_assoc _ _ _).symm, ?_, hfooter', ?_, htail, hdelivers.trans hstep,
          List.rel_append hall hsame⟩
        · rw [hdone, List.flatMap_append, List.append_assoc, ← hpending, hcontent,
            List.append_assoc]
        · rw [parseRun_concat, hbefore, Option.bind_some, hcall]

/-- Base64 frames, however they are cut into chunks, deliver every packet once
and in order and leave nothing behind. -/
theorem parseRun_delivers (stack : Nat → FsPacketUnion) (driver : Driver)
    (packets : List FsPacketUnion) (chunks : List (List UInt8))
    (hpackets : ∀ packet ∈ packets,
      obtainPacketLength (FsPacketUnion.type packet).toNat ≠ 0)
    (hempty : driver.pending = [])
    (hstream : chunks.flatten = packets.flatMap base64Frame)
    (hroom : ∀ front chunk, front ++ [chunk] <+: chunks →
      ∀ before, parseRun stack driver front = some before →
        before.pending.length + chunk.length ≤ fsMaxDataLength) :
    ∃ after delivered, parseRun stack driver chunks = some after ∧
      List.Forall₂ SamePacket packets delivered ∧
      after.enqueued = driver.enqueued ++ delivered ∧
      after.device.packetBufQueue.toList =
        (driver.device.packetBufQueue.toList ++ delivered).rtake fsMaxPacketQueueLength ∧
      after.device.lastReceivedPacket =
        delivered.getLast?.getD driver.device.lastReceivedPacket ∧
      after.pending = [] := by
  obtain ⟨after, delivered, done, rest, tail, rfl, hdone, hfooter, hrun, hpending, hdelivers,
    hall⟩ := parseRun_frames stack driver packets hpackets hempty chunks
      ⟨[], by rw [List.append_nil, hstream]⟩ hroom
  -- nothing is left over: an unfinished frame would need a footer
  have htail : tail = rest.flatMap base64Frame := by
    rw [hdone, List.flatMap_append] at hstream
    exact List.append_cancel_left hstream
  obtain rfl : rest = [] := by
    cases rest with
    | nil => rfl
    | cons packet others =>
        rw [htail, List.flatMap_cons, base64Frame_eq] at hfooter
        simp at hfooter
  rw [List.flatMap_nil] at htail
  rw [List.append_nil]
  refine ⟨after, delivered, hrun, hall, hdelivers.enqueued, ?_, hdelivers.last,
    hpending.trans htail⟩
  rw [hdelivers.queue, RingBuffer.toList_pushAll]

/-- Two packets of zero bytes in one chunk. -/
theorem parseRun_delivers_two :
    ∃ after delivered,
      parseRun (fun _ => .zero 185) driverUninitialized
        [[Block.zero 185, Block.zero 185].flatMap base64Frame] = some after ∧
      List.Forall₂ SamePacket [.zero 185, .zero 185] delivered ∧
      after.enqueued = [] ++ delivered ∧
      after.device.packetBufQueue.toList = ([] ++ delivered).rtake fsMaxPacketQueueLength ∧
      after.device.lastReceivedPacket = delivered.getLast?.getD (.zero 185) ∧
      after.pending = [] := by
  have hframe : (base64Frame (.zero 185)).length = 198 := by
    rw [base64Frame_eq, List.length_append, List.length_cons, length_encodeTriples,
      length_packetBytes]
    rfl
  apply parseRun_delivers (fun _ => .zero 185) driverUninitialized [.zero 185, .zero 185]
    [[Block.zero 185, Block.zero 185].flatMap base64Frame]
  · intro packet hpacket
    simp only [List.mem_cons, List.not_mem_nil, or_false, or_self] at hpacket
    rw [hpacket]
    decide
  · rfl
  · simp
  · intro front chunk hfront before hbefore
    obtain ⟨rfl, rfl⟩ := concat_prefix_singleton hfront
    obtain rfl := Option.some.inj hbefore
    simp only [List.flatMap_cons, List.flatMap_nil, List.length_append, List.length_nil, hframe]
    decide

end Trifecta
