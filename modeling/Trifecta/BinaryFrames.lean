/-
Binary frames on a serial line: the framer cuts the last byte off every payload,
so that a packet sent as '@', its bytes and '!' is not delivered.
-/
import Trifecta.StreamSplits

namespace Trifecta

open CText Segments

/-- A packet between the delimiters of a binary frame. -/
def binaryFrame (packet : FsPacketUnion) : List UInt8 :=
  packetHeaderV2 :: packetBytes packet ++ [packetFooter]

/-- The framed packet is enqueued once and nothing else, it is the last one
received, and no byte waits afterwards. -/
def DeliversFrame (stack : Nat → FsPacketUnion) (driver : Driver) (packet : FsPacketUnion) :
    Prop :=
  ∃ code after received,
    fsDeviceParsePacket stack driver (binaryFrame packet) .uart = some (code, after) ∧
      Delivers driver after [received] ∧ SamePacket packet received ∧
      SamePacket packet after.device.lastReceivedPacket ∧ after.pending = []

/-- Every device with an empty data buffer receives the packet from its
frame. -/
def BinaryTransparent (stack : Nat → FsPacketUnion) (packet : FsPacketUnion) : Prop :=
  ∀ driver : Driver, driver.pending = [] → DeliversFrame stack driver packet

theorem samePacket_type {original received : FsPacketUnion}
    (hknown : obtainPacketLength (FsPacketUnion.type original).toNat ≠ 0)
    (hsame : SamePacket original received) :
    FsPacketUnion.type received = FsPacketUnion.type original := by
  obtain ⟨length, hlength⟩ := Nat.exists_eq_succ_of_ne_zero hknown
  have hhead := congrArg List.head? hsame
  rw [packetBytes, Block.read, Block.read, hlength, List.drop_zero, List.drop_zero] at hhead
  have htake : ∀ bytes : List UInt8, (bytes.take (length + 1)).head? = bytes[0]? := by
    intro bytes
    cases bytes <;> simp
  simp only [Nat.succ_eq_add_one, htake] at hhead
  rw [FsPacketUnion.type, FsPacketUnion.type, hhead]

theorem samePacket_getElem? {original received : FsPacketUnion}
    (hsame : SamePacket original received) {index : Nat}
    (hindex : index < obtainPacketLength (FsPacketUnion.type original).toNat) :
    received.bytes[index]? = original.bytes[index]? := by
  have hbyte := congrArg (fun bytes : List UInt8 => bytes[index]?) hsame
  simpa only [packetBytes, Block.read, List.drop_zero, List.getElem?_take_of_lt hindex]
    using hbyte

/-- What is cut out of a buffer is no longer than the buffer. -/
theorem segmentPacketsFrom_short (stack : Nat → FsPacketUnion) {buf : List UInt8} {rxLen : Nat}
    (hbuf : rxLen ≤ buf.length) (fuel pos : Nat) (packetCount : Int) (driver : Driver) :
    ∃ delivered : List FsPacketUnion,
      (segmentPacketsFrom stack buf rxLen fuel pos packetCount driver).2.enqueued =
          driver.enqueued ++ delivered ∧
        ∀ packet ∈ delivered, obtainPacketLength (FsPacketUnion.type packet).toNat ≤ rxLen := by
  have hnone : driver.enqueued = driver.enqueued ++ [] := (List.append_nil _).symm
  induction fuel generalizing pos packetCount driver with
  | zero => exact ⟨[], hnone, by simp⟩
  | succ fuel ih =>
      by_cases hpos : pos < rxLen
      · rcases Nat.eq_zero_or_eq_succ_pred (obtainPacketLength (buf[pos]?.getD 0).toNat) with
          hzero | hlength
        · simp only [segmentPacketsFrom, if_pos hpos, if_pos hzero]
          exact ⟨[], hnone, by simp⟩
        by_cases hlong : rxLen < pos + obtainPacketLength (buf[pos]?.getD 0).toNat
        · have hknown : obtainPacketLength (buf[pos]?.getD 0).toNat ≠ 0 := by
            rw [hlength]
            exact Nat.succ_ne_zero _
          simp only [segmentPacketsFrom, if_pos hpos, if_neg hknown, if_pos hlong]
          exact ⟨[], hnone, by simp⟩
        · rw [hlength, Nat.not_lt] at hlong
          obtain ⟨packet, hpacket, hround⟩ :=
            segmentPacketsFrom_whole stack hbuf hpos hlength hlong fuel packetCount driver
          obtain ⟨delivered, henqueued, hshort⟩ := ih (pos + _) (packetCount + 1)
            (fsEnqueueIntoPacketQueue driver packet).2 (List.append_nil _).symm
          refine ⟨packet :: delivered, ?_, ?_⟩
          · rw [hround, henqueued]
            simp [fsEnqueueIntoPacketQueue]
          · intro other hother
            rcases List.mem_cons.1 hother with rfl | hlater
            · rw [← length_packetBytes, hpacket]
              exact (List.length_take_le _ _).trans (by omega)
            · exact hshort other hlater
      · simp only [segmentPacketsFrom, if_neg hpos]
        exact ⟨[], hnone, by simp⟩

theorem segmentPackets_short (stack : Nat → FsPacketUnion) (driver : Driver)
    (payload beyond : List UInt8) :
    ∃ delivered : List FsPacketUnion,
      (segmentPackets stack driver (payload ++ beyond) (sizeSub payload.length 1)).2.enqueued =
          driver.enqueued ++ delivered ∧
        ∀ packet ∈ delivered,
          obtainPacketLength (FsPacketUnion.type packet).toNat < payload.length := by
  unfold segmentPackets
  split_ifs with hrefused
  · exact ⟨[], (List.append_nil _).symm, by simp⟩
  · -- a frame without payload is refused, because its length wraps around
    have hlength : sizeSub payload.length 1 = payload.length - 1 ∧ 1 ≤ payload.length := by
      unfold sizeSub fsMaxDataLength at hrefused
      unfold sizeSub
      split_ifs at hrefused ⊢ <;> omega
    obtain ⟨delivered, henqueued, hshort⟩ := segmentPacketsFrom_short stack
      (show sizeSub payload.length 1 ≤ (payload ++ beyond).length by simp; omega)
      (sizeSub payload.length 1) 0 0 driver
    refine ⟨delivered, henqueued, fun packet hpacket => ?_⟩
    have := hshort packet hpacket
    omega

theorem getElem?_write_of_le {size : Nat} (block : Block size) {data : List UInt8} {index : Nat}
    (hindex : data.length ≤ index) : (block.write 0 data).bytes[index]? = block.bytes[index]? := by
  by_cases hfits : 0 + data.length ≤ size
  · rw [Block.bytes_write hfits, List.take_zero, List.nil_append,
      List.getElem?_append_right hindex, List.getElem?_drop, Nat.zero_add,
      Nat.add_sub_cancel' hindex]
  · rw [Block.write, dif_neg hfits]

theorem length_written_le {text : List UInt8} {decodedLength : Nat} {decoding : Decoding}
    (hdecode : decodeText text fsMaxPacketLength decodedLength = some decoding) :
    decoding.written.length ≤ 3 * (text.length / 4) := by
  have hlead : (text.takeWhile isBase64).length ≤ text.length :=
    (List.takeWhile_prefix _).length_le
  have hquads : ((decodeQuads (text.takeWhile isBase64)).take fsMaxPacketLength).length ≤
      3 * (text.length / 4) := by
    refine (List.length_take_le' _ _).trans ?_
    rw [length_decodeQuads]
    omega
  unfold decodeText at hdecode
  simp only at hdecode
  split_ifs at hdecode
  · obtain rfl := Option.some.inj hdecode
    exact Nat.zero_le _
  · obtain rfl := Option.some.inj hdecode
    exact hquads
  · obtain rfl := Option.some.inj hdecode
    exact hquads

/-- A Base64 frame writes no byte behind three quarters of its payload, and a
packet it delivers keeps the bytes that were left there. -/
theorem base64ToPacket_keeps {driver : Driver} {payload beyond : List UInt8}
    {result : Int × Driver}
    (hresult : base64ToPacket driver (payload ++ packetFooter :: beyond) payload.length =
      some result) {index : Nat} (hindex : 3 * (payload.length / 4) ≤ index) :
    result.2.currentDecodeBuffer.bytes[index]? = driver.currentDecodeBuffer.bytes[index]? ∧
      ∃ delivered : List FsPacketUnion, result.2.enqueued = driver.enqueued ++ delivered ∧
        ∀ packet ∈ delivered, index < 185 →
          packet.bytes[index]? = driver.currentDecodeBuffer.bytes[index]? := by
  rw [base64ToPacket_eq] at hresult
  obtain ⟨decoding, hdecode, rfl⟩ := Option.map_eq_some_iff.1 hresult
  have htext : (payloadText payload).length ≤ payload.length :=
    (length_cString_le _).trans (List.length_take_le' _ _)
  have hwritten := length_written_le hdecode
  have hkept := getElem?_write_of_le driver.currentDecodeBuffer
    (show decoding.written.length ≤ index by omega)
  simp only
  split_ifs
  · exact ⟨hkept, [], (List.append_nil _).symm, by simp⟩
  · refine ⟨hkept, [packetInBuffer (driver.currentDecodeBuffer.write 0 decoding.written)], rfl, ?_⟩
    intro packet hpacket hsmall
    obtain rfl := List.mem_singleton.1 hpacket
    rw [← hkept]
    change (((driver.currentDecodeBuffer.write 0 decoding.written).bytes.drop 0).take
      185)[index]? = _
    rw [List.drop_zero, List.getElem?_take_of_lt hsmall]

/-- What a round that goes on has done: it handled commands, or a frame. -/
theorem serialRound_again {stack : Nat → FsPacketUnion} {driver next : Driver}
    (hround : serialRound stack driver = some (.again next)) :
    (next.enqueued = driver.enqueued ∧ next.currentDecodeBuffer = driver.currentDecodeBuffer) ∨
      ∃ kind front payload post handled, FrameAt kind front payload ∧
        driver.pending = front ++ kind.header :: payload ++ packetFooter :: post ∧
        handleFrame stack driver kind payload post = some handled ∧
        next = popData handled (front.length + 1 + payload.length + 1) := by
  rcases noFrame_or_frame driver.pending with
    hnoFrame | ⟨kind, front, payload, post, hframe, hpending⟩
  · rcases serialRound_of_noFrame stack hnoFrame with
      ⟨_, code, hreturned⟩ | ⟨_, _, after, _, _, hafter, hagain, _⟩
    · rw [hreturned] at hround
      exact absurd hround (by simp)
    · obtain rfl := SerialRound.again.inj (Option.some.inj (hagain.symm.trans hround))
      rw [hafter]
      exact Or.inl ⟨rfl, rfl⟩
  · rw [serialRound_frame stack hframe hpending] at hround
    obtain ⟨handled, hhandle, hnext⟩ := Option.map_eq_some_iff.1 hround
    exact Or.inr ⟨kind, front, payload, post, handled, hframe, hpending, hhandle,
      (SerialRound.again.inj hnext).symm⟩

theorem serialRound_returned {stack : Nat → FsPacketUnion} {driver after : Driver} {code : Int}
    (hround : serialRound stack driver = some (.returned code after)) : after = driver := by
  rcases noFrame_or_frame driver.pending with
    hnoFrame | ⟨kind, front, payload, post, hframe, hpending⟩
  · rcases serialRound_of_noFrame stack hnoFrame with
      ⟨_, code, hreturned⟩ | ⟨_, _, _, _, _, _, hagain, _⟩
    · rw [hreturned] at hround
      exact (SerialRound.returned.inj (Option.some.inj hround)).2.symm
    · rw [hagain] at hround
      exact absurd hround (by simp)
  · rw [serialRound_frame stack hframe hpending] at hround
    obtain ⟨handled, _, hnext⟩ := Option.map_eq_some_iff.1 hround
    exact absurd hnext (by simp)

section OneFrame

variable {stack : Nat → FsPacketUnion} {packet : FsPacketUnion} {index : Nat}

/-- A frame no longer than a packet delivers something else than the packet,
unless the decode buffer already holds the end of the packet. -/
theorem handleFrame_other
    (hquarter : 3 * (obtainPacketLength (FsPacketUnion.type packet).toNat / 4) ≤ index)
    (hindex : index < obtainPacketLength (FsPacketUnion.type packet).toNat)
    {driver handled : Driver}
    (hleft : driver.currentDecodeBuffer.bytes[index]? ≠ packet.bytes[index]?)
    {kind : FrameKind} {payload beyond : List UInt8}
    (hpayload : payload.length ≤ obtainPacketLength (FsPacketUnion.type packet).toNat)
    (hhandle : handleFrame stack driver kind payload beyond = some handled) :
    handled.currentDecodeBuffer.bytes[index]? = driver.currentDecodeBuffer.bytes[index]? ∧
      ∃ delivered : List FsPacketUnion, handled.enqueued = driver.enqueued ++ delivered ∧
        ∀ received ∈ delivered, ¬ SamePacket packet received := by
  have hknown : obtainPacketLength (FsPacketUnion.type packet).toNat ≠ 0 :=
    Nat.ne_of_gt (Nat.zero_lt_of_lt hindex)
  have hle := obtainPacketLength_le (FsPacketUnion.type packet).toNat
  cases kind with
  | binary =>
      obtain rfl := Option.some.inj hhandle
      obtain ⟨delivered, henqueued, hshort⟩ :=
        segmentPackets_short stack driver payload (packetFooter :: beyond)
      refine ⟨?_, delivered, henqueued, fun received hreceived hsame => ?_⟩
      · unfold segmentPackets
        split_ifs
        · rfl
        · rw [currentDecodeBuffer_segmentPacketsFrom]
      · have := hshort received hreceived
        rw [samePacket_type hknown hsame] at this
        omega
  | base64 =>
      obtain ⟨result, hresult, rfl⟩ := Option.map_eq_some_iff.1 hhandle
      obtain ⟨hkept, delivered, henqueued, hbytes⟩ :=
        @base64ToPacket_keeps driver payload beyond result hresult index (by omega)
      refine ⟨hkept, delivered, henqueued, fun received hreceived hsame => hleft ?_⟩
      rw [← hbytes received hreceived (by omega), samePacket_getElem? hsame hindex]

theorem processSerialLoop_other
    (hquarter : 3 * (obtainPacketLength (FsPacketUnion.type packet).toNat / 4) ≤ index)
    (hindex : index < obtainPacketLength (FsPacketUnion.type packet).toNat) (fuel : Nat)
    {driver after : Driver} {code : Int}
    (hleft : driver.currentDecodeBuffer.bytes[index]? ≠ packet.bytes[index]?)
    (hpending : driver.pending.length ≤
      obtainPacketLength (FsPacketUnion.type packet).toNat + 2)
    (hloop : processSerialLoop stack fuel driver = some (code, after)) :
    ∃ delivered : List FsPacketUnion, after.enqueued = driver.enqueued ++ delivered ∧
      ∀ received ∈ delivered, ¬ SamePacket packet received := by
  induction fuel generalizing driver with
  | zero => exact absurd hloop (by simp [processSerialLoop])
  | succ fuel ih =>
      rw [processSerialLoop] at hloop
      cases hround : serialRound stack driver with
      | none =>
          rw [hround] at hloop
          exact absurd hloop (by simp)
      | some outcome =>
          rw [hround] at hloop
          cases outcome with
          | returned early ended =>
              obtain rfl := (Prod.mk.inj (Option.some.inj hloop)).2
              obtain rfl := serialRound_returned hround
              exact ⟨[], (List.append_nil _).symm, by simp⟩
          | again next =>
              have hless := serialRound_progress stack driver next hround
              rcases serialRound_again hround with
                ⟨henqueued, hbuffer⟩ |
                  ⟨kind, front, payload, post, handled, _, hsplit, hhandle, hnext⟩
              · rw [← henqueued]
                exact ih (by rw [hbuffer]; exact hleft) (by omega) hloop
              · have hlength := congrArg List.length hsplit
                simp only [List.length_append, List.length_cons] at hlength
                obtain ⟨hbuffer, first, hfirst, hother⟩ := handleFrame_other hquarter hindex hleft
                  (show payload.length ≤ _ by omega) hhandle
                obtain ⟨later, hlater, hrest⟩ := @ih next
                  (by rw [hnext]; exact hbuffer ▸ hleft) (by omega) hloop
                refine ⟨first ++ later, ?_, ?_⟩
                · rw [hlater, hnext, ← List.append_assoc, ← hfirst]
                  rfl
                · intro received hreceived
                  rcases List.mem_append.1 hreceived with hmem | hmem
                  · exact hother received hmem
                  · exact hrest received hmem

theorem length_binaryFrame (packet : FsPacketUnion) : (binaryFrame packet).length =
    obtainPacketLength (FsPacketUnion.type packet).toNat + 2 := by
  simp [binaryFrame, length_packetBytes]

/-- The framer's run on the frame of a packet, from an empty data buffer. -/
theorem processSerialLoop_of_deliversFrame {driver : Driver} (hempty : driver.pending = [])
    (hdelivers : DeliversFrame stack driver packet) :
    ∃ code after received,
      processSerialLoop stack ((driver.receive (binaryFrame packet)).pending.length + 1)
          (driver.receive (binaryFrame packet)) = some (code, after) ∧
        (driver.receive (binaryFrame packet)).pending = binaryFrame packet ∧
        after.enqueued = driver.enqueued ++ [received] ∧ SamePacket packet received := by
  obtain ⟨code, after, received, hcall, henqueued, hsame, _, _⟩ := hdelivers
  have hserial := fsDeviceParsePacket_uart stack driver
    (show binaryFrame packet ≠ [] by simp [binaryFrame])
  rw [hcall, Option.map_some] at hserial
  obtain ⟨⟨code', after'⟩, hloop, hafter⟩ := Option.map_eq_some_iff.1 hserial.symm
  obtain rfl : after' = after := hafter
  have hle := obtainPacketLength_le (FsPacketUnion.type packet).toNat
  have hroom := length_binaryFrame packet
  rw [fsDeviceProcessPacketsSerial_eq] at hloop
  refine ⟨code', after', received, hloop, ?_, henqueued.enqueued, hsame⟩
  rw [pending_receive_of_room, hempty, List.nil_append]
  rw [hempty, List.length_nil]
  unfold fsMaxDataLength
  omega

/-- A frame without a footer inside is taken in one round, which delivers only
shorter packets. -/
theorem footer_mem_of_deliversFrame
    (hknown : obtainPacketLength (FsPacketUnion.type packet).toNat ≠ 0) {driver : Driver}
    (hempty : driver.pending = []) (hdelivers : DeliversFrame stack driver packet) :
    packetFooter ∈ packetBytes packet := by
  apply Classical.byContradiction
  intro hplain
  obtain ⟨code, after, received, hloop, hpending, henqueued, hsame⟩ :=
    processSerialLoop_of_deliversFrame hempty hdelivers
  obtain ⟨front, payload, hsplit, hlast⟩ :=
    exists_last_split (show packetHeaderV2 ∈ packetHeaderV2 :: packetBytes packet by simp)
  have hnot : packetFooter ∉ front ++ packetHeaderV2 :: payload := by
    rw [← hsplit, List.mem_cons, not_or]
    exact ⟨by decide, hplain⟩
  rw [List.mem_append, List.mem_cons, not_or, not_or] at hnot
  have hcontent : (driver.receive (binaryFrame packet)).pending =
      front ++ packetHeaderV2 :: payload ++ packetFooter :: [] := by
    rw [hpending, binaryFrame, hsplit]
  obtain ⟨next, hround, hpost⟩ := @serialRound_pending_binary stack _ _ _ _ hcontent hnot.1
    hnot.2.2 hlast
  have hnext := @serialRound_binary stack _ _ _ _ hcontent hnot.1 hnot.2.2 hlast
  rw [hround] at hnext
  obtain rfl := SerialRound.again.inj (Option.some.inj hnext)
  rw [processSerialLoop, hround] at hloop
  simp only [hpending, length_binaryFrame, processSerialLoop, serialRound_empty hpost] at hloop
  obtain rfl := (Prod.mk.inj (Option.some.inj hloop)).2
  obtain ⟨delivered, hshortest, hshort⟩ := segmentPackets_short stack
    (driver.receive (binaryFrame packet)) payload [packetFooter]
  have hone : delivered = [received] :=
    List.append_cancel_left (hshortest.symm.trans henqueued)
  have hless := hshort received (by rw [hone]; exact List.mem_singleton_self _)
  have hlength := congrArg List.length hsplit
  simp only [List.length_append, List.length_cons, length_packetBytes] at hlength
  rw [samePacket_type hknown hsame] at hless
  omega

/-- The decode buffer of the device holds the last quarter of the packet
already. -/
def LeftInDecodeBuffer (packet : FsPacketUnion) (buffer : Block fsMaxPacketLength) : Prop :=
  ∀ index, 3 * (obtainPacketLength (FsPacketUnion.type packet).toNat / 4) ≤ index →
    index < obtainPacketLength (FsPacketUnion.type packet).toNat →
    buffer.bytes[index]? = packet.bytes[index]?

theorem leftInDecodeBuffer_of_deliversFrame {driver : Driver} (hempty : driver.pending = [])
    (hdelivers : DeliversFrame stack driver packet) :
    LeftInDecodeBuffer packet driver.currentDecodeBuffer := by
  intro index hquarter hindex
  apply Classical.byContradiction
  intro hleft
  obtain ⟨code, after, received, hloop, hpending, henqueued, hsame⟩ :=
    processSerialLoop_of_deliversFrame hempty hdelivers
  obtain ⟨delivered, hother, hnone⟩ := @processSerialLoop_other stack packet index hquarter hindex
    _ (driver.receive (binaryFrame packet)) _ _ hleft
    (by rw [hpending, length_binaryFrame]) hloop
  have hone : delivered = [received] := List.append_cancel_left (hother.symm.trans henqueued)
  exact hnone received (by rw [hone]; exact List.mem_singleton_self _) hsame

end OneFrame

/-- A decode buffer that differs from the packet in its last byte. -/
theorem exists_not_leftInDecodeBuffer {packet : FsPacketUnion}
    (hknown : obtainPacketLength (FsPacketUnion.type packet).toNat ≠ 0) :
    ∃ buffer : Block fsMaxPacketLength, ¬ LeftInDecodeBuffer packet buffer := by
  have hle := obtainPacketLength_le (FsPacketUnion.type packet).toNat
  obtain ⟨last, hlast⟩ := Nat.exists_eq_succ_of_ne_zero hknown
  have hin : last < packet.bytes.length := by
    rw [packet.length_bytes]
    omega
  refine ⟨.fill fsMaxPacketLength (packet.bytes[last] + 1), fun hleft => ?_⟩
  have hbyte := hleft last (by omega) (by omega)
  have hfilled : last < fsMaxPacketLength := by
    unfold fsMaxPacketLength
    omega
  rw [List.getElem?_eq_getElem hin, Block.fill, List.getElem?_replicate, if_pos hfilled] at hbyte
  have hne : packet.bytes[last] + 1 ≠ packet.bytes[last] := by
    intro heq
    have := congrArg UInt8.toNat heq
    simp only [UInt8.toNat_add] at this
    have hlt := (packet.bytes[last]).toNat_lt
    simp at this
    omega
  exact hne (Option.some.inj hbyte)

/-- No packet is received from its binary frame.  A device can at most be handed
a copy of it that an earlier Base64 frame left in the decode buffer, by a
packet with a footer among its bytes. -/
theorem not_binaryTransparent (stack : Nat → FsPacketUnion) (packet : FsPacketUnion)
    (hknown : obtainPacketLength (FsPacketUnion.type packet).toNat ≠ 0) :
    ¬ BinaryTransparent stack packet ∧
      ∀ driver : Driver, driver.pending = [] → DeliversFrame stack driver packet →
        packetFooter ∈ packetBytes packet ∧
          LeftInDecodeBuffer packet driver.currentDecodeBuffer := by
  refine ⟨?_, fun driver hempty hdelivers => ⟨footer_mem_of_deliversFrame hknown hempty hdelivers,
    leftInDecodeBuffer_of_deliversFrame hempty hdelivers⟩⟩
  intro htransparent
  obtain ⟨buffer, hbuffer⟩ := exists_not_leftInDecodeBuffer hknown
  have hempty : Driver.pending { driverUninitialized with currentDecodeBuffer := buffer } = [] :=
    rfl
  exact hbuffer (leftInDecodeBuffer_of_deliversFrame hempty (htransparent _ hempty))

/-- A packet of type 0 and zero bytes. -/
theorem not_binaryTransparent_zero :
    ¬ BinaryTransparent (fun _ => .zero 185) (.zero 185) ∧
      ∀ driver : Driver, driver.pending = [] →
        DeliversFrame (fun _ => .zero 185) driver (.zero 185) →
        packetFooter ∈ packetBytes (.zero 185) ∧
          LeftInDecodeBuffer (.zero 185) driver.currentDecodeBuffer :=
  not_binaryTransparent (fun _ => .zero 185) (.zero 185) (by decide)

theorem binaryFrame_zero_not_delivered :
    obtainPacketLength (FsPacketUnion.type (.zero 185)).toNat = 145 ∧
      driverUninitialized.pending = [] ∧
      ¬ DeliversFrame (fun _ => .zero 185) driverUninitialized (.zero 185) := by
  refine ⟨by decide, rfl, fun hdelivers => ?_⟩
  have hmem : packetFooter ∈ packetBytes (.zero 185) :=
    footer_mem_of_deliversFrame (by decide) rfl hdelivers
  revert hmem
  decide

end Trifecta
