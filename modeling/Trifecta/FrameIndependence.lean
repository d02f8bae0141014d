/-
Whether what a Base64 frame delivers depends on the frames before it, which
leave their bytes in the decode buffer that all device handles share.
-/
import Trifecta.Base64Decode
import Trifecta.Packets

namespace Trifecta

open CText

/-- The string that `base64_to_packet` decodes for a payload. -/
def payloadText (payload : List UInt8) : List UInt8 :=
  decoderText payload

theorem decoderText_set (payload beyond : List UInt8) (footer : UInt8) :
    decoderText ((payload ++ footer :: beyond).set payload.length 0) = payloadText payload := by
  rw [List.set_append_right _ _ (Nat.le_refl _), Nat.sub_self, List.set_cons_zero, payloadText,
    decoderText, decoderText]
  by_cases hshort : payload.length < fsMaxDataLength
  · have hsplit : (payload ++ 0 :: beyond).take fsMaxDataLength =
        payload ++ 0 :: beyond.take (fsMaxDataLength - payload.length - 1) := by
      rw [List.take_append, List.take_of_length_le (Nat.le_of_lt hshort)]
      congr 1
      obtain ⟨room, hroom⟩ : ∃ room, fsMaxDataLength - payload.length = room + 1 :=
        ⟨fsMaxDataLength - payload.length - 1, by omega⟩
      rw [hroom, List.take_succ_cons, Nat.add_sub_cancel]
    rw [hsplit, cString_append_zero_cons, List.take_of_length_le (Nat.le_of_lt hshort)]
  · rw [List.take_append_of_le_length (Nat.le_of_not_lt hshort)]

/-- A payload is decoded into the front of the buffer, whose first bytes are
then taken for a packet. -/
theorem base64ToPacket_eq (driver : Driver) (payload : List UInt8) (footer : UInt8)
    (beyond : List UInt8) :
    base64ToPacket driver (payload ++ footer :: beyond) payload.length =
      (decodeText (payloadText payload) fsMaxPacketLength 0).map fun decoding =>
        let buffer := driver.currentDecodeBuffer.write 0 decoding.written
        let packet := packetInBuffer buffer
        if decoding.code ≠ 0 ∨ obtainPacketLength (FsPacketUnion.type packet).toNat = 0 then
          (-1, { driver with currentDecodeBuffer := buffer })
        else
          (0, (fsEnqueueIntoPacketQueue { driver with currentDecodeBuffer := buffer } packet).2)
    := by
  rw [base64ToPacket, fsBase64Decode_eq _ (Nat.le_refl _), decoderText_set]
  cases decodeText (payloadText payload) fsMaxPacketLength 0 with
  | none => rfl
  | some decoding =>
      simp only [Option.map_some]
      by_cases hcode : decoding.code ≠ 0
      · rw [if_pos hcode, if_pos (Or.inl hcode)]
      by_cases hnone : obtainPacketLength (FsPacketUnion.type (packetInBuffer
          (driver.currentDecodeBuffer.write 0 decoding.written))).toNat = 0
      · rw [if_neg hcode, if_pos (Nat.le_of_eq hnone), if_pos (Or.inr hnone)]
      · rw [if_neg hcode, if_neg (mt Nat.le_zero.1 hnone), if_neg (not_or.2 ⟨hcode, hnone⟩)]
        rfl

theorem base64ToPacket_of_decodable (driver : Driver) {payload : List UInt8} (footer : UInt8)
    (beyond : List UInt8) (hpayload : Decodable (payloadText payload)) :
    base64ToPacket driver (payload ++ footer :: beyond) payload.length =
      let buffer := driver.currentDecodeBuffer.write 0 (decodeQuads (payloadText payload))
      let packet := packetInBuffer buffer
      if obtainPacketLength (FsPacketUnion.type packet).toNat = 0 then
        some (-1, { driver with currentDecodeBuffer := buffer })
      else
        some (0, (fsEnqueueIntoPacketQueue { driver with currentDecodeBuffer := buffer }
          packet).2) := by
  rw [base64ToPacket_eq, decodeText_of_decodable hpayload, Option.map_some]
  simp only [ne_eq, not_true_eq_false, false_or]
  split_ifs <;> rfl

/-- Any other payload is refused, if decoding returns. -/
theorem base64ToPacket_of_not_decodable {driver : Driver} {payload : List UInt8}
    {footer : UInt8} {beyond : List UInt8} (hpayload : ¬ Decodable (payloadText payload))
    {result : Int × Driver}
    (hresult : base64ToPacket driver (payload ++ footer :: beyond) payload.length =
      some result) : result.1 = -1 ∧ result.2.enqueued = driver.enqueued := by
  rw [base64ToPacket_eq] at hresult
  obtain ⟨decoding, hdecode, rfl⟩ := Option.map_eq_some_iff.1 hresult
  have hcode : decoding.code ≠ 0 := fun hzero => hpayload
    (decodable_of_decodeText hdecode hzero)
  simp only [hcode, ne_eq, not_false_eq_true, true_or, ↓reduceIte, and_self]

theorem read_packetInBuffer {buffer : Block fsMaxPacketLength} {bytes : List UInt8}
    (hbytes : bytes.length ≤ fsMaxPacketLength) :
    (packetInBuffer (buffer.write 0 bytes)).bytes =
      (bytes ++ buffer.bytes.drop bytes.length).take 185 := by
  change ((buffer.write 0 bytes).bytes.drop 0).take 185 = _
  rw [Block.bytes_write (by rw [Nat.zero_add]; exact hbytes), List.drop_zero, List.take_zero,
    List.nil_append, Nat.zero_add]

/-- A frame that reached `base64_to_packet` earlier, on some device handle. -/
structure ReceivedFrame where
  device : FsDeviceInfo
  segment : List UInt8
  length : Nat

/-- The shared decode buffer after earlier frames, if decoding returned on all
of them. -/
def bufferAfter (frames : List ReceivedFrame) : Option (Block fsMaxPacketLength) :=
  frames.foldlM (fun buffer frame =>
    (base64ToPacket ⟨frame.device, buffer, []⟩ frame.segment frame.length).map
      fun result => result.2.currentDecodeBuffer) (Block.zero fsMaxPacketLength)

/-- Whatever frames came before, and whatever lies behind the payload in
memory, the return code and the bytes of the enqueued packet are the same, and
only packets that the payload holds whole are enqueued. -/
structure FrameIndependent (payload : List UInt8) : Prop where
  sameDelivery : ∀ (first second : Driver) (firstFrames secondFrames : List ReceivedFrame),
    bufferAfter firstFrames = some first.currentDecodeBuffer →
    bufferAfter secondFrames = some second.currentDecodeBuffer →
    ∀ (firstFooter secondFooter : UInt8) (firstBeyond secondBeyond : List UInt8)
      (firstResult secondResult : Int × Driver),
    base64ToPacket first (payload ++ firstFooter :: firstBeyond) payload.length =
      some firstResult →
    base64ToPacket second (payload ++ secondFooter :: secondBeyond) payload.length =
      some secondResult →
    firstResult.1 = secondResult.1 ∧
      (firstResult.1 = 0 → ∃ firstPacket secondPacket : FsPacketUnion,
        firstResult.2.enqueued = first.enqueued ++ [firstPacket] ∧
        secondResult.2.enqueued = second.enqueued ++ [secondPacket] ∧
        firstPacket.read 0 (obtainPacketLength (FsPacketUnion.type firstPacket).toNat) =
          secondPacket.read 0 (obtainPacketLength (FsPacketUnion.type firstPacket).toNat))
  neverShort : ∀ (driver : Driver) (frames : List ReceivedFrame),
    bufferAfter frames = some driver.currentDecodeBuffer →
    ∀ (footer : UInt8) (beyond : List UInt8) (after : Driver),
    base64ToPacket driver (payload ++ footer :: beyond) payload.length = some (0, after) →
    ∃ packet : FsPacketUnion, after.enqueued = driver.enqueued ++ [packet] ∧
      obtainPacketLength (FsPacketUnion.type packet).toNat ≤
        (decodeQuads (payloadText payload)).length

/-- A payload that decodes to at least one byte and to the whole packet that
its first byte announces, or that does not decode, or that announces none. -/
def HoldsPacket (payload : List UInt8) : Prop :=
  Decodable (payloadText payload) →
    ∃ type rest, decodeQuads (payloadText payload) = type :: rest ∧
      obtainPacketLength type.toNat ≤ (decodeQuads (payloadText payload)).length

theorem length_decodeQuads_le {text : List UInt8} (htext : Decodable text) :
    (decodeQuads text).length ≤ fsMaxPacketLength := by
  rw [length_decodeQuads]
  exact htext.2.2

/-- The first byte of what was decoded is the type of the packet. -/
theorem type_packetInBuffer {buffer : Block fsMaxPacketLength} {type : UInt8}
    {rest : List UInt8} (hbytes : (type :: rest).length ≤ fsMaxPacketLength) :
    FsPacketUnion.type (packetInBuffer (buffer.write 0 (type :: rest))) = type := by
  rw [FsPacketUnion.type, read_packetInBuffer hbytes]
  rfl

/-- The part of the packet that was decoded does not depend on the buffer. -/
theorem read_packetInBuffer_of_le {buffer : Block fsMaxPacketLength} {bytes : List UInt8}
    (hbytes : bytes.length ≤ fsMaxPacketLength) {length : Nat} (hlength : length ≤ bytes.length)
    (hpacket : length ≤ 185) :
    (packetInBuffer (buffer.write 0 bytes)).read 0 length = bytes.take length := by
  rw [Block.read, List.drop_zero, read_packetInBuffer hbytes, List.take_take,
    Nat.min_eq_left hpacket, List.take_append_of_le_length hlength]

theorem bufferAfter_singleton (device : FsDeviceInfo) {payload : List UInt8} (footer : UInt8)
    (hpayload : Decodable (payloadText payload)) :
    bufferAfter [⟨device, payload ++ [footer], payload.length⟩] =
      some ((Block.zero fsMaxPacketLength).write 0 (decodeQuads (payloadText payload))) := by
  have hresult := base64ToPacket_of_decodable
    ⟨device, Block.zero fsMaxPacketLength, []⟩ footer [] hpayload
  simp only [bufferAfter, List.foldlM_cons, List.foldlM_nil, hresult]
  split <;> rfl

/-- A frame of nothing but the byte 255 fills the part of the buffer that
packets are read from. -/
theorem exists_bufferAfter_filled :
    ∃ (frames : List ReceivedFrame) (buffer : Block fsMaxPacketLength),
      bufferAfter frames = some buffer ∧ ∀ index < 189, buffer.bytes[index]? = some 255 := by
  have hdata : (List.replicate 189 (255 : UInt8)).length = 189 := List.length_replicate
  generalize hvalue : List.replicate 189 (255 : UInt8) = data at hdata
  obtain ⟨hdecodable, htext⟩ := @decodable_encodeTriples data (by omega)
  obtain ⟨zeros, hquads⟩ := decodeQuads_encodeTriples data
  have hpayload : Decodable (payloadText (encodeTriples data)) := by
    rw [payloadText, htext]
    exact hdecodable
  refine ⟨_, _, bufferAfter_singleton fsDeviceInfoUninitialized 33 hpayload, ?_⟩
  intro index hindex
  have hlength := length_decodeQuads_le hdecodable
  rw [payloadText, htext, Block.bytes_write (by rw [Nat.zero_add]; exact hlength), hquads,
    List.take_zero, List.nil_append, List.append_assoc,
    List.getElem?_append_left (by omega), ← hvalue, List.getElem?_replicate_of_lt hindex]

/-- A payload that holds its packet delivers the same whatever the buffer
held. -/
theorem frameIndependent_of_holdsPacket {payload : List UInt8} (hholds : HoldsPacket payload) :
    FrameIndependent payload := by
  by_cases hdecodable : Decodable (payloadText payload)
  · obtain ⟨type, rest, hbytes, hlength⟩ := hholds hdecodable
    have hroom := length_decodeQuads_le hdecodable
    rw [hbytes] at hlength hroom
    have hresult : ∀ (driver : Driver) (footer : UInt8) (beyond : List UInt8),
        base64ToPacket driver (payload ++ footer :: beyond) payload.length =
          if obtainPacketLength type.toNat = 0 then
            some (-1, { driver with
              currentDecodeBuffer := driver.currentDecodeBuffer.write 0 (type :: rest) })
          else some (0, (fsEnqueueIntoPacketQueue
            { driver with
              currentDecodeBuffer := driver.currentDecodeBuffer.write 0 (type :: rest) }
            (packetInBuffer (driver.currentDecodeBuffer.write 0 (type :: rest)))).2) := by
      intro driver footer beyond
      rw [base64ToPacket_of_decodable driver footer beyond hdecodable, hbytes]
      simp only [type_packetInBuffer hroom]
    have hread : ∀ buffer : Block fsMaxPacketLength,
        (packetInBuffer (buffer.write 0 (type :: rest))).read 0 (obtainPacketLength type.toNat) =
          (type :: rest).take (obtainPacketLength type.toNat) := fun buffer =>
      read_packetInBuffer_of_le hroom hlength (obtainPacketLength_le _)
    constructor
    · intro first second _ _ _ _ _ _ _ _ firstResult secondResult hfirst hsecond
      rw [hresult] at hfirst hsecond
      split at hfirst
      · next hzero =>
          rw [if_pos hzero] at hsecond
          obtain rfl := Option.some.inj hfirst
          obtain rfl := Option.some.inj hsecond
          exact ⟨rfl, fun hcode => absurd hcode (by simp)⟩
      · next hzero =>
          rw [if_neg hzero] at hsecond
          obtain rfl := Option.some.inj hfirst
          obtain rfl := Option.some.inj hsecond
          refine ⟨rfl, fun _ => ⟨_, _, rfl, rfl, ?_⟩⟩
          rw [type_packetInBuffer hroom, hread, hread]
    · intro driver _ _ footer beyond after hafter
      rw [hresult] at hafter
      split at hafter
      · exact absurd (congrArg Prod.fst (Option.some.inj hafter)) (by simp)
      · obtain rfl := congrArg Prod.snd (Option.some.inj hafter)
        refine ⟨_, rfl, ?_⟩
        rw [type_packetInBuffer hroom, hbytes]
        exact hlength
  · constructor
    · intro first second _ _ _ _ _ _ _ _ firstResult secondResult hfirst hsecond
      have hone := (base64ToPacket_of_not_decodable hdecodable hfirst).1
      have htwo := (base64ToPacket_of_not_decodable hdecodable hsecond).1
      exact ⟨hone.trans htwo.symm, fun hcode => absurd (hone.symm.trans hcode) (by decide)⟩
    · intro driver _ _ footer beyond after hafter
      have hone := (base64ToPacket_of_not_decodable hdecodable hafter).1
      exact absurd hone (by simp)

/-- Otherwise two histories that differ in the bytes behind the decoded ones
are told apart. -/
theorem holdsPacket_of_frameIndependent {payload : List UInt8}
    (hindependent : FrameIndependent payload) : HoldsPacket payload := by
  intro hdecodable
  obtain ⟨frames, filled, hfilled, hbyte⟩ := exists_bufferAfter_filled
  have hdelivery := hindependent.sameDelivery
    ⟨fsDeviceInfoUninitialized, Block.zero fsMaxPacketLength, []⟩
    ⟨fsDeviceInfoUninitialized, filled, []⟩ [] frames rfl hfilled 33 33 [] []
  rw [base64ToPacket_of_decodable _ 33 [] hdecodable,
    base64ToPacket_of_decodable _ 33 [] hdecodable] at hdelivery
  have hroom := length_decodeQuads_le hdecodable
  cases hbytes : decodeQuads (payloadText payload) with
  | nil =>
      rw [hbytes] at hdelivery
      have hzeroType : FsPacketUnion.type (packetInBuffer
          ((Block.zero fsMaxPacketLength).write 0 [])) = 0 := by
        rw [FsPacketUnion.type, read_packetInBuffer (by simp)]
        rfl
      have hfilledType : FsPacketUnion.type (packetInBuffer (filled.write 0 [])) = 255 := by
        rw [FsPacketUnion.type, read_packetInBuffer (by simp), List.nil_append, List.length_nil,
          List.drop_zero, List.getElem?_take_of_lt (by decide), hbyte 0 (by decide)]
        rfl
      simp only [hzeroType, hfilledType] at hdelivery
      exact absurd (hdelivery _ _ rfl rfl).1 (by simp)
  | cons type rest =>
      refine ⟨type, rest, rfl, ?_⟩
      by_contra hshort
      rw [hbytes] at hdelivery hroom
      simp only [type_packetInBuffer hroom] at hdelivery
      have hpositive : obtainPacketLength type.toNat ≠ 0 := by omega
      rw [if_neg hpositive, if_neg hpositive] at hdelivery
      obtain ⟨firstPacket, secondPacket, hfirst, hsecond, hread⟩ :=
        (hdelivery _ _ rfl rfl).2 rfl
      obtain rfl := List.singleton_inj.1 hfirst
      obtain rfl := List.singleton_inj.1 hsecond
      rw [type_packetInBuffer hroom] at hread
      have hle := obtainPacketLength_le type.toNat
      have hindex := congrArg (fun bytes => bytes[(type :: rest).length]?) hread
      simp only [Block.read, List.drop_zero, read_packetInBuffer hroom] at hindex
      rw [List.getElem?_take_of_lt (by omega), List.getElem?_take_of_lt (by omega),
        List.getElem?_take_of_lt (by omega), List.getElem?_take_of_lt (by omega),
        List.getElem?_append_right (Nat.le_refl _), List.getElem?_append_right (Nat.le_refl _),
        Nat.sub_self, List.getElem?_drop, List.getElem?_drop, Nat.add_zero,
        hbyte _ (by omega)] at hindex
      have hzero : (Block.zero fsMaxPacketLength).bytes[(type :: rest).length]? = some 0 :=
        List.getElem?_replicate_of_lt (by unfold fsMaxPacketLength; omega)
      rw [hzero] at hindex
      exact absurd hindex (by decide)

/-- What a frame delivers depends on that frame alone exactly when its payload
holds the whole packet it announces, or delivers nothing. -/
theorem frameIndependent_iff (payload : List UInt8) :
    FrameIndependent payload ↔ HoldsPacket payload := by
  constructor
  · exact holdsPacket_of_frameIndependent
  · exact frameIndependent_of_holdsPacket

/-- Four characters announce a packet of 145 bytes and carry three of them. -/
theorem not_frameIndependent_one_quad : ¬ FrameIndependent [65, 65, 65, 65] := by
  intro hindependent
  have htext : payloadText [65, 65, 65, 65] = [65, 65, 65, 65] := by decide
  have hdecodable : Decodable (payloadText [65, 65, 65, 65]) := by
    rw [htext]
    refine ⟨?_, by decide, by decide⟩
    intro c hc
    simp only [List.mem_cons, List.not_mem_nil, or_false, or_self] at hc
    rw [hc]
    decide
  obtain ⟨type, rest, hbytes, hlength⟩ := holdsPacket_of_frameIndependent hindependent hdecodable
  have hquads : decodeQuads (payloadText [65, 65, 65, 65]) = [0, 0, 0] := by
    rw [htext]
    decide
  rw [hquads] at hbytes hlength
  obtain ⟨rfl, _⟩ := List.cons.inj hbytes
  exact absurd hlength (by decide)

end Trifecta
