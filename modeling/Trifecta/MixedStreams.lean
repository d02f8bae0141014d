/-
Packets in Base64 frames with commands between them, as a device sends both over
one serial line: in whatever chunks they arrive, no command costs a packet.
-/
import Trifecta.PacketHandover

namespace Trifecta

open CText Segments

/-- What a device sends: a packet of a known type in a frame, or a command without
a delimiter inside. -/
inductive DeviceMessage
  | packet (sent : FsPacketUnion)
      (known : obtainPacketLength (FsPacketUnion.type sent).toNat ≠ 0)
  | command (text : List UInt8) (whole : cmdTerminator ∉ text) (plain : PlainText text)

namespace DeviceMessage

/-- The message without the delimiter that ends it. -/
def body : DeviceMessage → List UInt8
  | .packet sent _ => packetHeader :: encodeTriples (packetBytes sent)
  | .command text _ _ => text

def delimiter : DeviceMessage → UInt8
  | .packet _ _ => packetFooter
  | .command _ _ _ => cmdTerminator

def bytes (message : DeviceMessage) : List UInt8 :=
  message.body ++ [message.delimiter]

def packet? : DeviceMessage → Option FsPacketUnion
  | .packet sent _ => some sent
  | .command _ _ _ => none

theorem bytes_packet {sent : FsPacketUnion}
    (hknown : obtainPacketLength (FsPacketUnion.type sent).toNat ≠ 0) :
    (DeviceMessage.packet sent hknown).bytes = base64Frame sent :=
  (base64Frame_eq sent).symm

/-- Neither a frame nor a command ends before its last byte. -/
theorem delimiters_not_mem_body (message : DeviceMessage) :
    packetFooter ∉ message.body ∧ cmdTerminator ∉ message.body := by
  cases message with
  | packet sent _ =>
      have hcoded : ∀ byte, isBase64 byte = false → byte ∉ encodeTriples (packetBytes sent) :=
        fun byte hbyte => not_mem_encodeTriples byte hbyte _
      simp only [body, List.mem_cons, not_or]
      exact ⟨⟨by decide, hcoded _ (by decide)⟩, by decide, hcoded _ (by decide)⟩
  | command text hwhole hplain => exact ⟨hplain.1, hwhole⟩

end DeviceMessage

def messageStream (messages : List DeviceMessage) : List UInt8 :=
  messages.flatMap DeviceMessage.bytes

def packetsOf (messages : List DeviceMessage) : List FsPacketUnion :=
  messages.filterMap DeviceMessage.packet?

theorem messageStream_append (front back : List DeviceMessage) :
    messageStream (front ++ back) = messageStream front ++ messageStream back :=
  List.flatMap_append

theorem packetsOf_append (front back : List DeviceMessage) :
    packetsOf (front ++ back) = packetsOf front ++ packetsOf back :=
  List.filterMap_append

theorem messageStream_command {text : List UInt8} (hwhole : cmdTerminator ∉ text)
    (hplain : PlainText text) (later : List DeviceMessage) :
    messageStream (.command text hwhole hplain :: later) =
      text ++ cmdTerminator :: messageStream later := by
  simp [messageStream, DeviceMessage.bytes, DeviceMessage.body, DeviceMessage.delimiter]

theorem plainText_messageStream {commands : List DeviceMessage}
    (hcommands : packetsOf commands = []) : PlainText (messageStream commands) := by
  induction commands with
  | nil => exact ⟨List.not_mem_nil, fun _ => List.not_mem_nil⟩
  | cons message later ih =>
      cases message with
      | packet sent hknown => exact absurd hcommands (by simp [packetsOf, DeviceMessage.packet?])
      | command text hwhole hplain =>
          obtain ⟨hfooter, hheader⟩ := ih hcommands
          rw [messageStream_command]
          refine ⟨?_, fun kind => ?_⟩
          · simp [hplain.1, hfooter, packetFooter, cmdTerminator]
          · simp [hplain.2 kind, hheader kind, header_ne_terminator kind]

/-- Either no frame is left, or there are only commands before the next one. -/
theorem nextPacket_cases (messages : List DeviceMessage) :
    packetsOf messages = [] ∨
      ∃ commands packet hknown later, packetsOf commands = [] ∧
        messages = commands ++ .packet packet hknown :: later := by
  induction messages with
  | nil => exact Or.inl rfl
  | cons message later ih =>
      cases message with
      | packet sent hknown => exact Or.inr ⟨[], sent, hknown, later, rfl, rfl⟩
      | command text hwhole hplain =>
          rcases ih with hnone | ⟨commands, packet, hknown, rest, hcommands, rfl⟩
          · exact Or.inl hnone
          · exact Or.inr ⟨.command text hwhole hplain :: commands, packet, hknown, rest,
              hcommands, rfl⟩

/-- A beginning of a stream is some whole messages and an unfinished one. -/
theorem prefix_of_deviceMessages {messages : List DeviceMessage} {start : List UInt8}
    (hstart : start <+: messageStream messages) :
    ∃ done rest tail, messages = done ++ rest ∧ start = messageStream done ++ tail ∧
      packetFooter ∉ tail ∧ cmdTerminator ∉ tail := by
  induction messages generalizing start with
  | nil =>
      obtain rfl := List.prefix_nil.1 hstart
      exact ⟨[], [], [], rfl, rfl, List.not_mem_nil, List.not_mem_nil⟩
  | cons message later ih =>
      rw [messageStream, List.flatMap_cons] at hstart
      by_cases hwhole : message.bytes.length ≤ start.length
      · obtain ⟨more, rfl⟩ :=
          List.prefix_of_prefix_length_le (List.prefix_append _ _) hstart hwhole
        obtain ⟨done, rest, tail, rfl, rfl, htail⟩ := ih ((List.prefix_append_right_inj _).1 hstart)
        exact ⟨message :: done, rest, tail, rfl,
          by rw [messageStream, messageStream, List.flatMap_cons, List.append_assoc], htail⟩
      · -- what is cut short has lost its delimiter
        rw [DeviceMessage.bytes, List.append_assoc] at hstart
        rw [DeviceMessage.bytes, List.length_append, List.length_singleton] at hwhole
        have hcut : start <+: message.body :=
          List.prefix_of_prefix_length_le hstart (List.prefix_append _ _) (by omega)
        obtain ⟨hfooter, hterminator⟩ := message.delimiters_not_mem_body
        exact ⟨[], message :: later, start, rfl, rfl, fun hmem => hfooter (hcut.subset hmem),
          fun hmem => hterminator (hcut.subset hmem)⟩

section Rounds

variable (stack : Nat → FsPacketUnion) {driver : Driver}

/-- Decoding the text of a packet hands that packet on. -/
theorem base64ToPacket_encoded (driver : Driver) {packet : FsPacketUnion}
    (hknown : obtainPacketLength (FsPacketUnion.type packet).toNat ≠ 0) (beyond : List UInt8) :
    ∃ decoded received,
      base64ToPacket driver (encodeTriples (packetBytes packet) ++ packetFooter :: beyond)
          (encodeTriples (packetBytes packet)).length = some decoded ∧
      HandsOn driver decoded.2 [received] ∧ SamePacket packet received := by
  have hlength := length_packetBytes packet
  have hle := obtainPacketLength_le (FsPacketUnion.type packet).toNat
  obtain ⟨hdecodable, htext⟩ := @decodable_encodeTriples (packetBytes packet) (by omega)
  obtain ⟨zeros, hquads⟩ := decodeQuads_encodeTriples (packetBytes packet)
  have hroom := length_decodeQuads_le hdecodable
  obtain ⟨rest, hbytes⟩ := type_of_packetBytes hknown
  -- what is decoded starts with the packet's bytes, its type first
  have htype : FsPacketUnion.type (packetInBuffer (driver.currentDecodeBuffer.write 0
      (decodeQuads (encodeTriples (packetBytes packet))))) = FsPacketUnion.type packet := by
    rw [hquads, hbytes, List.cons_append] at hroom ⊢
    exact type_packetInBuffer hroom
  have hcall := @base64ToPacket_of_decodable driver (encodeTriples (packetBytes packet))
    packetFooter beyond (by rw [payloadText, htext]; exact hdecodable)
  rw [payloadText, htext] at hcall
  simp only [htype, if_neg hknown] at hcall
  refine ⟨_, packetInBuffer (driver.currentDecodeBuffer.write 0
    (decodeQuads (encodeTriples (packetBytes packet)))), hcall, ?_, ?_⟩
  · have hdecoded : ∀ buffer, HandsOn driver { driver with currentDecodeBuffer := buffer } [] :=
      fun buffer => handsOn_of_sinks_eq rfl
    exact (hdecoded _).trans (handsOn_fsEnqueueIntoPacketQueue _ (by rw [htype]; exact hknown))
  · have hread := @read_packetInBuffer_of_le driver.currentDecodeBuffer
      (decodeQuads (encodeTriples (packetBytes packet))) hroom
      (obtainPacketLength (FsPacketUnion.type packet).toNat)
      (by rw [hquads, List.length_append]; omega) hle
    rw [hquads, ← hlength, List.take_left, hlength, ← hquads] at hread
    exact hread

/-- A frame is delivered and taken off, with the commands that wait before it. -/
theorem serialRound_packet {front : List UInt8} (hfront : PlainText front)
    {packet : FsPacketUnion}
    (hknown : obtainPacketLength (FsPacketUnion.type packet).toNat ≠ 0) {post : List UInt8}
    (hpending : driver.pending = front ++ base64Frame packet ++ post) :
    ∃ next received, serialRound stack driver = some (.again next) ∧ next.pending = post ∧
      HandsOn driver next [received] ∧ SamePacket packet received := by
  have hcoded : ∀ byte, isBase64 byte = false → byte ∉ encodeTriples (packetBytes packet) :=
    fun byte hbyte => not_mem_encodeTriples byte hbyte _
  have hcontent : driver.pending =
      front ++ packetHeader :: encodeTriples (packetBytes packet) ++ packetFooter :: post := by
    rw [hpending, base64Frame_eq]
    simp
  have hbinary : packetHeaderV2 ∉ front ++ packetHeader :: encodeTriples (packetBytes packet) := by
    rw [List.mem_append, List.mem_cons, not_or, not_or]
    exact ⟨hfront.2 .binary, by decide, hcoded _ (by decide)⟩
  obtain ⟨decoded, received, hcall, hhands, hsame⟩ := base64ToPacket_encoded driver hknown post
  have hround := @serialRound_base64 stack driver _ _ _ hcontent hfront.1
    (hcoded _ (by decide)) (hcoded _ (by decide)) hbinary
  rw [hcall, Option.map_some] at hround
  refine ⟨_, received, hround, ?_, ?_, hsame⟩
  · exact serialRound_pending_base64 hcontent hfront.1 (hcoded _ (by decide))
      (hcoded _ (by decide)) hbinary hround
  · exact hhands.trans (handsOn_of_sinks_eq rfl)

/-- Without a frame behind it, a command is handled and taken off. -/
theorem serialRound_text {text post : List UInt8} (htext : cmdTerminator ∉ text)
    (hfooter : packetFooter ∉ text ++ cmdTerminator :: post)
    (hpending : driver.pending = text ++ cmdTerminator :: post) :
    ∃ next, serialRound stack driver = some (.again next) ∧ next.pending = post ∧
      HandsOn driver next [] := by
  have hnoFrame := noFrame_of_not_mem hfooter
  have hround := @serialRound_command stack driver _ _ hpending htext hnoFrame
  obtain ⟨next, hnext, hpost⟩ :=
    @serialRound_pending_command stack driver _ _ hpending htext hnoFrame
  obtain rfl := SerialRound.again.inj (Option.some.inj (hround.symm.trans hnext))
  refine ⟨_, hround, hpost, ?_⟩
  exact (handsOn_fsHandleReceivedCommands driver driver.pending).trans (handsOn_of_sinks_eq rfl)

/-- What a round does with whole messages and an unfinished one: it takes some of
the messages off, or there is none left. -/
theorem serialRound_deviceMessages (messages : List DeviceMessage) {tail : List UInt8}
    (hfooter : packetFooter ∉ tail) (hterminator : cmdTerminator ∉ tail)
    (hpending : driver.pending = messageStream messages ++ tail) :
    (messages = [] ∧ Stopped driver ∧
        ∃ code, serialRound stack driver = some (.returned code driver)) ∨
      ∃ taken later next received, messages = taken ++ later ∧ taken ≠ [] ∧
        serialRound stack driver = some (.again next) ∧
        next.pending = messageStream later ++ tail ∧ HandsOn driver next received ∧
        List.Forall₂ SamePacket (packetsOf taken) received := by
  rcases nextPacket_cases messages with hnone | ⟨commands, packet, hknown, later, hcommands, rfl⟩
  · cases messages with
    | nil =>
        rw [messageStream, List.flatMap_nil, List.nil_append] at hpending
        have hnoFrame : NoFrame driver.pending := noFrame_of_not_mem (hpending ▸ hfooter)
        rcases serialRound_of_noFrame stack hnoFrame with
          ⟨hstopped, hround⟩ | ⟨text, post, _, _, hsplit, _⟩
        · exact Or.inl ⟨rfl, hstopped, hround⟩
        · rw [← hpending, hsplit] at hterminator
          simp at hterminator
    | cons message later =>
        cases message with
        | packet sent hknown => exact absurd hnone (by simp [packetsOf, DeviceMessage.packet?])
        | command text hwhole hplain =>
            have hplainText := plainText_messageStream hnone
            rw [messageStream_command] at hpending hplainText
            rw [List.append_assoc, List.cons_append] at hpending
            have hnoFooter :
                packetFooter ∉ text ++ cmdTerminator :: (messageStream later ++ tail) := by
              rw [← List.cons_append, ← List.append_assoc, List.mem_append, not_or]
              exact ⟨hplainText.1, hfooter⟩
            obtain ⟨next, hround, hpost, hhands⟩ :=
              serialRound_text stack hwhole hnoFooter hpending
            exact Or.inr ⟨[.command text hwhole hplain], later, next, [], rfl,
              List.cons_ne_nil _ _, hround, hpost, hhands, .nil⟩
  · have hstream : messageStream (commands ++ .packet packet hknown :: later) =
        messageStream commands ++ base64Frame packet ++ messageStream later := by
      rw [messageStream_append, List.append_assoc, ← DeviceMessage.bytes_packet hknown]
      rfl
    rw [hstream, List.append_assoc] at hpending
    obtain ⟨next, received, hround, hpost, hhands, hsame⟩ :=
      serialRound_packet stack (plainText_messageStream hcommands) hknown hpending
    refine Or.inr ⟨commands ++ [.packet packet hknown], later, next, [received], by simp, by simp,
      hround, hpost, hhands, ?_⟩
    rw [packetsOf_append, hcommands, List.nil_append]
    exact .cons hsame .nil

/-- The loop carries the messages off and stops at an unfinished rest. -/
theorem processSerialLoop_deviceMessages (messages : List DeviceMessage) {tail : List UInt8}
    (hfooter : packetFooter ∉ tail) (hterminator : cmdTerminator ∉ tail) (fuel : Nat)
    (driver : Driver) (hpending : driver.pending = messageStream messages ++ tail)
    (hfuel : driver.pending.length < fuel) :
    ∃ code after delivered, processSerialLoop stack fuel driver = some (code, after) ∧
      after.pending = tail ∧ HandsOn driver after delivered ∧
      List.Forall₂ SamePacket (packetsOf messages) delivered := by
  induction fuel generalizing messages driver with
  | zero => exact absurd hfuel (Nat.not_lt_zero _)
  | succ fuel ih =>
      rcases serialRound_deviceMessages stack messages hfooter hterminator hpending with
        ⟨rfl, _, code, hround⟩ |
        ⟨taken, later, next, early, rfl, _, hround, hnext, hearly, hfirst⟩
      · refine ⟨code, driver, [], ?_, hpending, .refl driver, .nil⟩
        rw [processSerialLoop, hround]
      · have hprogress := serialRound_progress stack driver next hround
        obtain ⟨code, after, delivered, hloop, htail, hrest, hall⟩ :=
          ih later next hnext (by omega)
        refine ⟨code, after, early ++ delivered, ?_, htail, hearly.trans hrest, ?_⟩
        · rw [processSerialLoop, hround]
          exact hloop
        · rw [packetsOf_append]
          exact List.rel_append hfirst hall

/-- One call on a chunk that goes on with a stream of messages. -/
theorem fsDeviceParsePacket_deviceMessages {chunk : List UInt8} {messages : List DeviceMessage}
    {tail : List UInt8} (hfooter : packetFooter ∉ tail) (hterminator : cmdTerminator ∉ tail)
    (hcontent : driver.pending ++ chunk = messageStream messages ++ tail)
    (hroom : driver.pending.length + chunk.length ≤ fsMaxDataLength) (hchunk : chunk ≠ []) :
    ∃ after delivered,
      (fsDeviceParsePacket stack driver chunk .uart).map Prod.snd = some after ∧
      after.pending = tail ∧ HandsOn driver after delivered ∧
      List.Forall₂ SamePacket (packetsOf messages) delivered := by
  obtain ⟨code, after, delivered, hloop, htail, hhands, hall⟩ :=
    processSerialLoop_deviceMessages stack messages hfooter hterminator
      ((driver.receive chunk).pending.length + 1) (driver.receive chunk)
      (by rw [pending_receive_of_room hroom, hcontent]) (Nat.lt_succ_self _)
  have hreceived : HandsOn driver (driver.receive chunk) [] := handsOn_of_sinks_eq rfl
  refine ⟨after, delivered, ?_, htail, hreceived.trans hhands, hall⟩
  rw [fsDeviceParsePacket_uart stack driver hchunk, fsDeviceProcessPacketsSerial_eq, hloop]
  rfl

/-- After some bytes of a stream of messages: the packets of the finished ones have been
delivered, and the unfinished one waits. -/
def Streamed (before after : Driver) (messages : List DeviceMessage) (arrived : List UInt8) :
    Prop :=
  ∃ delivered done rest, messages = done ++ rest ∧ arrived = messageStream done ++ after.pending ∧
    packetFooter ∉ after.pending ∧ cmdTerminator ∉ after.pending ∧
    HandsOn before after delivered ∧ List.Forall₂ SamePacket (packetsOf done) delivered

theorem streamed_start (messages : List DeviceMessage) (hempty : driver.pending = []) :
    Streamed driver driver messages [] := by
  refine ⟨[], [], messages, rfl, ?_, ?_, ?_, .refl driver, .nil⟩
  · rw [hempty]
    rfl
  · rw [hempty]
    exact List.not_mem_nil
  · rw [hempty]
    exact List.not_mem_nil

/-- One more read of the stream, if it has room. -/
theorem Streamed.chunk {before : Driver} {messages : List DeviceMessage}
    {arrived chunk : List UInt8} (hstreamed : Streamed before driver messages arrived)
    (hstream : arrived ++ chunk <+: messageStream messages)
    (hroom : driver.pending.length + chunk.length ≤ fsMaxDataLength) :
    ∃ after, (fsDeviceParsePacket stack driver chunk .uart).map Prod.snd = some after ∧
      Streamed before after messages (arrived ++ chunk) := by
  by_cases hchunk : chunk = []
  · subst hchunk
    rw [List.append_nil, fsDeviceParsePacket_nil]
    exact ⟨driver, rfl, hstreamed⟩
  · obtain ⟨delivered, done, rest, rfl, hdone, _, _, hhands, hall⟩ := hstreamed
    have hmore : driver.pending ++ chunk <+: messageStream rest := by
      rw [hdone, messageStream_append, List.append_assoc] at hstream
      exact (List.prefix_append_right_inj _).1 hstream
    obtain ⟨next, left, tail, rfl, hcontent, hfooter, hterminator⟩ :=
      prefix_of_deviceMessages hmore
    obtain ⟨after, received, hcall, rfl, hstep, hsame⟩ :=
      fsDeviceParsePacket_deviceMessages stack hfooter hterminator hcontent hroom hchunk
    refine ⟨after, hcall, delivered ++ received, done ++ next, left,
      (List.append_assoc _ _ _).symm, ?_, hfooter, hterminator, hhands.trans hstep, ?_⟩
    · rw [hdone, List.append_assoc, hcontent, messageStream_append, List.append_assoc]
    · rw [packetsOf_append]
      exact List.rel_append hall hsame

/-- At the end of the stream nothing is left over: an unfinished message would need its
delimiter. -/
theorem Streamed.whole {before after : Driver} {messages : List DeviceMessage}
    (hstreamed : Streamed before after messages (messageStream messages)) :
    ∃ delivered, List.Forall₂ SamePacket (packetsOf messages) delivered ∧
      HandsOn before after delivered ∧ after.pending = [] := by
  obtain ⟨delivered, done, rest, rfl, hdone, hfooter, hterminator, hhands, hall⟩ := hstreamed
  have hpending : after.pending = messageStream rest := by
    rw [messageStream_append] at hdone
    exact (List.append_cancel_left hdone).symm
  cases rest with
  | nil =>
      rw [List.append_nil]
      exact ⟨delivered, hall, hhands, hpending⟩
  | cons message later =>
      rw [hpending, messageStream, List.flatMap_cons, DeviceMessage.bytes] at hfooter hterminator
      cases message with
      | packet sent hknown => simp [DeviceMessage.delimiter] at hfooter
      | command text hwhole hplain => simp [DeviceMessage.delimiter] at hterminator

end Rounds

theorem parseRun_streamed (stack : Nat → FsPacketUnion) (driver : Driver)
    (messages : List DeviceMessage) (hempty : driver.pending = [])
    (chunks : List (List UInt8)) (hstream : chunks.flatten <+: messageStream messages)
    (hroom : ∀ front chunk, front ++ [chunk] <+: chunks →
      ∀ before, parseRun stack driver front = some before →
        before.pending.length + chunk.length ≤ fsMaxDataLength) :
    ∃ after, parseRun stack driver chunks = some after ∧
      Streamed driver after messages chunks.flatten := by
  induction chunks using List.reverseRecOn with
  | nil => exact ⟨driver, rfl, streamed_start messages hempty⟩
  | append_singleton chunks chunk ih =>
      have hflatten : (chunks ++ [chunk]).flatten = chunks.flatten ++ chunk := by simp
      rw [hflatten] at hstream ⊢
      obtain ⟨before, hbefore, hstreamed⟩ := ih ((List.prefix_append _ _).trans hstream)
        fun front other hfront => hroom front other (hfront.trans (List.prefix_append _ _))
      obtain ⟨after, hcall, hafter⟩ :=
        hstreamed.chunk stack hstream (hroom chunks chunk List.prefix_rfl before hbefore)
      refine ⟨after, ?_, hafter⟩
      rw [parseRun_concat, hbefore, Option.bind_some, hcall]

/-- A stream of packets and commands, however it is cut into chunks, delivers
every packet once and in order to the queue, to the last packet and to the saver,
and leaves nothing behind. -/
theorem parseRun_mixedStream (stack : Nat → FsPacketUnion) (driver : Driver)
    (messages : List DeviceMessage) (chunks : List (List UInt8))
    (hempty : driver.pending = []) (hstream : chunks.flatten = messageStream messages)
    (hroom : ∀ front chunk, front ++ [chunk] <+: chunks →
      ∀ before, parseRun stack driver front = some before →
        before.pending.length + chunk.length ≤ fsMaxDataLength) :
    ∃ after delivered, parseRun stack driver chunks = some after ∧
      List.Forall₂ SamePacket (packetsOf messages) delivered ∧
      HandsOn driver after delivered ∧ after.pending = [] := by
  obtain ⟨after, hrun, hstreamed⟩ := parseRun_streamed stack driver messages hempty chunks
    (by rw [hstream]) hroom
  rw [hstream] at hstreamed
  obtain ⟨delivered, hall, hhands, hpending⟩ := hstreamed.whole
  exact ⟨after, delivered, hrun, hall, hhands, hpending⟩

theorem plainText_name : PlainText [73, 97] :=
  ⟨by decide, fun kind => by cases kind <;> decide⟩

/-- A packet of zero bytes between two names. -/
def packetBetweenNames : List DeviceMessage :=
  [.command [73, 97] (by decide) plainText_name, .packet (.zero 185) (by decide),
    .command [73, 97] (by decide) plainText_name]

theorem length_packetBetweenNames : (messageStream packetBetweenNames).length = 204 := by
  have hframe : (base64Frame (.zero 185)).length = 198 := by
    rw [base64Frame_eq, List.length_append, List.length_cons, length_encodeTriples,
      length_packetBytes]
    rfl
  rw [messageStream, packetBetweenNames, List.flatMap_cons, List.flatMap_cons,
    DeviceMessage.bytes_packet, List.length_append, List.length_append, hframe]
  rfl

theorem parseRun_mixedStream_names :
    ∃ after delivered,
      parseRun (fun _ => .zero 185) driverUninitialized [messageStream packetBetweenNames] =
        some after ∧
      List.Forall₂ SamePacket (packetsOf packetBetweenNames) delivered ∧
      HandsOn driverUninitialized after delivered ∧ after.pending = [] := by
  apply parseRun_mixedStream (fun _ => .zero 185) driverUninitialized packetBetweenNames
    [messageStream packetBetweenNames]
  · rfl
  · simp
  · intro front chunk hfront before hbefore
    obtain ⟨rfl, rfl⟩ := concat_prefix_singleton hfront
    obtain rfl := Option.some.inj hbefore
    rw [length_packetBetweenNames]
    decide

end Trifecta
