/-
The serial framer on one stream cut into reads in different ways: what it leaves
on the device handle and the packets it delivers.
-/
import Trifecta.StreamSegments

namespace Trifecta

open CText Registers Segments

/-- What frames change: the shared decode buffer and the packets delivered, each
as the bytes that its type says are sent. -/
structure Delivery where
  buffer : Block fsMaxPacketLength
  packets : List (List UInt8)

def Driver.delivery (driver : Driver) : Delivery :=
  ⟨driver.currentDecodeBuffer, driver.enqueued.map packetBytes⟩

/-- What a frame delivers, found by handling it alone on a blank handle. -/
def frameDelivery (before : Delivery) (kind : FrameKind) (payload : List UInt8) :
    Option Delivery :=
  (handleFrame (fun _ => .zero 185) ⟨fsDeviceInfoUninitialized, before.buffer, []⟩ kind payload
    []).map fun after =>
      ⟨after.currentDecodeBuffer, before.packets ++ after.enqueued.map packetBytes⟩

theorem frameDelivery_delivery (driver : Driver) (kind : FrameKind) (payload : List UInt8) :
    frameDelivery driver.delivery kind payload =
      (handleFrame (fun _ => .zero 185)
        ⟨fsDeviceInfoUninitialized, driver.currentDecodeBuffer, []⟩ kind payload []).map
        fun after => ⟨after.currentDecodeBuffer,
          driver.enqueued.map packetBytes ++ after.enqueued.map packetBytes⟩ :=
  rfl

theorem packetBytes_write (block : FsPacketUnion) {type : UInt8} {rest : List UInt8}
    (hlength : (type :: rest).length = obtainPacketLength type.toNat) :
    FsPacketUnion.type (block.write 0 (type :: rest)) = type ∧
      packetBytes (block.write 0 (type :: rest)) = type :: rest := by
  have hfits : 0 + (type :: rest).length ≤ 185 := by
    rw [Nat.zero_add, hlength]
    exact obtainPacketLength_le _
  have htype : FsPacketUnion.type (block.write 0 (type :: rest)) = type := by
    rw [FsPacketUnion.type, Block.bytes_write hfits]
    rfl
  refine ⟨htype, ?_⟩
  rw [packetBytes, htype, ← hlength]
  exact Block.read_write_same hfits

section Segmenting

variable (stack stack' : Nat → FsPacketUnion)

/-- Only the first `rxLen` bytes are looked at. -/
theorem segmentPacketsFrom_take (buf : List UInt8) (rxLen fuel pos : Nat) (packetCount : Int)
    (driver : Driver) :
    segmentPacketsFrom stack (buf.take rxLen) rxLen fuel pos packetCount driver =
      segmentPacketsFrom stack buf rxLen fuel pos packetCount driver := by
  induction fuel generalizing pos packetCount driver with
  | zero => rfl
  | succ fuel ih =>
      rw [segmentPacketsFrom, segmentPacketsFrom]
      by_cases hpos : pos < rxLen
      · simp only [if_pos hpos, List.getElem?_take_of_lt hpos]
        by_cases hlong : rxLen < pos + obtainPacketLength (buf[pos]?.getD 0).toNat
        · simp only [if_pos hlong]
        · have hbytes : ((buf.take rxLen).drop pos).take
              (obtainPacketLength (buf[pos]?.getD 0).toNat) =
                (buf.drop pos).take (obtainPacketLength (buf[pos]?.getD 0).toNat) := by
            rw [List.drop_take, List.take_take, Nat.min_eq_left (by omega)]
          simp only [if_neg hlong, hbytes, ih]
      · rw [if_neg hpos, if_neg hpos]

theorem currentDecodeBuffer_segmentPacketsFrom (buf : List UInt8) (rxLen fuel pos : Nat)
    (packetCount : Int) (driver : Driver) :
    (segmentPacketsFrom stack buf rxLen fuel pos packetCount driver).2.currentDecodeBuffer =
      driver.currentDecodeBuffer := by
  induction fuel generalizing pos packetCount driver with
  | zero => rfl
  | succ fuel ih =>
      unfold segmentPacketsFrom
      simp only
      split_ifs <;> first | rfl | exact ih _ _ _

/-- A whole packet at `pos` is enqueued with the bytes that stand there. -/
theorem segmentPacketsFrom_whole {buf : List UInt8} {rxLen pos length : Nat}
    (hbuf : rxLen ≤ buf.length) (hpos : pos < rxLen)
    (hlength : obtainPacketLength (buf[pos]?.getD 0).toNat = length + 1)
    (hwhole : pos + (length + 1) ≤ rxLen) (fuel : Nat) (packetCount : Int) (driver : Driver) :
    ∃ packet : FsPacketUnion, packetBytes packet = (buf.drop pos).take (length + 1) ∧
      segmentPacketsFrom stack buf rxLen (fuel + 1) pos packetCount driver =
        segmentPacketsFrom stack buf rxLen fuel (pos + (length + 1)) (packetCount + 1)
          (fsEnqueueIntoPacketQueue driver packet).2 := by
  obtain ⟨type, others, hdrop⟩ : ∃ type others, buf.drop pos = type :: others :=
    List.exists_cons_of_ne_nil (by rw [Ne, List.drop_eq_nil_iff]; omega)
  have htype : buf[pos]?.getD 0 = type := by
    rw [← List.head?_drop, hdrop]
    rfl
  have hroom : others.length = buf.length - pos - 1 := by
    have := congrArg List.length hdrop
    rw [List.length_drop, List.length_cons] at this
    omega
  rw [htype] at hlength
  have hbytes : (type :: others.take length).length = obtainPacketLength type.toNat := by
    rw [List.length_cons, List.length_take, hlength]
    omega
  obtain ⟨hsame, hpacket⟩ := packetBytes_write (stack driver.enqueued.length) hbytes
  refine ⟨(stack driver.enqueued.length).write 0 (type :: others.take length), ?_, ?_⟩
  · rw [hpacket, hdrop, List.take_succ_cons]
  · rw [segmentPacketsFrom, if_pos hpos]
    simp only [htype, hlength, hdrop, List.take_succ_cons, hsame]
    rw [if_neg (Nat.succ_ne_zero length), if_neg (Nat.not_lt.2 hwhole), if_neg (not_not_intro rfl)]

/-- The packets found do not depend on the driver, nor on what the local packet
held before. -/
theorem enqueued_segmentPacketsFrom {buf : List UInt8} {rxLen : Nat}
    (hbuf : rxLen ≤ buf.length) (fuel pos : Nat) (packetCount : Int) (first second : Driver) :
    ∃ packets : List (List UInt8),
      (segmentPacketsFrom stack buf rxLen fuel pos packetCount first).2.enqueued.map packetBytes =
          first.enqueued.map packetBytes ++ packets ∧
        (segmentPacketsFrom stack' buf rxLen fuel pos packetCount second).2.enqueued.map
          packetBytes = second.enqueued.map packetBytes ++ packets := by
  have hnone : ∀ driver : Driver, driver.enqueued.map packetBytes =
      driver.enqueued.map packetBytes ++ [] := fun _ => (List.append_nil _).symm
  induction fuel generalizing pos packetCount first second with
  | zero => exact ⟨[], hnone first, hnone second⟩
  | succ fuel ih =>
      by_cases hpos : pos < rxLen
      · rcases Nat.eq_zero_or_eq_succ_pred (obtainPacketLength (buf[pos]?.getD 0).toNat) with
          hzero | hlength
        · simp only [segmentPacketsFrom, if_pos hpos, if_pos hzero]
          exact ⟨[], hnone first, hnone second⟩
        by_cases hlong : rxLen < pos + obtainPacketLength (buf[pos]?.getD 0).toNat
        · have hknown : obtainPacketLength (buf[pos]?.getD 0).toNat ≠ 0 := by
            rw [hlength]
            exact Nat.succ_ne_zero _
          simp only [segmentPacketsFrom, if_pos hpos, if_neg hknown, if_pos hlong]
          exact ⟨[], hnone first, hnone second⟩
        · rw [hlength, Nat.not_lt] at hlong
          obtain ⟨packet, hpacket, hfirst⟩ :=
            segmentPacketsFrom_whole stack hbuf hpos hlength hlong fuel packetCount first
          obtain ⟨packet', hpacket', hsecond⟩ :=
            segmentPacketsFrom_whole stack' hbuf hpos hlength hlong fuel packetCount second
          obtain ⟨packets, hone, htwo⟩ := ih (pos + _) (packetCount + 1)
            (fsEnqueueIntoPacketQueue first packet).2 (fsEnqueueIntoPacketQueue second packet').2
          refine ⟨packetBytes packet :: packets, ?_, ?_⟩
          · rw [hfirst, hone]
            simp [fsEnqueueIntoPacketQueue]
          · rw [hsecond, htwo]
            simp [fsEnqueueIntoPacketQueue, hpacket, hpacket']
      · simp only [segmentPacketsFrom, if_neg hpos]
        exact ⟨[], hnone first, hnone second⟩

end Segmenting

theorem frameDelivery_binary (stack : Nat → FsPacketUnion) (driver : Driver)
    (payload beyond : List UInt8) :
    frameDelivery driver.delivery .binary payload =
      some (segmentPackets stack driver (payload ++ packetFooter :: beyond)
        (sizeSub payload.length 1)).2.delivery := by
  simp only [frameDelivery, handleFrame, Option.map_some, segmentPackets]
  split_ifs with hrefused
  · simp [Driver.delivery]
  · -- what is looked at lies inside the payload
    have hle : sizeSub payload.length 1 ≤ payload.length := by
      unfold sizeSub fsMaxDataLength at hrefused
      unfold sizeSub
      split_ifs at hrefused ⊢ <;> omega
    generalize sizeSub payload.length 1 = rxLen at hle
    have htake : ∀ rest : List UInt8,
        (payload ++ packetFooter :: rest).take rxLen = payload.take rxLen := fun rest =>
      List.take_append_of_le_length hle
    obtain ⟨packets, hblank, hdriver⟩ := @enqueued_segmentPacketsFrom (fun _ => .zero 185) stack
      payload rxLen hle rxLen 0 0 ⟨fsDeviceInfoUninitialized, driver.currentDecodeBuffer, []⟩
      driver
    rw [← segmentPacketsFrom_take, htake, ← segmentPacketsFrom_take stack, htake,
      segmentPacketsFrom_take, segmentPacketsFrom_take]
    simp only [Driver.delivery, currentDecodeBuffer_segmentPacketsFrom, hblank, hdriver,
      List.map_nil, List.nil_append]

theorem frameDelivery_base64 {driver : Driver} {payload beyond : List UInt8}
    {result : Int × Driver}
    (hresult : base64ToPacket driver (payload ++ packetFooter :: beyond) payload.length =
      some result) : frameDelivery driver.delivery .base64 payload = some result.2.delivery := by
  rw [base64ToPacket_eq] at hresult
  obtain ⟨decoding, hdecode, rfl⟩ := Option.map_eq_some_iff.1 hresult
  rw [frameDelivery_delivery, handleFrame, base64ToPacket_eq, hdecode]
  simp only [Option.map_some, Driver.delivery]
  by_cases hrefused : decoding.code ≠ 0 ∨ obtainPacketLength (FsPacketUnion.type
      (packetInBuffer (driver.currentDecodeBuffer.write 0 decoding.written))).toNat = 0
  · simp only [if_pos hrefused, List.map_nil, List.append_nil]
  · simp only [if_neg hrefused, fsEnqueueIntoPacketQueue, List.map_append, List.nil_append]

/-- What a frame delivers depends neither on the handle, nor on what lies behind
the frame, nor on what the local packet held before. -/
theorem frameDelivery_of_handleFrame {stack : Nat → FsPacketUnion} {driver next : Driver}
    {kind : FrameKind} {payload beyond : List UInt8}
    (hhandle : handleFrame stack driver kind payload beyond = some next) :
    frameDelivery driver.delivery kind payload = some next.delivery := by
  cases kind with
  | binary =>
      obtain rfl := Option.some.inj hhandle
      exact frameDelivery_binary stack driver payload beyond
  | base64 =>
      obtain ⟨result, hresult, rfl⟩ := Option.map_eq_some_iff.1 hhandle
      exact frameDelivery_base64 hresult

def deliver (before : Delivery) : StreamSegment → Option Delivery
  | .frame kind payload => frameDelivery before kind payload
  | .command _ => some before

/-- Carrying out `segments` from `driver` comes to the same as carrying out
`later` from `next`. -/
structure SameOutcome (driver : Driver) (segments : List StreamSegment) (next : Driver)
    (later : List StreamSegment) : Prop where
  fields : assignAll next.device.field (later.flatMap StreamSegment.writes) =
    assignAll driver.device.field (segments.flatMap StreamSegment.writes)
  delivery : later.foldlM deliver next.delivery = segments.foldlM deliver driver.delivery

theorem SameOutcome.refl (driver : Driver) (segments : List StreamSegment) :
    SameOutcome driver segments driver segments :=
  ⟨rfl, rfl⟩

theorem SameOutcome.trans {first second third : Driver}
    {segments later last : List StreamSegment} (hearly : SameOutcome first segments second later)
    (hlate : SameOutcome second later third last) : SameOutcome first segments third last :=
  ⟨hlate.fields.trans hearly.fields, hlate.delivery.trans hearly.delivery⟩

theorem writes_commands (texts : List (List UInt8)) :
    (texts.map StreamSegment.command).flatMap StreamSegment.writes =
      texts.flatMap segmentWrites := by
  rw [List.flatMap_map]
  rfl

theorem foldlM_deliver_commands (texts : List (List UInt8)) (before : Delivery) :
    (texts.map StreamSegment.command).foldlM deliver before = some before := by
  induction texts with
  | nil => rfl
  | cons text texts ih => exact ih

/-- A frame and the commands in front of it, whose fields are assigned again. -/
theorem sameOutcome_frame {stack : Nat → FsPacketUnion} {driver handled : Driver}
    {kind : FrameKind} {payload beyond : List UInt8}
    (hhandle : handleFrame stack driver kind payload beyond = some handled)
    {texts : List (List UInt8)} {later : List StreamSegment}
    (hagain : ∀ text ∈ texts, WrittenAgain (segmentWrites text) later) (length : Nat) :
    SameOutcome driver (texts.map .command ++ .frame kind payload :: later)
      (popData handled length) later := by
  constructor
  · obtain ⟨queue, last, saver, hdevice⟩ := onlyDelivers_handleFrame hhandle
    have hfield : (popData handled length).device.field = driver.device.field := by
      rw [popData, hdevice]
      rfl
    rw [hfield, List.flatMap_append, writes_commands, List.flatMap_cons, assignAll_append]
    symm
    apply assignAll_absorb
    intro write hwrite
    obtain ⟨text, htext, hmem⟩ := List.mem_flatMap.1 hwrite
    exact hagain text htext write hmem
  · rw [List.foldlM_append, foldlM_deliver_commands]
    exact (congrArg (fun after => after.bind (later.foldlM deliver))
      (frameDelivery_of_handleFrame hhandle)).symm

/-- What a buffer that begins with a command assigns. -/
theorem writes_commandsIn {text : List UInt8} (htext : cmdTerminator ∉ text)
    (rest : List UInt8) :
    ∃ early, (commandsIn (text ++ cmdTerminator :: rest)).filterMap commandEffect =
        segmentWrites text ++ early ∧
      ∀ write ∈ early, ∃ other ∈ terminated cmdTerminator rest, write ∈ segmentWrites other := by
  rw [commandsIn, scanCommands_append_cons _ _ htext, List.filterMap_append]
  refine ⟨_, rfl, ?_⟩
  intro write hwrite
  obtain ⟨cmd, hcmd, heffect⟩ := List.mem_filterMap.1 hwrite
  split at hcmd
  · exact absurd hcmd List.not_mem_nil
  · obtain ⟨other, hother, hmem⟩ := exists_segment_of_mem_commandsIn hcmd
    exact ⟨other, hother, List.mem_filterMap.2 ⟨cmd, hmem, heffect⟩⟩

/-- A command that is handled with a buffer behind it: what is carried out ahead
of its turn is carried out again in its turn. -/
theorem sameOutcome_command {driver : Driver} {text rest future : List UInt8}
    {later : List StreamSegment} (htext : cmdTerminator ∉ text)
    (hqueue : driver.device.commandQueue.toList = [])
    (hlater : ReadAs (rest ++ future) later)
    (hapart : HandledApart (text ++ cmdTerminator :: rest)) (length : Nat) :
    ((fsHandleReceivedCommands driver.device
        (text ++ cmdTerminator :: rest)).2.commandQueue.toList = []) ∧
      SameOutcome driver (.command text :: later)
        (popData { driver with device :=
          (fsHandleReceivedCommands driver.device (text ++ cmdTerminator :: rest)).2 } length)
        later := by
  obtain ⟨queue, hempty, hhandle⟩ := fsHandleReceivedCommands_of_drain hqueue hapart.drains
  obtain ⟨early, hwrites, hearly⟩ := writes_commandsIn htext rest
  rw [hhandle]
  refine ⟨hempty, ?_, rfl⟩
  have hfield := field_foldl_applyCommand driver.device
    (commandsIn (text ++ cmdTerminator :: rest))
  rw [hwrites, assignAll_append] at hfield
  change assignAll ((commandsIn (text ++ cmdTerminator :: rest)).foldl applyCommand
    driver.device).field _ = _
  rw [hfield, List.flatMap_cons, assignAll_append]
  apply assignAll_absorb
  intro write hwrite
  obtain ⟨other, hother, hmem⟩ := hearly write hwrite
  have hnoFrame : NoFrame other := by
    apply hapart.commands other
    · rw [terminated_append_cons htext]
      exact List.mem_cons_of_mem text hother
    · exact List.ne_nil_of_mem hmem
  have hcommand := hlater.mem_command (mem_terminated_append future hother) hnoFrame
  exact ⟨write, List.mem_flatMap.2 ⟨_, hcommand, hmem⟩, rfl⟩

/-- One round, on what has arrived of a stream: it does nothing, or it takes
segments off the stream and keeps the outcome. -/
theorem serialRound_readAs (stack : Nat → FsPacketUnion) {driver : Driver}
    (hpad : padChar ∉ driver.pending) (hqueue : driver.device.commandQueue.toList = [])
    {future : List UInt8} {segments : List StreamSegment}
    (hread : ReadAs (driver.pending ++ future) segments) :
    (Stopped driver ∧ ∃ code, serialRound stack driver = some (.returned code driver)) ∨
      ∃ next later, serialRound stack driver = some (.again next) ∧
        next.pending <:+ driver.pending ∧ next.device.commandQueue.toList = [] ∧
        ReadAs (next.pending ++ future) later ∧ SameOutcome driver segments next later := by
  cases roundCase stack hpad with
  | stopped code hstopped hround => exact Or.inl ⟨hstopped, code, hround⟩
  | command text post next htext hnoFrame hpending hnext hround hpost =>
      have hmem : cmdTerminator ∈ driver.pending := by
        rw [hpending]
        simp
      obtain ⟨later, rfl, hlater, happart⟩ := hread.of_command htext
        (noFrame_of_append (hpending ▸ hnoFrame))
        (by rw [hpending, List.append_assoc, List.cons_append])
      have hhere := happart driver.pending (List.prefix_append _ _) hmem hnoFrame
      rw [hpending] at hhere hnext
      obtain ⟨hempty, houtcome⟩ :=
        sameOutcome_command htext hqueue hlater hhere (text.length + 1)
      rw [← hnext] at houtcome
      refine Or.inr ⟨next, later, hround, ?_, ?_, ?_, houtcome⟩
      · rw [hpost, hpending]
        exact suffix_of_frame _ _ _
      · rw [hnext]
        exact hempty
      · rw [hpost]
        exact hlater
  | frame kind front payload post handled next hframe hpending hhandle hnext hround hpost =>
      obtain ⟨texts, later, rfl, hagain, hlater⟩ := hread.of_frame hframe
        (show driver.pending ++ future = front ++ kind.header :: payload ++
          packetFooter :: (post ++ future) by rw [hpending]; simp)
      have houtcome := sameOutcome_frame hhandle hagain (front.length + 1 + payload.length + 1)
      rw [← hnext] at houtcome
      refine Or.inr ⟨next, later, hround, ?_, ?_, ?_, houtcome⟩
      · rw [hpost, hpending]
        exact suffix_of_frame _ _ _
      · obtain ⟨queue, last, saver, hdevice⟩ := onlyDelivers_handleFrame hhandle
        rw [hnext, popData, hdevice]
        exact hqueue
      · rw [hpost]
        exact hlater

/-- The loop takes segments off the stream until it can do nothing more. -/
theorem processSerialLoop_readAs (stack : Nat → FsPacketUnion) (fuel : Nat) {driver : Driver}
    (hpad : padChar ∉ driver.pending) (hqueue : driver.device.commandQueue.toList = [])
    (hfuel : driver.pending.length < fuel) {future : List UInt8}
    {segments : List StreamSegment} (hread : ReadAs (driver.pending ++ future) segments) :
    ∃ code after later, processSerialLoop stack fuel driver = some (code, after) ∧
      after.pending <:+ driver.pending ∧ after.device.commandQueue.toList = [] ∧ Stopped after ∧
      ReadAs (after.pending ++ future) later ∧ SameOutcome driver segments after later := by
  induction fuel generalizing driver segments with
  | zero => omega
  | succ fuel ih =>
      rcases serialRound_readAs stack hpad hqueue hread with
        ⟨hstopped, code, hround⟩ | ⟨next, later, hround, hsuffix, hempty, hnext, houtcome⟩
      · refine ⟨code, driver, segments, ?_, List.suffix_rfl, hqueue, hstopped, hread, .refl _ _⟩
        rw [processSerialLoop, hround]
      · have hless := serialRound_progress stack driver next hround
        obtain ⟨code, after, last, hloop, hafter, hlast⟩ :=
          ih (fun hmem => hpad (hsuffix.subset hmem)) hempty (by omega) hnext
        refine ⟨code, after, last, ?_, hafter.trans hsuffix, hlast.1, hlast.2.1, hlast.2.2.1,
          houtcome.trans hlast.2.2.2⟩
        rw [processSerialLoop, hround]
        exact hloop

/-- One call on the next chunk of a stream that the buffer has room for. -/
theorem fsDeviceParsePacket_readAs (stack : Nat → FsPacketUnion) {driver : Driver}
    {chunk : List UInt8} (hchunk : chunk ≠ [])
    (hroom : driver.pending.length + chunk.length ≤ fsMaxDataLength)
    (hpad : padChar ∉ driver.pending ++ chunk)
    (hqueue : driver.device.commandQueue.toList = []) {future : List UInt8}
    {segments : List StreamSegment}
    (hread : ReadAs (driver.pending ++ (chunk ++ future)) segments) :
    ∃ after later, (fsDeviceParsePacket stack driver chunk .uart).map Prod.snd = some after ∧
      after.pending <:+ driver.pending ++ chunk ∧ after.device.commandQueue.toList = [] ∧
      Stopped after ∧ ReadAs (after.pending ++ future) later ∧
      SameOutcome driver segments after later := by
  have hpending := pending_receive_of_room hroom
  obtain ⟨code, after, later, hloop, hsuffix, hempty, hstopped, hlater, houtcome⟩ :=
    @processSerialLoop_readAs stack ((driver.receive chunk).pending.length + 1)
      (driver.receive chunk) (by rw [hpending]; exact hpad) hqueue (Nat.lt_succ_self _) future
      segments (by rw [hpending, List.append_assoc]; exact hread)
  rw [hpending] at hsuffix
  refine ⟨after, later, ?_, hsuffix, hempty, hstopped, hlater, houtcome.fields, houtcome.delivery⟩
  rw [fsDeviceParsePacket_uart stack driver hchunk, fsDeviceProcessPacketsSerial_eq, hloop]
  rfl

/-- A run over the rest of a stream: it ends where nothing can be done, with the
outcome of all segments. -/
theorem parseRun_readAs (stack : Nat → FsPacketUnion) (chunks : List (List UInt8))
    (hchunks : ∀ chunk ∈ chunks, chunk ≠ []) {driver : Driver} (hstopped : Stopped driver)
    (hroom : (driver.pending ++ chunks.flatten).length ≤ fsMaxDataLength)
    (hpad : padChar ∉ driver.pending ++ chunks.flatten)
    (hqueue : driver.device.commandQueue.toList = []) {segments : List StreamSegment}
    (hread : ReadAs (driver.pending ++ chunks.flatten) segments) :
    ∃ after, parseRun stack driver chunks = some after ∧
      SameOutcome driver segments after [] := by
  induction chunks generalizing driver segments with
  | nil =>
      rw [List.flatten_nil, List.append_nil] at hread
      obtain rfl := hread.of_stopped hstopped.1 hstopped.2
      exact ⟨driver, rfl, .refl _ _⟩
  | cons chunk rest ih =>
      rw [List.flatten_cons] at hroom hpad hread
      rw [← List.append_assoc] at hroom hpad
      have hcall := @fsDeviceParsePacket_readAs stack driver chunk
        (hchunks chunk List.mem_cons_self)
        (by rw [← List.length_append]; exact (List.prefix_append _ _).length_le.trans hroom)
        (fun hmem => hpad (List.mem_append_left _ hmem)) hqueue rest.flatten segments hread
      obtain ⟨next, later, hnext, hsuffix, hempty, hstop, hlater, houtcome⟩ := hcall
      have hrest : next.pending ++ rest.flatten <:+ driver.pending ++ chunk ++ rest.flatten := by
        obtain ⟨taken, htaken⟩ := hsuffix
        exact ⟨taken, by rw [← htaken, List.append_assoc]⟩
      obtain ⟨after, hafter, hlast⟩ := ih
        (fun other hother => hchunks other (List.mem_cons_of_mem chunk hother)) hstop
        (hrest.length_le.trans hroom) (fun hmem => hpad (hrest.subset hmem)) hempty hlater
      refine ⟨after, ?_, houtcome.trans hlast⟩
      rw [parseRun, List.foldlM_cons, hnext]
      exact hafter

/-- The device handles hold the same strings and numbers in every field that
commands set, and the same packets were enqueued, compared on the bytes that
their types say are sent. -/
structure SameResult (first second : Driver) : Prop where
  fields : first.device.field = second.device.field
  packets : first.enqueued.map packetBytes = second.enqueued.map packetBytes

/-- However the stream is cut into reads, every handle with nothing buffered and
no command queued ends up the same. -/
def SplitIndependent (stream : List UInt8) : Prop :=
  ∀ (driver : Driver) (stack stack' : Nat → FsPacketUnion) (chunks chunks' : List (List UInt8)),
    driver.pending = [] → driver.device.commandQueue.toList = [] →
    chunks.flatten = stream → chunks'.flatten = stream →
    (∀ chunk ∈ chunks, chunk ≠ []) → (∀ chunk ∈ chunks', chunk ≠ []) →
    ∃ first second, parseRun stack driver chunks = some first ∧
      parseRun stack' driver chunks' = some second ∧ SameResult first second

/-- A stream that is read as the same segments in any reads has the same result
in every split. -/
theorem splitIndependent_of_readAs {stream : List UInt8} {segments : List StreamSegment}
    (hlength : stream.length ≤ fsMaxDataLength) (hpad : padChar ∉ stream)
    (hread : ReadAs stream segments) : SplitIndependent stream := by
  intro driver stack stack' chunks chunks' hempty hqueue hstream hstream' hchunks hchunks'
  have hrun : ∀ (pkt : Nat → FsPacketUnion) (reads : List (List UInt8)),
      reads.flatten = stream → (∀ chunk ∈ reads, chunk ≠ []) →
      ∃ after, parseRun pkt driver reads = some after ∧
        SameOutcome driver segments after [] := by
    intro pkt reads hreads hne
    have hall : driver.pending ++ reads.flatten = stream := by rw [hempty, hreads]; rfl
    apply parseRun_readAs pkt reads hne
    · rw [Stopped, hempty]
      exact ⟨List.not_mem_nil, noFrame_of_not_mem List.not_mem_nil⟩
    · rw [hall]
      exact hlength
    · rw [hall]
      exact hpad
    · exact hqueue
    · rw [hall]
      exact hread
  obtain ⟨first, hfirst, hone⟩ := hrun stack chunks hstream hchunks
  obtain ⟨second, hsecond, htwo⟩ := hrun stack' chunks' hstream' hchunks'
  refine ⟨first, second, hfirst, hsecond, hone.fields.trans htwo.fields.symm, ?_⟩
  have hdelivery := hone.delivery.trans htwo.delivery.symm
  exact congrArg Delivery.packets (Option.some.inj hdelivery)

end Trifecta
