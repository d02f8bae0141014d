/-
Streams that consist of whole frames and plain commands.  Of these, exactly the
ones that can be read as their messages whatever the reads have the same result
in every split.
-/
import Trifecta.CommandChunks
import Trifecta.StreamSplits

namespace Trifecta

open CText Registers Segments

/-- The bytes between the delimiters of a segment. -/
def StreamSegment.body : StreamSegment → List UInt8
  | .frame _ payload => payload
  | .command text => text

def StreamSegment.bytes : StreamSegment → List UInt8
  | .frame kind payload => kind.header :: payload ++ [packetFooter]
  | .command text => text ++ [cmdTerminator]

def streamOf (segments : List StreamSegment) : List UInt8 :=
  segments.flatMap StreamSegment.bytes

/-- Neither a delimiter nor a line break. -/
def PlainByte (byte : UInt8) : Prop :=
  byte ≠ packetFooter ∧ byte ≠ cmdTerminator ∧ isHeader byte = false ∧ isLineBreak byte = false

/-- Messages with plain bytes between their delimiters, and no more commands
than the queue holds. -/
structure PlainMessages (segments : List StreamSegment) : Prop where
  plain : ∀ segment ∈ segments, ∀ byte ∈ segment.body, PlainByte byte
  count : (streamOf segments).count cmdTerminator ≤ fsMaxCmdQueueLength

theorem streamOf_cons (segment : StreamSegment) (segments : List StreamSegment) :
    streamOf (segment :: segments) = segment.bytes ++ streamOf segments :=
  List.flatMap_cons

theorem streamOf_append (front back : List StreamSegment) :
    streamOf (front ++ back) = streamOf front ++ streamOf back :=
  List.flatMap_append

theorem PlainMessages.of_cons {segment : StreamSegment} {segments : List StreamSegment}
    (hplain : PlainMessages (segment :: segments)) : PlainMessages segments := by
  refine ⟨fun other hother => hplain.plain other (List.mem_cons_of_mem _ hother), ?_⟩
  have hcount := hplain.count
  rw [streamOf_cons, List.count_append] at hcount
  exact (Nat.le_add_left _ _).trans hcount

theorem PlainMessages.of_append {front back : List StreamSegment}
    (hplain : PlainMessages (front ++ back)) : PlainMessages back := by
  induction front with
  | nil => exact hplain
  | cons segment front ih => exact ih hplain.of_cons

theorem not_isLineBreak_of_mem_streamOf {segments : List StreamSegment}
    (hplain : ∀ segment ∈ segments, ∀ byte ∈ segment.body, PlainByte byte) {byte : UInt8}
    (hbyte : byte ∈ streamOf segments) : isLineBreak byte = false := by
  obtain ⟨segment, hsegment, hmem⟩ := List.mem_flatMap.1 hbyte
  cases segment with
  | frame kind payload =>
      simp only [StreamSegment.bytes, List.mem_append, List.mem_cons, List.not_mem_nil,
        or_false] at hmem
      rcases hmem with (rfl | hpayload) | rfl
      · cases kind <;> rfl
      · exact (hplain _ hsegment byte hpayload).2.2.2
      · rfl
  | command text =>
      simp only [StreamSegment.bytes, List.mem_append, List.mem_singleton] at hmem
      rcases hmem with htext | rfl
      · exact (hplain _ hsegment byte htext).2.2.2
      · rfl

theorem plainText_of_plain {text : List UInt8} (htext : ∀ byte ∈ text, PlainByte byte) :
    PlainText text := by
  refine ⟨fun hmem => (htext _ hmem).1 rfl, fun kind hmem => ?_⟩
  have hplain := (htext _ hmem).2.2.1
  rw [isHeader_header] at hplain
  exact absurd hplain (by decide)

/-- Commands alone hold neither a footer nor a header. -/
theorem plainText_commands {texts : List (List UInt8)}
    (hplain : ∀ text ∈ texts, ∀ byte ∈ text, PlainByte byte) :
    PlainText (streamOf (texts.map .command)) := by
  have hmem : ∀ byte ∈ streamOf (texts.map .command),
      byte = cmdTerminator ∨ ∃ text ∈ texts, byte ∈ text := by
    intro byte hbyte
    obtain ⟨segment, hsegment, hbody⟩ := List.mem_flatMap.1 hbyte
    obtain ⟨text, htext, rfl⟩ := List.mem_map.1 hsegment
    rcases List.mem_append.1 hbody with hinner | hlast
    · exact Or.inr ⟨text, htext, hinner⟩
    · exact Or.inl (List.mem_singleton.1 hlast)
  constructor
  · intro hfooter
    rcases hmem _ hfooter with heq | ⟨text, htext, hinner⟩
    · exact absurd heq (by decide)
    · exact (plainText_of_plain (hplain text htext)).1 hinner
  · intro kind hheader
    rcases hmem _ hheader with heq | ⟨text, htext, hinner⟩
    · exact header_ne_terminator kind heq
    · exact (plainText_of_plain (hplain text htext)).2 kind hinner

theorem streamOf_frame (front : List StreamSegment) (kind : FrameKind) (payload : List UInt8)
    (later : List StreamSegment) :
    streamOf (front ++ .frame kind payload :: later) =
      streamOf front ++ kind.header :: payload ++ packetFooter :: streamOf later := by
  rw [streamOf_append, streamOf_cons, StreamSegment.bytes]
  simp

/-- A frame behind commands is the first frame that the framer finds. -/
theorem frameAt_messages {texts : List (List UInt8)} {kind : FrameKind} {payload : List UInt8}
    {later : List StreamSegment}
    (hplain : ∀ segment ∈ texts.map .command ++ .frame kind payload :: later,
      ∀ byte ∈ segment.body, PlainByte byte) :
    FrameAt kind (streamOf (texts.map .command)) payload := by
  obtain ⟨hfooter, hheader⟩ := plainText_commands fun text htext =>
    hplain (.command text) (List.mem_append_left _ (List.mem_map_of_mem htext))
  obtain ⟨hnone, hnot⟩ := plainText_of_plain (hplain (.frame kind payload) (by simp))
  refine ⟨hfooter, hnone, hnot kind, ?_⟩
  intro hmem
  rcases List.mem_append.1 hmem with hfront | hback
  · exact absurd hfront (hheader .binary)
  · rcases List.mem_cons.1 hback with heq | hrest
    · cases kind with
      | binary => rfl
      | base64 => exact absurd heq (by decide)
    · exact absurd hrest (hnot .binary)

def hasFrame : List StreamSegment → Bool
  | [] => false
  | .frame _ _ :: _ => true
  | .command _ :: later => hasFrame later

/-- The commands behind the last frame. -/
def behindLastFrame : List StreamSegment → List StreamSegment
  | [] => []
  | .frame _ _ :: later => behindLastFrame later
  | .command text :: later =>
      if hasFrame later then behindLastFrame later else .command text :: later

/-- Messages are commands up to the first frame or to the end. -/
theorem commands_or_frame (segments : List StreamSegment) :
    (∃ texts : List (List UInt8), segments = texts.map .command) ∨
      ∃ (texts : List (List UInt8)) (kind : FrameKind) (payload : List UInt8)
        (later : List StreamSegment), segments = texts.map .command ++ .frame kind payload :: later
    := by
  induction segments with
  | nil => exact Or.inl ⟨[], rfl⟩
  | cons segment segments ih =>
      cases segment with
      | frame kind payload => exact Or.inr ⟨[], kind, payload, segments, rfl⟩
      | command text =>
          rcases ih with ⟨texts, rfl⟩ | ⟨texts, kind, payload, later, rfl⟩
          · exact Or.inl ⟨text :: texts, rfl⟩
          · exact Or.inr ⟨text :: texts, kind, payload, later, rfl⟩

theorem hasFrame_commands (texts : List (List UInt8)) :
    hasFrame (texts.map .command) = false := by
  induction texts with
  | nil => rfl
  | cons text texts ih => exact ih

theorem hasFrame_frame (texts : List (List UInt8)) (kind : FrameKind) (payload : List UInt8)
    (later : List StreamSegment) :
    hasFrame (texts.map .command ++ .frame kind payload :: later) = true := by
  induction texts with
  | nil => rfl
  | cons text texts ih => exact ih

theorem behindLastFrame_commands (texts : List (List UInt8)) :
    behindLastFrame (texts.map .command) = texts.map .command := by
  cases texts with
  | nil => rfl
  | cons text texts =>
      rw [List.map_cons, behindLastFrame, hasFrame_commands, if_neg (by decide)]

theorem behindLastFrame_frame (texts : List (List UInt8)) (kind : FrameKind)
    (payload : List UInt8) (later : List StreamSegment) :
    behindLastFrame (texts.map .command ++ .frame kind payload :: later) =
      behindLastFrame later := by
  induction texts with
  | nil => rfl
  | cons text texts ih =>
      rw [List.map_cons, List.cons_append, behindLastFrame, hasFrame_frame, if_pos rfl, ih]

theorem behindLastFrame_suffix (segments : List StreamSegment) :
    behindLastFrame segments <:+ segments := by
  induction segments with
  | nil => exact List.suffix_rfl
  | cons segment segments ih =>
      cases segment with
      | frame kind payload => exact ih.trans (List.suffix_cons _ _)
      | command text =>
          rw [behindLastFrame]
          split
          · exact ih.trans (List.suffix_cons _ _)
          · exact List.suffix_rfl

/-- What arrives of plain messages before a frame is complete holds no footer. -/
theorem not_mem_footer_of_noFrame {segments : List StreamSegment}
    (hplain : ∀ segment ∈ segments, ∀ byte ∈ segment.body, PlainByte byte)
    {content : List UInt8} (hcontent : content <+: streamOf segments)
    (hnoFrame : NoFrame content) : packetFooter ∉ content := by
  intro hmem
  obtain ⟨pre, post, rfl, hpre⟩ := List.eq_append_cons_of_mem hmem
  obtain ⟨more, hmore⟩ := hcontent
  rcases commands_or_frame segments with ⟨texts, rfl⟩ | ⟨texts, kind, payload, later, rfl⟩
  · have hnone := (plainText_commands fun text htext =>
      hplain (.command text) (List.mem_map_of_mem htext)).1
    rw [← hmore] at hnone
    simp at hnone
  · have hframe := frameAt_messages hplain
    have hstream : pre ++ packetFooter :: (post ++ more) =
        streamOf (texts.map .command) ++ kind.header :: payload ++
          packetFooter :: streamOf later := by
      rw [← List.cons_append, ← List.append_assoc, hmore, streamOf_frame]
    obtain ⟨rfl, _⟩ := append_cons_unique hpre hframe.not_mem hstream
    exact hframe.not_noFrame post hnoFrame

/-- A command in front of plain messages never meets a frame, or its fields are
assigned again behind the next one. -/
theorem command_spared {text : List UInt8} {segments : List StreamSegment}
    (hplain : ∀ segment ∈ .command text :: segments, ∀ byte ∈ segment.body, PlainByte byte)
    (hagain : WrittenAgain ((.command text :: segments).flatMap StreamSegment.writes)
      (behindLastFrame (.command text :: segments))) :
    WrittenAgain (segments.flatMap StreamSegment.writes) (behindLastFrame segments) ∧
      (NoFrame (streamOf (.command text :: segments)) ∨
        PlainText text ∧ WrittenAgain (segmentWrites text) (behindFrame segments)) := by
  rcases commands_or_frame segments with ⟨texts, rfl⟩ | ⟨texts, kind, payload, later, rfl⟩
  · rw [behindLastFrame_commands]
    refine ⟨fun write hwrite => ⟨write, hwrite, rfl⟩, Or.inl ?_⟩
    apply noFrame_of_not_mem
    rw [← List.map_cons]
    apply (plainText_commands ?_).1
    intro other hother
    exact hplain (.command other) (List.mem_map_of_mem hother)
  · have hlast := behindLastFrame_frame (text :: texts) kind payload later
    rw [List.map_cons, List.cons_append] at hlast
    rw [hlast] at hagain
    rw [behindLastFrame_frame, behindFrame_commands]
    refine ⟨fun write hwrite => hagain write (List.mem_append_right _ hwrite),
      Or.inr ⟨plainText_of_plain (hplain (.command text) List.mem_cons_self), ?_⟩⟩
    intro write hwrite
    obtain ⟨other, hother, hkey⟩ := hagain write (List.mem_append_left _ hwrite)
    obtain ⟨segment, hsegment, hmem⟩ := List.mem_flatMap.1 hother
    exact ⟨other, List.mem_flatMap.2
      ⟨segment, (behindLastFrame_suffix later).subset hsegment, hmem⟩, hkey⟩

/-- Plain messages are read as themselves when every field that they assign is
assigned behind the last frame. -/
theorem readAs_messages {segments : List StreamSegment} (hplain : PlainMessages segments)
    (hagain : WrittenAgain (segments.flatMap StreamSegment.writes) (behindLastFrame segments)) :
    ReadAs (streamOf segments) segments := by
  induction segments with
  | nil => exact .rest [] List.not_mem_nil (noFrame_of_not_mem List.not_mem_nil)
  | cons segment segments ih =>
      cases segment with
      | frame kind payload =>
          have hpayload := hplain.plain (.frame kind payload) List.mem_cons_self
          have hframe := @frameAt_messages [] kind payload segments hplain.plain
          have hread := ReadAs.frame kind [] payload (streamOf segments) segments hframe
            List.not_mem_nil (fun hmem => (hpayload _ hmem).2.1 rfl)
            (ih hplain.of_cons hagain)
          rw [streamOf_cons, StreamSegment.bytes, List.append_assoc]
          exact hread
      | command text =>
          have htext := hplain.plain (.command text) List.mem_cons_self
          have hstream : streamOf (.command text :: segments) =
              text ++ cmdTerminator :: streamOf segments := by
            rw [streamOf_cons, StreamSegment.bytes, List.append_assoc]
            rfl
          obtain ⟨hlater, hspared⟩ := command_spared hplain.plain hagain
          rw [hstream] at hspared ⊢
          apply ReadAs.command text (streamOf segments) segments
            (fun hmem => (htext _ hmem).2.1 rfl) hspared _ (ih hplain.of_cons hlater)
          intro content hcontent _ hnoFrame
          rw [← hstream] at hcontent
          apply handledApart_of_plain (not_mem_footer_of_noFrame hplain.plain hcontent hnoFrame)
          · intro byte hbyte
            exact not_isLineBreak_of_mem_streamOf hplain.plain (hcontent.subset hbyte)
          · exact (hcontent.sublist.count_le cmdTerminator).trans hplain.count

/-- Without a terminator no end of a stream of commands is left. -/
theorem eq_nil_of_suffix_commands {texts : List (List UInt8)} {content : List UInt8}
    (hcontent : content <:+ streamOf (texts.map .command)) (hnone : cmdTerminator ∉ content) :
    content = [] := by
  induction texts using List.reverseRecOn with
  | nil => exact List.suffix_nil.1 hcontent
  | append_singleton texts text _ =>
      obtain ⟨taken, htaken⟩ := hcontent
      rcases List.eq_nil_or_concat content with hempty | ⟨front, last, rfl⟩
      · exact hempty
      · have hstream : streamOf ((texts ++ [text]).map .command) =
            streamOf (texts.map .command) ++ text ++ [cmdTerminator] := by
          simp [streamOf, StreamSegment.bytes]
        rw [hstream, List.concat_eq_append, ← List.append_assoc] at htaken
        obtain ⟨_, hlast⟩ := List.append_inj' htaken rfl
        obtain rfl := List.singleton_inj.1 hlast
        simp at hnone

/-- Whole messages in the buffer: only the commands behind the last frame are
carried out. -/
theorem processSerialLoop_messages (stack : Nat → FsPacketUnion) (fuel : Nat)
    {segments : List StreamSegment} (hplain : PlainMessages segments)
    (hpad : padChar ∉ streamOf segments) {driver : Driver}
    (hpending : driver.pending = streamOf segments)
    (hqueue : driver.device.commandQueue.toList = []) (hfuel : driver.pending.length < fuel) :
    ∃ code after, processSerialLoop stack fuel driver = some (code, after) ∧
      after.pending = [] ∧ after.device.commandQueue.toList = [] ∧
      after.device.field = assignAll driver.device.field
        ((behindLastFrame segments).flatMap StreamSegment.writes) := by
  induction fuel generalizing segments driver with
  | zero => omega
  | succ fuel ih =>
      rcases commands_or_frame segments with ⟨texts, rfl⟩ | ⟨texts, kind, payload, later, rfl⟩
      · have hread := readAs_messages hplain (by
          rw [behindLastFrame_commands]
          exact fun write hwrite => ⟨write, hwrite, rfl⟩)
        rw [← hpending] at hpad
        obtain ⟨code, after, left, hloop, hsuffix, hempty, hstopped, hleft, houtcome⟩ :=
          @processSerialLoop_readAs stack (fuel + 1) driver hpad hqueue hfuel [] _
            (by rw [List.append_nil, hpending]; exact hread)
        rw [List.append_nil] at hleft
        obtain rfl := hleft.of_stopped hstopped.1 hstopped.2
        rw [hpending] at hsuffix
        refine ⟨code, after, hloop, eq_nil_of_suffix_commands hsuffix hstopped.1, hempty, ?_⟩
        rw [behindLastFrame_commands]
        exact houtcome.fields
      · have hframe := frameAt_messages hplain.plain
        have hstream := hpending.trans (streamOf_frame (texts.map .command) kind payload later)
        obtain ⟨handled, next, hhandle, hnext, hround, hpost⟩ :=
          serialRound_takes_frame stack hframe hstream (by rw [hpending]; exact hpad)
        have hless := serialRound_progress stack driver next hround
        obtain ⟨queue, last, saver, hdevice⟩ := onlyDelivers_handleFrame hhandle
        have hlater : padChar ∉ streamOf later := by
          rw [← hpending, hstream] at hpad
          exact fun hmem => hpad (List.mem_append_right _ (List.mem_cons_of_mem _ hmem))
        obtain ⟨code, after, hloop, hempty, hqueue', hfield⟩ :=
          @ih later hplain.of_append.of_cons hlater next hpost
            (by rw [hnext, popData, hdevice]; exact hqueue) (by omega)
        refine ⟨code, after, ?_, hempty, hqueue', ?_⟩
        · rw [processSerialLoop, hround]
          exact hloop
        · rw [hfield, behindLastFrame_frame, hnext, popData, hdevice]
          rfl

/-- One call on whole messages. -/
theorem fsDeviceParsePacket_messages (stack : Nat → FsPacketUnion)
    {segments : List StreamSegment} (hplain : PlainMessages segments)
    (hpad : padChar ∉ streamOf segments) (hlength : (streamOf segments).length ≤ fsMaxDataLength)
    (hne : streamOf segments ≠ []) {driver : Driver} (hempty : driver.pending = [])
    (hqueue : driver.device.commandQueue.toList = []) :
    ∃ after, (fsDeviceParsePacket stack driver (streamOf segments) .uart).map Prod.snd =
        some after ∧
      after.pending = [] ∧ after.device.commandQueue.toList = [] ∧
      after.device.field = assignAll driver.device.field
        ((behindLastFrame segments).flatMap StreamSegment.writes) := by
  have hpending := @pending_receive_of_room driver (streamOf segments)
    (by rw [hempty, List.length_nil, Nat.zero_add]; exact hlength)
  rw [hempty, List.nil_append] at hpending
  obtain ⟨code, after, hloop, hafter⟩ := @processSerialLoop_messages stack
    ((driver.receive (streamOf segments)).pending.length + 1) segments hplain hpad
    (driver.receive (streamOf segments)) hpending hqueue (Nat.lt_succ_self _)
  refine ⟨after, ?_, hafter⟩
  rw [fsDeviceParsePacket_uart stack driver hne, fsDeviceProcessPacketsSerial_eq, hloop]
  rfl

theorem bytes_ne_nil (segment : StreamSegment) : segment.bytes ≠ [] := by
  cases segment <;> simp [StreamSegment.bytes]

/-- One message in each read: every command is carried out. -/
theorem parseRun_messages (stack : Nat → FsPacketUnion) {segments : List StreamSegment}
    (hplain : PlainMessages segments) (hpad : padChar ∉ streamOf segments)
    (hlength : (streamOf segments).length ≤ fsMaxDataLength) {driver : Driver}
    (hempty : driver.pending = []) (hqueue : driver.device.commandQueue.toList = []) :
    ∃ after, parseRun stack driver (segments.map StreamSegment.bytes) = some after ∧
      after.device.field = assignAll driver.device.field
        (segments.flatMap StreamSegment.writes) := by
  induction segments generalizing driver with
  | nil => exact ⟨driver, rfl, rfl⟩
  | cons segment segments ih =>
      have hone : streamOf [segment] = segment.bytes := by simp [streamOf]
      rw [streamOf_cons] at hpad hlength
      rw [List.mem_append, not_or] at hpad
      rw [List.length_append] at hlength
      have hsingle : PlainMessages [segment] := by
        refine ⟨fun other hother => hplain.plain other
          (List.mem_singleton.1 hother ▸ List.mem_cons_self), ?_⟩
        have hcount := hplain.count
        rw [streamOf_cons, List.count_append] at hcount
        rw [hone]
        omega
      have hcall := @fsDeviceParsePacket_messages stack [segment] hsingle
        (by rw [hone]; exact hpad.1) (by rw [hone]; omega)
        (by rw [hone]; exact bytes_ne_nil segment) driver hempty hqueue
      rw [hone] at hcall
      obtain ⟨next, hnext, hpending, hqueue', hfield⟩ := hcall
      have hwrites : next.device.field = assignAll driver.device.field segment.writes := by
        rw [hfield]
        cases segment with
        | frame kind payload => rfl
        | command text => exact congrArg _ (List.append_nil _)
      obtain ⟨after, hafter, hrest⟩ := ih hplain.of_cons hpad.2 (by omega) hpending hqueue'
      refine ⟨after, ?_, ?_⟩
      · rw [parseRun, List.map_cons, List.foldlM_cons, hnext]
        exact hafter
      · rw [hrest, hwrites, List.flatMap_cons, assignAll_append]

/-- Whole messages with the same result in every split assign behind the last
frame whatever they assign at all. -/
theorem writtenAgain_of_splitIndependent {segments : List StreamSegment}
    (hplain : PlainMessages segments) (hpad : padChar ∉ streamOf segments)
    (hlength : (streamOf segments).length ≤ fsMaxDataLength)
    (hsplit : SplitIndependent (streamOf segments)) :
    WrittenAgain (segments.flatMap StreamSegment.writes) (behindLastFrame segments) := by
  by_cases hne : streamOf segments = []
  · cases segments with
    | nil => exact fun write hwrite => absurd hwrite List.not_mem_nil
    | cons segment segments =>
        rw [streamOf_cons, List.append_eq_nil_iff] at hne
        exact absurd hne.1 (bytes_ne_nil segment)
  have hagree : ∀ byte : UInt8,
      assignAll (filledDevice byte).field (segments.flatMap StreamSegment.writes) =
        assignAll (filledDevice byte).field
          ((behindLastFrame segments).flatMap StreamSegment.writes) := by
    intro byte
    have hchunks : ∀ chunk ∈ segments.map StreamSegment.bytes, chunk ≠ [] := by
      intro chunk hchunk
      obtain ⟨segment, _, rfl⟩ := List.mem_map.1 hchunk
      exact bytes_ne_nil segment
    obtain ⟨first, second, hfirst, hsecond, hsame⟩ :=
      hsplit ⟨filledDevice byte, .zero fsMaxPacketLength, []⟩ (fun _ => .zero 185)
        (fun _ => .zero 185) (segments.map StreamSegment.bytes) [streamOf segments] rfl rfl
        List.flatMap_def.symm List.flatten_singleton hchunks (by simpa using hne)
    obtain ⟨each, heach, hall⟩ := @parseRun_messages (fun _ => .zero 185) segments hplain hpad
      hlength ⟨filledDevice byte, .zero fsMaxPacketLength, []⟩ rfl rfl
    obtain ⟨whole, hwhole, _, _, hlast⟩ := @fsDeviceParsePacket_messages (fun _ => .zero 185)
      segments hplain hpad hlength hne ⟨filledDevice byte, .zero fsMaxPacketLength, []⟩ rfl rfl
    obtain rfl := Option.some.inj (hfirst.symm.trans heach)
    rw [parseRun, List.foldlM_cons, hwhole] at hsecond
    obtain rfl := Option.some.inj hsecond
    exact hall.symm.trans (hsame.fields.trans hlast)
  have hdiffer : ∀ field, (filledDevice 0).field field ≠ (filledDevice 1).field field := by
    intro field
    cases field <;> decide
  have hlast := (forall_assignAll_eq_iff (fun byte => (filledDevice byte).field) _ _ (by
    intro write _ value
    by_cases hvalue : (filledDevice 0).field write.1 = value
    · exact ⟨1, fun heq => hdiffer write.1 (hvalue.trans heq.symm)⟩
    · exact ⟨0, hvalue⟩)).1 hagree
  intro write hwrite
  have hsome := (lastWrite_isSome_iff write.1 _).2 ⟨write, hwrite, rfl⟩
  rw [hlast] at hsome
  exact (lastWrite_isSome_iff write.1 _).1 hsome

/-- A stream that can be read as the same segments in whatever reads it arrives
has the same result in every split, and among the streams of whole frames and
plain commands no other one has. -/
theorem splitIndependent_readAs (stream : List UInt8) (segments : List StreamSegment)
    (hlength : stream.length ≤ fsMaxDataLength) (hpad : padChar ∉ stream) :
    (ReadAs stream segments → SplitIndependent stream) ∧
      (PlainMessages segments → stream = streamOf segments → SplitIndependent stream →
        ReadAs stream segments) := by
  refine ⟨splitIndependent_of_readAs hlength hpad, ?_⟩
  rintro hplain rfl hsplit
  exact readAs_messages hplain
    (writtenAgain_of_splitIndependent hplain hpad hlength hsplit)

/-- A frame and a name behind it. -/
theorem splitIndependent_frame_then_name :
    SplitIndependent [58, 65, 65, 65, 65, 33, 73, 97, 59] := by
  apply (splitIndependent_readAs [58, 65, 65, 65, 65, 33, 73, 97, 59]
    [.frame .base64 [65, 65, 65, 65], .command [73, 97]] (by decide) (by decide)).1
  apply ReadAs.frame .base64 [] [65, 65, 65, 65] [73, 97, 59] _
    ⟨by decide, by decide, by decide, fun hmem => absurd hmem (by decide)⟩ (by decide) (by decide)
  have hfooter : packetFooter ∉ [73, 97, 59] := by decide
  apply ReadAs.command [73, 97] [] [] (by decide) (Or.inl (noFrame_of_not_mem hfooter))
  · intro content hcontent _ _
    apply handledApart_of_plain (fun hmem => hfooter (hcontent.subset hmem))
    · intro inByte hmem
      have hall := hcontent.subset hmem
      simp only [List.mem_append, List.mem_cons, List.not_mem_nil, or_false] at hall
      rcases hall with (rfl | rfl) | rfl <;> rfl
    · exact (hcontent.sublist.count_le cmdTerminator).trans (by decide)
  · exact .rest [] List.not_mem_nil (noFrame_of_not_mem List.not_mem_nil)

/-- A name in front of a frame is lost when one read brings both. -/
theorem not_splitIndependent_name_before_frame :
    [73, 97, 59, 58, 65, 65, 65, 65, 33].length ≤ fsMaxDataLength ∧
      padChar ∉ [73, 97, 59, 58, 65, 65, 65, 65, 33] ∧
      ¬ SplitIndependent [73, 97, 59, 58, 65, 65, 65, 65, 33] := by
  refine ⟨by decide, by decide, ?_⟩
  intro hsplit
  obtain ⟨first, second, hfirst, hsecond, hsame, _⟩ := hsplit driverUninitialized
    (fun _ => .zero 185) (fun _ => .zero 185) [[73, 97, 59, 58, 65, 65, 65, 65, 33]]
    [[73, 97, 59], [58, 65, 65, 65, 65, 33]] rfl rfl rfl rfl (by simp) (by simp)
  have hwhole : (parseRun (fun _ => .zero 185) driverUninitialized
      [[73, 97, 59, 58, 65, 65, 65, 65, 33]]).map (fun after => after.device.field .deviceName) =
        some (.text []) := by decide +kernel
  have hcut : (parseRun (fun _ => .zero 185) driverUninitialized
      [[73, 97, 59], [58, 65, 65, 65, 65, 33]]).map
        (fun after => after.device.field .deviceName) = some (.text [97]) := by decide +kernel
  rw [hfirst, Option.map_some, hsame] at hwhole
  rw [hsecond, Option.map_some, hwhole] at hcut
  exact absurd hcut (by decide)

end Trifecta
