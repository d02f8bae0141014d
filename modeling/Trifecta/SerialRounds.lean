/-
One round of the serial framer, by what stands at the front of its buffer, and
what rounds never do: stall, grow the buffer, or touch it while handling a
segment.
-/
import Trifecta.CommandFields
import Trifecta.FrameIndependence
import Trifecta.SerialSegments

namespace Trifecta

open CText Segments

/-- The bytes that wait in the data buffer. -/
def Driver.pending (driver : Driver) : List UInt8 :=
  driver.device.dataBuffer.toList

/-- What can stand at the front of a buffer. -/
inductive Front : List UInt8 → Prop
  | binary (front payload post : List UInt8) (hfront : packetFooter ∉ front)
      (hpayload : packetFooter ∉ payload) (hlast : packetHeaderV2 ∉ payload) :
      Front (front ++ packetHeaderV2 :: payload ++ packetFooter :: post)
  | base64 (front payload post : List UInt8) (hfront : packetFooter ∉ front)
      (hpayload : packetFooter ∉ payload) (hlast : packetHeader ∉ payload)
      (hbinary : packetHeaderV2 ∉ front ++ packetHeader :: payload) :
      Front (front ++ packetHeader :: payload ++ packetFooter :: post)
  | command (front post : List UInt8) (hfront : cmdTerminator ∉ front)
      (hnoFrame : NoFrame (front ++ cmdTerminator :: post)) :
      Front (front ++ cmdTerminator :: post)
  | incomplete (content : List UInt8) (hnone : cmdTerminator ∉ content)
      (hnoFrame : NoFrame content) : Front content

theorem front_of_noFrame {content : List UInt8} (hnoFrame : NoFrame content) :
    Front content := by
  by_cases hterminator : cmdTerminator ∈ content
  · obtain ⟨front, post, rfl, hfront⟩ := List.eq_append_cons_of_mem hterminator
    exact .command front post hfront hnoFrame
  · exact .incomplete content hterminator hnoFrame

theorem front_cases (content : List UInt8) : Front content := by
  by_cases hfooter : packetFooter ∈ content
  · obtain ⟨pre, post, rfl, hpre⟩ := List.eq_append_cons_of_mem hfooter
    by_cases hbinary : packetHeaderV2 ∈ pre
    · obtain ⟨front, payload, rfl, hlast⟩ := exists_last_split hbinary
      rw [List.mem_append, List.mem_cons, not_or, not_or] at hpre
      exact .binary front payload post hpre.1 hpre.2.2 hlast
    · by_cases hcolon : packetHeader ∈ pre
      · obtain ⟨front, payload, rfl, hlast⟩ := exists_last_split hcolon
        rw [List.mem_append, List.mem_cons, not_or, not_or] at hpre
        exact .base64 front payload post hpre.1 hpre.2.2 hlast hbinary
      · apply front_of_noFrame
        intro first rest hsplit hfirst
        obtain ⟨rfl, _⟩ := append_cons_unique hpre hfirst hsplit
        exact ⟨hcolon, hbinary⟩
  · apply front_of_noFrame
    rintro first rest rfl _
    simp at hfooter

@[simp] theorem pending_popData (driver : Driver) (length : Nat) :
    (popData driver length).pending = driver.pending.drop length :=
  RingBuffer.toList_discard _ _

theorem peek_eq_pending (driver : Driver) :
    fsCbPeek driver.device.dataBuffer fsMaxDataLength = driver.pending := by
  rw [fsCbPeek, RingBuffer.peek_eq_take, List.take_of_length_le]
  · rfl
  · rw [RingBuffer.length_toList]
    exact driver.device.dataBuffer.count_le

section Handling

variable (stack : Nat → FsPacketUnion) (driver : Driver)

/-- What delivering packets changes of a handle. -/
def OnlyDelivers (before after : FsDeviceInfo) : Prop :=
  ∃ queue last saver, after = { before with
    packetBufQueue := queue, lastReceivedPacket := last, saveContext := saver }

theorem onlyDelivers_segmentPacketsFrom (buf : List UInt8) (rxLen fuel pos : Nat)
    (packetCount : Int) :
    OnlyDelivers driver.device
      (segmentPacketsFrom stack buf rxLen fuel pos packetCount driver).2.device := by
  induction fuel generalizing pos packetCount driver with
  | zero => exact ⟨_, _, _, rfl⟩
  | succ fuel ih =>
      unfold segmentPacketsFrom
      simp only
      split_ifs
      · exact ⟨_, _, _, rfl⟩
      · exact ⟨_, _, _, rfl⟩
      · exact ⟨_, _, _, rfl⟩
      · obtain ⟨queue, last, saver, hafter⟩ := ih (fsEnqueueIntoPacketQueue driver _).2
          (pos + obtainPacketLength (buf[pos]?.getD 0).toNat) (packetCount + 1)
        exact ⟨queue, last, saver, hafter⟩
      · exact ⟨_, _, _, rfl⟩

theorem onlyDelivers_segmentPackets (buf : List UInt8) (rxLen : Nat) :
    OnlyDelivers driver.device (segmentPackets stack driver buf rxLen).2.device := by
  unfold segmentPackets
  split_ifs
  · exact ⟨_, _, _, rfl⟩
  · exact onlyDelivers_segmentPacketsFrom stack driver buf rxLen rxLen 0 0

theorem onlyDelivers_base64ToPacket {driver : Driver} {segment : List UInt8} {length : Nat}
    {result : Int × Driver} (hresult : base64ToPacket driver segment length = some result) :
    OnlyDelivers driver.device result.2.device := by
  unfold base64ToPacket at hresult
  split at hresult
  · exact absurd hresult (by simp)
  · simp only at hresult
    split_ifs at hresult <;>
      · obtain rfl := Option.some.inj hresult
        exact ⟨_, _, _, rfl⟩

theorem OnlyDelivers.deviceParams {before after : FsDeviceInfo}
    (hdelivers : OnlyDelivers before after) : after.deviceParams = before.deviceParams := by
  obtain ⟨queue, last, saver, rfl⟩ := hdelivers
  rfl

theorem pending_of_onlyDelivers {before after : Driver}
    (hdelivers : OnlyDelivers before.device after.device) : after.pending = before.pending := by
  obtain ⟨queue, last, saver, hafter⟩ := hdelivers
  rw [Driver.pending, hafter, Driver.pending]

theorem dataBuffer_fsHandleReceivedCommands (device : FsDeviceInfo) (cmdBuf : List UInt8) :
    (fsHandleReceivedCommands device cmdBuf).2.dataBuffer = device.dataBuffer := by
  have hunset := unset_fsHandleReceivedCommands device cmdBuf
  have hkept := congrArg FsDeviceInfo.dataBuffer hunset
  exact hkept

end Handling

/-! The rounds, by what stands at the front. -/

section Rounds

variable {stack : Nat → FsPacketUnion} {driver : Driver}

theorem serialRound_empty (hempty : driver.pending = []) :
    serialRound stack driver = some (.returned 0 driver) := by
  simp only [serialRound, peek_eq_pending, if_pos hempty]

theorem drop_frame (front payload post : List UInt8) (header : UInt8) :
    (front ++ header :: payload ++ packetFooter :: post).drop (front.length + 1) =
      payload ++ packetFooter :: post := by
  rw [List.append_assoc, List.cons_append, ← List.drop_drop, List.drop_left, List.drop_one,
    List.tail_cons]

theorem drop_whole_frame (front payload post : List UInt8) (header : UInt8) :
    (front ++ header :: payload ++ packetFooter :: post).drop
      (front.length + 1 + payload.length + 1) = post := by
  rw [Nat.add_assoc, ← List.drop_drop, drop_frame, ← List.drop_drop, List.drop_left,
    List.drop_one, List.tail_cons]

theorem sizeSub_payload (front payload : List UInt8) :
    sizeSub (front.length + 1 + payload.length) (front.length + 1) = payload.length := by
  rw [sizeSub, if_pos (Nat.le_add_right _ _), Nat.add_sub_cancel_left]

theorem serialRound_binary {front payload post : List UInt8}
    (hpending : driver.pending = front ++ packetHeaderV2 :: payload ++ packetFooter :: post)
    (hfront : packetFooter ∉ front) (hpayload : packetFooter ∉ payload)
    (hlast : packetHeaderV2 ∉ payload) :
    serialRound stack driver = some (.again (popData
      (segmentPackets stack driver (payload ++ packetFooter :: post)
        (sizeSub payload.length 1)).2 (front.length + 1 + payload.length + 1))) := by
  have hne : driver.pending ≠ [] := by simp [hpending]
  simp only [serialRound, peek_eq_pending, if_neg hne]
  rw [hpending, findSegment_binary hfront hpayload hlast]
  simp only [drop_frame, sizeSub_payload]

theorem serialRound_base64 {front payload post : List UInt8}
    (hpending : driver.pending = front ++ packetHeader :: payload ++ packetFooter :: post)
    (hfront : packetFooter ∉ front) (hpayload : packetFooter ∉ payload)
    (hlast : packetHeader ∉ payload)
    (hbinary : packetHeaderV2 ∉ front ++ packetHeader :: payload) :
    serialRound stack driver =
      (base64ToPacket driver (payload ++ packetFooter :: post) payload.length).map fun decoded =>
        .again (popData decoded.2 (front.length + 1 + payload.length + 1)) := by
  have hne : driver.pending ≠ [] := by simp [hpending]
  simp only [serialRound, peek_eq_pending, if_neg hne]
  rw [hpending, findSegment_base64 hfront hpayload hlast hbinary]
  simp only [drop_frame, sizeSub_payload]

theorem serialRound_command {front post : List UInt8}
    (hpending : driver.pending = front ++ cmdTerminator :: post)
    (hfront : cmdTerminator ∉ front) (hnoFrame : NoFrame (front ++ cmdTerminator :: post)) :
    serialRound stack driver = some (.again (popData
      { driver with device := (fsHandleReceivedCommands driver.device driver.pending).2 }
      (front.length + 1))) := by
  have hne : driver.pending ≠ [] := by simp [hpending]
  simp only [serialRound, peek_eq_pending, if_neg hne]
  rw [hpending, findSegment_of_noFrame hnoFrame, firstIndexFrom_append hfront, Nat.zero_add]

theorem serialRound_incomplete (hne : driver.pending ≠ [])
    (hnone : cmdTerminator ∉ driver.pending) (hnoFrame : NoFrame driver.pending) :
    serialRound stack driver = some (.returned (-1) driver) := by
  simp only [serialRound, peek_eq_pending, if_neg hne]
  rw [findSegment_of_noFrame hnoFrame, firstIndexFrom_of_not_mem hnone]

theorem serialRound_pending_binary {front payload post : List UInt8}
    (hpending : driver.pending = front ++ packetHeaderV2 :: payload ++ packetFooter :: post)
    (hfront : packetFooter ∉ front) (hpayload : packetFooter ∉ payload)
    (hlast : packetHeaderV2 ∉ payload) :
    ∃ next, serialRound stack driver = some (.again next) ∧ next.pending = post := by
  refine ⟨_, serialRound_binary hpending hfront hpayload hlast, ?_⟩
  rw [pending_popData, pending_of_onlyDelivers (onlyDelivers_segmentPackets stack driver _ _),
    hpending, drop_whole_frame]

theorem serialRound_pending_command {front post : List UInt8}
    (hpending : driver.pending = front ++ cmdTerminator :: post)
    (hfront : cmdTerminator ∉ front) (hnoFrame : NoFrame (front ++ cmdTerminator :: post)) :
    ∃ next, serialRound stack driver = some (.again next) ∧ next.pending = post := by
  refine ⟨_, serialRound_command hpending hfront hnoFrame, ?_⟩
  have hkept : Driver.pending
      { driver with device := (fsHandleReceivedCommands driver.device driver.pending).2 } =
        driver.pending :=
    congrArg RingBuffer.toList (dataBuffer_fsHandleReceivedCommands driver.device driver.pending)
  rw [pending_popData, hkept, hpending, ← List.drop_drop, List.drop_left, List.drop_one,
    List.tail_cons]

theorem serialRound_pending_base64 {front payload post : List UInt8}
    (hpending : driver.pending = front ++ packetHeader :: payload ++ packetFooter :: post)
    (hfront : packetFooter ∉ front) (hpayload : packetFooter ∉ payload)
    (hlast : packetHeader ∉ payload)
    (hbinary : packetHeaderV2 ∉ front ++ packetHeader :: payload) {next : Driver}
    (hround : serialRound stack driver = some (.again next)) : next.pending = post := by
  rw [serialRound_base64 hpending hfront hpayload hlast hbinary] at hround
  obtain ⟨decoded, hdecoded, hnext⟩ := Option.map_eq_some_iff.1 hround
  obtain rfl := SerialRound.again.inj hnext
  rw [pending_popData, pending_of_onlyDelivers (onlyDelivers_base64ToPacket hdecoded),
    hpending, drop_whole_frame]

end Rounds

/-- A round that goes on has removed at least one byte. -/
theorem serialRound_progress (stack : Nat → FsPacketUnion) (driver next : Driver)
    (hround : serialRound stack driver = some (.again next)) :
    next.pending.length < driver.pending.length := by
  have hfront := front_cases driver.pending
  generalize hpending : driver.pending = content at hfront
  cases hfront with
  | binary front payload post hfront hpayload hlast =>
      obtain ⟨after, hafter, hpost⟩ :=
        @serialRound_pending_binary stack driver _ _ _ hpending hfront hpayload hlast
      obtain rfl := SerialRound.again.inj (Option.some.inj (hround.symm.trans hafter))
      rw [hpost]
      simp
      omega
  | base64 front payload post hfront hpayload hlast hbinary =>
      rw [serialRound_pending_base64 hpending hfront hpayload hlast hbinary hround]
      simp
      omega
  | command front post hfront hnoFrame =>
      obtain ⟨after, hafter, hpost⟩ :=
        @serialRound_pending_command stack driver _ _ hpending hfront hnoFrame
      obtain rfl := SerialRound.again.inj (Option.some.inj (hround.symm.trans hafter))
      rw [hpost]
      simp
      omega
  | incomplete content hnone hnoFrame =>
      by_cases hempty : driver.pending = []
      · rw [serialRound_empty hempty] at hround
        exact absurd hround (by simp)
      · rw [← hpending] at hnone hnoFrame
        rw [serialRound_incomplete hempty hnone hnoFrame] at hround
        exact absurd hround (by simp)

/-! Both kinds of frames at once, and a round by its outcome. -/

inductive FrameKind
  | binary
  | base64
deriving DecidableEq, Repr

def FrameKind.header : FrameKind → UInt8
  | .binary => packetHeaderV2
  | .base64 => packetHeader

/-- The header that the framer picks before the first footer: the last one of
its kind, and a binary one if there is any. -/
structure FrameAt (kind : FrameKind) (front payload : List UInt8) : Prop where
  frontPlain : packetFooter ∉ front
  payloadPlain : packetFooter ∉ payload
  last : kind.header ∉ payload
  preferred : packetHeaderV2 ∈ front ++ kind.header :: payload → kind = .binary

theorem header_ne_footer (kind : FrameKind) : kind.header ≠ packetFooter := by
  cases kind <;> decide

theorem FrameAt.not_mem {kind : FrameKind} {front payload : List UInt8}
    (hframe : FrameAt kind front payload) : packetFooter ∉ front ++ kind.header :: payload := by
  rw [List.mem_append, List.mem_cons, not_or, not_or]
  exact ⟨hframe.frontPlain, Ne.symm (header_ne_footer kind), hframe.payloadPlain⟩

theorem noFrame_or_frame (content : List UInt8) :
    NoFrame content ∨ ∃ kind front payload post, FrameAt kind front payload ∧
      content = front ++ kind.header :: payload ++ packetFooter :: post := by
  cases front_cases content with
  | binary front payload post hfront hpayload hlast =>
      exact Or.inr ⟨.binary, front, payload, post, ⟨hfront, hpayload, hlast, fun _ => rfl⟩, rfl⟩
  | base64 front payload post hfront hpayload hlast hbinary =>
      exact Or.inr ⟨.base64, front, payload, post,
        ⟨hfront, hpayload, hlast, fun hmem => absurd hmem hbinary⟩, rfl⟩
  | command front post hfront hnoFrame => exact Or.inl hnoFrame
  | incomplete _ hnone hnoFrame => exact Or.inl hnoFrame

/-- What the framer does with a frame that stands at the front of its buffer,
before it takes the frame off. -/
def handleFrame (stack : Nat → FsPacketUnion) (driver : Driver) (kind : FrameKind)
    (payload beyond : List UInt8) : Option Driver :=
  match kind with
  | .binary =>
      some (segmentPackets stack driver (payload ++ packetFooter :: beyond)
        (sizeSub payload.length 1)).2
  | .base64 =>
      (base64ToPacket driver (payload ++ packetFooter :: beyond) payload.length).map Prod.snd

theorem onlyDelivers_handleFrame {stack : Nat → FsPacketUnion} {driver next : Driver}
    {kind : FrameKind} {payload beyond : List UInt8}
    (hhandle : handleFrame stack driver kind payload beyond = some next) :
    OnlyDelivers driver.device next.device := by
  cases kind with
  | binary =>
      obtain rfl := Option.some.inj hhandle
      exact onlyDelivers_segmentPackets stack driver _ _
  | base64 =>
      obtain ⟨result, hresult, rfl⟩ := Option.map_eq_some_iff.1 hhandle
      exact onlyDelivers_base64ToPacket hresult

/-- Decoding returns on every payload without a padding character. -/
theorem base64ToPacket_returns (driver : Driver) {payload : List UInt8} (footer : UInt8)
    (beyond : List UInt8) (hpad : padChar ∉ payload) :
    ∃ result, base64ToPacket driver (payload ++ footer :: beyond) payload.length =
      some result := by
  have hdecode : decodeText (payloadText payload) fsMaxPacketLength 0 ≠ none := by
    unfold decodeText
    simp only
    split_ifs with _ _ hfound
    · simp
    · simp
    · -- the character that stops the decoder would be padding
      intro _
      have hmem : padChar ∈ payloadText payload := by
        cases hget : (payloadText payload)[((payloadText payload).takeWhile
            isBase64).length]? with
        | none =>
            rw [hget] at hfound
            exact absurd hfound (by decide)
        | some c =>
            rw [hget, Option.getD_some] at hfound
            rw [← hfound]
            exact List.mem_of_getElem? hget
      exact hpad (List.mem_of_mem_take ((cString_prefix_memory _).subset hmem))
    · simp
  obtain ⟨decoding, hdecoding⟩ := Option.ne_none_iff_exists'.1 hdecode
  rw [base64ToPacket_eq, hdecoding, Option.map_some]
  exact ⟨_, rfl⟩

theorem handleFrame_returns (stack : Nat → FsPacketUnion) (driver : Driver) (kind : FrameKind)
    {payload : List UInt8} (beyond : List UInt8) (hpad : padChar ∉ payload) :
    ∃ next, handleFrame stack driver kind payload beyond = some next := by
  cases kind with
  | binary => exact ⟨_, rfl⟩
  | base64 =>
      obtain ⟨result, hresult⟩ := base64ToPacket_returns driver packetFooter beyond hpad
      exact ⟨result.2, by rw [handleFrame, hresult, Option.map_some]⟩

theorem serialRound_frame (stack : Nat → FsPacketUnion) {driver : Driver} {kind : FrameKind}
    {front payload post : List UInt8} (hframe : FrameAt kind front payload)
    (hpending : driver.pending = front ++ kind.header :: payload ++ packetFooter :: post) :
    serialRound stack driver = (handleFrame stack driver kind payload post).map fun next =>
      .again (popData next (front.length + 1 + payload.length + 1)) := by
  cases kind with
  | binary =>
      exact serialRound_binary hpending hframe.frontPlain hframe.payloadPlain hframe.last
  | base64 =>
      have hbinary : packetHeaderV2 ∉ front ++ packetHeader :: payload := fun hmem =>
        absurd (hframe.preferred hmem) (by decide)
      rw [serialRound_base64 hpending hframe.frontPlain hframe.payloadPlain hframe.last hbinary,
        handleFrame, Option.map_map]
      rfl

/-- A frame at the front of content without padding characters is taken off. -/
theorem serialRound_takes_frame (stack : Nat → FsPacketUnion) {driver : Driver}
    {kind : FrameKind} {front payload post : List UInt8} (hframe : FrameAt kind front payload)
    (hpending : driver.pending = front ++ kind.header :: payload ++ packetFooter :: post)
    (hpad : padChar ∉ driver.pending) :
    ∃ handled next, handleFrame stack driver kind payload post = some handled ∧
      next = popData handled (front.length + 1 + payload.length + 1) ∧
      serialRound stack driver = some (.again next) ∧ next.pending = post := by
  have hplain : padChar ∉ payload := by
    intro hmem
    rw [hpending] at hpad
    simp [hmem] at hpad
  obtain ⟨handled, hhandle⟩ := handleFrame_returns stack driver kind post hplain
  have hround := serialRound_frame stack hframe hpending
  rw [hhandle, Option.map_some] at hround
  refine ⟨handled, _, hhandle, rfl, hround, ?_⟩
  rw [pending_popData, pending_of_onlyDelivers (onlyDelivers_handleFrame hhandle), hpending,
    drop_whole_frame]

/-- Nothing can be done about what waits. -/
def Stopped (driver : Driver) : Prop :=
  cmdTerminator ∉ driver.pending ∧ NoFrame driver.pending

/-- Where no frame stands at the front, a round does nothing or takes a command
off. -/
theorem serialRound_of_noFrame (stack : Nat → FsPacketUnion) {driver : Driver}
    (hnoFrame : NoFrame driver.pending) :
    (Stopped driver ∧ ∃ code, serialRound stack driver = some (.returned code driver)) ∨
      ∃ text post next, cmdTerminator ∉ text ∧
        driver.pending = text ++ cmdTerminator :: post ∧
        next = popData
          { driver with device := (fsHandleReceivedCommands driver.device driver.pending).2 }
          (text.length + 1) ∧
        serialRound stack driver = some (.again next) ∧ next.pending = post := by
  by_cases hmem : cmdTerminator ∈ driver.pending
  · obtain ⟨text, post, hpending, htext⟩ := List.eq_append_cons_of_mem hmem
    have hfirst := hnoFrame
    rw [hpending] at hfirst
    obtain ⟨next, hround, hpost⟩ :=
      @serialRound_pending_command stack driver text post hpending htext hfirst
    have hnext := @serialRound_command stack driver text post hpending htext hfirst
    exact Or.inr ⟨text, post, next, htext, hpending,
      SerialRound.again.inj (Option.some.inj (hround.symm.trans hnext)), hround, hpost⟩
  · refine Or.inl ⟨⟨hmem, hnoFrame⟩, ?_⟩
    by_cases hempty : driver.pending = []
    · exact ⟨0, serialRound_empty hempty⟩
    · exact ⟨-1, serialRound_incomplete hempty hmem hnoFrame⟩

/-- What one round does on content without padding characters: nothing, or it
takes a command or a frame off the front. -/
inductive RoundCase (stack : Nat → FsPacketUnion) (driver : Driver) : Prop
  | stopped (code : Int) (hstopped : Stopped driver)
      (hround : serialRound stack driver = some (.returned code driver))
  | command (text post : List UInt8) (next : Driver) (htext : cmdTerminator ∉ text)
      (hnoFrame : NoFrame driver.pending)
      (hpending : driver.pending = text ++ cmdTerminator :: post)
      (hnext : next = popData
        { driver with device := (fsHandleReceivedCommands driver.device driver.pending).2 }
        (text.length + 1))
      (hround : serialRound stack driver = some (.again next)) (hpost : next.pending = post)
  | frame (kind : FrameKind) (front payload post : List UInt8) (handled next : Driver)
      (hframe : FrameAt kind front payload)
      (hpending : driver.pending = front ++ kind.header :: payload ++ packetFooter :: post)
      (hhandle : handleFrame stack driver kind payload post = some handled)
      (hnext : next = popData handled (front.length + 1 + payload.length + 1))
      (hround : serialRound stack driver = some (.again next)) (hpost : next.pending = post)

theorem roundCase (stack : Nat → FsPacketUnion) {driver : Driver}
    (hpad : padChar ∉ driver.pending) : RoundCase stack driver := by
  rcases noFrame_or_frame driver.pending with
    hnoFrame | ⟨kind, front, payload, post, hframe, hpending⟩
  · rcases serialRound_of_noFrame stack hnoFrame with
      ⟨hstopped, code, hround⟩ | ⟨text, post, next, htext, hpending, hnext, hround, hpost⟩
    · exact .stopped code hstopped hround
    · exact .command text post next htext hnoFrame hpending hnext hround hpost
  · obtain ⟨handled, next, hhandle, hnext, hround, hpost⟩ :=
      serialRound_takes_frame stack hframe hpending hpad
    exact .frame kind front payload post handled next hframe hpending hhandle hnext hround hpost

/-- What a round leaves waiting is an end of what waited. -/
theorem suffix_of_frame (front post : List UInt8) (delimiter : UInt8) :
    post <:+ front ++ delimiter :: post :=
  (List.suffix_cons _ _).trans (List.suffix_append _ _)

end Trifecta
