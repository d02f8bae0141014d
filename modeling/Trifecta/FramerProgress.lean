/-
That the serial framer always returns, and when a complete frame stays behind
in its buffer: a footer that no header precedes blocks it until the next
command terminator.
-/
import Trifecta.SerialRounds

namespace Trifecta

open CText Segments

def isHeader (byte : UInt8) : Bool :=
  byte = packetHeader || byte = packetHeaderV2

/-- How a buffer reads from left to right: between segments, where a header may
have been seen; behind a footer that belongs to no frame, where one may have
been seen too; or with a frame lost behind such a footer. -/
inductive FramerSync
  | inStep (header : Bool)
  | blocked (header : Bool)
  | lost
deriving DecidableEq, Repr

def syncByte : FramerSync → UInt8 → FramerSync
  | .inStep header, byte =>
      if isHeader byte then .inStep true
      else if byte = packetFooter then (if header then .inStep false else .blocked false)
      else .inStep header
  | .blocked header, byte =>
      if isHeader byte then .blocked true
      else if byte = packetFooter then (if header then .lost else .blocked false)
      else if byte = cmdTerminator then .inStep false
      else .blocked header
  | .lost, byte => if byte = cmdTerminator then .inStep false else .lost

def syncAfter (content : List UInt8) : FramerSync :=
  content.foldl syncByte (.inStep false)

/-- Reading the buffer to its end leaves no frame lost. -/
def Unblocked (content : List UInt8) : Prop :=
  syncAfter content ≠ .lost

instance (content : List UInt8) : Decidable (Unblocked content) :=
  inferInstanceAs (Decidable (_ ≠ _))

/-- A header is followed by a footer. -/
def HeaderThenFooter (content : List UInt8) : Prop :=
  ∃ front header back, content = front ++ header :: back ∧ isHeader header = true ∧
    packetFooter ∈ back

/-- No command terminator and no complete frame is left. -/
def Drained (content : List UInt8) : Prop :=
  cmdTerminator ∉ content ∧ ¬ HeaderThenFooter content

theorem headerThenFooter_cons (byte : UInt8) (rest : List UInt8) :
    HeaderThenFooter (byte :: rest) ↔
      (isHeader byte = true ∧ packetFooter ∈ rest) ∨ HeaderThenFooter rest := by
  constructor
  · rintro ⟨front, header, back, hsplit, hheader, hfooter⟩
    cases front with
    | nil =>
        obtain ⟨rfl, rfl⟩ := List.cons.inj hsplit
        exact Or.inl ⟨hheader, hfooter⟩
    | cons first front =>
        obtain ⟨_, rfl⟩ := List.cons.inj hsplit
        exact Or.inr ⟨front, header, back, rfl, hheader, hfooter⟩
  · rintro (⟨hheader, hfooter⟩ | ⟨front, header, back, rfl, hheader, hfooter⟩)
    · exact ⟨[], byte, rest, rfl, hheader, hfooter⟩
    · exact ⟨byte :: front, header, back, rfl, hheader, hfooter⟩

theorem headerThenFooter_append {front : List UInt8}
    (hfront : ∀ byte ∈ front, isHeader byte = false) (rest : List UInt8) :
    HeaderThenFooter (front ++ rest) ↔ HeaderThenFooter rest := by
  induction front with
  | nil => rfl
  | cons byte front ih =>
      rw [List.cons_append, headerThenFooter_cons, hfront byte List.mem_cons_self,
        ih fun other hother => hfront other (List.mem_cons_of_mem byte hother)]
      simp

theorem isHeader_header (kind : FrameKind) : isHeader kind.header = true := by
  cases kind <;> rfl

theorem isHeader_packetFooter : isHeader packetFooter = false := by decide

theorem not_isHeader_of_noFrame {pre post : List UInt8}
    (hnoFrame : NoFrame (pre ++ packetFooter :: post)) (hpre : packetFooter ∉ pre) :
    ∀ byte ∈ pre, isHeader byte = false := by
  obtain ⟨hcolon, hbinary⟩ := hnoFrame pre post rfl hpre
  intro byte hbyte
  rw [isHeader, Bool.or_eq_false_iff, decide_eq_false_iff_not, decide_eq_false_iff_not]
  refine ⟨?_, ?_⟩
  · rintro rfl
    exact hcolon hbyte
  · rintro rfl
    exact hbinary hbyte

/-- Without a footer the framer stays between segments. -/
theorem foldl_inStep {front : List UInt8} (hfront : packetFooter ∉ front) (header : Bool) :
    front.foldl syncByte (.inStep header) = .inStep (header || front.any isHeader) := by
  induction front generalizing header with
  | nil => simp
  | cons byte rest ih =>
      rw [List.mem_cons, not_or] at hfront
      rw [List.foldl_cons, syncByte]
      by_cases hheader : isHeader byte = true
      · rw [if_pos hheader, ih hfront.2, List.any_cons, hheader]
        simp
      · rw [if_neg hheader, if_neg (Ne.symm hfront.1), ih hfront.2, List.any_cons]
        simp [hheader]

/-- Out of step, the framer stays so up to a terminator, which brings it back. -/
theorem syncByte_terminator {buffer : List UInt8} (hbuffer : cmdTerminator ∉ buffer)
    {state : FramerSync} (hstate : ∀ header, state ≠ .inStep header) :
    syncByte (buffer.foldl syncByte state) cmdTerminator = .inStep false := by
  induction buffer generalizing state with
  | nil =>
      cases state with
      | inStep header => exact absurd rfl (hstate header)
      | blocked header => rfl
      | lost => rfl
  | cons byte rest ih =>
      rw [List.mem_cons, not_or] at hbuffer
      rw [List.foldl_cons]
      apply ih hbuffer.2
      intro later
      cases state with
      | inStep header => exact absurd rfl (hstate header)
      | blocked header =>
          rw [syncByte, if_neg (Ne.symm hbuffer.1 : byte ≠ cmdTerminator)]
          split_ifs <;> simp
      | lost =>
          rw [syncByte, if_neg (Ne.symm hbuffer.1)]
          simp

theorem foldl_lost {buffer : List UInt8} (hbuffer : cmdTerminator ∉ buffer) :
    buffer.foldl syncByte .lost = .lost := by
  induction buffer with
  | nil => rfl
  | cons byte rest ih =>
      rw [List.mem_cons, not_or] at hbuffer
      rw [List.foldl_cons, syncByte, if_neg (Ne.symm hbuffer.1), ih hbuffer.2]

/-- Behind a footer of no frame, a header and a later footer make a lost
frame. -/
theorem foldl_blocked {buffer : List UInt8} (hbuffer : cmdTerminator ∉ buffer)
    (header : Bool) :
    buffer.foldl syncByte (.blocked header) = .lost ↔
      (header = true ∧ packetFooter ∈ buffer) ∨ HeaderThenFooter buffer := by
  induction buffer generalizing header with
  | nil => simp [HeaderThenFooter]
  | cons byte rest ih =>
      rw [List.mem_cons, not_or] at hbuffer
      rw [List.foldl_cons, headerThenFooter_cons, syncByte]
      by_cases hheader : isHeader byte = true
      · have hne : packetFooter ≠ byte := by
          rintro rfl
          exact absurd hheader (by decide)
        rw [if_pos hheader, ih hbuffer.2]
        simp only [hheader, true_and, List.mem_cons, hne, false_or]
        tauto
      · rw [if_neg hheader]
        by_cases hfooter : byte = packetFooter
        · subst hfooter
          rw [if_pos rfl]
          cases header with
          | true => simp [foldl_lost hbuffer.2]
          | false => simp [ih hbuffer.2, isHeader_packetFooter]
        · rw [if_neg hfooter, if_neg (Ne.symm hbuffer.1), ih hbuffer.2]
          simp [hheader, Ne.symm hfooter]

/-- Taking a frame off the front keeps the reading of the rest. -/
theorem syncAfter_frame {front payload : List UInt8} {header : UInt8}
    (hheader : isHeader header = true) (hfront : packetFooter ∉ front)
    (hpayload : packetFooter ∉ payload) (post : List UInt8) :
    syncAfter (front ++ header :: payload ++ packetFooter :: post) = syncAfter post := by
  have hpre : packetFooter ∉ front ++ header :: payload := by
    simp only [List.mem_append, List.mem_cons, not_or]
    refine ⟨hfront, ?_, hpayload⟩
    rintro rfl
    exact absurd hheader (by decide)
  have hany : (front ++ header :: payload).any isHeader = true := by simp [hheader]
  rw [syncAfter, List.foldl_append, foldl_inStep hpre, hany, List.foldl_cons]
  rfl

/-- So does taking a command off, as far as losing a frame goes. -/
theorem syncAfter_command {front post : List UInt8} (hfront : cmdTerminator ∉ front)
    (hnoFrame : NoFrame (front ++ cmdTerminator :: post)) :
    syncAfter (front ++ cmdTerminator :: post) = .lost ↔ syncAfter post = .lost := by
  by_cases hfooter : packetFooter ∈ front
  · -- the stray footer comes first, and the terminator ends the blocked stretch
    obtain ⟨pre, middle, rfl, hpre⟩ := List.eq_append_cons_of_mem hfooter
    rw [List.append_assoc, List.cons_append] at hnoFrame
    have hnot := not_isHeader_of_noFrame hnoFrame hpre
    have hany : pre.any isHeader = false := by simpa using hnot
    have hmiddle : cmdTerminator ∉ middle := fun hmem =>
      hfront (List.mem_append_right _ (List.mem_cons_of_mem _ hmem))
    have hstep : syncByte (.inStep false) packetFooter = .blocked false := rfl
    have hback := @syncByte_terminator middle hmiddle (.blocked false) (by simp)
    rw [syncAfter, List.foldl_append, List.foldl_append, foldl_inStep hpre, hany,
      Bool.false_or, List.foldl_cons, List.foldl_cons, hstep, hback]
    rfl
  · have hstep : ∀ header, syncByte (.inStep header) cmdTerminator = .inStep header := by
      intro header
      rfl
    rw [syncAfter, List.foldl_append, foldl_inStep hfooter, List.foldl_cons, hstep,
      Bool.false_or]
    by_cases hlater : packetFooter ∈ post
    · obtain ⟨pre, rest, rfl, hpre⟩ := List.eq_append_cons_of_mem hlater
      have hsplit : front ++ cmdTerminator :: (pre ++ packetFooter :: rest) =
          (front ++ cmdTerminator :: pre) ++ packetFooter :: rest := by simp
      have hboth : packetFooter ∉ front ++ cmdTerminator :: pre := by
        simp only [List.mem_append, List.mem_cons, not_or]
        exact ⟨hfooter, by decide, hpre⟩
      rw [hsplit] at hnoFrame
      have hnot := not_isHeader_of_noFrame hnoFrame hboth
      have hany : front.any isHeader = false := by
        rw [List.any_eq_false]
        intro byte hbyte
        simp [hnot byte (List.mem_append_left _ hbyte)]
      rw [hany]
      rfl
    · rw [syncAfter, foldl_inStep hlater, foldl_inStep hlater]
      simp

/-- When the framer stops, a frame is left behind exactly when one is lost. -/
theorem syncAfter_stopped {content : List UInt8} (hnone : cmdTerminator ∉ content)
    (hnoFrame : NoFrame content) : syncAfter content = .lost ↔ HeaderThenFooter content := by
  by_cases hfooter : packetFooter ∈ content
  · obtain ⟨pre, post, rfl, hpre⟩ := List.eq_append_cons_of_mem hfooter
    have hnot := not_isHeader_of_noFrame hnoFrame hpre
    have hany : pre.any isHeader = false := by simpa using hnot
    have hpost : cmdTerminator ∉ post := fun hmem =>
      hnone (List.mem_append_right _ (List.mem_cons_of_mem _ hmem))
    have hstep : syncByte (.inStep false) packetFooter = .blocked false := rfl
    rw [syncAfter, List.foldl_append, foldl_inStep hpre, hany, Bool.false_or, List.foldl_cons,
      hstep, foldl_blocked hpost, headerThenFooter_append hnot, headerThenFooter_cons,
      isHeader_packetFooter]
  · rw [syncAfter, foldl_inStep hfooter]
    refine ⟨fun hlost => absurd hlost (by simp), ?_⟩
    rintro ⟨front, header, back, rfl, _, hback⟩
    exact absurd (List.mem_append_right front (List.mem_cons_of_mem header hback)) hfooter

/-- A round that goes on neither loses a frame nor finds a lost one again. -/
theorem serialRound_sync (stack : Nat → FsPacketUnion) {driver : Driver}
    (hpad : padChar ∉ driver.pending) :
    (Stopped driver ∧ ∃ code, serialRound stack driver = some (.returned code driver)) ∨
      ∃ next, serialRound stack driver = some (.again next) ∧ next.pending <:+ driver.pending ∧
        (syncAfter next.pending = .lost ↔ syncAfter driver.pending = .lost) := by
  cases roundCase stack hpad with
  | stopped code hstopped hround => exact Or.inl ⟨hstopped, code, hround⟩
  | command text post next htext hnoFrame hpending hnext hround hpost =>
      refine Or.inr ⟨next, hround, ?_, ?_⟩
      · rw [hpost, hpending]
        exact suffix_of_frame _ _ _
      · rw [hpending] at hnoFrame
        rw [hpost, hpending]
        exact (syncAfter_command htext hnoFrame).symm
  | frame kind front payload post handled next hframe hpending hhandle hnext hround hpost =>
      refine Or.inr ⟨next, hround, ?_, ?_⟩
      · rw [hpost, hpending]
        exact suffix_of_frame _ _ _
      · rw [hpost, hpending, syncAfter_frame (isHeader_header kind) hframe.frontPlain
          hframe.payloadPlain]

/-- On content without padding characters the loop returns, with a suffix of
the content on which it can do nothing, and a frame is lost there exactly when
one is lost in the content. -/
theorem processSerialLoop_spec (stack : Nat → FsPacketUnion) (fuel : Nat) (driver : Driver)
    (hpad : padChar ∉ driver.pending) (hfuel : driver.pending.length < fuel) :
    ∃ code after, processSerialLoop stack fuel driver = some (code, after) ∧
      after.pending <:+ driver.pending ∧ Stopped after ∧
      (syncAfter after.pending = .lost ↔ syncAfter driver.pending = .lost) := by
  induction fuel generalizing driver with
  | zero => omega
  | succ fuel ih =>
      rcases serialRound_sync stack hpad with
        ⟨hstopped, code, hround⟩ | ⟨next, hround, hsuffix, hsync⟩
      · refine ⟨code, driver, ?_, List.suffix_rfl, hstopped, Iff.rfl⟩
        rw [processSerialLoop, hround]
      · have hless := serialRound_progress stack driver next hround
        obtain ⟨code, after, hloop, hafter, hstopped, hlost⟩ :=
          ih next (fun hmem => hpad (hsuffix.subset hmem)) (by omega)
        refine ⟨code, after, ?_, hafter.trans hsuffix, hstopped, hlost.trans hsync⟩
        rw [processSerialLoop, hround]
        exact hloop

/-- The newest 512 bytes of what waits and what arrives: what one call of the
framer works on. -/
def framerContent (driver : Driver) (rxBuf : List UInt8) : List UInt8 :=
  (driver.pending ++ rxBuf).rtake fsMaxDataLength

theorem framerContent_suffix (driver : Driver) (rxBuf : List UInt8) :
    framerContent driver rxBuf <:+ driver.pending ++ rxBuf := by
  rw [framerContent, List.rtake]
  exact List.drop_suffix _ _

/-- The driver with received bytes in its data buffer. -/
def Driver.receive (driver : Driver) (rxBuf : List UInt8) : Driver :=
  { driver with
    device := { driver.device with dataBuffer := fsCbPush driver.device.dataBuffer rxBuf } }

theorem pending_receive (driver : Driver) (rxBuf : List UInt8) :
    (driver.receive rxBuf).pending = framerContent driver rxBuf :=
  RingBuffer.toList_pushAll driver.device.dataBuffer rxBuf

theorem pending_receive_of_room {driver : Driver} {rxBuf : List UInt8}
    (hroom : driver.pending.length + rxBuf.length ≤ fsMaxDataLength) :
    (driver.receive rxBuf).pending = driver.pending ++ rxBuf := by
  rw [pending_receive, framerContent, RingBuffer.rtake_of_length_le]
  rw [List.length_append]
  exact hroom

theorem fsDeviceProcessPacketsSerial_eq (stack : Nat → FsPacketUnion) (driver : Driver)
    (rxBuf : List UInt8) :
    fsDeviceProcessPacketsSerial stack driver rxBuf =
      processSerialLoop stack ((driver.receive rxBuf).pending.length + 1)
        (driver.receive rxBuf) := by
  rw [Driver.pending, RingBuffer.length_toList]
  rfl

/-- One call returns, and it leaves its buffer drained exactly when its content
reads to the end unblocked. -/
theorem fsDeviceProcessPacketsSerial_spec (stack : Nat → FsPacketUnion) (driver : Driver)
    (rxBuf : List UInt8) (hpad : padChar ∉ driver.pending ++ rxBuf) :
    ∃ code after, fsDeviceProcessPacketsSerial stack driver rxBuf = some (code, after) ∧
      after.pending <:+ driver.pending ++ rxBuf ∧
      (Drained after.pending ↔ Unblocked (framerContent driver rxBuf)) := by
  have hsuffix := framerContent_suffix driver rxBuf
  obtain ⟨code, after, hloop, hafter, hstopped, hlost⟩ := processSerialLoop_spec stack
    ((driver.receive rxBuf).pending.length + 1) (driver.receive rxBuf)
    (by rw [pending_receive]; exact fun hmem => hpad (hsuffix.subset hmem))
    (Nat.lt_succ_self _)
  rw [← fsDeviceProcessPacketsSerial_eq] at hloop
  rw [pending_receive] at hafter hlost
  refine ⟨code, after, hloop, hafter.trans hsuffix, ?_⟩
  rw [Drained, Unblocked, Ne, ← hlost, syncAfter_stopped hstopped.1 hstopped.2]
  simp [hstopped.1]

/-- Chunks fed one after another. -/
def serialRun (stack : Nat → FsPacketUnion) (driver : Driver) (chunks : List (List UInt8)) :
    Option Driver :=
  chunks.foldlM (fun current chunk =>
    (fsDeviceProcessPacketsSerial stack current chunk).map Prod.snd) driver

theorem serialRun_concat (stack : Nat → FsPacketUnion) (driver : Driver)
    (chunks : List (List UInt8)) (chunk : List UInt8) :
    serialRun stack driver (chunks ++ [chunk]) =
      (serialRun stack driver chunks).bind fun before =>
        (fsDeviceProcessPacketsSerial stack before chunk).map Prod.snd := by
  simp [serialRun]

/-- Streams without padding characters never keep the framer from
returning. -/
theorem serialRun_returns (stack : Nat → FsPacketUnion) {driver : Driver}
    (hempty : driver.pending = []) (chunks : List (List UInt8))
    (hpad : ∀ chunk ∈ chunks, padChar ∉ chunk) :
    ∃ after, serialRun stack driver chunks = some after ∧ padChar ∉ after.pending := by
  induction chunks using List.reverseRecOn with
  | nil => exact ⟨driver, rfl, by simp [hempty]⟩
  | append_singleton chunks chunk ih =>
      obtain ⟨before, hbefore, hplain⟩ :=
        ih fun other hother => hpad other (List.mem_append_left _ hother)
      have hboth : padChar ∉ before.pending ++ chunk := by
        rw [List.mem_append, not_or]
        exact ⟨hplain, hpad chunk (by simp)⟩
      obtain ⟨code, after, hcall, hsuffix, _⟩ :=
        fsDeviceProcessPacketsSerial_spec stack before chunk hboth
      refine ⟨after, ?_, fun hmem => hboth (hsuffix.subset hmem)⟩
      rw [serialRun_concat, hbefore, Option.bind_some, hcall, Option.map_some]

/-- Every call of the run returns, every round that goes on has removed a byte,
and after every call the buffer is drained. -/
structure NeverStuck (stack : Nat → FsPacketUnion) (driver : Driver)
    (chunks : List (List UInt8)) : Prop where
  returns : ∀ front chunk, front ++ [chunk] <+: chunks →
    ∀ before, serialRun stack driver front = some before →
      ∃ code after, fsDeviceProcessPacketsSerial stack before chunk = some (code, after)
  progress : ∀ before next, serialRound stack before = some (.again next) →
    next.pending.length < before.pending.length
  drained : ∀ front chunk, front ++ [chunk] <+: chunks →
    ∀ before, serialRun stack driver front = some before →
      ∀ code after, fsDeviceProcessPacketsSerial stack before chunk = some (code, after) →
        Drained after.pending

/-- A run never gets stuck exactly when the content of every call reads to its
end unblocked. -/
theorem neverStuck_iff (stack : Nat → FsPacketUnion) (driver : Driver)
    (chunks : List (List UInt8)) (hempty : driver.pending = [])
    (hpad : ∀ chunk ∈ chunks, padChar ∉ chunk) :
    NeverStuck stack driver chunks ↔
      ∀ front chunk, front ++ [chunk] <+: chunks →
        ∀ before, serialRun stack driver front = some before →
          Unblocked (framerContent before chunk) := by
  have hcall : ∀ front chunk, front ++ [chunk] <+: chunks →
      ∀ before, serialRun stack driver front = some before →
        ∃ code after, fsDeviceProcessPacketsSerial stack before chunk = some (code, after) ∧
          (Drained after.pending ↔ Unblocked (framerContent before chunk)) := by
    intro front chunk hfront before hbefore
    have hmem : ∀ other ∈ front ++ [chunk], padChar ∉ other := fun other hother =>
      hpad other (hfront.subset hother)
    obtain ⟨reached, hreached, hplain⟩ := serialRun_returns stack hempty front
      fun other hother => hmem other (List.mem_append_left _ hother)
    obtain rfl := Option.some.inj (hreached.symm.trans hbefore)
    obtain ⟨code, after, hresult, _, hdrained⟩ := fsDeviceProcessPacketsSerial_spec stack
      reached chunk (by
        rw [List.mem_append, not_or]
        exact ⟨hplain, hmem chunk (by simp)⟩)
    exact ⟨code, after, hresult, hdrained⟩
  constructor
  · intro hnever front chunk hfront before hbefore
    obtain ⟨code, after, hresult, hdrained⟩ := hcall front chunk hfront before hbefore
    exact hdrained.1 (hnever.drained front chunk hfront before hbefore code after hresult)
  · intro hunblocked
    refine ⟨?_, serialRound_progress stack, ?_⟩
    · intro front chunk hfront before hbefore
      obtain ⟨code, after, hresult, _⟩ := hcall front chunk hfront before hbefore
      exact ⟨code, after, hresult⟩
    · intro front chunk hfront before hbefore code after hresult
      obtain ⟨code', after', hresult', hdrained⟩ := hcall front chunk hfront before hbefore
      obtain rfl : after' = after :=
        congrArg Prod.snd (Option.some.inj (hresult'.symm.trans hresult))
      exact hdrained.2 (hunblocked front chunk hfront before hbefore)

/-- A driver with nothing received. -/
def driverUninitialized : Driver where
  device := fsDeviceInfoUninitialized
  currentDecodeBuffer := .zero fsMaxPacketLength
  enqueued := []

/-- A frame in one chunk. -/
theorem neverStuck_one_frame :
    NeverStuck (fun _ => .zero 185) driverUninitialized [[58, 65, 65, 65, 65, 33]] := by
  apply (neverStuck_iff (fun _ => .zero 185) driverUninitialized [[58, 65, 65, 65, 65, 33]]
    rfl ?_).2
  · intro front chunk hfront before hbefore
    obtain ⟨rfl, rfl⟩ := concat_prefix_singleton hfront
    obtain rfl := Option.some.inj hbefore
    decide
  · simp [padChar]

/-- A footer left over from a frame that was cut keeps the next frame from
being delivered. -/
theorem not_neverStuck_stray_footer :
    ¬ NeverStuck (fun _ => .zero 185) driverUninitialized [[33, 58, 65, 65, 65, 65, 33]] := by
  intro hnever
  obtain ⟨code, after, hcall, _, hdrained⟩ := fsDeviceProcessPacketsSerial_spec
    (fun _ => .zero 185) driverUninitialized [33, 58, 65, 65, 65, 65, 33] (by decide)
  have hleft := hnever.drained [] [33, 58, 65, 65, 65, 65, 33] List.prefix_rfl
    driverUninitialized rfl code after hcall
  exact absurd (hdrained.1 hleft) (by decide)

end Trifecta
