/-
A device on a serial line whose packets are being saved: reads from the line,
rounds of the framer and steps of the saving thread in any order.
-/
import Trifecta.MixedStreams
import Trifecta.SaveSession

namespace Trifecta

open RingBuffer Transitions

/-- The handle, the saver that it hands its packets to, how far both threads are,
the file, and what has happened since the recording began. -/
structure Capture where
  driver : Driver
  saver : FsSaveDevice
  /-- the serial thread is in the loop of `fs_device_process_packets_serial` -/
  framing : Bool
  thread : SaveThread
  content : List UInt8
  /-- all bytes read from the line -/
  arrived : List UInt8
  /-- packets whose rows have been written -/
  written : List FsPacketUnion

/-- After `fs_save_begin_device` has returned 0. -/
def captureBegun (driver : Driver) (buffer : Fin fsMaxPacketQueueLength → FsPacketUnion) :
    Capture where
  driver := { driver with enqueued := [] }
  saver := (saveBegun buffer).saver
  framing := false
  thread := (saveBegun buffer).thread
  content := (saveBegun buffer).content
  arrived := []
  written := []

def SerialRound.goesOn : SerialRound → Bool
  | .returned _ _ => false
  | .again _ => true

namespace Capture

/-- The handle with the saver that its `save_context` points to. -/
def linked (capture : Capture) : Driver :=
  { capture.driver with
    device := { capture.driver.device with saveContext := some capture.saver } }

/-- The recording as its saving thread sees it. -/
def session (capture : Capture) : SaveSession where
  saver := capture.saver
  file := true
  saveContext := true
  isOpen := true
  content := capture.content
  onPacket := .idle
  thread := capture.thread
  ending := .notCalled
  accepted := capture.driver.enqueued
  late := []
  written := capture.written
  faulted := false

/-- A read from the line, once the framer has returned. -/
def read (capture : Capture) (chunk : List UInt8) : Capture :=
  if capture.framing ∨ chunk = [] then capture
  else
    { capture with
      driver := capture.driver.receive chunk
      framing := true
      arrived := capture.arrived ++ chunk }

/-- A round of the framer.  While a decoder runs on, no further one is seen. -/
def round (stack : Nat → FsPacketUnion) (capture : Capture) : Capture :=
  if capture.framing then
    match serialRound stack capture.linked with
    | none => capture
    | some outcome =>
        { capture with
          driver := outcome.driver
          saver := outcome.driver.device.saveContext.getD capture.saver
          framing := outcome.goesOn }
  else capture

/-- A step of `save_thread_func`. -/
def save (floats : FloatText) (capture : Capture) : Capture :=
  let saved := threadStep floats capture.session
  { capture with
    saver := saved.saver
    thread := saved.thread
    content := saved.content
    written := saved.written }

end Capture

inductive CaptureAction
  | read (chunk : List UInt8)
  | round
  | save

section Steps

variable (floats : FloatText) (stack : Nat → FsPacketUnion)

def captureStep (capture : Capture) : CaptureAction → Capture
  | .read chunk => capture.read chunk
  | .round => capture.round stack
  | .save => capture.save floats

/-- The packets of a round find room on the ring of the saver. -/
def RoomForRound (capture : Capture) : CaptureAction → Prop
  | .round => capture.framing = true → ∀ outcome ∈ serialRound stack capture.linked,
      capture.saver.packetsToSave.count + outcome.driver.enqueued.length ≤
        capture.driver.enqueued.length + fsMaxPacketQueueLength
  | .read _ | .save => True

end Steps

/-- A read finds room in the data buffer. -/
def RoomForRead (capture : Capture) : CaptureAction → Prop
  | .read chunk => capture.framing = false →
      capture.driver.pending.length + chunk.length ≤ fsMaxDataLength
  | .round | .save => True

/-- The file has the rows of the packets written, and these and the ones that wait
are packets of the device, in order. -/
structure CaptureInvariant (floats : FloatText) (capture : Capture) : Prop where
  running : capture.saver.running = .running
  content : capture.content = savedFile floats capture.written
  order : (capture.written ++ capture.saver.packetsToSave.toList).Sublist
    capture.driver.enqueued

/-- No packet has been dropped. -/
def NothingLost (capture : Capture) : Prop :=
  capture.written ++ capture.saver.packetsToSave.toList = capture.driver.enqueued

section Rounds

variable {floats : FloatText} {stack : Nat → FsPacketUnion} {capture : Capture}

/-- A round hands some packets on to the handle and to the saver. -/
theorem round_cases (stack : Nat → FsPacketUnion) {outcome : SerialRound}
    (hrunning : capture.saver.running = .running) (hframing : capture.framing = true)
    (hround : serialRound stack capture.linked = some outcome) :
    ∃ received, HandsOn capture.linked outcome.driver received ∧
      capture.round stack =
        { capture with
          driver := outcome.driver
          saver := { capture.saver with
            packetsToSave := capture.saver.packetsToSave.pushAll received }
          framing := outcome.goesOn } := by
  obtain ⟨received, hhands⟩ := handsSomeOn_serialRound stack hround
  refine ⟨received, hhands, ?_⟩
  have hsaved := hhands.saved
  rw [Capture.linked, Option.map_some, foldl_fsSaveOnPacket hrunning] at hsaved
  rw [Capture.round, if_pos hframing, hround]
  simp only [hsaved, Option.getD_some]

theorem round_of_none (hround : serialRound stack capture.linked = none) :
    capture.round stack = capture := by
  rw [Capture.round, hround]
  split_ifs <;> rfl

/-- The saving thread pops a packet and writes its row, or only goes on. -/
theorem save_cases (floats : FloatText) (hrunning : capture.saver.running = .running) :
    (∃ thread, capture.save floats = { capture with thread }) ∨
      ∃ packet rest, capture.saver.packetsToSave.pop = some (packet, rest) ∧
        capture.save floats =
          { capture with
            saver := { capture.saver with packetsToSave := rest }
            content := capture.content ++ formatPacket floats packet
            written := capture.written ++ [packet] } := by
  rw [Capture.save, threadStep]
  cases hthread : capture.thread with
  | started => exact Or.inl ⟨.outer, by simp [Capture.session, hthread]⟩
  | outer => exact Or.inl ⟨.inner, by simp [Capture.session, hthread, hrunning]⟩
  | returned => exact Or.inl ⟨.returned, by simp [Capture.session, hthread]⟩
  | inner =>
      cases hpop : capture.saver.packetsToSave.pop with
      | none => exact Or.inl ⟨.outer, by simp [Capture.session, hthread, hpop]⟩
      | some popped =>
          obtain ⟨packet, rest⟩ := popped
          exact Or.inr ⟨packet, rest, rfl,
            by simp [Capture.session, hthread, hpop, SaveSession.write]⟩

theorem captureInvariant_round (hinv : CaptureInvariant floats capture) :
    CaptureInvariant floats (capture.round stack) := by
  by_cases hframing : capture.framing = true
  · cases hround : serialRound stack capture.linked with
    | none =>
        rw [round_of_none hround]
        exact hinv
    | some outcome =>
        obtain ⟨received, hhands, hnext⟩ := round_cases stack hinv.running hframing hround
        rw [hnext]
        refine ⟨hinv.running, hinv.content, ?_⟩
        have henqueued : outcome.driver.enqueued = capture.driver.enqueued ++ received :=
          hhands.enqueued
        rw [henqueued, toList_pushAll]
        have hdropped : ((capture.saver.packetsToSave.toList ++ received).rtake
            fsMaxPacketQueueLength).Sublist (capture.saver.packetsToSave.toList ++ received) :=
          List.drop_sublist _ _
        have hold := hinv.order.append_right received
        rw [List.append_assoc] at hold
        exact (hdropped.append_left capture.written).trans hold
  · rw [Capture.round, if_neg hframing]
    exact hinv

theorem captureInvariant_save (hinv : CaptureInvariant floats capture) :
    CaptureInvariant floats (capture.save floats) := by
  rcases save_cases floats hinv.running with ⟨thread, hnext⟩ | ⟨packet, rest, hpop, hnext⟩
  · rw [hnext]
    exact ⟨hinv.running, hinv.content, hinv.order⟩
  · have horder := hinv.order
    rw [toList_pop hpop] at horder
    rw [hnext]
    refine ⟨hinv.running, ?_, by simpa using horder⟩
    simp only [hinv.content, savedFile, List.map_append, List.flatten_append, List.map_cons,
      List.map_nil, List.flatten_cons, List.flatten_nil, List.append_nil, List.append_assoc]

theorem captureInvariant_step (hinv : CaptureInvariant floats capture) (action : CaptureAction) :
    CaptureInvariant floats (captureStep floats stack capture action) := by
  cases action with
  | read chunk =>
      rw [captureStep, Capture.read]
      split_ifs
      · exact hinv
      · exact ⟨hinv.running, hinv.content, hinv.order⟩
  | round => exact captureInvariant_round hinv
  | save => exact captureInvariant_save hinv

/-- Popping a packet to write it loses none. -/
theorem nothingLost_save_iff (hinv : CaptureInvariant floats capture) :
    NothingLost (capture.save floats) ↔ NothingLost capture := by
  rcases save_cases floats hinv.running with ⟨thread, hnext⟩ | ⟨packet, rest, hpop, hnext⟩
  · rw [hnext]
    exact Iff.rfl
  · rw [hnext, NothingLost, NothingLost, toList_pop hpop]
    simp

/-- A packet that finds the ring full takes the place of an older one. -/
theorem nothingLost_round_iff (hinv : CaptureInvariant floats capture) :
    NothingLost (capture.round stack) ↔
      NothingLost capture ∧ RoomForRound stack capture .round := by
  rw [RoomForRound]
  by_cases hframing : capture.framing = true
  · rw [imp_iff_right hframing]
    cases hround : serialRound stack capture.linked with
    | none =>
        rw [round_of_none hround]
        simp
    | some outcome =>
        obtain ⟨received, hhands, hnext⟩ := round_cases stack hinv.running hframing hround
        have henqueued : outcome.driver.enqueued = capture.driver.enqueued ++ received :=
          hhands.enqueued
        have hroom : (∀ result ∈ some outcome, capture.saver.packetsToSave.count +
              result.driver.enqueued.length ≤
              capture.driver.enqueued.length + fsMaxPacketQueueLength) ↔
            (capture.saver.packetsToSave.toList ++ received).length ≤
              fsMaxPacketQueueLength := by
          simp only [Option.mem_some_iff, forall_eq', henqueued, List.length_append,
            length_toList]
          omega
        rw [hnext, NothingLost, NothingLost, hroom, henqueued, toList_pushAll]
        by_cases hfits : (capture.saver.packetsToSave.toList ++ received).length ≤
            fsMaxPacketQueueLength
        · rw [rtake_of_length_le hfits, ← List.append_assoc, List.append_left_inj,
            and_iff_left hfits]
        · refine iff_of_false ?_ (fun hboth => hfits hboth.2)
          intro hsame
          have hlength := congrArg List.length hsame
          have hbefore := hinv.order.length_le
          simp only [List.rtake, List.length_append, List.length_drop] at hlength hbefore hfits
          omega
  · rw [Capture.round, if_neg hframing]
    simp [hframing]

theorem nothingLost_step_iff (hinv : CaptureInvariant floats capture) (action : CaptureAction) :
    NothingLost (captureStep floats stack capture action) ↔
      NothingLost capture ∧ RoomForRound stack capture action := by
  cases action with
  | read chunk =>
      rw [captureStep, Capture.read, RoomForRound, and_true]
      split_ifs <;> exact Iff.rfl
  | round => exact nothingLost_round_iff hinv
  | save =>
      rw [RoomForRound, and_true]
      exact nothingLost_save_iff hinv

end Rounds

theorem captureInvariant_begun (floats : FloatText) (driver : Driver)
    (buffer : Fin fsMaxPacketQueueLength → FsPacketUnion) :
    CaptureInvariant floats (captureBegun driver buffer) where
  running := rfl
  content := by simp [captureBegun, saveBegun, savedFile]
  order := List.Sublist.refl []

theorem nothingLost_begun (driver : Driver)
    (buffer : Fin fsMaxPacketQueueLength → FsPacketUnion) :
    NothingLost (captureBegun driver buffer) :=
  rfl

section Runs

variable (floats : FloatText) (stack : Nat → FsPacketUnion) (driver : Driver)
  (buffer : Fin fsMaxPacketQueueLength → FsPacketUnion) (actions : List CaptureAction)

theorem captureInvariant_run : CaptureInvariant floats
    (run (captureStep floats stack) (captureBegun driver buffer) actions) := by
  have hstep : ∀ capture action, CaptureInvariant floats capture → True →
      CaptureInvariant floats (captureStep floats stack capture action) :=
    fun _ action hkept _ => captureInvariant_step hkept action
  exact run_invariant hstep (captureInvariant_begun floats driver buffer)
    (along_of_forall (fun _ _ => trivial) _ _)

theorem nothingLost_run_iff :
    NothingLost (run (captureStep floats stack) (captureBegun driver buffer) actions) ↔
      Along (captureStep floats stack) (RoomForRound stack) (captureBegun driver buffer)
        actions := by
  have hstep : ∀ capture action, CaptureInvariant floats capture → True →
      CaptureInvariant floats (captureStep floats stack capture action) :=
    fun _ action hkept _ => captureInvariant_step hkept action
  have hlost := good_run_iff hstep (fun _ action hkept _ => nothingLost_step_iff hkept action)
    (captureInvariant_begun floats driver buffer) (along_of_forall (fun _ _ => trivial) _ actions)
  exact hlost.trans (and_iff_right (nothingLost_begun driver buffer))

end Runs

/-- Whatever arrives and whoever is when at work, the file has a row for each
packet written, these and the packets that wait are packets of the device in
their order, and none has been dropped exactly when every round of the framer
found room on the ring for its packets. -/
theorem capture_keepsOrder (floats : FloatText) (stack : Nat → FsPacketUnion) (driver : Driver)
    (buffer : Fin fsMaxPacketQueueLength → FsPacketUnion) (actions : List CaptureAction) :
    let capture := run (captureStep floats stack) (captureBegun driver buffer) actions
    capture.content = savedFile floats capture.written ∧
      (capture.written ++ capture.saver.packetsToSave.toList).Sublist capture.driver.enqueued ∧
      (capture.written ++ capture.saver.packetsToSave.toList = capture.driver.enqueued ↔
        Along (captureStep floats stack) (RoomForRound stack) (captureBegun driver buffer)
          actions) := by
  have hinv := captureInvariant_run floats stack driver buffer actions
  exact ⟨hinv.content, hinv.order, nothingLost_run_iff floats stack driver buffer actions⟩

/-- What has arrived is a beginning of the stream: some of its messages have been
handled, their packets are the packets of the device, and the rest waits. -/
structure FollowsStream (messages : List DeviceMessage) (capture : Capture) : Prop where
  handled : ∃ done rest, messages = done ++ rest ∧
    capture.arrived = messageStream done ++ capture.driver.pending ∧
    List.Forall₂ SamePacket (packetsOf done) capture.driver.enqueued
  stopped : capture.framing = false → Stopped capture.driver

section Streams

variable {floats : FloatText} {stack : Nat → FsPacketUnion} {messages : List DeviceMessage}
  {capture : Capture}

/-- Nothing that arrives is forgotten. -/
theorem arrived_step (action : CaptureAction) :
    capture.arrived <+: (captureStep floats stack capture action).arrived := by
  cases action with
  | read chunk =>
      rw [captureStep, Capture.read]
      split_ifs
      · exact List.prefix_rfl
      · exact List.prefix_append _ _
  | round =>
      rw [captureStep, Capture.round]
      split_ifs
      · split <;> exact List.prefix_rfl
      · exact List.prefix_rfl
  | save => exact List.prefix_rfl

theorem followsStream_read (hfollows : FollowsStream messages capture) {chunk : List UInt8}
    (hroom : RoomForRead capture (.read chunk)) : FollowsStream messages (capture.read chunk) := by
  rw [Capture.read]
  split_ifs with hbusy
  · exact hfollows
  · rw [not_or, Bool.not_eq_true] at hbusy
    obtain ⟨done, rest, hsplit, harrived, hall⟩ := hfollows.handled
    refine ⟨⟨done, rest, hsplit, ?_, hall⟩, fun hidle => absurd hidle (by simp)⟩
    simp only [harrived, pending_receive_of_room (hroom hbusy.1), List.append_assoc]

/-- A round takes the next messages off, or finds none that is whole. -/
theorem followsStream_round (hinv : CaptureInvariant floats capture)
    (hfollows : FollowsStream messages capture)
    (hstream : capture.arrived <+: messageStream messages) :
    FollowsStream messages (capture.round stack) := by
  by_cases hframing : capture.framing = true
  · obtain ⟨done, rest, rfl, harrived, hall⟩ := hfollows.handled
    rw [harrived, messageStream_append] at hstream
    obtain ⟨next, left, tail, rfl, hpending, hfooter, hterminator⟩ :=
      prefix_of_deviceMessages ((List.prefix_append_right_inj _).1 hstream)
    have hlinked : capture.linked.pending = messageStream next ++ tail := hpending
    rcases serialRound_deviceMessages stack next hfooter hterminator hlinked with
      ⟨rfl, hstopped, code, hround⟩ |
      ⟨taken, later, after, received, rfl, _, hround, hpost, hhands, hsame⟩
    · obtain ⟨received, hhands, hnext⟩ := round_cases stack hinv.running hframing hround
      rw [hnext]
      exact ⟨⟨done, left, rfl, harrived, hall⟩, fun _ => hstopped⟩
    · obtain ⟨_, _, hnext⟩ := round_cases stack hinv.running hframing hround
      rw [hnext]
      refine ⟨⟨done ++ taken, later ++ left, by simp, ?_, ?_⟩, fun hidle => absurd hidle (by
        simp [SerialRound.goesOn])⟩
      · have hafter : SerialRound.driver (.again after) = after := rfl
        simp only [hafter, hpost, harrived, hpending, messageStream_append, List.append_assoc]
      · have hafter : after.enqueued = capture.driver.enqueued ++ received := hhands.enqueued
        change List.Forall₂ SamePacket (packetsOf (done ++ taken)) after.enqueued
        rw [packetsOf_append, hafter]
        exact List.rel_append hall hsame
  · rw [Capture.round, if_neg hframing]
    exact hfollows

theorem followsStream_step (hinv : CaptureInvariant floats capture)
    (hfollows : capture.arrived <+: messageStream messages → FollowsStream messages capture)
    {action : CaptureAction} (hroom : RoomForRead capture action)
    (hstream : (captureStep floats stack capture action).arrived <+: messageStream messages) :
    FollowsStream messages (captureStep floats stack capture action) := by
  have hbefore := (arrived_step action).trans hstream
  have hnow := hfollows hbefore
  cases action with
  | read chunk => exact followsStream_read hnow hroom
  | round => exact followsStream_round hinv hnow hbefore
  | save => exact ⟨hnow.handled, hnow.stopped⟩

/-- Where the framer has stopped, no message is left over. -/
theorem eq_nil_of_stopped {driver : Driver} (hstopped : Stopped driver)
    (hpending : driver.pending = messageStream messages) : messages = [] := by
  have hwhole : driver.pending = messageStream messages ++ [] := by
    rw [hpending, List.append_nil]
  rcases serialRound_deviceMessages (fun _ => .zero 185) messages List.not_mem_nil
      List.not_mem_nil hwhole with ⟨hnil, _⟩ | ⟨_, _, _, _, _, _, hagain, _⟩
  · exact hnil
  · rcases serialRound_of_noFrame (fun _ => .zero 185) hstopped.2 with
      ⟨_, code, hround⟩ | ⟨text, post, _, _, hsplit, _⟩
    · rw [hround] at hagain
      exact absurd hagain (by simp)
    · exact absurd (hsplit ▸ hstopped.1) (by simp)

end Streams

/-- From the line to the file: whenever what has arrived, in whatever reads, is a beginning
of a stream of packets and commands, each packet of the messages that have been handled is
written or waits, once and in order, and the file has the rows of those written, if reads
and rounds found room in the two rings.  All messages have been handled once the stream is
complete and the framer has returned. -/
theorem capture_mixedStream (floats : FloatText) (stack : Nat → FsPacketUnion) (driver : Driver)
    (buffer : Fin fsMaxPacketQueueLength → FsPacketUnion) (messages : List DeviceMessage)
    (actions : List CaptureAction) (hempty : driver.pending = [])
    (hread : Along (captureStep floats stack) RoomForRead (captureBegun driver buffer) actions)
    (hroom : Along (captureStep floats stack) (RoomForRound stack) (captureBegun driver buffer)
      actions) :
    let capture := run (captureStep floats stack) (captureBegun driver buffer) actions
    capture.arrived <+: messageStream messages →
      ∃ done rest, messages = done ++ rest ∧
        capture.arrived = messageStream done ++ capture.driver.pending ∧
        List.Forall₂ SamePacket (packetsOf done)
          (capture.written ++ capture.saver.packetsToSave.toList) ∧
        capture.content = savedFile floats capture.written ∧
        (capture.arrived = messageStream messages → capture.framing = false → rest = []) := by
  intro capture harrived
  have hstart := captureInvariant_begun floats driver buffer
  have hstep : ∀ capture action, (CaptureInvariant floats capture ∧
        (capture.arrived <+: messageStream messages → FollowsStream messages capture)) →
      RoomForRead capture action →
      CaptureInvariant floats (captureStep floats stack capture action) ∧
        ((captureStep floats stack capture action).arrived <+: messageStream messages →
          FollowsStream messages (captureStep floats stack capture action)) :=
    fun _ action hkept hfree => ⟨captureInvariant_step hkept.1 action,
      followsStream_step hkept.1 hkept.2 hfree⟩
  have hbegun : FollowsStream messages (captureBegun driver buffer) := by
    refine ⟨⟨[], messages, rfl, ?_, .nil⟩, fun _ => ?_⟩
    · exact hempty.symm
    · have hpending : (captureBegun driver buffer).driver.pending = [] := hempty
      rw [Stopped, hpending]
      exact ⟨List.not_mem_nil, noFrame_of_not_mem List.not_mem_nil⟩
  obtain ⟨hinv, hfollows⟩ := run_invariant hstep ⟨hstart, fun _ => hbegun⟩ hread
  have hlost := (nothingLost_run_iff floats stack driver buffer actions).2 hroom
  change CaptureInvariant floats capture at hinv
  change NothingLost capture at hlost
  obtain ⟨⟨done, rest, rfl, hdone, hall⟩, hstopped⟩ := hfollows harrived
  refine ⟨done, rest, rfl, hdone, ?_, hinv.content, fun hwhole hidle => ?_⟩
  · rw [NothingLost] at hlost
    rw [hlost]
    exact hall
  · change capture.arrived = _ at hdone
    have hpending : capture.driver.pending = messageStream rest := by
      rw [hwhole, messageStream_append] at hdone
      exact (List.append_cancel_left hdone).symm
    exact eq_nil_of_stopped (hstopped hidle) hpending

instance (stack : Nat → FsPacketUnion) (capture : Capture) :
    (action : CaptureAction) → Decidable (RoomForRound stack capture action)
  | .round => inferInstanceAs (Decidable (_ → _))
  | .read _ | .save => isTrue trivial

instance (capture : Capture) :
    (action : CaptureAction) → Decidable (RoomForRead capture action)
  | .read _ => inferInstanceAs (Decidable (_ → _))
  | .round | .save => isTrue trivial

/-- One read of a packet between two names, handled before the packet is saved. -/
def handledBetweenNames : List CaptureAction :=
  [.read (messageStream packetBetweenNames), .save, .round, .round, .save, .round]

def namesCaptured : Capture :=
  run (captureStep zeroFloats fun _ => .zero 185)
    (captureBegun driverUninitialized fun _ => .zero 185) handledBetweenNames

theorem capture_mixedStream_names :
    ∃ done rest, packetBetweenNames = done ++ rest ∧
      namesCaptured.arrived = messageStream done ++ namesCaptured.driver.pending ∧
      List.Forall₂ SamePacket (packetsOf done)
        (namesCaptured.written ++ namesCaptured.saver.packetsToSave.toList) ∧
      namesCaptured.content = savedFile zeroFloats namesCaptured.written ∧
      (namesCaptured.arrived = messageStream packetBetweenNames →
        namesCaptured.framing = false → rest = []) := by
  have hrun : namesCaptured.arrived = messageStream packetBetweenNames ∧
      Along (captureStep zeroFloats fun _ => .zero 185) (RoomForRound fun _ => .zero 185)
        (captureBegun driverUninitialized fun _ => .zero 185) handledBetweenNames ∧
      Along (captureStep zeroFloats fun _ => .zero 185) RoomForRead
        (captureBegun driverUninitialized fun _ => .zero 185) handledBetweenNames := by
    decide +kernel
  obtain ⟨harrived, hroom, hread⟩ := hrun
  rw [namesCaptured] at harrived ⊢
  exact capture_mixedStream zeroFloats (fun _ => .zero 185) driverUninitialized
    (fun _ => .zero 185) packetBetweenNames handledBetweenNames rfl hread hroom
    (harrived ▸ List.prefix_rfl)

/-- The names are off, and the packet waits for its row. -/
example : namesCaptured.framing = false ∧ namesCaptured.written = [] ∧
    namesCaptured.saver.packetsToSave.count = 1 := by
  decide +kernel

end Trifecta
