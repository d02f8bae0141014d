/-
One recording from its beginning to its end: the thread that hands packets to
the saver, the saving thread and the caller that ends the recording, with the
operations on the ring buffer atomic.
-/
import Trifecta.Saver
import Trifecta.ReplayCursor
import Trifecta.Library.Transitions

namespace Trifecta

open CText RingBuffer Transitions

/-- How far a call of `fs_save_on_packet` is. -/
inductive OnPacket
  | idle
  | runningSeen (packet : FsPacketUnion)
deriving DecidableEq

/-- How far `save_thread_func` is: before its look at the file, at its outer
loop, at its inner loop, or returned. -/
inductive SaveThread
  | started
  | outer
  | inner
  | returned
deriving DecidableEq, Repr

/-- How far `fs_save_end_device` is, by what it has stored or done last. -/
inductive EndDevice
  | notCalled
  | stopped
  | unlinked
  | closed
  | returned
deriving DecidableEq, Repr

/-- The saver and its file, the three threads, and what has happened so far. -/
structure SaveSession where
  saver : FsSaveDevice
  /-- `saver->file` is not `NULL` -/
  file : Bool
  /-- the device's `save_context` is the saver -/
  saveContext : Bool
  /-- the file has not been closed -/
  isOpen : Bool
  content : List UInt8
  onPacket : OnPacket
  thread : SaveThread
  ending : EndDevice
  /-- packets accepted before the end call began -/
  accepted : List FsPacketUnion
  /-- packets accepted since then -/
  late : List FsPacketUnion
  /-- packets whose rows have been written -/
  written : List FsPacketUnion
  /-- a row was written to the closed file, which is undefined -/
  faulted : Bool

/-- After `fs_save_begin_device` has returned 0. -/
def saveBegun (buffer : Fin fsMaxPacketQueueLength → FsPacketUnion) : SaveSession where
  saver := { packetsToSave := .init buffer fsMaxPacketQueueLength_pos, running := .running }
  file := true
  saveContext := true
  isOpen := true
  content := headerLine
  onPacket := .idle
  thread := .started
  ending := .notCalled
  accepted := []
  late := []
  written := []
  faulted := false

/-- The packet on its way goes onto the ring, and the call returns 0. -/
def SaveSession.accept (session : SaveSession) (packet : FsPacketUnion) : SaveSession :=
  { session with
    saver := { session.saver with
      packetsToSave := session.saver.packetsToSave.pushForce packet }
    onPacket := .idle
    accepted := session.accepted ++ if session.ending = .notCalled then [packet] else []
    late := session.late ++ if session.ending = .notCalled then [] else [packet] }

/-- The next step of `fs_save_on_packet`.  A call that starts is one on
`packet`; one that finds the saver not running returns -2. -/
def onPacketStep (session : SaveSession) (packet : FsPacketUnion) : SaveSession :=
  match session.onPacket with
  | .idle =>
      if session.saver.running ≠ .running then session
      else { session with onPacket := .runningSeen packet }
  | .runningSeen packet => session.accept packet

section Steps

variable (floats : FloatText)

/-- A popped packet is written, unless the file is gone: then the inner loop is
left with the packet. -/
def SaveSession.write (session : SaveSession) (packet : FsPacketUnion)
    (rest : FsPacketRingbuffer) : SaveSession :=
  let popped := { session with saver := { session.saver with packetsToSave := rest } }
  if session.file then
    if session.isOpen then
      { popped with
        content := session.content ++ formatPacket floats packet
        written := session.written ++ [packet] }
    else { popped with faulted := true }
  else { popped with thread := .outer }

/-- The next step of `save_thread_func`: to pop one packet and to write its row
is one step. -/
def threadStep (session : SaveSession) : SaveSession :=
  match session.thread with
  | .started => { session with thread := if session.file then .outer else .returned }
  | .outer =>
      { session with
        thread := if session.saver.running = .running then .inner else .returned }
  | .inner =>
      match session.saver.packetsToSave.pop with
      | none => { session with thread := .outer }
      | some (packet, rest) => session.write floats packet rest
  | .returned => session

/-- The next step of `fs_save_end_device`. -/
def endStep (session : SaveSession) : SaveSession :=
  match session.ending with
  | .notCalled =>
      { session with saver := { session.saver with running := .idle }, ending := .stopped }
  | .stopped => { session with saveContext := false, ending := .unlinked }
  | .unlinked =>
      if session.file then { session with isOpen := false, ending := .closed }
      else { session with ending := .returned }
  | .closed => { session with file := false, ending := .returned }
  | .returned => session

/-- Whose step comes next. -/
inductive SaveAction
  | packet (packet : FsPacketUnion)
  | thread
  | ending

def saveStep (session : SaveSession) : SaveAction → SaveSession
  | .packet packet => onPacketStep session packet
  | .thread => threadStep floats session
  | .ending => endStep session

end Steps

/-- No push finds sixteen packets waiting. -/
def RoomForPacket (session : SaveSession) : SaveAction → Prop
  | .packet _ => session.onPacket ≠ .idle →
      session.saver.packetsToSave.count < fsMaxPacketQueueLength
  | .thread | .ending => True

/-- The file is closed when just the packets accepted since the end call began
wait on the ring, and until its pointer is cleared none of them is popped. -/
def ClosesDrained (session : SaveSession) : SaveAction → Prop
  | .ending => session.ending = .unlinked →
      session.saver.packetsToSave.toList = session.late
  | .thread => session.ending = .closed → session.thread = .inner →
      session.saver.packetsToSave.toList = []
  | .packet _ => True

/-- The rows of the file are those of the packets accepted before the end call,
in order and each once. -/
def AllSaved (floats : FloatText) (session : SaveSession) : Prop :=
  session.faulted = false ∧ session.written = session.accepted ∧
    session.content = savedFile floats session.accepted

/-- While the file is open, what has been accepted is what has been written and
what waits on the ring. -/
structure SaveInvariant (floats : FloatText) (session : SaveSession) : Prop where
  content : session.content = savedFile floats session.written
  isOpen : session.isOpen = true ↔ session.ending ≠ .closed ∧ session.ending ≠ .returned
  file : session.file = true ↔ session.ending ≠ .returned
  early : session.ending = .notCalled → session.late = []
  queue : session.isOpen = true → session.accepted ++ session.late =
    session.written ++ session.saver.packetsToSave.toList

/-- Nothing has gone wrong so far, and once the file is closed all its rows are
there. -/
def Settled (session : SaveSession) : Prop :=
  session.faulted = false ∧ (session.isOpen = false → session.written = session.accepted)

section Invariant

variable {floats : FloatText} {session : SaveSession}

theorem toList_pushForce_of_room {ring : FsPacketRingbuffer}
    (hroom : ring.count < fsMaxPacketQueueLength) (packet : FsPacketUnion) :
    (ring.pushForce packet).toList = ring.toList ++ [packet] := by
  rw [toList_pushForce, rtake_of_length_le]
  rw [List.length_append, length_toList, List.length_singleton]
  exact hroom

theorem accept_invariant (hinv : SaveInvariant floats session) (packet : FsPacketUnion)
    (hroom : session.saver.packetsToSave.count < fsMaxPacketQueueLength) :
    SaveInvariant floats (session.accept packet) := by
  refine ⟨hinv.content, hinv.isOpen, hinv.file, ?_, ?_⟩
  · intro hending
    change session.ending = .notCalled at hending
    simp only [SaveSession.accept, hending, ↓reduceIte, List.append_nil, hinv.early hending]
  · intro hopen
    have hqueue := hinv.queue hopen
    simp only [SaveSession.accept, toList_pushForce_of_room hroom]
    rw [← List.append_assoc session.written, ← hqueue]
    split_ifs with hending
    · simp only [hinv.early hending, List.append_nil]
    · simp only [List.append_nil, List.append_assoc]

theorem onPacketStep_invariant (hinv : SaveInvariant floats session) (packet : FsPacketUnion)
    (hroom : RoomForPacket session (.packet packet)) :
    SaveInvariant floats (onPacketStep session packet) := by
  rw [onPacketStep]
  cases hcall : session.onPacket with
  | idle =>
      simp only
      split_ifs
      · exact hinv
      · exact ⟨hinv.content, hinv.isOpen, hinv.file, hinv.early, hinv.queue⟩
  | runningSeen sent => exact accept_invariant hinv sent (hroom (by simp [hcall]))

theorem write_invariant (hinv : SaveInvariant floats session) {packet : FsPacketUnion}
    {rest : FsPacketRingbuffer} (hpop : session.saver.packetsToSave.pop = some (packet, rest)) :
    SaveInvariant floats (session.write floats packet rest) := by
  have hlist := toList_pop hpop
  rw [SaveSession.write]
  split_ifs with hfile hopen
  · refine ⟨?_, hinv.isOpen, hinv.file, hinv.early, ?_⟩
    · simp only [hinv.content, savedFile, List.map_append, List.flatten_append, List.map_cons,
        List.map_nil, List.flatten_cons, List.flatten_nil, List.append_nil, List.append_assoc]
    · intro _
      simp only [hinv.queue hopen, hlist, List.append_assoc, List.singleton_append]
  · exact ⟨hinv.content, hinv.isOpen, hinv.file, hinv.early, fun habsurd => absurd habsurd hopen⟩
  · have hclosed : ¬ session.isOpen = true := by
      intro hopen
      exact hfile (hinv.file.2 (hinv.isOpen.1 hopen).2)
    exact ⟨hinv.content, hinv.isOpen, hinv.file, hinv.early,
      fun habsurd => absurd habsurd hclosed⟩

theorem threadStep_invariant (hinv : SaveInvariant floats session) :
    SaveInvariant floats (threadStep floats session) := by
  rw [threadStep]
  cases session.thread with
  | started | outer => exact ⟨hinv.content, hinv.isOpen, hinv.file, hinv.early, hinv.queue⟩
  | inner =>
      simp only
      split
      · exact ⟨hinv.content, hinv.isOpen, hinv.file, hinv.early, hinv.queue⟩
      · next packet rest hpop => exact write_invariant hinv hpop
  | returned => exact hinv

theorem endStep_invariant (hinv : SaveInvariant floats session) :
    SaveInvariant floats (endStep session) := by
  obtain ⟨hcontent, hopen, hfile, hearly, hqueue⟩ := hinv
  rw [endStep]
  cases hending : session.ending with
  | notCalled | stopped =>
      rw [hending] at hopen hfile
      exact ⟨hcontent, by simpa using hopen, by simpa using hfile, by simp, hqueue⟩
  | unlinked =>
      rw [hending] at hopen hfile
      have hsome : session.file = true := hfile.2 (by simp)
      simp only [hsome, ↓reduceIte]
      exact ⟨hcontent, by simp, by simp, by simp, by simp⟩
  | closed =>
      rw [hending] at hopen
      exact ⟨hcontent, by simpa using hopen, by simp, by simp, hqueue⟩
  | returned =>
      simp only
      exact ⟨hcontent, hopen, hfile, hearly, hqueue⟩

theorem saveStep_invariant (hinv : SaveInvariant floats session) {action : SaveAction}
    (hroom : RoomForPacket session action) :
    SaveInvariant floats (saveStep floats session action) := by
  cases action with
  | packet packet => exact onPacketStep_invariant hinv packet hroom
  | thread => exact threadStep_invariant hinv
  | ending => exact endStep_invariant hinv

theorem settled_onPacketStep_iff (hinv : SaveInvariant floats session) (packet : FsPacketUnion) :
    Settled (onPacketStep session packet) ↔ Settled session := by
  rw [onPacketStep]
  cases session.onPacket with
  | idle =>
      simp only
      split_ifs <;> exact Iff.rfl
  | runningSeen sent =>
      by_cases hending : session.ending = .notCalled
      · have hopen : session.isOpen = true := hinv.isOpen.2 (by simp [hending])
        simp [Settled, SaveSession.accept, hopen]
      · simp [Settled, SaveSession.accept, hending]

/-- Only a row written to the closed file does harm. -/
theorem settled_threadStep_iff (hinv : SaveInvariant floats session) :
    Settled (threadStep floats session) ↔
      Settled session ∧ ClosesDrained session .thread := by
  rw [ClosesDrained, threadStep]
  cases hthread : session.thread with
  | started | outer | returned => simp [Settled]
  | inner =>
      cases hpop : session.saver.packetsToSave.pop with
      | none =>
          have hnone := (pop_eq_none_iff _).1 hpop
          simp [Settled, hnone]
      | some popped =>
          obtain ⟨packet, rest⟩ := popped
          have hlist := toList_pop hpop
          simp only [SaveSession.write, hlist, reduceCtorEq, imp_false, not_true_eq_false]
          split_ifs with hfile hopen
          · have hclosed : session.ending ≠ .closed := (hinv.isOpen.1 hopen).1
            simp [Settled, hopen, hclosed]
          · have hclosed : session.ending = .closed := by
              by_contra hne
              exact hopen (hinv.isOpen.2 ⟨hne, hinv.file.1 hfile⟩)
            simp [Settled, hclosed]
          · have hclosed : session.ending ≠ .closed := by
              intro hclosed
              exact hfile (hinv.file.2 (by simp [hclosed]))
            simp [Settled, hclosed]

/-- Of the end call, only closing the file does harm. -/
theorem settled_endStep_iff (hinv : SaveInvariant floats session) :
    Settled (endStep session) ↔ Settled session ∧ ClosesDrained session .ending := by
  rw [ClosesDrained, endStep]
  cases hending : session.ending with
  | notCalled | stopped | closed | returned => simp [Settled]
  | unlinked =>
      have hopen : session.isOpen = true := hinv.isOpen.2 (by simp [hending])
      have hfile : session.file = true := hinv.file.2 (by simp [hending])
      have hqueue := hinv.queue hopen
      simp only [Settled, hfile, hopen, ↓reduceIte, forall_const, Bool.true_eq_false,
        false_implies, and_true]
      apply and_congr_right
      intro _
      constructor
      · intro hwritten
        rw [hwritten] at hqueue
        exact (List.append_cancel_left hqueue).symm
      · intro hlate
        rw [hlate] at hqueue
        exact (List.append_cancel_right hqueue).symm

theorem settled_saveStep_iff (hinv : SaveInvariant floats session) (action : SaveAction) :
    Settled (saveStep floats session action) ↔
      Settled session ∧ ClosesDrained session action := by
  cases action with
  | packet packet =>
      rw [ClosesDrained, and_true]
      exact settled_onPacketStep_iff hinv packet
  | thread => exact settled_threadStep_iff hinv
  | ending => exact settled_endStep_iff hinv

end Invariant

theorem saveBegun_invariant (floats : FloatText)
    (buffer : Fin fsMaxPacketQueueLength → FsPacketUnion) :
    SaveInvariant floats (saveBegun buffer) where
  content := by simp only [saveBegun, savedFile, List.map_nil, List.flatten_nil, List.append_nil]
  isOpen := by simp [saveBegun]
  file := by simp [saveBegun]
  early := fun _ => rfl
  queue := fun _ => rfl

/-- A recording during which there is always room for one more packet keeps
exactly the packets accepted before it was ended, exactly when the file is
closed with all of them off the ring and none accepted later. -/
theorem allSaved_iff (floats : FloatText) (buffer : Fin fsMaxPacketQueueLength → FsPacketUnion)
    (actions : List SaveAction)
    (hroom : Along (saveStep floats) RoomForPacket (saveBegun buffer) actions)
    (hended : (run (saveStep floats) (saveBegun buffer) actions).ending = .returned) :
    AllSaved floats (run (saveStep floats) (saveBegun buffer) actions) ↔
      Along (saveStep floats) ClosesDrained (saveBegun buffer) actions := by
  have hstart := saveBegun_invariant floats buffer
  have hstep : ∀ session action, SaveInvariant floats session → RoomForPacket session action →
      SaveInvariant floats (saveStep floats session action) :=
    fun _ _ hkept hfree => saveStep_invariant hkept hfree
  have hinv := run_invariant hstep hstart hroom
  have hsettled := good_run_iff hstep
    (fun _ action hkept _ => settled_saveStep_iff hkept action) hstart hroom
  have hbegun : Settled (saveBegun buffer) := ⟨rfl, by simp [saveBegun]⟩
  rw [and_iff_right hbegun] at hsettled
  rw [← hsettled]
  generalize run (saveStep floats) (saveBegun buffer) actions = session at *
  have hclosed : session.isOpen = false := by
    rw [← Bool.not_eq_true, hinv.isOpen, hended]
    simp
  rw [Settled, AllSaved, hinv.content]
  constructor
  · rintro ⟨hfault, hwritten, _⟩
    exact ⟨hfault, fun _ => hwritten⟩
  · rintro ⟨hfault, hwritten⟩
    exact ⟨hfault, hwritten hclosed, by rw [hwritten hclosed]⟩

instance (session : SaveSession) :
    (action : SaveAction) → Decidable (RoomForPacket session action)
  | .packet _ => inferInstanceAs (Decidable (_ → _))
  | .thread => isTrue trivial
  | .ending => isTrue trivial

instance (session : SaveSession) :
    (action : SaveAction) → Decidable (ClosesDrained session action)
  | .packet _ => isTrue trivial
  | .thread => inferInstanceAs (Decidable (_ → _ → _))
  | .ending => inferInstanceAs (Decidable (_ → _))

/-- One packet, written before the recording is ended. -/
def drainedRecording : List SaveAction :=
  [.thread, .thread, .packet (.zero 185), .packet (.zero 185), .thread, .thread, .ending,
    .ending, .ending, .ending, .thread]

theorem allSaved_drainedRecording :
    AllSaved zeroFloats
      (run (saveStep zeroFloats) (saveBegun fun _ => .zero 185) drainedRecording) :=
  (allSaved_iff zeroFloats (fun _ => .zero 185) drainedRecording (by decide +kernel)
    (by decide +kernel)).2 (by decide +kernel)

/-- One packet, accepted while the saving thread pauses between two looks at
the ring, and the recording ended in the same pause. -/
def endedInPause : List SaveAction :=
  [.thread, .thread, .thread, .packet (.zero 185), .packet (.zero 185), .ending, .ending,
    .ending, .ending, .thread]

theorem allSaved_not_endedInPause :
    ¬ ∀ actions : List SaveAction,
      Along (saveStep zeroFloats) RoomForPacket (saveBegun fun _ => .zero 185) actions →
      (run (saveStep zeroFloats) (saveBegun fun _ => .zero 185) actions).ending = .returned →
      (run (saveStep zeroFloats) (saveBegun fun _ => .zero 185) actions).thread = .returned →
      AllSaved zeroFloats (run (saveStep zeroFloats) (saveBegun fun _ => .zero 185) actions) := by
  intro hall
  have hsaved := hall endedInPause (by decide +kernel) (by decide +kernel) (by decide +kernel)
  have hwritten := congrArg List.length hsaved.2.1
  revert hwritten
  decide +kernel

end Trifecta
