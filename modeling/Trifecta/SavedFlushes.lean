/-
What a recording has on the disk for certain: the rows behind the last flush of the
saving thread, over all interleavings of a recording.
-/
import Trifecta.SaveSession

namespace Trifecta

open Transitions

/-- The rows between two flushes. -/
abbrev flushInterval : Nat := 200

/-- A recording, the counter of `save_thread_func`, and the bytes of the file that the last
`fflush` covers. -/
structure FlushedSession where
  session : SaveSession
  flushCounter : Nat
  flushed : List UInt8

/-- After `fs_save_begin_device`, which flushes the header line. -/
def flushedBegun (buffer : Fin fsMaxPacketQueueLength → FsPacketUnion) : FlushedSession where
  session := saveBegun buffer
  flushCounter := 0
  flushed := headerLine

/-- The next step of the thread pops a packet and prints its row. -/
def SaveSession.printsRow (session : SaveSession) : Bool :=
  session.thread = .inner && session.saver.packetsToSave.pop.isSome && session.file

/-- A step of the recording, with the flush that a row or the end call brings about. -/
def flushedStep (floats : FloatText) (state : FlushedSession) (action : SaveAction) :
    FlushedSession :=
  let session := saveStep floats state.session action
  match action with
  | .packet _ => { state with session }
  | .thread =>
      if state.session.printsRow then
        if flushInterval ≤ state.flushCounter + 1 then
          { session, flushCounter := 0, flushed := session.content }
        else { state with session, flushCounter := state.flushCounter + 1 }
      else { state with session }
  | .ending =>
      -- the end call flushes the file and closes it
      if state.session.ending = .unlinked ∧ state.session.file then
        { state with session, flushed := session.content }
      else { state with session }

/-- Flushing goes along with the recording and does not change it. -/
theorem session_run (floats : FloatText) (state : FlushedSession) (actions : List SaveAction) :
    (run (flushedStep floats) state actions).session =
      run (saveStep floats) state.session actions := by
  induction actions generalizing state with
  | nil => rfl
  | cons action later ih =>
      have hstep : (flushedStep floats state action).session =
          saveStep floats state.session action := by
        cases action <;> simp only [flushedStep] <;> split_ifs <;> rfl
      change (run _ (flushedStep floats state action) later).session = _
      rw [ih, hstep]
      rfl

/-- The file is a complete capture of the packets whose rows have been flushed: the first
ones written, less than 200 fewer than all of them, and all of them once it is closed. -/
def Durable (floats : FloatText) (state : FlushedSession) : Prop :=
  ∃ kept, kept <+: state.session.written ∧ state.flushed = savedFile floats kept ∧
    state.session.written.length < kept.length + flushInterval ∧
    (state.session.isOpen = false → kept = state.session.written)

/-- The counter bounds the rows that are not flushed. -/
structure FlushInvariant (floats : FloatText) (state : FlushedSession) : Prop where
  content : state.session.content = savedFile floats state.session.written
  counter : state.flushCounter < flushInterval
  kept : ∃ kept, kept <+: state.session.written ∧ state.flushed = savedFile floats kept ∧
    state.session.written.length ≤ kept.length + state.flushCounter ∧
    (state.session.isOpen = false → kept = state.session.written)

section Steps

variable {floats : FloatText} {session : SaveSession}

/-- What a step leaves alone, unless it prints a row or closes the file. -/
structure SameFile (before after : SaveSession) : Prop where
  written : after.written = before.written
  content : after.content = before.content
  isOpen : after.isOpen = before.isOpen

theorem onPacketStep_sameFile (session : SaveSession) (packet : FsPacketUnion) :
    SameFile session (onPacketStep session packet) := by
  rw [onPacketStep]
  split
  · split_ifs <;> exact ⟨rfl, rfl, rfl⟩
  · exact ⟨rfl, rfl, rfl⟩

theorem threadStep_cases (floats : FloatText) (session : SaveSession) :
    SameFile session (threadStep floats session) ∨
      session.printsRow = true ∧ session.isOpen = true ∧
        (threadStep floats session).isOpen = true ∧
        ∃ packet, (threadStep floats session).written = session.written ++ [packet] ∧
          (threadStep floats session).content =
            session.content ++ formatPacket floats packet := by
  rw [threadStep]
  cases hthread : session.thread with
  | started | outer | returned => exact Or.inl ⟨rfl, rfl, rfl⟩
  | inner =>
      cases hpop : session.saver.packetsToSave.pop with
      | none => exact Or.inl ⟨rfl, rfl, rfl⟩
      | some popped =>
          obtain ⟨packet, rest⟩ := popped
          simp only [SaveSession.write]
          split_ifs with hfile hopen
          · refine Or.inr ⟨?_, hopen, hopen, packet, rfl, rfl⟩
            simp [SaveSession.printsRow, hthread, hpop, hfile]
          · exact Or.inl ⟨rfl, rfl, rfl⟩
          · exact Or.inl ⟨rfl, rfl, rfl⟩

theorem endStep_cases (session : SaveSession) :
    (endStep session).written = session.written ∧ (endStep session).content = session.content ∧
      ((endStep session).isOpen = session.isOpen ∨
        session.ending = .unlinked ∧ session.file = true) := by
  rw [endStep]
  cases session.ending with
  | notCalled | stopped | closed | returned => exact ⟨rfl, rfl, Or.inl rfl⟩
  | unlinked =>
      simp only
      split_ifs with hfile
      · exact ⟨rfl, rfl, Or.inr ⟨trivial, hfile⟩⟩
      · exact ⟨rfl, rfl, Or.inl rfl⟩

theorem savedFile_append (packets : List FsPacketUnion) (packet : FsPacketUnion) :
    savedFile floats (packets ++ [packet]) =
      savedFile floats packets ++ formatPacket floats packet := by
  simp [savedFile]

end Steps

section Invariant

variable {floats : FloatText} {state : FlushedSession}

/-- A step that neither prints nor closes keeps what is flushed. -/
theorem FlushInvariant.same (hinv : FlushInvariant floats state) {session : SaveSession}
    (hsame : SameFile state.session session) {counter : Nat} (hle : state.flushCounter ≤ counter)
    (hcounter : counter < flushInterval) :
    FlushInvariant floats { session, flushCounter := counter, flushed := state.flushed } := by
  obtain ⟨kept, hprefix, hflushed, hlength, hclosed⟩ := hinv.kept
  refine ⟨?_, hcounter, kept, ?_, hflushed, ?_, ?_⟩
  · rw [hsame.content, hsame.written, hinv.content]
  · rw [hsame.written]
    exact hprefix
  · rw [hsame.written]
    exact hlength.trans (Nat.add_le_add_left hle _)
  · rw [hsame.isOpen, hsame.written]
    exact hclosed

/-- Right after a flush, all rows are there. -/
theorem flushInvariant_flushed {session : SaveSession} {counter : Nat}
    (hcontent : session.content = savedFile floats session.written)
    (hcounter : counter < flushInterval) :
    FlushInvariant floats { session, flushCounter := counter, flushed := session.content } :=
  ⟨hcontent, hcounter, session.written, List.prefix_rfl, hcontent, Nat.le_add_right _ _,
    fun _ => rfl⟩

/-- A row more that is not flushed. -/
theorem FlushInvariant.printed (hinv : FlushInvariant floats state) {session : SaveSession}
    {packet : FsPacketUnion} (hopen : session.isOpen = true)
    (hwritten : session.written = state.session.written ++ [packet])
    (hcontent : session.content = state.session.content ++ formatPacket floats packet)
    (hcounter : state.flushCounter + 1 < flushInterval) :
    FlushInvariant floats
      { session, flushCounter := state.flushCounter + 1, flushed := state.flushed } := by
  obtain ⟨kept, hprefix, hflushed, hlength, _⟩ := hinv.kept
  refine ⟨?_, hcounter, kept, ?_, hflushed, ?_, fun hclosed => ?_⟩
  · rw [hcontent, hwritten, savedFile_append, hinv.content]
  · rw [hwritten]
    exact hprefix.trans (List.prefix_append _ _)
  · rw [hwritten, List.length_append, List.length_singleton]
    exact Nat.succ_le_succ hlength
  · rw [hopen] at hclosed
    cases hclosed

theorem threadStep_flushed (hinv : FlushInvariant floats state) :
    FlushInvariant floats (flushedStep floats state .thread) := by
  have hpos : 0 < flushInterval := by decide
  rcases threadStep_cases floats state.session with hsame | ⟨hprints, _, hopen, packet, hwritten,
    hcontent⟩
  · have hkept := hsame.content.trans (hinv.content.trans (congrArg _ hsame.written.symm))
    simp only [flushedStep, saveStep]
    split_ifs with hprints hflush
    · exact flushInvariant_flushed hkept hpos
    · exact hinv.same hsame (Nat.le_succ _) (Nat.lt_of_not_le hflush)
    · exact hinv.same hsame (Nat.le_refl _) hinv.counter
  · simp only [flushedStep, saveStep, hprints, ↓reduceIte]
    split_ifs with hflush
    · refine flushInvariant_flushed ?_ hpos
      rw [hcontent, hwritten, savedFile_append, hinv.content]
    · exact hinv.printed hopen hwritten hcontent (Nat.lt_of_not_le hflush)

theorem endStep_flushed (hinv : FlushInvariant floats state) :
    FlushInvariant floats (flushedStep floats state .ending) := by
  obtain ⟨hwritten, hcontent, hopen⟩ := endStep_cases state.session
  have hkept := hcontent.trans (hinv.content.trans (congrArg _ hwritten.symm))
  simp only [flushedStep, saveStep]
  split_ifs with hcloses
  · exact flushInvariant_flushed hkept hinv.counter
  · exact hinv.same ⟨hwritten, hcontent, hopen.resolve_right hcloses⟩ (Nat.le_refl _) hinv.counter

theorem flushedStep_invariant (hinv : FlushInvariant floats state) (action : SaveAction) :
    FlushInvariant floats (flushedStep floats state action) := by
  cases action with
  | packet packet =>
      exact hinv.same (onPacketStep_sameFile state.session packet) (Nat.le_refl _) hinv.counter
  | thread => exact threadStep_flushed hinv
  | ending => exact endStep_flushed hinv

end Invariant

/-- Wherever a recording is cut off, the disk holds at least a complete capture of the first
packets written, and fewer than 200 rows are missing; closing the file leaves none missing. -/
theorem recording_durable (floats : FloatText)
    (buffer : Fin fsMaxPacketQueueLength → FsPacketUnion) (actions : List SaveAction) :
    Durable floats (run (flushedStep floats) (flushedBegun buffer) actions) := by
  have hstart : FlushInvariant floats (flushedBegun buffer) :=
    ⟨(saveBegun_invariant floats buffer).content, (by decide : 0 < flushInterval), [],
      List.prefix_rfl, (saveBegun_invariant floats buffer).content, Nat.le_refl 0, fun _ => rfl⟩
  have hstep : ∀ (state : FlushedSession) (action : SaveAction), FlushInvariant floats state →
      True → FlushInvariant floats (flushedStep floats state action) :=
    fun _ action hinv _ => flushedStep_invariant hinv action
  have hinv := run_invariant hstep hstart (along_of_forall (fun _ _ => trivial) _ actions)
  obtain ⟨kept, hprefix, hflushed, hlength, hclosed⟩ := hinv.kept
  exact ⟨kept, hprefix, hflushed,
    Nat.lt_of_le_of_lt hlength (Nat.add_lt_add_left hinv.counter _), hclosed⟩

end Trifecta
