/-
Several recordings at once.  The saving threads all print the fields of their rows into
the one static table of `format_packet`, field by field.
-/
import Trifecta.SavedFlushes
import Trifecta.Library.SharedScratch
import Trifecta.Library.SharedTable

namespace Trifecta

open CText RingBuffer Transitions

/-- The calls of `FMT` for a packet type, in their order: each prints into the next row of
`fbuf`. -/
def formattedFields (packetType : Nat) : List FsFieldId :=
  if packetType ≤ 3 then
    [.ax0, .ay0, .az0, .gx0, .gy0, .gz0,
      .ax1, .ay1, .az1, .gx1, .gy1, .gz1,
      .ax2, .ay2, .az2, .gx2, .gy2, .gz2,
      .q0, .q1, .q2, .q3,
      .magx, .magy, .magz,
      .omegax0, .omegy0, .omegaz0,
      .accx, .accy, .accz,
      .temp0, .temp1, .temp2,
      .devicemotion]
  else if packetType ≤ 7 then
    [.omegax0, .omegy0, .omegaz0,
      .q0, .q1, .q2, .q3,
      .magx, .magy, .magz,
      .accx, .accy, .accz,
      .temp0, .temp1, .temp2,
      .devicemotion]
  else if packetType ≤ 11 then
    [.ax0, .ay0, .az0, .gx0, .gy0, .gz0,
      .ax1, .ay1, .az1, .gx1, .gy1, .gz1,
      .ax2, .ay2, .az2, .gx2, .gy2, .gz2,
      .q0, .q1, .q2, .q3,
      .magx, .magy, .magz,
      .omegax0, .omegy0, .omegaz0,
      .accx, .accy, .accz,
      .vx, .vy, .vz,
      .rx, .ry, .rz,
      .temp0, .temp1, .temp2,
      .devicemotion]
  else []

/-- What the calls of `FMT` print for a packet. -/
def fieldTexts (floats : FloatText) (packet : FsPacketUnion) : List (List UInt8) :=
  (formattedFields packet.type.toNat).map (formatColumn floats packet)

/-- What a column points to: the row of `fbuf` that its field was printed into, or the empty
string. -/
def columnText (fbuf : Nat → List UInt8) (packetType : Nat) (field : FsFieldId) : List UInt8 :=
  if field ∈ formattedFields packetType then fbuf ((formattedFields packetType).idxOf field)
  else []

/-- The last `snprintf` of `format_packet`, into the line buffer of the saving thread. -/
def printedRow (fbuf : Nat → List UInt8) (packet : FsPacketUnion) : List UInt8 :=
  ([comma].intercalate (decimal packet.type.toNat :: decimal (compositeTime packet) ::
    savedColumns.map (columnText fbuf packet.type.toNat)) ++ [lineFeed]).take
      (saverLinebufSize - 1)

/-- A call of `format_packet`, and how many fields it has printed. -/
structure Formatting where
  packet : FsPacketUnion
  fi : Nat

/-- A recording, and the call that its saving thread is in. -/
structure SavingThread where
  session : SaveSession
  formatting : Option Formatting

/-- The recordings of any number of devices, and the table that they share. -/
structure Recordings (D : Type*) where
  fbuf : Nat → List UInt8
  threads : D → SavingThread

/-- The packet that the thread pops next. -/
def SaveSession.nextPacket (session : SaveSession) :
    Option (FsPacketUnion × FsPacketRingbuffer) :=
  if session.thread = .inner then session.saver.packetsToSave.pop else none

/-- A finished row is written, unless the file is gone: then the inner loop is left. -/
def SaveSession.printRow (session : SaveSession) (packet : FsPacketUnion) (row : List UInt8) :
    SaveSession :=
  if session.file then
    if session.isOpen then
      { session with
        content := session.content ++ row
        written := session.written ++ [packet] }
    else { session with faulted := true }
  else { session with thread := .outer }

section Steps

variable {D : Type*} [DecidableEq D] (floats : FloatText)

def Recordings.set (state : Recordings D) (device : D) (thread : SavingThread) : Recordings D :=
  { state with threads := Function.update state.threads device thread }

def Recordings.setSession (state : Recordings D) (device : D) (session : SaveSession) :
    Recordings D :=
  state.set device ⟨session, (state.threads device).formatting⟩

/-- The next step of one saving thread: to pop a packet, to print one field, and to print
and write the row is a step each. -/
def Recordings.threadStep (state : Recordings D) (device : D) : Recordings D :=
  let session := (state.threads device).session
  match (state.threads device).formatting with
  | none =>
      match session.nextPacket with
      | none => state.set device ⟨Trifecta.threadStep floats session, none⟩
      | some (packet, rest) =>
          let saver := { session.saver with packetsToSave := rest }
          state.set device ⟨{ session with saver }, some ⟨packet, 0⟩⟩
  | some call =>
      match (fieldTexts floats call.packet)[call.fi]? with
      | some text =>
          { state.set device ⟨session, some ⟨call.packet, call.fi + 1⟩⟩ with
            fbuf := Function.update state.fbuf call.fi text }
      | none =>
          state.set device ⟨session.printRow call.packet (printedRow state.fbuf call.packet), none⟩

/-- A step of one of the recordings. -/
def recordStep (state : Recordings D) : D × SaveAction → Recordings D
  | (device, .packet packet) =>
      state.setSession device (onPacketStep (state.threads device).session packet)
  | (device, .thread) => state.threadStep floats device
  | (device, .ending) => state.setSession device (endStep (state.threads device).session)

/-- How many steps the thread needs to handle its next packet, if there is one. -/
def SaveSession.stepsAhead (session : SaveSession) : Nat :=
  match session.nextPacket with
  | none => 1
  | some (packet, _) => (fieldTexts floats packet).length + 2

/-- A step of one of the recordings, with a call to `format_packet` that nobody interrupts. -/
def recordCall (state : Recordings D) : D × SaveAction → Recordings D
  | (device, .thread) =>
      run (recordStep floats) state
        (List.replicate ((state.threads device).session.stepsAhead floats) (device, .thread))
  | (device, .packet packet) => recordStep floats state (device, .packet packet)
  | (device, .ending) => recordStep floats state (device, .ending)

/-- After `fs_save_begin_device` has returned 0 for each device. -/
def recordingsBegun (fbuf : Nat → List UInt8)
    (buffers : D → Fin fsMaxPacketQueueLength → FsPacketUnion) : Recordings D where
  fbuf := fbuf
  threads device := ⟨saveBegun (buffers device), none⟩

/-- What a thread is filling the table with. -/
def SavingThread.filling (thread : SavingThread) : SharedTable.Filling (List UInt8) :=
  match thread.formatting with
  | none => ⟨[], 0⟩
  | some call => ⟨fieldTexts floats call.packet, call.fi⟩

def Recordings.table (state : Recordings D) : SharedTable.Table D (List UInt8) :=
  SharedTable.view (SavingThread.filling floats) state.fbuf state.threads

/-- Every file is the header and the rows of the packets written to it, and no thread has
lost a field that it has printed. -/
structure RecordingsExact (state : Recordings D) : Prop where
  files : ∀ device, (state.threads device).session.content =
    savedFile floats (state.threads device).session.written
  fields : ∀ device, (state.table floats).Kept device

/-- No field is printed over one of another thread's that reads differently. -/
def SparesFields (state : Recordings D) : D × SaveAction → Prop
  | (device, .thread) => (state.table floats).Spares device
  | (_, .packet _) | (_, .ending) => True

end Steps

section Rows

variable {floats : FloatText} {fbuf : Nat → List UInt8} {packet : FsPacketUnion}

/-- A packet type has a field printed for every column that its structure has a member
for. -/
theorem member_eq_none {packetType : Nat} {layout : Layout FsFieldId}
    (hlayout : savedLayout packetType = some layout) {field : FsFieldId}
    (hcolumn : field ∈ savedColumns) (hnot : field ∉ formattedFields packetType) :
    (sourceLayout layout field).member field = none := by
  rw [savedLayout] at hlayout
  rw [formattedFields] at hnot
  split_ifs at hlayout hnot with hcomposite hregular hcomposite2
  · obtain rfl := Option.some.inj hlayout
    revert field
    decide
  · obtain rfl := Option.some.inj hlayout
    revert field
    decide
  · obtain rfl := Option.some.inj hlayout
    revert field
    decide
  · omega

theorem formatColumn_of_not_mem {field : FsFieldId} (hcolumn : field ∈ savedColumns)
    (hnot : field ∉ formattedFields packet.type.toNat) :
    formatColumn floats packet field = [] := by
  rw [formatColumn]
  split
  · next layout hlayout =>
      rw [formatField, Layout.get, member_eq_none hlayout hcolumn hnot]
      rfl
  · rfl

theorem columnText_of_kept {call : Formatting}
    (hkept : ∀ index < call.fi, (fieldTexts floats call.packet)[index]? = some (fbuf index))
    (hdone : (fieldTexts floats call.packet)[call.fi]? = none) {field : FsFieldId}
    (hcolumn : field ∈ savedColumns) :
    columnText fbuf call.packet.type.toNat field = formatColumn floats call.packet field := by
  rw [columnText]
  split_ifs with hfield
  · have hindex := List.idxOf_lt_length_of_mem hfield
    have hlength := List.getElem?_eq_none_iff.1 hdone
    rw [fieldTexts, List.length_map] at hlength
    have hcell := hkept _ (Nat.lt_of_lt_of_le hindex hlength)
    rw [fieldTexts, List.getElem?_map, List.getElem?_eq_getElem hindex, List.getElem_idxOf,
      Option.map_some] at hcell
    exact (Option.some.inj hcell).symm
  · exact (formatColumn_of_not_mem hcolumn hfield).symm

/-- A call that finds every field as it has printed it prints the row of its packet. -/
theorem printedRow_of_kept {call : Formatting}
    (hkept : ∀ index < call.fi, (fieldTexts floats call.packet)[index]? = some (fbuf index))
    (hdone : (fieldTexts floats call.packet)[call.fi]? = none) :
    printedRow fbuf call.packet = formatPacket floats call.packet := by
  have hcolumns : savedColumns.map (columnText fbuf call.packet.type.toNat) =
      savedColumns.map (formatColumn floats call.packet) :=
    List.map_congr_left fun field hcolumn => columnText_of_kept hkept hdone hcolumn
  rw [printedRow, hcolumns]
  rfl

end Rows

section Exact

variable {D : Type*} [DecidableEq D] {floats : FloatText} {state : Recordings D}

theorem table_setSession (device : D) (session : SaveSession) :
    (state.setSession device session).table floats = state.table floats :=
  SharedTable.view_update_same rfl

omit [DecidableEq D] in
theorem fillings_of_formatting {device : D} {call : Formatting}
    (hformatting : (state.threads device).formatting = some call) :
    (state.table floats).fillings device = ⟨fieldTexts floats call.packet, call.fi⟩ := by
  simp only [Recordings.table, SharedTable.view, SavingThread.filling, hformatting]

theorem threadStep_of_field {device : D} {call : Formatting} {text : List UInt8}
    (hformatting : (state.threads device).formatting = some call)
    (htext : (fieldTexts floats call.packet)[call.fi]? = some text) :
    state.threadStep floats device =
      { state.set device ⟨(state.threads device).session, some ⟨call.packet, call.fi + 1⟩⟩ with
        fbuf := Function.update state.fbuf call.fi text } := by
  simp only [Recordings.threadStep, hformatting, htext]

theorem threadStep_of_done {device : D} {call : Formatting}
    (hformatting : (state.threads device).formatting = some call)
    (hdone : (fieldTexts floats call.packet)[call.fi]? = none) :
    state.threadStep floats device =
      state.set device ⟨(state.threads device).session.printRow call.packet
        (printedRow state.fbuf call.packet), none⟩ := by
  simp only [Recordings.threadStep, hformatting, hdone]

/-- Printing a field stores it in the table. -/
theorem table_printField {device : D} {call : Formatting}
    (hformatting : (state.threads device).formatting = some call) (text : List UInt8) :
    { state.set device ⟨(state.threads device).session, some ⟨call.packet, call.fi + 1⟩⟩ with
      fbuf := Function.update state.fbuf call.fi text }.table floats =
        (state.table floats).store device text := by
  have hfilling : SavingThread.filling floats (state.threads device) =
      ⟨fieldTexts floats call.packet, call.fi⟩ := fillings_of_formatting hformatting
  have hstore := @SharedTable.view_update_store D _ _ _ (SavingThread.filling floats) state.fbuf
    state.threads device ⟨(state.threads device).session, some ⟨call.packet, call.fi + 1⟩⟩ text
    (by rw [hfilling]; rfl)
  rw [hfilling] at hstore
  exact hstore

theorem threads_set (device : D) (thread : SavingThread) (other : D) :
    (state.set device thread).threads other =
      if other = device then thread else state.threads other :=
  Function.update_apply _ _ _ _

theorem files_set {device : D} {thread : SavingThread}
    (hfiles : ∀ other, (state.threads other).session.content =
      savedFile floats (state.threads other).session.written)
    (hthread : thread.session.content = savedFile floats thread.session.written) (other : D) :
    ((state.set device thread).threads other).session.content =
      savedFile floats ((state.set device thread).threads other).session.written := by
  rw [threads_set]
  split_ifs
  · exact hthread
  · exact hfiles other

theorem files_session {session after : SaveSession}
    (hfiles : session.content = savedFile floats session.written)
    (hsame : SameFile session after) : after.content = savedFile floats after.written := by
  rw [hsame.content, hsame.written, hfiles]

/-- Outside a call to `format_packet` a step of the thread is one of the recording. -/
theorem threadStep_sameFile {session : SaveSession} (hnext : session.nextPacket = none) :
    SameFile session (threadStep floats session) := by
  rw [SaveSession.nextPacket] at hnext
  rw [threadStep]
  cases hthread : session.thread with
  | started | outer | returned => exact ⟨rfl, rfl, rfl⟩
  | inner =>
      rw [if_pos hthread] at hnext
      rw [hnext]
      exact ⟨rfl, rfl, rfl⟩

theorem files_printRow {session : SaveSession}
    (hfiles : session.content = savedFile floats session.written) {packet : FsPacketUnion}
    {row : List UInt8} (hrow : row = formatPacket floats packet) :
    (session.printRow packet row).content =
      savedFile floats (session.printRow packet row).written := by
  rw [SaveSession.printRow]
  split_ifs
  · rw [savedFile_append, hfiles, hrow]
  · exact hfiles
  · exact hfiles

theorem recordingsExact_setSession (hexact : RecordingsExact floats state) {device : D}
    {session : SaveSession} (hfiles : session.content = savedFile floats session.written) :
    RecordingsExact floats (state.setSession device session) := by
  refine ⟨files_set hexact.files hfiles, ?_⟩
  rw [table_setSession]
  exact hexact.fields

/-- When a call begins or ends, the thread turns to other fields. -/
theorem recordingsExact_set (hexact : RecordingsExact floats state) {device : D}
    {thread : SavingThread} {texts : List (List UInt8)}
    (hfilling : thread.filling floats = ⟨texts, 0⟩)
    (hfiles : thread.session.content = savedFile floats thread.session.written) :
    RecordingsExact floats (state.set device thread) := by
  refine ⟨files_set hexact.files hfiles, ?_⟩
  rw [Recordings.table, Recordings.set, SharedTable.view_update_start hfilling]
  exact SharedTable.kept_start hexact.fields

theorem threadStep_outside_exact (hexact : RecordingsExact floats state) {device : D}
    (hformatting : (state.threads device).formatting = none) :
    RecordingsExact floats (state.threadStep floats device) := by
  have hfiles := hexact.files device
  rw [Recordings.threadStep]
  simp only [hformatting]
  cases hnext : (state.threads device).session.nextPacket with
  | none =>
      exact recordingsExact_set hexact rfl (files_session hfiles (threadStep_sameFile hnext))
  | some popped => exact recordingsExact_set hexact rfl hfiles

omit [DecidableEq D] in
theorem kept_of_formatting {device : D} {call : Formatting}
    (hformatting : (state.threads device).formatting = some call)
    (hkept : (state.table floats).Kept device) :
    ∀ index < call.fi, (fieldTexts floats call.packet)[index]? = some (state.fbuf index) := by
  rw [SharedTable.Table.Kept, fillings_of_formatting hformatting] at hkept
  exact hkept

/-- A step of a thread inside of a call. -/
theorem threadStep_inside_exact_iff (hexact : RecordingsExact floats state) {device : D}
    {call : Formatting} (hformatting : (state.threads device).formatting = some call) :
    RecordingsExact floats (state.threadStep floats device) ↔
      (state.table floats).Spares device := by
  cases htext : (fieldTexts floats call.packet)[call.fi]? with
  | some text =>
      have hnext : ((state.table floats).fillings device).next? = some text := by
        rw [fillings_of_formatting hformatting]
        exact htext
      rw [threadStep_of_field hformatting htext, ← SharedTable.kept_store_iff hnext hexact.fields,
        ← table_printField hformatting text]
      constructor
      · exact fun hafter => hafter.fields
      · exact fun hkept => ⟨files_set hexact.files (hexact.files device), hkept⟩
  | none =>
      have hrow := printedRow_of_kept (kept_of_formatting hformatting (hexact.fields device)) htext
      rw [threadStep_of_done hformatting htext]
      refine iff_of_true ?_ (SharedTable.spares_of_done ?_)
      · exact recordingsExact_set hexact rfl (files_printRow (hexact.files device) hrow)
      · rw [fillings_of_formatting hformatting]
        exact htext

/-- A step keeps all files and all printed fields exactly when it spares the fields of the
other threads. -/
theorem recordingsExact_step_iff (hexact : RecordingsExact floats state)
    (action : D × SaveAction) :
    RecordingsExact floats (recordStep floats state action) ↔
      SparesFields floats state action := by
  obtain ⟨device, act⟩ := action
  cases act with
  | packet packet =>
      have hsame := onPacketStep_sameFile (state.threads device).session packet
      exact iff_of_true
        (recordingsExact_setSession hexact (files_session (hexact.files device) hsame)) trivial
  | ending =>
      obtain ⟨hwritten, hcontent, _⟩ := endStep_cases (state.threads device).session
      refine iff_of_true (recordingsExact_setSession hexact ?_) trivial
      rw [hcontent, hwritten, hexact.files device]
  | thread =>
      cases hformatting : (state.threads device).formatting with
      | none =>
          refine iff_of_true (threadStep_outside_exact hexact hformatting)
            (SharedTable.spares_of_done ?_)
          simp only [Recordings.table, SharedTable.view, SavingThread.filling, hformatting]
          rfl
      | some call => exact threadStep_inside_exact_iff hexact hformatting

/-- While any number of recordings run, in any order of their steps, each file is in every
state the header and the rows of its own packets, and no thread has lost a field it has
printed, exactly when no field is printed over one of another thread's that reads
differently. -/
theorem recordings_exact_along_iff (floats : FloatText) (fbuf : Nat → List UInt8)
    (buffers : D → Fin fsMaxPacketQueueLength → FsPacketUnion)
    (actions : List (D × SaveAction)) :
    (∀ front, front <+: actions → RecordingsExact floats
        (run (recordStep floats) (recordingsBegun fbuf buffers) front)) ↔
      Along (recordStep floats) (SparesFields floats) (recordingsBegun fbuf buffers) actions := by
  have hbegun : RecordingsExact floats (recordingsBegun fbuf buffers) := by
    refine ⟨fun device => ?_, fun device index hindex => absurd hindex (Nat.not_lt_zero _)⟩
    exact (saveBegun_invariant floats (buffers device)).content
  exact @forall_prefix_run_iff _ _ (recordStep floats) (SparesFields floats) (fun _ => True)
    (RecordingsExact floats) (fun _ _ _ _ _ => trivial)
    (fun _ action _ hexact => recordingsExact_step_iff hexact action) _ _ trivial hbegun

end Exact

section Apart

variable {D : Type*} [DecidableEq D] {floats : FloatText} {state : Recordings D}

/-- A thread that is left alone prints the rest of its fields, and the row of its packet. -/
theorem threads_run_fields {device : D} {call : Formatting}
    (hformatting : (state.threads device).formatting = some call)
    (hkept : (state.table floats).Kept device) {count : Nat}
    (hcount : (fieldTexts floats call.packet).length = call.fi + count) (other : D) :
    (run (recordStep floats) state
        (List.replicate (count + 1) (device, SaveAction.thread))).threads other =
      if other = device then
        ⟨(state.threads device).session.printRow call.packet (formatPacket floats call.packet),
          none⟩
      else state.threads other := by
  induction count generalizing state call with
  | zero =>
      have hdone : (fieldTexts floats call.packet)[call.fi]? = none :=
        List.getElem?_eq_none hcount.le
      change (state.threadStep floats device).threads other = _
      rw [threadStep_of_done hformatting hdone, threads_set,
        printedRow_of_kept (kept_of_formatting hformatting hkept) hdone]
  | succ count ih =>
      have hindex : call.fi < (fieldTexts floats call.packet).length := by omega
      obtain ⟨text, htext⟩ : ∃ text, (fieldTexts floats call.packet)[call.fi]? = some text :=
        ⟨_, List.getElem?_eq_getElem hindex⟩
      have hnext : ((state.table floats).fillings device).next? = some text := by
        rw [fillings_of_formatting hformatting]
        exact htext
      have hstored := SharedTable.kept_store_self hnext hkept
      rw [← table_printField hformatting, ← threadStep_of_field hformatting htext] at hstored
      have hthreads : ∀ other, (state.threadStep floats device).threads other =
          if other = device then
            ⟨(state.threads device).session, some ⟨call.packet, call.fi + 1⟩⟩
          else state.threads other := by
        rw [threadStep_of_field hformatting htext]
        exact threads_set device _
      have hself := (hthreads device).trans (if_pos rfl)
      have hlater := @ih (state.threadStep floats device) ⟨call.packet, call.fi + 1⟩
        (by rw [hself]) hstored (by simp only; omega)
      rw [List.replicate_succ]
      change (run (recordStep floats) (state.threadStep floats device) _).threads other = _
      rw [hlater, hself, hthreads other]
      split_ifs <;> rfl

theorem threadStep_of_nextPacket {session : SaveSession} {packet : FsPacketUnion}
    {rest : FsPacketRingbuffer} (hnext : session.nextPacket = some (packet, rest)) :
    threadStep floats session =
      { session with saver := { session.saver with packetsToSave := rest } }.printRow packet
        (formatPacket floats packet) := by
  rw [SaveSession.nextPacket] at hnext
  split_ifs at hnext with hthread
  have hwrite : threadStep floats session = session.write floats packet rest := by
    rw [threadStep, hthread]
    simp only [hnext]
  rw [hwrite]
  rfl

/-- A call that nobody interrupts does what the recording model takes for one step, and
leaves the other recordings alone. -/
theorem threads_recordCall {device : D} (hidle : (state.threads device).formatting = none)
    (act : SaveAction) (other : D) :
    (recordCall floats state (device, act)).threads other =
      if other = device then ⟨saveStep floats (state.threads device).session act, none⟩
      else state.threads other := by
  cases act with
  | packet packet =>
      rw [recordCall, recordStep, Recordings.setSession, threads_set, hidle]
      rfl
  | ending =>
      rw [recordCall, recordStep, Recordings.setSession, threads_set, hidle]
      rfl
  | thread =>
      rw [recordCall, SaveSession.stepsAhead]
      cases hnext : (state.threads device).session.nextPacket with
      | none =>
          change (state.threadStep floats device).threads other = _
          simp only [Recordings.threadStep, hidle, hnext]
          exact threads_set device _ other
      | some popped =>
          obtain ⟨packet, rest⟩ := popped
          have hpopped : state.threadStep floats device =
              state.set device ⟨{ (state.threads device).session with
                saver := { (state.threads device).session.saver with packetsToSave := rest } },
                some ⟨packet, 0⟩⟩ := by
            simp only [Recordings.threadStep, hidle, hnext]
          have hthreads := fun other => congrArg (fun after => after.threads other) hpopped
          simp only [threads_set] at hthreads
          have hself := (hthreads device).trans (if_pos rfl)
          have hkept : ((state.threadStep floats device).table floats).Kept device := by
            intro index hindex
            rw [fillings_of_formatting (congrArg SavingThread.formatting hself)] at hindex
            exact absurd hindex (Nat.not_lt_zero _)
          have hcall := @threads_run_fields D _ floats (state.threadStep floats device) device
            ⟨packet, 0⟩ (congrArg SavingThread.formatting hself) hkept
            (fieldTexts floats packet).length (Nat.zero_add _).symm other
          simp only
          rw [List.replicate_succ]
          change (run (recordStep floats) (state.threadStep floats device) _).threads other = _
          rw [hcall, hself, hthreads other, saveStep, threadStep_of_nextPacket hnext]
          split_ifs <;> rfl

theorem threads_run_recordCall (state : Recordings D)
    (hidle : ∀ device, (state.threads device).formatting = none)
    (actions : List (D × SaveAction)) (device : D) :
    (run (recordCall floats) state actions).threads device =
      ⟨run (saveStep floats) (state.threads device).session (SharedScratch.own device actions),
        none⟩ := by
  induction actions generalizing state with
  | nil =>
      rw [SharedScratch.own_nil]
      exact congrArg (SavingThread.mk _) (hidle device)
  | cons action later ih =>
      obtain ⟨called, act⟩ := action
      have hstep := @threads_recordCall D _ floats state called (hidle called) act
      have hlater := ih (recordCall floats state (called, act)) fun other => by
        rw [hstep other]
        split_ifs
        · rfl
        · exact hidle other
      change (run (recordCall floats) (recordCall floats state (called, act)) later).threads device
        = _
      rw [hlater, hstep device]
      by_cases hcalled : called = device
      · subst hcalled
        rw [if_pos rfl, SharedScratch.own_cons_self]
        rfl
      · rw [if_neg (Ne.symm hcalled), SharedScratch.own_cons_other hcalled]

/-- Recordings whose calls to `format_packet` do not overlap run as if each were the only
one. -/
theorem recordings_apart (floats : FloatText) (fbuf : Nat → List UInt8)
    (buffers : D → Fin fsMaxPacketQueueLength → FsPacketUnion)
    (actions : List (D × SaveAction)) (device : D) :
    (run (recordCall floats) (recordingsBegun fbuf buffers) actions).threads device =
      ⟨run (saveStep floats) (saveBegun (buffers device)) (SharedScratch.own device actions),
        none⟩ :=
  threads_run_recordCall (recordingsBegun fbuf buffers) (fun _ => rfl) actions device

end Apart

end Trifecta
