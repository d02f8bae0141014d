/-
Several files replayed side by side: calls on any number of handles, all of which read
their lines into the one static buffer of the reader.
-/
import Trifecta.LineReads
import Trifecta.Library.SharedScratch

namespace Trifecta

open SharedScratch

/-- `fs_replay_t`, with `none` for a null pointer. -/
structure ReplayRecord where
  fp : Option FsFile
  offsets : Option (List Nat)
  numLines : Nat
  numBlocks : Nat
  sparseStep : Nat
  hasIndex : Bool
  fieldForColumn : List FsFieldId

/-- All bytes 0, which `fs_export_allocate_replay` gives. -/
def zeroRecord : ReplayRecord where
  fp := none
  offsets := none
  numLines := 0
  numBlocks := 0
  sparseStep := 0
  hasIndex := false
  fieldForColumn := List.replicate fsReplayMaxColumns .none

/-- `linebuf`. -/
abbrev LineBuffer := Nat → UInt8

def LineBuffer.bytes (linebuf : LineBuffer) : List UInt8 :=
  (List.range replayLineSize).map linebuf

/-- An array that starts with a text goes on behind it. -/
theorem TextBuffer.Starts.range {buf : TextBuffer} {text : List UInt8} (hstarts : buf.Starts text)
    {size : Nat} (hsize : text.length ≤ size) :
    (List.range size).map buf.bytes =
      text ++ (List.range (size - text.length)).map
        fun index => buf.bytes (text.length + index) := by
  conv_lhs => rw [← Nat.add_sub_cancel' hsize]
  rw [List.range_add, List.map_append, hstarts, List.map_map]
  rfl

/-- A call of `fs_safe_fgets` on `linebuf`. -/
def fetchLine (linebuf : LineBuffer) (file : FsFile) : BufferedLine :=
  TextBuffer.fsSafeFgets file ⟨linebuf, []⟩ replayLineSize

section Lines

variable (linebuf : LineBuffer) (file : FsFile)

theorem fetchLine_code : (fetchLine linebuf file).code = (fsSafeFgets replayLineSize file).code :=
  (fsSafeFgets_leaves (by decide) file linebuf).code

theorem fetchLine_file : (fetchLine linebuf file).file =
    file.seek (file.pos + (file.remaining.length -
      (fsSafeFgetsFrom replayLineSize [] file.remaining).2.2.length)) :=
  (fsSafeFgets_leaves (by decide) file linebuf).moved

theorem fetchLine_file_inside (hinside : file.pos ≤ file.content.length) :
    (fetchLine linebuf file).file = (fsSafeFgets replayLineSize file).file :=
  (fsSafeFgets_views (by decide) hinside linebuf).2.1

/-- The cells of a line that has been read are those in the buffer, since neither goes on
behind the terminator. -/
theorem lineCells_fetchLine (hgot : 0 < (fsSafeFgets replayLineSize file).code) :
    lineCells (LineBuffer.bytes (fetchLine linebuf file).buf.bytes) =
      lineCells (fsSafeFgets replayLineSize file).line := by
  have hleaves := fsSafeFgets_leaves (by decide : 2 ≤ replayLineSize) file linebuf
  have htext : (fetchLine linebuf file).buf.Starts
      ((fsSafeFgets replayLineSize file).line ++ [0]) := hleaves.text hgot.ne'
  have hline : ((fsSafeFgets replayLineSize file).line ++ [0]).length ≤ replayLineSize := by
    have hfrom := congrArg (fun got => got.2.1.length)
      (fsSafeFgetsFrom_eq replayLineSize file.remaining)
    have htake := List.length_take_le (replayLineSize - 1) (firstLine file.remaining)
    rw [List.length_append, List.length_singleton]
    change (fsSafeFgetsFrom replayLineSize [] file.remaining).2.1.length + 1 ≤ _
    dsimp only at hfrom
    rw [hfrom]
    exact Nat.succ_le_of_lt (Nat.lt_of_le_of_lt htake (by decide))
  have hbytes := htext.range hline
  rw [LineBuffer.bytes, hbytes, List.append_assoc, List.singleton_append, lineCells, lineCells,
    CText.cString_append_zero_cons]

end Lines

/-- What the indexing loop of `fs_replay_open` leaves; it is not complete when a
reallocation fails. -/
structure Indexing where
  complete : Bool
  state : IndexState
  file : FsFile
  linebuf : LineBuffer

theorem length_remaining_fetchLine {linebuf : LineBuffer} {file : FsFile}
    (hgot : 0 < (fetchLine linebuf file).code) :
    (fetchLine linebuf file).file.remaining.length < file.remaining.length := by
  have hshorter := length_remaining_fsSafeFgets replayLineSize file
    (fetchLine_code linebuf file ▸ hgot)
  by_cases hinside : file.pos ≤ file.content.length
  · rw [fetchLine_file_inside linebuf file hinside]
    exact hshorter
  · have hnone : file.remaining.length = 0 := by
      rw [FsFile.remaining, List.length_drop]
      exact Nat.sub_eq_zero_of_le (Nat.le_of_not_le hinside)
    rw [hnone] at hshorter
    exact absurd hshorter (Nat.not_lt_zero _)

def ReplayRecord.indexRows (alloc : Nat → Bool) (sparseStep : Nat) (state : IndexState)
    (file : FsFile) (linebuf : LineBuffer) : Indexing :=
  let got := fetchLine linebuf file
  if _hgot : 0 < got.code then
    match addOffset alloc sparseStep state with
    | .error _ => { complete := false, state, file := got.file, linebuf := got.buf.bytes }
    | .ok added =>
        indexRows alloc sparseStep
          { added with pos := got.file.pos, line := (state.line + 1) % 2 ^ 32 } got.file
          got.buf.bytes
  else { complete := true, state, file := got.file, linebuf := got.buf.bytes }
termination_by file.remaining.length
decreasing_by exact length_remaining_fetchLine _hgot

/-- What a call returns, with the packet at `out` where it has one. -/
inductive ReplayAnswer
  | code (value : Int)
  | packet (value : Int) (out : FsPacketUnion)
  | size (lines : Nat)
  | closed

/-- What a call on a handle leaves. -/
abbrev ReplayOutcome := Outcome ReplayAnswer ReplayRecord LineBuffer

namespace ReplayRecord

/-- `fs_replay_open`.  The record is cleared before anything else, and keeps what it has
been given when a later step fails. -/
def fsReplayOpen (alloc : Nat → Bool) (content : Option (List UInt8)) (sparseStep : Nat)
    (linebuf : LineBuffer) (record : ReplayRecord) : ReplayOutcome :=
  if sparseStep = 0 then { result := .code (-1), part := record, scratch := linebuf }
  else
    let cleared := { zeroRecord with sparseStep }
    match content with
    | none => { result := .code (-2), part := cleared, scratch := linebuf }
    | some content =>
        let got := fetchLine linebuf { content, pos := 0 }
        let opened := { cleared with fp := some got.file }
        if got.code ≤ 0 then
          { result := .code (-3), part := opened, scratch := got.buf.bytes }
        else
          let parsed :=
            { opened with
              fieldForColumn := fsReplayParseHeader (LineBuffer.bytes got.buf.bytes) }
          if alloc (4096 * 8) = false then
            { result := .code (-5), part := parsed, scratch := got.buf.bytes }
          else
            let indexed := indexRows alloc sparseStep
              { offsets := [], cap := 4096, pos := got.file.pos, line := 0 } got.file
              got.buf.bytes
            if indexed.complete = false then
              { result := .code (-6)
                part :=
                  { parsed with fp := some indexed.file, offsets := some indexed.state.offsets }
                scratch := indexed.linebuf }
            else
              { result := .code 0
                part :=
                  { parsed with
                    fp := match indexed.state.offsets with
                      | [] => some indexed.file
                      | first :: _ => some (indexed.file.seek first)
                    offsets := some indexed.state.offsets
                    numLines := indexed.state.line
                    numBlocks := indexed.state.offsets.length
                    hasIndex := 0 < indexed.state.offsets.length }
                scratch := indexed.linebuf }

/-- `fs_replay_read_next`. -/
def fsReplayReadNext (floats : FloatText) (out : FsPacketUnion) (linebuf : LineBuffer)
    (record : ReplayRecord) : ReplayOutcome :=
  match record.fp with
  | none => { result := .packet (-1) out, part := record, scratch := linebuf }
  | some file =>
      let got := fetchLine linebuf file
      let next := { record with fp := some got.file }
      if got.code = 0 then { result := .packet 1 out, part := next, scratch := got.buf.bytes }
      else if got.code < 0 then
        { result := .packet (-2) out, part := next, scratch := got.buf.bytes }
      else
        let parsed := fsReplayParsePacket floats record.fieldForColumn
          (LineBuffer.bytes got.buf.bytes) out
        { result := .packet parsed.1 parsed.2, part := next, scratch := got.buf.bytes }

/-- The loop of `fs_replay_read_line` over the lines before the one asked for. -/
def skipLines : Nat → FsFile → LineBuffer → Bool × FsFile × LineBuffer
  | 0, file, linebuf => (true, file, linebuf)
  | count + 1, file, linebuf =>
      let got := fetchLine linebuf file
      if got.code ≤ 0 then (false, got.file, got.buf.bytes)
      else skipLines count got.file got.buf.bytes

/-- The record as the replay of an open file. -/
def replay (record : ReplayRecord) (file : FsFile) (offsets : List Nat) : FsReplay where
  file
  offsets
  numLines := record.numLines
  numBlocks := record.numBlocks
  sparseStep := record.sparseStep
  hasIndex := record.hasIndex
  fieldForColumn := record.fieldForColumn

/-- `fs_replay_read_line`. -/
def fsReplayReadLine (floats : FloatText) (lineIndex : Nat) (out : FsPacketUnion)
    (linebuf : LineBuffer) (record : ReplayRecord) : ReplayOutcome :=
  match record.fp with
  | none => { result := .packet (-1) out, part := record, scratch := linebuf }
  | some file =>
      match record.offsets with
      | none => { result := .packet (-2) out, part := record, scratch := linebuf }
      | some offsets =>
          if record.hasIndex = false then
            { result := .packet (-2) out, part := record, scratch := linebuf }
          else if record.numLines ≤ lineIndex then
            { result := .packet (-3) out, part := record, scratch := linebuf }
          else
            let start := startLine (record.replay file offsets) lineIndex
            let skipped := skipLines (lineIndex - start.1)
              (file.seek ((offsets[start.2]?).getD 0)) linebuf
            if skipped.1 = false then
              { result := .packet (-5) out
                part := { record with fp := some skipped.2.1 }
                scratch := skipped.2.2 }
            else
              let got := fetchLine skipped.2.2 skipped.2.1
              let next := { record with fp := some got.file }
              if got.code ≤ 0 then
                { result := .packet (-6) out, part := next, scratch := got.buf.bytes }
              else
                let parsed := fsReplayParsePacket floats record.fieldForColumn
                  (LineBuffer.bytes got.buf.bytes) out
                { result := .packet parsed.1 parsed.2, part := next, scratch := got.buf.bytes }

/-- `fs_replay_close`, which leaves the columns alone. -/
def fsReplayClose (record : ReplayRecord) : ReplayRecord :=
  { record with
    fp := none
    offsets := none
    numLines := 0
    numBlocks := 0
    sparseStep := 0
    hasIndex := false }

end ReplayRecord

/-- A call on a handle; `openFile` has the answers of the allocator and the file at the
path, if it can be opened. -/
inductive ReplayRequest
  | openFile (alloc : Nat → Bool) (content : Option (List UInt8)) (sparseStep : Nat)
  | read (call : ReplayCall)
  | getSize
  | close

def replayRequest (floats : FloatText) (linebuf : LineBuffer) (record : ReplayRecord) :
    ReplayRequest → ReplayOutcome
  | .openFile alloc content sparseStep => record.fsReplayOpen alloc content sparseStep linebuf
  | .read (.readNext out) => record.fsReplayReadNext floats out linebuf
  | .read (.readLine lineIndex out) => record.fsReplayReadLine floats lineIndex out linebuf
  | .getSize => { result := .size record.numLines, part := record, scratch := linebuf }
  | .close => { result := .closed, part := record.fsReplayClose, scratch := linebuf }

/-! What a call returns and leaves in its record does not depend on what stood in the
buffer. -/

section Clean

variable (floats : FloatText) (first second : LineBuffer)

theorem fetchLine_code_eq (file : FsFile) :
    (fetchLine first file).code = (fetchLine second file).code :=
  (fetchLine_code first file).trans (fetchLine_code second file).symm

theorem fetchLine_file_eq (file : FsFile) :
    (fetchLine first file).file = (fetchLine second file).file :=
  (fetchLine_file first file).trans (fetchLine_file second file).symm

theorem lineCells_fetchLine_eq {file : FsFile} (hgot : 0 < (fetchLine second file).code) :
    lineCells (LineBuffer.bytes (fetchLine first file).buf.bytes) =
      lineCells (LineBuffer.bytes (fetchLine second file).buf.bytes) := by
  rw [fetchLine_code] at hgot
  rw [lineCells_fetchLine first file hgot, lineCells_fetchLine second file hgot]

theorem fsReplayParseHeader_congr {line other : List UInt8}
    (hcells : lineCells line = lineCells other) :
    fsReplayParseHeader line = fsReplayParseHeader other := by
  rw [fsReplayParseHeader, fsReplayParseHeader, hcells]

theorem fsReplayParsePacket_congr {line other : List UInt8}
    (hcells : lineCells line = lineCells other) (fieldForColumn : List FsFieldId)
    (out : FsPacketUnion) :
    fsReplayParsePacket floats fieldForColumn line out =
      fsReplayParsePacket floats fieldForColumn other out := by
  rw [fsReplayParsePacket, fsReplayParsePacket, hcells]

theorem indexRows_clean (alloc : Nat → Bool) (sparseStep : Nat) (state : IndexState)
    (file : FsFile) : ∀ first second : LineBuffer,
    (ReplayRecord.indexRows alloc sparseStep state file first).complete =
        (ReplayRecord.indexRows alloc sparseStep state file second).complete ∧
      (ReplayRecord.indexRows alloc sparseStep state file first).state =
        (ReplayRecord.indexRows alloc sparseStep state file second).state ∧
      (ReplayRecord.indexRows alloc sparseStep state file first).file =
        (ReplayRecord.indexRows alloc sparseStep state file second).file := by
  intro first second
  have hcode := fetchLine_code_eq first second file
  have hfile := fetchLine_file_eq first second file
  rw [ReplayRecord.indexRows, ReplayRecord.indexRows]
  by_cases hgot : 0 < (fetchLine second file).code
  · simp only [hcode, hgot, ↓reduceDIte, hfile]
    cases addOffset alloc sparseStep state with
    | error code => exact ⟨rfl, rfl, rfl⟩
    | ok added => exact indexRows_clean alloc sparseStep _ _ _ _
  · simp only [hcode, hgot, ↓reduceDIte, hfile, and_self]
termination_by file.remaining.length
decreasing_by exact length_remaining_fetchLine hgot

theorem fsReplayOpen_clean (alloc : Nat → Bool) (content : Option (List UInt8))
    (sparseStep : Nat) (record : ReplayRecord) :
    (record.fsReplayOpen alloc content sparseStep first).result =
        (record.fsReplayOpen alloc content sparseStep second).result ∧
      (record.fsReplayOpen alloc content sparseStep first).part =
        (record.fsReplayOpen alloc content sparseStep second).part := by
  rw [ReplayRecord.fsReplayOpen, ReplayRecord.fsReplayOpen]
  by_cases hstep : sparseStep = 0
  · simp only [hstep, ↓reduceIte, and_self]
  · cases content with
    | none => simp only [hstep, ↓reduceIte, and_self]
    | some content =>
        have hcode := fetchLine_code_eq first second { content, pos := 0 }
        have hfile := fetchLine_file_eq first second { content, pos := 0 }
        by_cases hgot : (fetchLine second { content, pos := 0 }).code ≤ 0
        · simp only [hstep, ↓reduceIte, hcode, hgot, hfile, and_self]
        · have hheader := fsReplayParseHeader_congr
            (lineCells_fetchLine_eq first second (Int.not_le.1 hgot))
          by_cases halloc : alloc (4096 * 8) = false
          · simp only [hstep, ↓reduceIte, hcode, hgot, halloc, hfile, hheader, and_self]
          · obtain ⟨hcomplete, hstate, hleft⟩ := indexRows_clean alloc sparseStep
              { offsets := [], cap := 4096, line := 0
                pos := (fetchLine second { content, pos := 0 }).file.pos }
              (fetchLine second { content, pos := 0 }).file
              (fetchLine first { content, pos := 0 }).buf.bytes
              (fetchLine second { content, pos := 0 }).buf.bytes
            simp only [hstep, ↓reduceIte, hcode, hgot, halloc, hfile, hheader, hcomplete, hstate,
              hleft]
            split_ifs <;> exact ⟨rfl, rfl⟩

theorem fsReplayReadNext_clean (out : FsPacketUnion) (record : ReplayRecord) :
    (record.fsReplayReadNext floats out first).result =
        (record.fsReplayReadNext floats out second).result ∧
      (record.fsReplayReadNext floats out first).part =
        (record.fsReplayReadNext floats out second).part := by
  rw [ReplayRecord.fsReplayReadNext, ReplayRecord.fsReplayReadNext]
  cases record.fp with
  | none => exact ⟨rfl, rfl⟩
  | some file =>
      have hcode := fetchLine_code_eq first second file
      have hfile := fetchLine_file_eq first second file
      simp only [hcode, hfile]
      split_ifs with hend hcut
      · exact ⟨rfl, rfl⟩
      · exact ⟨rfl, rfl⟩
      · have hgot : 0 < (fetchLine second file).code := by omega
        rw [fsReplayParsePacket_congr floats (lineCells_fetchLine_eq first second hgot)]
        exact ⟨rfl, rfl⟩

theorem skipLines_clean (count : Nat) (file : FsFile) :
    (ReplayRecord.skipLines count file first).1 = (ReplayRecord.skipLines count file second).1 ∧
      (ReplayRecord.skipLines count file first).2.1 =
        (ReplayRecord.skipLines count file second).2.1 := by
  induction count generalizing file first second with
  | zero => exact ⟨rfl, rfl⟩
  | succ count ih =>
      rw [ReplayRecord.skipLines, ReplayRecord.skipLines]
      simp only [fetchLine_code_eq first second file, fetchLine_file_eq first second file]
      split_ifs
      · exact ⟨rfl, rfl⟩
      · exact ih _ _ _

theorem fsReplayReadLine_clean (lineIndex : Nat) (out : FsPacketUnion) (record : ReplayRecord) :
    (record.fsReplayReadLine floats lineIndex out first).result =
        (record.fsReplayReadLine floats lineIndex out second).result ∧
      (record.fsReplayReadLine floats lineIndex out first).part =
        (record.fsReplayReadLine floats lineIndex out second).part := by
  rw [ReplayRecord.fsReplayReadLine, ReplayRecord.fsReplayReadLine]
  cases record.fp with
  | none => exact ⟨rfl, rfl⟩
  | some file =>
      cases record.offsets with
      | none => exact ⟨rfl, rfl⟩
      | some offsets =>
          dsimp only
          generalize startLine (record.replay file offsets) lineIndex = start
          generalize file.seek ((offsets[start.2]?).getD 0) = sought
          obtain ⟨hdone, hleft⟩ := skipLines_clean first second (lineIndex - start.1) sought
          generalize ReplayRecord.skipLines (lineIndex - start.1) sought first = one
            at hdone hleft ⊢
          generalize ReplayRecord.skipLines (lineIndex - start.1) sought second = other
            at hdone hleft ⊢
          have hcode := fetchLine_code_eq one.2.2 other.2.2 other.2.1
          have hfile := fetchLine_file_eq one.2.2 other.2.2 other.2.1
          simp only [hdone, hleft, hcode, hfile]
          split_ifs with hindex hline hskipped hgot
          · exact ⟨rfl, rfl⟩
          · exact ⟨rfl, rfl⟩
          · exact ⟨rfl, rfl⟩
          · exact ⟨rfl, rfl⟩
          · have hcells := lineCells_fetchLine_eq one.2.2 other.2.2 (Int.not_le.1 hgot)
            rw [fsReplayParsePacket_congr floats hcells]
            exact ⟨rfl, rfl⟩

/-- No call sees what another one has left in the buffer. -/
theorem clean_replayRequest : Clean (replayRequest floats) := by
  intro first second record request
  cases request with
  | openFile alloc content sparseStep =>
      exact fsReplayOpen_clean first second alloc content sparseStep record
  | read call =>
      cases call with
      | readNext out => exact fsReplayReadNext_clean floats first second out record
      | readLine lineIndex out =>
          exact fsReplayReadLine_clean floats first second lineIndex out record
  | getSize => exact ⟨rfl, rfl⟩
  | close => exact ⟨rfl, rfl⟩

end Clean

/-! A handle that has been opened beside the replay of its file alone. -/

/-- The record of a replay whose file is open. -/
def FsReplay.record (replay : FsReplay) : ReplayRecord where
  fp := some replay.file
  offsets := some replay.offsets
  numLines := replay.numLines
  numBlocks := replay.numBlocks
  sparseStep := replay.sparseStep
  hasIndex := replay.hasIndex
  fieldForColumn := replay.fieldForColumn

/-- The position and the offsets lie in the file. -/
structure FsReplay.InsideFile (replay : FsReplay) : Prop where
  pos : replay.file.pos ≤ replay.file.content.length
  offsets : ∀ offset ∈ replay.offsets, offset ≤ replay.file.content.length

section Opened

variable (floats : FloatText) (linebuf : LineBuffer)

theorem fsSafeFgets_inside (file : FsFile) :
    (fsSafeFgets replayLineSize file).file.pos ≤ file.content.length :=
  Nat.sub_le _ _

theorem mem_addOffset {alloc : Nat → Bool} {sparseStep : Nat} {state added : IndexState}
    (hadded : addOffset alloc sparseStep state = .ok added) {offset : Nat}
    (hoffset : offset ∈ added.offsets) : offset ∈ state.offsets ∨ offset = state.pos := by
  rcases addOffset_cases hadded with ⟨_, hnew⟩ | ⟨_, hsame⟩
  · rw [hnew] at hoffset
    exact (List.mem_append.1 hoffset).imp_right List.mem_singleton.1
  · exact Or.inl (hsame ▸ hoffset)

theorem addOffset_error {alloc : Nat → Bool} {sparseStep : Nat} {state : IndexState} {code : Int}
    (herror : addOffset alloc sparseStep state = .error code) : code = -6 := by
  rw [addOffset] at herror
  dsimp only at herror
  split_ifs at herror
  exact (Except.error.inj herror).symm

/-- The loop on the buffer is the loop that has its lines as lists. -/
theorem indexRows_views (alloc : Nat → Bool) (sparseStep : Nat) (state : IndexState)
    (file : FsFile) (hinside : file.pos ≤ file.content.length) : ∀ linebuf : LineBuffer,
    indexRows alloc sparseStep state file =
      if (ReplayRecord.indexRows alloc sparseStep state file linebuf).complete = true then
        .ok ((ReplayRecord.indexRows alloc sparseStep state file linebuf).state,
          (ReplayRecord.indexRows alloc sparseStep state file linebuf).file)
      else .error (-6) := by
  intro linebuf
  have hcode := fetchLine_code linebuf file
  have hfile := fetchLine_file_inside linebuf file hinside
  rw [indexRows, ReplayRecord.indexRows]
  by_cases hgot : 0 < (fsSafeFgets replayLineSize file).code
  · simp only [hcode, hgot, ↓reduceDIte, hfile]
    cases hadded : addOffset alloc sparseStep state with
    | error code => simp [addOffset_error hadded]
    | ok added =>
        exact indexRows_views alloc sparseStep _ _ (fsSafeFgets_inside file) _
  · simp only [hcode, hgot, ↓reduceDIte, hfile, ↓reduceIte]
termination_by file.remaining.length
decreasing_by exact length_remaining_fsSafeFgets replayLineSize file hgot

/-- Indexing enters positions of the file only. -/
theorem indexRows_inside {alloc : Nat → Bool} {sparseStep : Nat} {state : IndexState}
    {file : FsFile} (hpos : state.pos ≤ file.content.length)
    (hoffsets : ∀ offset ∈ state.offsets, offset ≤ file.content.length)
    {indexed : IndexState × FsFile}
    (hindexed : indexRows alloc sparseStep state file = .ok indexed) :
    indexed.2.pos ≤ file.content.length ∧ indexed.2.content = file.content ∧
      ∀ offset ∈ indexed.1.offsets, offset ≤ file.content.length := by
  rw [indexRows] at hindexed
  by_cases hgot : 0 < (fsSafeFgets replayLineSize file).code
  · simp only [hgot, ↓reduceDIte] at hindexed
    cases hadded : addOffset alloc sparseStep state with
    | error code =>
        rw [hadded] at hindexed
        cases hindexed
    | ok added =>
        rw [hadded] at hindexed
        have hadds : ∀ offset ∈ added.offsets, offset ≤ file.content.length := by
          intro offset hoffset
          rcases mem_addOffset hadded hoffset with hold | rfl
          · exact hoffsets offset hold
          · exact hpos
        exact @indexRows_inside alloc sparseStep
          { added with
            pos := (fsSafeFgets replayLineSize file).file.pos
            line := (state.line + 1) % 2 ^ 32 }
          (fsSafeFgets replayLineSize file).file (fsSafeFgets_inside file) hadds indexed hindexed
  · simp only [hgot, ↓reduceDIte] at hindexed
    cases hindexed
    exact ⟨fsSafeFgets_inside file, rfl, hoffsets⟩
termination_by file.remaining.length
decreasing_by exact length_remaining_fsSafeFgets replayLineSize file hgot

/-- An open file is opened as its replay alone is. -/
theorem fsReplayOpen_views (alloc : Nat → Bool) (content : Option (List UInt8))
    (sparseStep : Nat) (record : ReplayRecord) :
    match fsReplayOpen alloc content sparseStep with
    | .error code => (record.fsReplayOpen alloc content sparseStep linebuf).result = .code code
    | .ok replay =>
        (record.fsReplayOpen alloc content sparseStep linebuf).result = .code 0 ∧
          (record.fsReplayOpen alloc content sparseStep linebuf).part = replay.record ∧
          replay.InsideFile := by
  unfold fsReplayOpen ReplayRecord.fsReplayOpen
  by_cases hstep : sparseStep = 0
  · simp only [hstep, ↓reduceIte]
  · cases content with
    | none => simp only [hstep, ↓reduceIte]
    | some content =>
        have hcode := fetchLine_code linebuf { content, pos := 0 }
        have hfile := fetchLine_file_inside linebuf { content, pos := 0 } (Nat.zero_le _)
        have hinside := fsSafeFgets_inside { content, pos := 0 }
        by_cases hgot : (fsSafeFgets replayLineSize { content, pos := 0 }).code ≤ 0
        · simp only [hstep, ↓reduceIte, hcode, hgot]
        · have hheader := fsReplayParseHeader_congr
            (lineCells_fetchLine linebuf { content, pos := 0 } (Int.not_le.1 hgot))
          by_cases halloc : alloc (4096 * 8) = false
          · simp only [hstep, ↓reduceIte, hcode, hgot, halloc]
          · have hviews := indexRows_views alloc sparseStep
              { offsets := [], cap := 4096, line := 0
                pos := (fsSafeFgets replayLineSize { content, pos := 0 }).file.pos }
              (fsSafeFgets replayLineSize { content, pos := 0 }).file hinside
              (fetchLine linebuf { content, pos := 0 }).buf.bytes
            have hbounds := fun indexed => @indexRows_inside alloc sparseStep
              { offsets := [], cap := 4096, line := 0
                pos := (fsSafeFgets replayLineSize { content, pos := 0 }).file.pos }
              (fsSafeFgets replayLineSize { content, pos := 0 }).file hinside
              (List.forall_mem_nil _) indexed
            simp only [hstep, ↓reduceIte, hcode, hgot, halloc, hfile, hheader]
            generalize ReplayRecord.indexRows alloc sparseStep _ _ _ = indexed at hviews ⊢
            rw [hviews] at hbounds ⊢
            cases hcomplete : indexed.complete with
            | false => simp
            | true =>
                obtain ⟨hpos, hcontent, hoffsets⟩ := hbounds _ (if_pos hcomplete)
                rw [← hcontent] at hpos hoffsets
                cases hstarts : indexed.state.offsets with
                | nil =>
                    rw [hstarts] at hoffsets
                    simp only [hstarts, Bool.true_eq_false, ↓reduceIte]
                    exact ⟨trivial, rfl, hpos, hoffsets⟩
                | cons offset offsets =>
                    rw [hstarts] at hoffsets
                    simp only [hstarts, Bool.true_eq_false, ↓reduceIte]
                    exact ⟨trivial, rfl, hoffsets offset List.mem_cons_self, hoffsets⟩

variable {replay : FsReplay}

theorem FsReplay.InsideFile.moved (hinside : replay.InsideFile) (file : FsFile)
    (hcontent : file.content = replay.file.content)
    (hpos : file.pos ≤ replay.file.content.length) :
    ({ replay with file := file } : FsReplay).InsideFile where
  pos := by rwa [← hcontent] at hpos
  offsets := by
    rw [hcontent]
    exact hinside.offsets

theorem fsReplayReadNext_views (hinside : replay.InsideFile) (out : FsPacketUnion) :
    (replay.record.fsReplayReadNext floats out linebuf).result =
        .packet (fsReplayReadNext floats replay out).code
          (fsReplayReadNext floats replay out).out ∧
      (replay.record.fsReplayReadNext floats out linebuf).part =
        (fsReplayReadNext floats replay out).replay.record ∧
      (fsReplayReadNext floats replay out).replay.InsideFile := by
  have hcode := fetchLine_code linebuf replay.file
  have hfile := fetchLine_file_inside linebuf replay.file hinside.pos
  have hmoved := hinside.moved (fsSafeFgets replayLineSize replay.file).file rfl
    (fsSafeFgets_inside replay.file)
  simp only [ReplayRecord.fsReplayReadNext, fsReplayReadNext, FsReplay.record, hcode, hfile]
  split_ifs with hend hcut
  · exact ⟨rfl, rfl, hmoved⟩
  · exact ⟨rfl, rfl, hmoved⟩
  · have hgot : 0 < (fsSafeFgets replayLineSize replay.file).code := by omega
    rw [fsReplayParsePacket_congr floats (lineCells_fetchLine linebuf replay.file hgot)]
    exact ⟨rfl, rfl, hmoved⟩

theorem skipLines_views (count : Nat) (file : FsFile) (hinside : file.pos ≤ file.content.length) :
    (ReplayRecord.skipLines count file linebuf).1 = (skipLines count file).1 ∧
      (ReplayRecord.skipLines count file linebuf).2.1 = (skipLines count file).2 ∧
      (skipLines count file).2.content = file.content ∧
      (skipLines count file).2.pos ≤ file.content.length := by
  induction count generalizing file linebuf with
  | zero => exact ⟨rfl, rfl, rfl, hinside⟩
  | succ count ih =>
      have hcode := fetchLine_code linebuf file
      have hfile := fetchLine_file_inside linebuf file hinside
      have hnext := fsSafeFgets_inside file
      simp only [ReplayRecord.skipLines, skipLines, hcode, hfile]
      split_ifs
      · exact ⟨rfl, rfl, rfl, hnext⟩
      · exact ih _ _ hnext

theorem fsReplayReadLine_views (hinside : replay.InsideFile) (lineIndex : Nat)
    (out : FsPacketUnion) :
    (replay.record.fsReplayReadLine floats lineIndex out linebuf).result =
        .packet (fsReplayReadLine floats replay lineIndex out).code
          (fsReplayReadLine floats replay lineIndex out).out ∧
      (replay.record.fsReplayReadLine floats lineIndex out linebuf).part =
        (fsReplayReadLine floats replay lineIndex out).replay.record ∧
      (fsReplayReadLine floats replay lineIndex out).replay.InsideFile := by
  obtain ⟨file, offsets, numLines, numBlocks, sparseStep, hasIndex, columns⟩ := replay
  have hsought : ∀ block : Nat, (offsets[block]?).getD 0 ≤ file.content.length := by
    intro block
    cases hblock : offsets[block]? with
    | none => exact Nat.zero_le _
    | some offset => exact hinside.offsets offset (List.mem_of_getElem? hblock)
  dsimp only [ReplayRecord.fsReplayReadLine, fsReplayReadLine, FsReplay.record,
    ReplayRecord.replay]
  generalize startLine _ lineIndex = start
  obtain ⟨hdone, hleft, hcontent, hpos⟩ := skipLines_views linebuf (lineIndex - start.1)
    (file.seek ((offsets[start.2]?).getD 0)) (hsought start.2)
  generalize ReplayRecord.skipLines _ _ linebuf = kept at hdone hleft ⊢
  generalize skipLines _ _ = skipped at hdone hleft hcontent hpos ⊢
  have hskipped : skipped.2.pos ≤ skipped.2.content.length := by
    rw [hcontent]
    exact hpos
  have hcode := fetchLine_code kept.2.2 skipped.2
  have hfile := fetchLine_file_inside kept.2.2 skipped.2 hskipped
  have hnext : (fsSafeFgets replayLineSize skipped.2).file.pos ≤ file.content.length :=
    (fsSafeFgets_inside skipped.2).trans_eq (congrArg List.length hcontent)
  have hmoved := hinside.moved (fsSafeFgets replayLineSize skipped.2).file hcontent hnext
  simp only [hdone, hleft, hcode, hfile]
  split_ifs with hindex hline hshort hgot
  · exact ⟨rfl, rfl, hinside⟩
  · exact ⟨rfl, rfl, hinside⟩
  · exact ⟨rfl, rfl, hinside.moved skipped.2 hcontent hpos⟩
  · exact ⟨rfl, rfl, hmoved⟩
  · have hcells := lineCells_fetchLine kept.2.2 skipped.2 (Int.not_le.1 hgot)
    rw [fsReplayParsePacket_congr floats hcells]
    exact ⟨rfl, rfl, hmoved⟩

/-- The answers that reads of an opened handle give alone. -/
theorem alone_reads (hinside : replay.InsideFile) (reads : List ReplayCall) :
    alone (replayRequest floats) linebuf replay.record (reads.map .read) =
      (replayRun floats replay reads).map fun answer => .packet answer.1 answer.2 := by
  induction reads generalizing replay linebuf with
  | nil => rfl
  | cons call later ih =>
      cases call with
      | readNext out =>
          obtain ⟨hresult, hpart, hnext⟩ := fsReplayReadNext_views floats linebuf hinside out
          rw [List.map_cons, alone, replayRun, List.map_cons, replayRequest, hresult, hpart,
            ih _ hnext]
          rfl
      | readLine lineIndex out =>
          obtain ⟨hresult, hpart, hnext⟩ :=
            fsReplayReadLine_views floats linebuf hinside lineIndex out
          rw [List.map_cons, alone, replayRun, List.map_cons, replayRequest, hresult, hpart,
            ih _ hnext]
          rfl

end Opened

/-! Runs over many handles. -/

variable {H : Type} [DecidableEq H]

/-- The answers of a run, each with its handle. -/
abbrev replayAnswers (floats : FloatText) (world : World H ReplayRecord LineBuffer)
    (requests : List (H × ReplayRequest)) : List (H × ReplayAnswer) :=
  world.results (replayRequest floats) requests

/-- A handle gets the answers that its own calls give it alone, in any run of calls on any
number of handles and whatever `linebuf` holds. -/
theorem replayAnswers_own (floats : FloatText) (world : World H ReplayRecord LineBuffer)
    (linebuf : LineBuffer) (handle : H) (requests : List (H × ReplayRequest)) :
    own handle (replayAnswers floats world requests) =
      alone (replayRequest floats) linebuf (world.parts handle) (own handle requests) :=
  own_results (clean_replayRequest floats) world linebuf handle requests

/-- From the opening of a handle on, its answers are those of the replay of its file, with
calls on other handles in between. -/
theorem replayAnswers_opened (floats : FloatText) (world : World H ReplayRecord LineBuffer)
    (handle : H) (before after : List (H × ReplayRequest)) (alloc : Nat → Bool)
    (content : List UInt8) (sparseStep : Nat) (replay : FsReplay)
    (hopen : fsReplayOpen alloc (some content) sparseStep = .ok replay) (reads : List ReplayCall)
    (hreads : own handle after = reads.map .read) :
    own handle (replayAnswers floats world
        (before ++ (handle, .openFile alloc (some content) sparseStep) :: after)) =
      own handle (replayAnswers floats world before) ++
        .code 0 :: (replayRun floats replay reads).map fun answer =>
          .packet answer.1 answer.2 := by
  rw [replayAnswers, World.results_append, own_append]
  generalize before.foldl (World.perform (replayRequest floats)) world = reached
  have hviews := fsReplayOpen_views reached.scratch alloc (some content) sparseStep
    (reached.parts handle)
  rw [hopen] at hviews
  obtain ⟨hresult, hpart, hinside⟩ := hviews
  rw [own_results (clean_replayRequest floats) reached reached.scratch, own_cons_self, alone,
    hreads, replayRequest, hresult, hpart, alone_reads floats _ hinside]

/-- Calls on a second handle between those on the first. -/
def besideFirst : List (Nat × ReplayRequest) :=
  [(1, .openFile (fun _ => true) (some fourRowsHeader) 1), (0, .read (.readNext (.zero 185))),
    (1, .close), (0, .read (.readLine 1 (.zero 185)))]

theorem replayAnswers_opened_beside :
    own 0 (replayAnswers zeroFloats
        ({ parts := fun _ => zeroRecord, scratch := fun _ => 0 } :
          World Nat ReplayRecord LineBuffer)
        ([] ++ (0, .openFile (fun _ => true) (some fourRowsFile) 3) :: besideFirst)) =
      own 0 (replayAnswers zeroFloats
          ({ parts := fun _ => zeroRecord, scratch := fun _ => 0 } :
            World Nat ReplayRecord LineBuffer) []) ++
        .code 0 :: (replayRun zeroFloats fourRowsReplay
          [.readNext (.zero 185), .readLine 1 (.zero 185)]).map fun answer =>
            .packet answer.1 answer.2 :=
  replayAnswers_opened zeroFloats _ 0 [] besideFirst _ fourRowsFile 3 fourRowsReplay
    fsReplayOpen_fourRows _ rfl

end Trifecta
