/-
Replaying a CSV file: reading lines from an open file, building the sparse index
of row offsets, and reading the next row or a row by its number.
-/
import Trifecta.ReplayPackets

namespace Trifecta

open CText

abbrev lineFeed : UInt8 := 10

/-- An open file: its bytes and the position of the next read. -/
structure FsFile where
  content : List UInt8
  pos : Nat

namespace FsFile

/-- The bytes from the position on. -/
def remaining (file : FsFile) : List UInt8 :=
  file.content.drop file.pos

/-- `fseek` to an offset inside the file. -/
def seek (file : FsFile) (offset : Nat) : FsFile :=
  { file with pos := offset }

end FsFile

/-- The loop of `fs_safe_fgets`: the return code, the line, and the bytes left. -/
def fsSafeFgetsFrom (bufSize : Nat) (line : List UInt8) :
    List UInt8 → Int × List UInt8 × List UInt8
  | [] => if line = [] then (0, [], []) else (1, line, [])
  | c :: rest =>
      if line.length < bufSize - 1 then
        if c = lineFeed then (1, line ++ [c], rest)
        else fsSafeFgetsFrom bufSize (line ++ [c]) rest
      else
        -- the buffer is full: the rest of the line is dropped with its line feed
        (-1, line, ((c :: rest).dropWhile (· ≠ lineFeed)).tail)

/-- What `fs_safe_fgets` returns, stores and leaves behind. -/
structure GotLine where
  code : Int
  line : List UInt8
  file : FsFile

/-- `fs_safe_fgets` with a buffer of `bufSize` bytes. -/
def fsSafeFgets (bufSize : Nat) (file : FsFile) : GotLine :=
  let got := fsSafeFgetsFrom bufSize [] file.remaining
  { code := got.1
    line := got.2.1
    file := file.seek (file.content.length - got.2.2.length) }

theorem length_fsSafeFgetsFrom_le (bufSize : Nat) (line rest : List UInt8) :
    (fsSafeFgetsFrom bufSize line rest).2.2.length ≤ rest.length := by
  induction rest generalizing line with
  | nil =>
      rw [fsSafeFgetsFrom]
      split <;> exact Nat.le_refl _
  | cons c rest ih =>
      rw [fsSafeFgetsFrom]
      split
      · split
        · exact Nat.le_succ _
        · exact Nat.le_succ_of_le (ih _)
      · have hdropped := (List.dropWhile_suffix (l := c :: rest) (· ≠ lineFeed)).length_le
        rw [List.length_tail]
        exact Nat.le_trans (Nat.sub_le _ _) hdropped

/-- A line that was read is gone from what remains. -/
theorem length_remaining_fsSafeFgets (bufSize : Nat) (file : FsFile)
    (hgot : 0 < (fsSafeFgets bufSize file).code) :
    (fsSafeFgets bufSize file).file.remaining.length < file.remaining.length := by
  change 0 < (fsSafeFgetsFrom bufSize [] file.remaining).1 at hgot
  have hle := length_fsSafeFgetsFrom_le bufSize
  have hwhole : file.remaining.length ≤ file.content.length := by
    simp [FsFile.remaining]
  have hshorter : (fsSafeFgetsFrom bufSize [] file.remaining).2.2.length <
      file.remaining.length := by
    cases hremaining : file.remaining with
    | nil => simp [hremaining, fsSafeFgetsFrom] at hgot
    | cons c rest =>
        rw [hremaining, fsSafeFgetsFrom] at hgot
        rw [fsSafeFgetsFrom]
        split at hgot
        · next hroom =>
            rw [if_pos hroom]
            split
            · exact Nat.lt_succ_self _
            · exact Nat.lt_succ_of_le (hle _ _)
        · simp at hgot
  simp only [fsSafeFgets, FsFile.seek, FsFile.remaining, List.length_drop] at hwhole hshorter ⊢
  omega

/-- `fs_replay_t`, with the offsets of the block starts in order. -/
structure FsReplay where
  file : FsFile
  offsets : List Nat
  numLines : Nat
  numBlocks : Nat
  sparseStep : Nat
  hasIndex : Bool
  fieldForColumn : List FsFieldId

/-- The local variables of the indexing loop of `fs_replay_open`. -/
structure IndexState where
  offsets : List Nat
  cap : Nat
  pos : Nat
  line : Nat

/-- The offsets of a state after the line at `pos`.  `alloc` tells which sizes the
allocator grants; a reallocation to size 0 gives no memory. -/
def addOffset (alloc : Nat → Bool) (sparseStep : Nat) (state : IndexState) :
    Except Int IndexState :=
  if state.line % sparseStep = 0 then
    if state.offsets.length = state.cap then
      let cap := state.cap * 2 % 2 ^ 32
      if cap = 0 ∨ alloc (cap * 8) = false then .error (-6)
      else .ok { state with offsets := state.offsets ++ [state.pos], cap := cap }
    else .ok { state with offsets := state.offsets ++ [state.pos] }
  else .ok state

/-- The indexing loop of `fs_replay_open`, with the file as the last read leaves it. -/
def indexRows (alloc : Nat → Bool) (sparseStep : Nat) (state : IndexState) (file : FsFile) :
    Except Int (IndexState × FsFile) :=
  let got := fsSafeFgets replayLineSize file
  if _hgot : 0 < got.code then
    match addOffset alloc sparseStep state with
    | .error code => .error code
    | .ok added =>
        indexRows alloc sparseStep
          { added with pos := got.file.pos, line := (state.line + 1) % 2 ^ 32 } got.file
  else .ok (state, got.file)
termination_by file.remaining.length
decreasing_by exact length_remaining_fsSafeFgets replayLineSize file _hgot

/-- `fs_replay_open`; `content` is the file at the path, if it can be opened. -/
def fsReplayOpen (alloc : Nat → Bool) (content : Option (List UInt8)) (sparseStep : Nat) :
    Except Int FsReplay :=
  if sparseStep = 0 then .error (-1)
  else
    match content with
    | none => .error (-2)
    | some content =>
        let got := fsSafeFgets replayLineSize { content, pos := 0 }
        if got.code ≤ 0 then .error (-3)
        else if alloc (4096 * 8) = false then .error (-5)
        else
          match indexRows alloc sparseStep
              { offsets := [], cap := 4096, pos := got.file.pos, line := 0 } got.file with
          | .error code => .error code
          | .ok (state, file) =>
              .ok
                { file := match state.offsets with
                    | [] => file
                    | first :: _ => file.seek first
                  offsets := state.offsets
                  numLines := state.line
                  numBlocks := state.offsets.length
                  sparseStep
                  hasIndex := 0 < state.offsets.length
                  fieldForColumn := fsReplayParseHeader got.line }

/-- What a read call returns and writes to `out`, and the replay after it. -/
structure ReadResult where
  code : Int
  out : FsPacketUnion
  replay : FsReplay

/-- `fs_replay_read_next`. -/
def fsReplayReadNext (floats : FloatText) (replay : FsReplay) (out : FsPacketUnion) :
    ReadResult :=
  let got := fsSafeFgets replayLineSize replay.file
  let next := { replay with file := got.file }
  if got.code = 0 then { code := 1, out, replay := next }
  else if got.code < 0 then { code := -2, out, replay := next }
  else
    let parsed := fsReplayParsePacket floats replay.fieldForColumn got.line out
    { code := parsed.1, out := parsed.2, replay := next }

/-- The loop of `fs_replay_read_line` that reads over `count` lines. -/
def skipLines : Nat → FsFile → Bool × FsFile
  | 0, file => (true, file)
  | count + 1, file =>
      let got := fsSafeFgets replayLineSize file
      if got.code ≤ 0 then (false, got.file) else skipLines count got.file

/-- Subtraction in `uint32_t`. -/
def sub32 (a b : Nat) : Nat :=
  (2 ^ 32 + a - b) % 2 ^ 32

/-- The line of the block start that `fs_replay_read_line` seeks to, and the
number of the block. -/
def startLine (replay : FsReplay) (lineIndex : Nat) : Nat × Nat :=
  let block := lineIndex / replay.sparseStep
  let blockStart := block * replay.sparseStep % 2 ^ 32
  let nextBlock := (block + 1) % 2 ^ 32
  let nextStart := nextBlock * replay.sparseStep % 2 ^ 32
  let distBackward := sub32 lineIndex blockStart
  let distForward :=
    if nextBlock < replay.numBlocks ∧ nextStart < replay.numLines then sub32 nextStart lineIndex
    else 2 ^ 32 - 1
  if distBackward ≤ distForward then (blockStart, block) else (nextStart, nextBlock)

/-- `fs_replay_read_line`.  Seeking to an offset of the index does not fail. -/
def fsReplayReadLine (floats : FloatText) (replay : FsReplay) (lineIndex : Nat)
    (out : FsPacketUnion) : ReadResult :=
  if replay.hasIndex = false then { code := -2, out, replay }
  else if replay.numLines ≤ lineIndex then { code := -3, out, replay }
  else
    let start := startLine replay lineIndex
    let skipped := skipLines (lineIndex - start.1)
      (replay.file.seek ((replay.offsets[start.2]?).getD 0))
    if skipped.1 = false then { code := -5, out, replay := { replay with file := skipped.2 } }
    else
      let got := fsSafeFgets replayLineSize skipped.2
      let next := { replay with file := got.file }
      if got.code ≤ 0 then { code := -6, out, replay := next }
      else
        let parsed := fsReplayParsePacket floats replay.fieldForColumn got.line out
        { code := parsed.1, out := parsed.2, replay := next }

/-- A read call with the contents of its output packet. -/
inductive ReplayCall
  | readNext (out : FsPacketUnion)
  | readLine (lineIndex : Nat) (out : FsPacketUnion)

def replayCall (floats : FloatText) (replay : FsReplay) : ReplayCall → ReadResult
  | .readNext out => fsReplayReadNext floats replay out
  | .readLine lineIndex out => fsReplayReadLine floats replay lineIndex out

/-- The codes and packets that a sequence of calls returns. -/
def replayRun (floats : FloatText) (replay : FsReplay) :
    List ReplayCall → List (Int × FsPacketUnion)
  | [] => []
  | call :: calls =>
      let result := replayCall floats replay call
      (result.code, result.out) :: replayRun floats result.replay calls

end Trifecta
