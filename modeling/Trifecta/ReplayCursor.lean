/-
Random access to a replay file against a cursor over its rows: what one read of
a line does, what the index holds after opening, and how a sequence of read
calls follows the cursor.
-/
import Trifecta.ReplayFile
import Trifecta.Library.Lines

namespace Trifecta

open Lines

/-- A row number and what a call returned there: the abstract cursor stands
before row `next`, and both kinds of call leave it behind the row they parsed. -/
def cursorCall (parse : List UInt8 → FsPacketUnion → Int × FsPacketUnion)
    (rows : List (List UInt8)) (numLines next : Nat) : ReplayCall → (Int × FsPacketUnion) × Nat
  | .readNext out =>
      match rows[next]? with
      | some row => (parse row out, next + 1)
      | none => ((1, out), next)
  | .readLine lineIndex out =>
      if lineIndex < numLines then (parse (rows.getD lineIndex []) out, lineIndex + 1)
      else ((-3, out), next)

/-- The results of a sequence of calls for a cursor that starts before row `next`. -/
def cursorRun (parse : List UInt8 → FsPacketUnion → Int × FsPacketUnion)
    (rows : List (List UInt8)) (numLines : Nat) :
    Nat → List ReplayCall → List (Int × FsPacketUnion)
  | _, [] => []
  | next, call :: calls =>
      let step := cursorCall parse rows numLines next call
      step.1 :: cursorRun parse rows numLines step.2 calls

/-- A text without a line feed is read over as far as the buffer has room. -/
theorem fsSafeFgetsFrom_append {bufSize : Nat} {body : List UInt8} (hbody : lineFeed ∉ body)
    (line rest : List UInt8) (hroom : line.length + body.length ≤ bufSize - 1) :
    fsSafeFgetsFrom bufSize line (body ++ rest) = fsSafeFgetsFrom bufSize (line ++ body) rest := by
  induction body generalizing line with
  | nil => simp
  | cons c body ih =>
      rw [List.mem_cons, not_or] at hbody
      obtain ⟨hc, hlater⟩ := hbody
      rw [List.length_cons] at hroom
      rw [List.cons_append, fsSafeFgetsFrom, if_pos (by omega), if_neg (Ne.symm hc),
        ih hlater _ (by simp; omega)]
      simp

/-- A line that fits the buffer is read with its line feed. -/
theorem fsSafeFgetsFrom_line {bufSize : Nat} {body : List UInt8} (hbody : lineFeed ∉ body)
    (rest : List UInt8) (hroom : body.length + 1 ≤ bufSize - 1) :
    fsSafeFgetsFrom bufSize [] (body ++ lineFeed :: rest) = (1, body ++ [lineFeed], rest) := by
  rw [fsSafeFgetsFrom_append hbody _ _ (by rw [List.length_nil]; omega), List.nil_append,
    fsSafeFgetsFrom, if_pos (by omega), if_pos rfl]

/-- A last line that fits the buffer is read to the end of the file. -/
theorem fsSafeFgetsFrom_lastLine {bufSize : Nat} {body : List UInt8} (hbody : lineFeed ∉ body)
    (hne : body ≠ []) (hroom : body.length ≤ bufSize - 1) :
    fsSafeFgetsFrom bufSize [] body = (1, body, []) := by
  have hread := @fsSafeFgetsFrom_append bufSize _ hbody [] [] (by simpa using hroom)
  rw [List.append_nil, List.nil_append] at hread
  rw [hread, fsSafeFgetsFrom, if_neg hne]

/-- A line that does not fit is cut, and the rest of it is dropped. -/
theorem fsSafeFgetsFrom_overflow {bufSize : Nat} {text : List UInt8}
    (hnone : lineFeed ∉ text.take (bufSize - 1)) (hlong : bufSize - 1 < text.length) :
    fsSafeFgetsFrom bufSize [] text =
      (-1, text.take (bufSize - 1), ((text.drop (bufSize - 1)).dropWhile (· ≠ lineFeed)).tail) := by
  have hlength : (text.take (bufSize - 1)).length = bufSize - 1 := by
    rw [List.length_take]
    omega
  have hread := @fsSafeFgetsFrom_append bufSize _ hnone [] (text.drop (bufSize - 1)) (by simp)
  rw [List.take_append_drop, List.nil_append] at hread
  rw [hread, List.drop_eq_getElem_cons hlong, fsSafeFgetsFrom, if_neg (by omega)]

/-- The first line of a text is read whole when it fits the buffer. -/
theorem fsSafeFgetsFrom_of_splitLines {bufSize : Nat} {line : List UInt8}
    {later : List (List UInt8)}
    (hlines : splitLines lineFeed (line :: later).flatten = line :: later)
    (hroom : line.length ≤ bufSize - 1) :
    fsSafeFgetsFrom bufSize [] (line :: later).flatten = (1, line, later.flatten) := by
  rw [List.flatten_cons]
  rcases splitLines_eq_cons hlines with ⟨hnone, hne, rfl⟩ | ⟨body, rfl, hbody, _⟩
  · rw [List.flatten_nil, List.append_nil]
    exact fsSafeFgetsFrom_lastLine hnone hne hroom
  · rw [List.length_append, List.length_singleton] at hroom
    rw [List.append_assoc, List.singleton_append]
    exact fsSafeFgetsFrom_line hbody _ hroom

/-- The number of blocks of `step` rows that `count` rows need. -/
def blockCount (count step : Nat) : Nat :=
  (count + step - 1) / step

theorem blockCount_succ {step : Nat} (hstep : 0 < step) (count : Nat) :
    blockCount (count + 1) step = count / step + 1 := by
  rw [blockCount, show count + 1 + step - 1 = count + step by omega, Nat.add_div_right _ hstep]

theorem blockCount_mul {step : Nat} (hstep : 0 < step) (block : Nat) :
    blockCount (block * step) step = block := by
  rw [blockCount, Nat.add_sub_assoc hstep, Nat.add_comm, Nat.add_mul_div_right _ _ hstep,
    Nat.div_eq_of_lt (by omega), Nat.zero_add]

/-- A row that does not start a block needs no new one. -/
theorem blockCount_succ_of_mod {step count : Nat} (hstep : 0 < step)
    (hinside : count % step ≠ 0) : blockCount (count + 1) step = blockCount count step := by
  cases count with
  | zero => exact absurd (Nat.zero_mod step) hinside
  | succ previous =>
      rw [blockCount_succ hstep, blockCount_succ hstep, Nat.succ_div_of_not_dvd]
      intro hdvd
      exact hinside (Nat.mod_eq_zero_of_dvd hdvd)

/-- The replay that opening leaves behind a header line, with its index. -/
def openedReplay (sparseStep : Nat) (header : List UInt8) (state : IndexState) (file : FsFile) :
    FsReplay where
  file :=
    match state.offsets with
    | [] => file
    | first :: _ => file.seek first
  offsets := state.offsets
  numLines := state.line
  numBlocks := state.offsets.length
  sparseStep := sparseStep
  hasIndex := 0 < state.offsets.length
  fieldForColumn := fsReplayParseHeader header

/-- A file that has a header line opens when its rows can be indexed. -/
theorem fsReplayOpen_eq_ok_iff {content header : List UInt8} {file : FsFile}
    (hheader : fsSafeFgets replayLineSize { content, pos := 0 } =
      { code := 1, line := header, file })
    {alloc : Nat → Bool} {sparseStep : Nat} {replay : FsReplay} :
    fsReplayOpen alloc (some content) sparseStep = .ok replay ↔
      sparseStep ≠ 0 ∧ alloc (4096 * 8) = true ∧ ∃ state last,
        indexRows alloc sparseStep { offsets := [], cap := 4096, pos := file.pos, line := 0 } file =
          .ok (state, last) ∧ replay = openedReplay sparseStep header state last := by
  rw [fsReplayOpen]
  by_cases hstep : sparseStep = 0
  · simp [hstep]
  by_cases halloc : alloc (4096 * 8) = true
  · simp only [hstep, hheader, halloc, show ¬ (1 : Int) ≤ 0 by decide, Bool.true_eq_false,
      ↓reduceIte, ne_eq, not_false_eq_true, true_and]
    cases indexRows alloc sparseStep _ file with
    | error code => simp
    | ok indexed =>
        obtain ⟨state, last⟩ := indexed
        constructor
        · intro hopen
          exact ⟨state, last, rfl, (Except.ok.inj hopen).symm⟩
        · rintro ⟨_, _, hsame, rfl⟩
          obtain ⟨rfl, rfl⟩ := Prod.mk.inj (Except.ok.inj hsame)
          rfl
  · simp [hstep, hheader, halloc]

section ReadFile

variable {content : List UInt8} {header : List UInt8} {rows : List (List UInt8)}

/-- A file of a header line and rows that all fit the line buffer. -/
structure ReplayContent (content header : List UInt8) (rows : List (List UInt8)) : Prop where
  lines : splitLines lineFeed content = header :: rows
  length_le : ∀ line ∈ header :: rows, line.length ≤ replayLineSize - 1

/-- The file positioned before line number `index`, the header being line 0. -/
def atLine (content header : List UInt8) (rows : List (List UInt8)) (index : Nat) : FsFile :=
  { content, pos := offset (header :: rows) index }

theorem fsSafeFgets_atLine (hcontent : ReplayContent content header rows) (index : Nat) :
    fsSafeFgets replayLineSize (atLine content header rows index) =
      match (header :: rows)[index]? with
      | some line => { code := 1, line, file := atLine content header rows (index + 1) }
      | none => { code := 0, line := [], file := atLine content header rows index } := by
  have hwhole : content = (header :: rows).flatten := by
    rw [← hcontent.lines, flatten_splitLines]
  have hremaining : (atLine content header rows index).remaining =
      ((header :: rows).drop index).flatten := by
    rw [FsFile.remaining, atLine]
    dsimp only
    rw [hwhole, drop_offset]
  have hsplit := splitLines_flatten_drop hcontent.lines index
  rw [fsSafeFgets, hremaining]
  cases hdrop : (header :: rows).drop index with
  | nil =>
      have hlength : (header :: rows).length ≤ index := List.drop_eq_nil_iff.mp hdrop
      rw [List.getElem?_eq_none hlength]
      simp [fsSafeFgetsFrom, FsFile.seek, atLine, offset_eq_sub, hdrop, ← hwhole]
  | cons line later =>
      have hat : (header :: rows)[index]? = some line := by
        rw [← List.head?_drop, hdrop, List.head?_cons]
      have hnext : (header :: rows).drop (index + 1) = later := by
        rw [← List.drop_drop, hdrop, List.drop_one, List.tail_cons]
      have hroom := hcontent.length_le line (List.mem_of_getElem? hat)
      rw [hat, fsSafeFgetsFrom_of_splitLines (hdrop ▸ hsplit) hroom]
      simp [FsFile.seek, atLine, offset_eq_sub, hnext, ← hwhole]

/-- Reading over `count` rows. -/
theorem skipLines_atLine (hcontent : ReplayContent content header rows) (count index : Nat)
    (hrows : index + count ≤ rows.length) :
    skipLines count (atLine content header rows (index + 1)) =
      (true, atLine content header rows (index + count + 1)) := by
  induction count generalizing index with
  | zero => rfl
  | succ count ih =>
      have hrow : (header :: rows)[index + 1]? = some rows[index] := by
        rw [List.getElem?_cons_succ, List.getElem?_eq_getElem]
      rw [skipLines, fsSafeFgets_atLine hcontent, hrow]
      dsimp only
      rw [if_neg (by decide), ih (index + 1) (by omega)]
      rw [show index + 1 + count + 1 = index + (count + 1) + 1 by omega]

/-- The state of the indexing loop before row number `count`. -/
structure IndexedUpTo (header : List UInt8) (rows : List (List UInt8)) (sparseStep count : Nat)
    (state : IndexState) : Prop where
  pos : state.pos = offset (header :: rows) (count + 1)
  line : state.line = count % 2 ^ 32
  offsets : ∀ block, block * sparseStep < count → block * sparseStep < 2 ^ 32 →
    state.offsets[block]? = some (offset (header :: rows) (block * sparseStep + 1))
  blocks : count ≤ 2 ^ 32 → state.offsets.length = blockCount count sparseStep

theorem indexedUpTo_zero {sparseStep : Nat} (hstep : 0 < sparseStep) :
    IndexedUpTo header rows sparseStep 0
      { offsets := [], cap := 4096, pos := (atLine content header rows 1).pos, line := 0 } := by
  refine ⟨rfl, rfl, fun block hlt => absurd hlt (Nat.not_lt_zero _), fun _ => ?_⟩
  simpa using (blockCount_mul hstep 0).symm

/-- The offsets after a line are those before it, or the line's own offset
stands behind them. -/
theorem addOffset_cases {alloc : Nat → Bool} {sparseStep : Nat} {state added : IndexState}
    (hadded : addOffset alloc sparseStep state = .ok added) :
    (state.line % sparseStep = 0 ∧ added.offsets = state.offsets ++ [state.pos]) ∨
      (state.line % sparseStep ≠ 0 ∧ added.offsets = state.offsets) := by
  rw [addOffset] at hadded
  split at hadded
  · next hstart =>
      left
      refine ⟨hstart, ?_⟩
      split at hadded
      · dsimp only at hadded
        split at hadded
        · exact absurd hadded (by simp)
        · exact (Except.ok.inj hadded) ▸ rfl
      · exact (Except.ok.inj hadded) ▸ rfl
  · next hinside =>
      right
      exact ⟨hinside, (Except.ok.inj hadded) ▸ rfl⟩

theorem indexedUpTo_succ {alloc : Nat → Bool} {sparseStep count : Nat}
    (hstep : 0 < sparseStep) {state added : IndexState}
    (hindexed : IndexedUpTo header rows sparseStep count state)
    (hadded : addOffset alloc sparseStep state = .ok added) :
    IndexedUpTo header rows sparseStep (count + 1)
      { added with
        pos := offset (header :: rows) (count + 2), line := (state.line + 1) % 2 ^ 32 } := by
  have hbefore : ∀ block, block * sparseStep < count + 1 → block * sparseStep < 2 ^ 32 →
      block * sparseStep ≠ count ∨ 2 ^ 32 ≤ count →
      state.offsets[block]? = some (offset (header :: rows) (block * sparseStep + 1)) := by
    intro block hlt hsmall hother
    exact hindexed.offsets block (by omega) hsmall
  refine ⟨rfl, ?_, ?_, ?_⟩
  · simp only [hindexed.line]
    omega
  · rcases addOffset_cases hadded with ⟨hstart, hoffsets⟩ | ⟨hinside, hoffsets⟩
    · intro block hlt hsmall
      simp only [hoffsets]
      by_cases hother : block * sparseStep ≠ count ∨ 2 ^ 32 ≤ count
      · have hat := hbefore block hlt hsmall hother
        rw [List.getElem?_append_left (List.getElem?_eq_some_iff.mp hat).1]
        exact hat
      · rw [not_or, not_not, not_le] at hother
        obtain ⟨rfl, hcount⟩ := hother
        have hlength := hindexed.blocks (Nat.le_of_lt hcount)
        rw [blockCount_mul hstep] at hlength
        rw [List.getElem?_append_right (Nat.le_of_eq hlength), hlength, Nat.sub_self,
          hindexed.pos]
        rfl
    · intro block hlt hsmall
      simp only [hoffsets]
      refine hbefore block hlt hsmall ?_
      by_contra hnot
      rw [not_or, not_not, not_le] at hnot
      obtain ⟨rfl, hcount⟩ := hnot
      rw [hindexed.line, Nat.mod_eq_of_lt hcount, Nat.mul_mod_left] at hinside
      exact hinside rfl
  · intro hcount
    have hline : state.line = count := by
      rw [hindexed.line, Nat.mod_eq_of_lt (by omega)]
    have hlength := hindexed.blocks (by omega)
    rcases addOffset_cases hadded with ⟨hstart, hoffsets⟩ | ⟨hinside, hoffsets⟩
    · rw [hline] at hstart
      obtain ⟨block, rfl⟩ := Nat.dvd_of_mod_eq_zero hstart
      rw [Nat.mul_comm sparseStep, blockCount_mul hstep] at hlength
      rw [blockCount_succ hstep, Nat.mul_div_cancel_left _ hstep]
      simp [hoffsets, hlength]
    · rw [hline] at hinside
      rw [blockCount_succ_of_mod hstep hinside]
      simp [hoffsets, hlength]

theorem indexRows_row (hcontent : ReplayContent content header rows) (alloc : Nat → Bool)
    (sparseStep : Nat) (state : IndexState) (count : Nat) (hcount : count < rows.length) :
    indexRows alloc sparseStep state (atLine content header rows (count + 1)) =
      match addOffset alloc sparseStep state with
      | .error code => .error code
      | .ok added =>
          indexRows alloc sparseStep
            { added with
              pos := offset (header :: rows) (count + 2), line := (state.line + 1) % 2 ^ 32 }
            (atLine content header rows (count + 2)) := by
  rw [indexRows, fsSafeFgets_atLine hcontent, List.getElem?_cons_succ,
    List.getElem?_eq_getElem hcount]
  simp only [Int.zero_lt_one, ↓reduceDIte]
  rfl

theorem indexRows_end (hcontent : ReplayContent content header rows) (alloc : Nat → Bool)
    (sparseStep : Nat) (state : IndexState) :
    indexRows alloc sparseStep state (atLine content header rows (rows.length + 1)) =
      .ok (state, atLine content header rows (rows.length + 1)) := by
  rw [indexRows, fsSafeFgets_atLine hcontent, List.getElem?_cons_succ,
    List.getElem?_eq_none (Nat.le_refl _)]
  simp only [Int.lt_irrefl, ↓reduceDIte]

/-- The indexing loop passes over all rows. -/
theorem indexRows_indexedUpTo (hcontent : ReplayContent content header rows)
    {alloc : Nat → Bool} {sparseStep : Nat} (hstep : 0 < sparseStep) {count : Nat}
    (hcount : count ≤ rows.length) {state last : IndexState} {file : FsFile}
    (hindexed : IndexedUpTo header rows sparseStep count state)
    (hrun : indexRows alloc sparseStep state (atLine content header rows (count + 1)) =
      .ok (last, file)) :
    IndexedUpTo header rows sparseStep rows.length last ∧ file.content = content := by
  induction hleft : rows.length - count generalizing count state with
  | zero =>
      obtain rfl : count = rows.length := by omega
      rw [indexRows_end hcontent] at hrun
      obtain ⟨rfl, rfl⟩ := Prod.mk.inj (Except.ok.inj hrun)
      exact ⟨hindexed, rfl⟩
  | succ left ih =>
      have hlt : count < rows.length := by omega
      rw [indexRows_row hcontent alloc sparseStep state count hlt] at hrun
      cases hadded : addOffset alloc sparseStep state with
      | error code => simp [hadded] at hrun
      | ok added =>
          rw [hadded] at hrun
          exact ih hlt (indexedUpTo_succ hstep hindexed hadded) hrun (by omega)

/-- What holds of an open replay between calls, wherever it stands. -/
structure Indexed (content header : List UInt8) (rows : List (List UInt8)) (step : Nat)
    (replay : FsReplay) : Prop where
  file : replay.file.content = content
  numLines : replay.numLines = rows.length % 2 ^ 32
  sparseStep : replay.sparseStep = step
  hasIndex : replay.hasIndex = true
  fieldForColumn : replay.fieldForColumn = fsReplayParseHeader header
  offsets : ∀ block, block * step < rows.length → block * step < 2 ^ 32 →
    replay.offsets[block]? = some (offset (header :: rows) (block * step + 1))

theorem fsReplayOpen_indexed (hcontent : ReplayContent content header rows)
    (hrows : rows ≠ []) {alloc : Nat → Bool} {sparseStep : Nat} {replay : FsReplay}
    (hopen : fsReplayOpen alloc (some content) sparseStep = .ok replay) :
    0 < sparseStep ∧ Indexed content header rows sparseStep replay ∧
      replay.file = atLine content header rows 1 := by
  obtain ⟨hstep, _, state, file, hrun, rfl⟩ :=
    (fsReplayOpen_eq_ok_iff (fsSafeFgets_atLine hcontent 0)).mp hopen
  have hpos := Nat.pos_of_ne_zero hstep
  obtain ⟨hindexed, hfile⟩ :=
    indexRows_indexedUpTo hcontent hpos (Nat.zero_le _) (indexedUpTo_zero hpos) hrun
  have hsome := List.length_pos_iff.mpr hrows
  have hhead := hindexed.offsets 0 (by omega) (by omega)
  obtain ⟨first, later, hoffsets⟩ : ∃ first later, state.offsets = first :: later := by
    cases hcase : state.offsets with
    | nil => simp [hcase] at hhead
    | cons first later => exact ⟨first, later, rfl⟩
  rw [hoffsets, List.getElem?_cons_zero, Nat.zero_mul] at hhead
  have hoffset := Option.some.inj hhead
  refine ⟨hpos, ⟨?_, hindexed.line, rfl, ?_, rfl, hindexed.offsets⟩, ?_⟩
  · simp only [openedReplay, hoffsets, FsFile.seek, hfile]
  · simp [openedReplay, hoffsets]
  · simp only [openedReplay, hoffsets, FsFile.seek, atLine, hfile, hoffset]

/-- Row `lineIndex` is read from the start of its own block: that is no farther
than the start of the next block, or the index has no such block with a first row
below `num_lines`. -/
def FromOwnBlock (replay : FsReplay) (lineIndex : Nat) : Prop :=
  let nextBlock := lineIndex / replay.sparseStep + 1
  2 * (lineIndex % replay.sparseStep) ≤ replay.sparseStep ∨
    replay.numBlocks ≤ nextBlock ∨
    replay.numLines ≤ nextBlock * replay.sparseStep % 2 ^ 32

theorem startLine_fromOwnBlock {step lineIndex : Nat} (hstep : 0 < step)
    (hsmall : step < 2 ^ 32) {replay : FsReplay}
    (hindexed : Indexed content header rows step replay) (hline : lineIndex < replay.numLines)
    (hown : FromOwnBlock replay lineIndex) :
    startLine replay lineIndex = (lineIndex / step * step, lineIndex / step) := by
  have hcount := hindexed.numLines
  have hrange : lineIndex + 1 < 2 ^ 32 := by omega
  have hblock : lineIndex / step * step + lineIndex % step = lineIndex := by
    rw [Nat.mul_comm]
    exact Nat.div_add_mod lineIndex step
  have hrest := Nat.mod_lt lineIndex hstep
  have hnumber : lineIndex / step ≤ lineIndex := Nat.div_le_self _ _
  have hback : sub32 lineIndex (lineIndex / step * step) = lineIndex % step := by
    rw [sub32]
    omega
  have hstart : lineIndex / step * step % 2 ^ 32 = lineIndex / step * step :=
    Nat.mod_eq_of_lt (by omega)
  have hnext : (lineIndex / step + 1) % 2 ^ 32 = lineIndex / step + 1 :=
    Nat.mod_eq_of_lt (by omega)
  have hforward : sub32 ((lineIndex / step + 1) * step % 2 ^ 32) lineIndex =
      step - lineIndex % step := by
    rw [sub32, Nat.add_one_mul]
    omega
  rw [FromOwnBlock, hindexed.sparseStep] at hown
  rw [startLine, hindexed.sparseStep]
  simp only [hnext, hback, hforward, hstart]
  rw [if_pos]
  rcases hown with hnear | hlast
  · split <;> omega
  · rw [if_neg (fun hboth => by omega)]
    omega

/-- A replay that stands before row `next`. -/
def At (content header : List UInt8) (rows : List (List UInt8)) (step next : Nat)
    (replay : FsReplay) : Prop :=
  Indexed content header rows step replay ∧ replay.file = atLine content header rows (next + 1)

theorem at_moved {step next : Nat} {replay : FsReplay}
    (hindexed : Indexed content header rows step replay) :
    At content header rows step next
      { replay with file := atLine content header rows (next + 1) } :=
  ⟨⟨rfl, hindexed.numLines, hindexed.sparseStep, hindexed.hasIndex, hindexed.fieldForColumn,
    hindexed.offsets⟩, rfl⟩

theorem fsReplayReadNext_at (hcontent : ReplayContent content header rows) (floats : FloatText)
    {next : Nat} {replay : FsReplay}
    (hfile : replay.file = atLine content header rows (next + 1)) (out : FsPacketUnion) :
    fsReplayReadNext floats replay out =
      match rows[next]? with
      | some row =>
          { code := (fsReplayParsePacket floats replay.fieldForColumn row out).1
            out := (fsReplayParsePacket floats replay.fieldForColumn row out).2
            replay := { replay with file := atLine content header rows (next + 2) } }
      | none =>
          { code := 1, out
            replay := { replay with file := atLine content header rows (next + 1) } } := by
  rw [fsReplayReadNext, hfile, fsSafeFgets_atLine hcontent, List.getElem?_cons_succ]
  cases rows[next]? <;> rfl

theorem fsReplayReadLine_at (hcontent : ReplayContent content header rows) (floats : FloatText)
    {step lineIndex : Nat} {replay : FsReplay}
    (hindexed : Indexed content header rows step replay)
    (hline : lineIndex < replay.numLines) {start : Nat × Nat}
    (hstart : startLine replay lineIndex = start) (hown : start.1 ≤ lineIndex)
    (hblock : start.1 = start.2 * step) (out : FsPacketUnion) :
    fsReplayReadLine floats replay lineIndex out =
      { code := (fsReplayParsePacket floats replay.fieldForColumn (rows.getD lineIndex []) out).1
        out := (fsReplayParsePacket floats replay.fieldForColumn (rows.getD lineIndex []) out).2
        replay := { replay with file := atLine content header rows (lineIndex + 2) } } := by
  have hcount := hindexed.numLines
  have hrows : lineIndex < rows.length := by
    have := Nat.mod_le rows.length (2 ^ 32)
    omega
  have hoffset := hindexed.offsets start.2 (by omega) (by omega)
  have hseek : replay.file.seek ((replay.offsets[start.2]?).getD 0) =
      atLine content header rows (start.1 + 1) := by
    rw [hoffset, Option.getD_some, hblock, FsFile.seek, hindexed.file, atLine]
  have hskip := skipLines_atLine hcontent (lineIndex - start.1) start.1 (by omega)
  rw [Nat.add_sub_cancel' hown] at hskip
  rw [fsReplayReadLine, hindexed.hasIndex, if_neg (by decide), if_neg (by omega), hstart]
  dsimp only
  rw [hseek, hskip]
  simp only [fsSafeFgets_atLine hcontent, List.getElem?_cons_succ,
    List.getElem?_eq_getElem hrows, List.getD_eq_getElem?_getD, Option.getD_some]
  rfl

end ReadFile

/-- A read of a row by its number is one that starts from the row's own block. -/
def CallsOwnBlock (replay : FsReplay) : ReplayCall → Prop
  | .readNext _ => True
  | .readLine lineIndex _ => lineIndex < replay.numLines → FromOwnBlock replay lineIndex

theorem callsOwnBlock_moved (replay : FsReplay) (file : FsFile) (call : ReplayCall) :
    CallsOwnBlock { replay with file := file } call ↔ CallsOwnBlock replay call := by
  cases call <;> exact Iff.rfl

/-- One call follows the cursor and moves only the file position. -/
theorem replayCall_at {content header : List UInt8} {rows : List (List UInt8)}
    (hcontent : ReplayContent content header rows) (floats : FloatText) {step next : Nat}
    (hstep : 0 < step) (hsmall : step < 2 ^ 32) {replay : FsReplay}
    (hat : At content header rows step next replay) (call : ReplayCall)
    (hown : CallsOwnBlock replay call) :
    let followed := cursorCall (fsReplayParsePacket floats (fsReplayParseHeader header)) rows
      replay.numLines next call
    ((replayCall floats replay call).code, (replayCall floats replay call).out) = followed.1 ∧
      (replayCall floats replay call).replay =
        { replay with file := atLine content header rows (followed.2 + 1) } := by
  have hfields := hat.1.fieldForColumn
  have hstay : replay = { replay with file := atLine content header rows (next + 1) } := by
    rw [← hat.2]
  cases call with
  | readNext out =>
      simp only [replayCall, cursorCall, fsReplayReadNext_at hcontent floats hat.2 out, ← hfields]
      cases rows[next]? <;> exact ⟨rfl, rfl⟩
  | readLine lineIndex out =>
      simp only [replayCall, cursorCall, ← hfields]
      by_cases hline : lineIndex < replay.numLines
      · have hstart := startLine_fromOwnBlock hstep hsmall hat.1 hline (hown hline)
        rw [fsReplayReadLine_at hcontent floats hat.1 hline hstart (Nat.div_mul_le_self _ _) rfl,
          if_pos hline]
        exact ⟨rfl, rfl⟩
      · have hrefused : fsReplayReadLine floats replay lineIndex out =
            { code := -3, out, replay } := by
          rw [fsReplayReadLine, if_neg (by simp [hat.1.hasIndex]),
            if_pos (Nat.le_of_not_lt hline)]
        rw [hrefused, if_neg hline]
        exact ⟨rfl, hstay⟩

/-- A whole run follows the cursor. -/
theorem replayRun_at {content header : List UInt8} {rows : List (List UInt8)}
    (hcontent : ReplayContent content header rows) (floats : FloatText) {step next : Nat}
    (hstep : 0 < step) (hsmall : step < 2 ^ 32) {replay : FsReplay}
    (hat : At content header rows step next replay) (calls : List ReplayCall)
    (hown : ∀ call ∈ calls, CallsOwnBlock replay call) :
    replayRun floats replay calls =
      cursorRun (fsReplayParsePacket floats (fsReplayParseHeader header)) rows replay.numLines
        next calls := by
  induction calls generalizing next replay with
  | nil => rfl
  | cons call calls ih =>
      obtain ⟨hresult, hmoved⟩ := replayCall_at hcontent floats hstep hsmall hat call
        (hown call List.mem_cons_self)
      rw [replayRun, cursorRun, hmoved]
      refine List.cons_eq_cons.mpr ⟨hresult, ih (at_moved hat.1) fun later hlater => ?_⟩
      rw [callsOwnBlock_moved]
      exact hown later (List.mem_cons_of_mem _ hlater)

/-- After a successful opening, every sequence of reads follows the cursor as
long as each read by number starts from its own block. -/
theorem replayRun_eq_cursorRun (floats : FloatText) (alloc : Nat → Bool)
    {content header : List UInt8} {rows : List (List UInt8)} {step : Nat} {replay : FsReplay}
    (hlines : splitLines lineFeed content = header :: rows) (hrows : rows ≠ [])
    (hlength : ∀ line ∈ header :: rows, line.length ≤ 511) (hsmall : step < 2 ^ 32)
    (hopen : fsReplayOpen alloc (some content) step = .ok replay) (calls : List ReplayCall)
    (hown : ∀ call ∈ calls, CallsOwnBlock replay call) :
    replayRun floats replay calls =
        cursorRun (fsReplayParsePacket floats (fsReplayParseHeader header)) rows replay.numLines
          0 calls ∧
      replay.numLines = rows.length % 2 ^ 32 ∧
      ∀ row out, (fsReplayParsePacket floats (fsReplayParseHeader header) row out).1 ≠ 1 := by
  have hcontent : ReplayContent content header rows := ⟨hlines, hlength⟩
  obtain ⟨hstep, hindexed, hfile⟩ := fsReplayOpen_indexed hcontent hrows hopen
  refine ⟨replayRun_at hcontent floats hstep hsmall ⟨hindexed, hfile⟩ calls hown,
    hindexed.numLines, fun row out => ?_⟩
  rcases fsReplayParsePacket_code floats (fsReplayParseHeader header) row out with
    hcode | hcode <;> rw [hcode] <;> decide

/-- A conversion that reads every number as zero. -/
def zeroFloats : FloatText where
  strtof _ := 0
  strtod _ := 0
  printFloat _ := [48]
  printDouble _ := [48]
  printInt16 _ := [48]

/-- The rows of a file, the third of a type that no row is read into. -/
def fourRows : List (List UInt8) :=
  [asciiText "0\n", asciiText "0\n", asciiText "3\n", asciiText "0\n"]

def fourRowsHeader : List UInt8 := asciiText "type\n"

def fourRowsFile : List UInt8 := asciiText "type\n0\n0\n3\n0\n"

theorem replayContent_fourRows : ReplayContent fourRowsFile fourRowsHeader fourRows :=
  ⟨by decide, by simp [fourRowsHeader, fourRows, asciiText]⟩

/-- The file of four rows, indexed with three rows to a block. -/
def fourRowsReplay : FsReplay where
  file := { content := fourRowsFile, pos := 5 }
  offsets := [5, 11]
  numLines := 4
  numBlocks := 2
  sparseStep := 3
  hasIndex := true
  fieldForColumn := fsReplayParseHeader fourRowsHeader

theorem fsReplayOpen_fourRows :
    fsReplayOpen (fun _ => true) (some fourRowsFile) 3 = .ok fourRowsReplay := by
  have hindex : indexRows (fun _ => true) 3
      { offsets := [], cap := 4096, pos := 5, line := 0 }
      (atLine fourRowsFile fourRowsHeader fourRows 1) =
      .ok ({ offsets := [5, 11], cap := 4096, pos := 13, line := 4 },
        atLine fourRowsFile fourRowsHeader fourRows 5) := by
    rw [indexRows_row replayContent_fourRows _ _ _ 0 (by decide)]
    change indexRows _ _ { offsets := [5], cap := 4096, pos := 7, line := 1 } _ = _
    rw [indexRows_row replayContent_fourRows _ _ _ 1 (by decide)]
    change indexRows _ _ { offsets := [5], cap := 4096, pos := 9, line := 2 } _ = _
    rw [indexRows_row replayContent_fourRows _ _ _ 2 (by decide)]
    change indexRows _ _ { offsets := [5], cap := 4096, pos := 11, line := 3 } _ = _
    rw [indexRows_row replayContent_fourRows _ _ _ 3 (by decide)]
    change indexRows _ _ { offsets := [5, 11], cap := 4096, pos := 13, line := 4 } _ = _
    exact indexRows_end replayContent_fourRows _ _ _
  exact (fsReplayOpen_eq_ok_iff (fsSafeFgets_atLine replayContent_fourRows 0)).mpr
    ⟨by decide, rfl, _, _, hindex, rfl⟩

/-- Reads by number, in order and past the end of the file of four rows. -/
theorem replayRun_fourRows :
    replayRun zeroFloats fourRowsReplay
        [.readLine 1 (.zero 185), .readNext (.zero 185), .readLine 7 (.zero 185),
          .readNext (.zero 185), .readNext (.zero 185)] =
      cursorRun (fsReplayParsePacket zeroFloats (fsReplayParseHeader fourRowsHeader)) fourRows
        4 0
        [.readLine 1 (.zero 185), .readNext (.zero 185), .readLine 7 (.zero 185),
          .readNext (.zero 185), .readNext (.zero 185)] :=
  (replayRun_eq_cursorRun zeroFloats (fun _ => true) replayContent_fourRows.lines (by decide)
    replayContent_fourRows.length_le (by decide) fsReplayOpen_fourRows _
    (by simp [CallsOwnBlock, FromOwnBlock, fourRowsReplay])).1

/-- With three rows to a block, row 2 is nearer to the next block than to its
own, and reading it by its number gives row 3. -/
theorem not_cursorRun_fourRows :
    fsReplayOpen (fun _ => true) (some fourRowsFile) 3 = .ok fourRowsReplay ∧
      replayRun zeroFloats fourRowsReplay [.readLine 2 (.zero 185)] ≠
        cursorRun (fsReplayParsePacket zeroFloats (fsReplayParseHeader fourRowsHeader)) fourRows
          fourRowsReplay.numLines 0 [.readLine 2 (.zero 185)] := by
  refine ⟨fsReplayOpen_fourRows, fun hfollowed => ?_⟩
  have hcodes := congrArg (List.map fun result => result.1) hfollowed
  exact absurd hcodes (by decide)

end Trifecta
