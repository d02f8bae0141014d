/-
The files and offset tables of replay handles over sequences of calls: which are
closed and freed, how often, and that rows are looked up inside the tables.
-/
import Trifecta.ReplayPointers
import Trifecta.ReplayIndex
import Trifecta.Library.Transitions

namespace Trifecta

open SharedScratch Transitions

variable {H : Type} [DecidableEq H]

section Calls

variable (floats : FloatText) (linebuf : LineBuffer) (record : ReplayRecord)

/-- Reading moves in the file, and changes nothing else in a record. -/
theorem read_keeps (call : ReplayCall) :
    ∃ fp, (replayRequest floats linebuf record (.read call)).part = { record with fp } ∧
      fp.isSome = record.fp.isSome := by
  obtain ⟨fp, offsets, numLines, numBlocks, sparseStep, hasIndex, columns⟩ := record
  cases fp with
  | none => cases call <;> exact ⟨none, rfl, rfl⟩
  | some file =>
      cases call with
      | readNext out =>
          simp only [replayRequest, ReplayRecord.fsReplayReadNext]
          split_ifs <;> exact ⟨_, rfl, rfl⟩
      | readLine lineIndex out =>
          cases offsets with
          | none => exact ⟨some file, rfl, rfl⟩
          | some offsets =>
              simp only [replayRequest, ReplayRecord.fsReplayReadLine]
              split_ifs <;> exact ⟨_, rfl, rfl⟩

theorem open_zero_keeps (alloc : Nat → Bool) (content : Option (List UInt8)) :
    (replayRequest floats linebuf record (.openFile alloc content 0)).part = record := by
  rw [replayRequest, ReplayRecord.fsReplayOpen, if_pos rfl]

/-- Opening replaces the pointer to the file, and none of its files is closed by it. -/
theorem keepsFile_request (request : ReplayRequest) :
    KeepsPointer (·.fp.isSome) (fun _ => false) false record
      (replayRequest floats linebuf record request).part request := by
  cases request with
  | openFile alloc content sparseStep =>
      rw [KeepsPointer]
      split_ifs with hstep
      · rw [hstep, open_zero_keeps]
        exact ⟨rfl, rfl, rfl⟩
      · exact ⟨rfl, fun hfreed => hfreed.elim⟩
  | read call =>
      obtain ⟨fp, hpart, hfp⟩ := read_keeps floats linebuf record call
      rw [hpart]
      exact ⟨rfl, hfp, rfl⟩
  | getSize => exact ⟨rfl, rfl, rfl⟩
  | close => exact ⟨rfl, rfl, rfl⟩

/-- A loop that ends early ends with a full table. -/
theorem indexRows_full {alloc : Nat → Bool} {sparseStep : Nat} (state : IndexState)
    (file : FsFile) (hcap : 0 < state.cap) : ∀ linebuf : LineBuffer,
    (ReplayRecord.indexRows alloc sparseStep state file linebuf).complete = false →
      (ReplayRecord.indexRows alloc sparseStep state file linebuf).state.offsets.length =
          (ReplayRecord.indexRows alloc sparseStep state file linebuf).state.cap ∧
        0 < (ReplayRecord.indexRows alloc sparseStep state file linebuf).state.cap := by
  intro linebuf
  rw [ReplayRecord.indexRows]
  by_cases hgot : 0 < (fetchLine linebuf file).code
  · simp only [hgot, ↓reduceDIte]
    cases hadded : addOffset alloc sparseStep state with
    | error code =>
        rw [addOffset] at hadded
        dsimp only at hadded
        split_ifs at hadded with hstart hfull
        exact fun _ => ⟨hfull, hcap⟩
    | ok added =>
        have hpos : 0 < added.cap := by
          rw [addOffset] at hadded
          dsimp only at hadded
          split_ifs at hadded with hstart hfull hzero
          · obtain rfl := Except.ok.inj hadded
            exact Nat.pos_of_ne_zero fun hnone => hzero (Or.inl hnone)
          · obtain rfl := Except.ok.inj hadded
            exact hcap
          · obtain rfl := Except.ok.inj hadded
            exact hcap
        exact indexRows_full
          { added with
            pos := (fetchLine linebuf file).file.pos
            line := (state.line + 1) % 2 ^ 32 } (fetchLine linebuf file).file hpos _
  · simp only [hgot, ↓reduceDIte]
    exact fun hcomplete => absurd hcomplete.symm Bool.false_ne_true
termination_by file.remaining.length
decreasing_by exact length_remaining_fetchLine hgot

/-- With memory for every size that is not 0, the loop ends early only at a capacity that
wraps. -/
theorem indexRows_wrapped {alloc : Nat → Bool} (halloc : ∀ size, alloc size = true)
    {sparseStep : Nat} (state : IndexState) (file : FsFile) : ∀ linebuf : LineBuffer,
    (ReplayRecord.indexRows alloc sparseStep state file linebuf).complete = false →
      (ReplayRecord.indexRows alloc sparseStep state file linebuf).state.cap * 2 % 2 ^ 32 = 0 := by
  intro linebuf
  rw [ReplayRecord.indexRows]
  by_cases hgot : 0 < (fetchLine linebuf file).code
  · simp only [hgot, ↓reduceDIte]
    cases hadded : addOffset alloc sparseStep state with
    | error code =>
        rw [addOffset] at hadded
        dsimp only at hadded
        split_ifs at hadded with hstart hfull hzero
        exact fun _ => hzero.resolve_right (by simp [halloc])
    | ok added =>
        exact indexRows_wrapped halloc
          { added with
            pos := (fetchLine linebuf file).file.pos
            line := (state.line + 1) % 2 ^ 32 } (fetchLine linebuf file).file _
  · simp only [hgot, ↓reduceDIte]
    exact fun hcomplete => absurd hcomplete.symm Bool.false_ne_true
termination_by file.remaining.length
decreasing_by exact length_remaining_fetchLine hgot

/-- An open leaves a pointer that dangles exactly when `realloc` frees the table. -/
theorem open_dangling {alloc : Nat → Bool} {content : Option (List UInt8)} {sparseStep : Nat}
    (hstep : sparseStep ≠ 0) :
    (record.fsReplayOpen alloc content sparseStep linebuf).part.dangling =
        reallocFrees linebuf (.openFile alloc content sparseStep) ∧
      (reallocFrees linebuf (.openFile alloc content sparseStep) = true →
        (record.fsReplayOpen alloc content sparseStep linebuf).part.offsets.isSome = true) := by
  cases content with
  | none =>
      rw [ReplayRecord.fsReplayOpen, if_neg hstep]
      exact ⟨rfl, fun hfreed => absurd hfreed Bool.false_ne_true⟩
  | some content =>
      rw [ReplayRecord.fsReplayOpen, reallocFrees, indexingOf]
      simp only [hstep, ↓reduceIte, false_or]
      by_cases hheader : (fetchLine linebuf { content, pos := 0 }).code ≤ 0
      · simp only [hheader, ↓reduceIte, true_or]
        exact ⟨rfl, fun hfreed => absurd hfreed Bool.false_ne_true⟩
      · by_cases halloc : alloc (4096 * 8) = false
        · simp only [hheader, halloc, ↓reduceIte, or_true]
          exact ⟨rfl, fun hfreed => absurd hfreed Bool.false_ne_true⟩
        · have hfull := @indexRows_full alloc sparseStep
            { offsets := [], cap := 4096, line := 0
              pos := (fetchLine linebuf { content, pos := 0 }).file.pos }
            (fetchLine linebuf { content, pos := 0 }).file (Nat.succ_pos 4095)
            (fetchLine linebuf { content, pos := 0 }).buf.bytes
          simp only [hheader, halloc, ↓reduceIte]
          generalize ReplayRecord.indexRows alloc sparseStep _ _ _ = indexed at hfull ⊢
          obtain ⟨complete, state, last, kept⟩ := indexed
          cases complete with
          | true =>
              refine ⟨?_, fun hfreed => absurd hfreed Bool.false_ne_true⟩
              cases hoffsets : state.offsets with
              | nil => simp [ReplayRecord.dangling]
              | cons offset offsets => simp [ReplayRecord.dangling]
          | false =>
              obtain ⟨hlength, hcap⟩ := hfull rfl
              have hrows : state.offsets ≠ [] :=
                List.ne_nil_of_length_pos (hcap.trans_eq hlength.symm)
              simp [ReplayRecord.dangling, zeroRecord, hrows, hlength]

theorem keepsTable_request (request : ReplayRequest) :
    KeepsPointer (·.offsets.isSome) ReplayRecord.dangling (reallocFrees linebuf request) record
      (replayRequest floats linebuf record request).part request := by
  cases request with
  | openFile alloc content sparseStep =>
      rw [KeepsPointer]
      split_ifs with hstep
      · rw [hstep, open_zero_keeps]
        refine ⟨?_, rfl, rfl⟩
        cases content with
        | none => rfl
        | some content => simp [reallocFrees, indexingOf]
      · exact open_dangling linebuf record hstep
  | read call =>
      obtain ⟨fp, hpart, _⟩ := read_keeps floats linebuf record call
      rw [hpart]
      exact ⟨rfl, rfl, rfl⟩
  | getSize => exact ⟨rfl, rfl, rfl⟩
  | close => exact ⟨rfl, rfl, rfl⟩

end Calls

section Wrapped

variable {content header : List UInt8} {rows : List (List UInt8)} {alloc : Nat → Bool}
  {sparseStep : Nat}

/-- The capacity stays at `2 ^ 31` or below. -/
theorem HasCapacity.indexRows {state : IndexState} {file : FsFile}
    (hcapacity : HasCapacity state) {last : IndexState × FsFile}
    (hrun : Trifecta.indexRows alloc sparseStep state file = .ok last) : HasCapacity last.1 := by
  rw [Trifecta.indexRows] at hrun
  by_cases hgot : 0 < (fsSafeFgets replayLineSize file).code
  · simp only [hgot, ↓reduceDIte] at hrun
    cases hadded : Trifecta.addOffset alloc sparseStep state with
    | error code =>
        rw [hadded] at hrun
        cases hrun
    | ok added =>
        rw [hadded] at hrun
        have hadds := hcapacity.addOffset hadded
        exact @HasCapacity.indexRows
          { added with
            pos := (fsSafeFgets replayLineSize file).file.pos
            line := (state.line + 1) % 2 ^ 32 } (fsSafeFgets replayLineSize file).file hadds last
          hrun
  · simp only [hgot, ↓reduceDIte] at hrun
    obtain rfl := Except.ok.inj hrun
    exact hcapacity
termination_by file.remaining.length
decreasing_by exact length_remaining_fsSafeFgets replayLineSize file hgot

/-- A file with more blocks than the largest capacity is not indexed. -/
theorem indexRows_manyBlocks (hcontent : ReplayContent content header rows)
    (hstep : 0 < sparseStep) (hrows : rows.length ≤ 2 ^ 32)
    (hmany : 2 ^ 31 < blockCount rows.length sparseStep) (last : IndexState × FsFile) :
    indexRows alloc sparseStep
      { offsets := [], cap := 4096, pos := (atLine content header rows 1).pos, line := 0 }
        (atLine content header rows 1) ≠ .ok last := by
  intro hrun
  have hstart : HasCapacity
      { offsets := [], cap := 4096, pos := (atLine content header rows 1).pos, line := 0 } :=
    ⟨0, Nat.zero_le 19, rfl, Nat.zero_le 4096⟩
  obtain ⟨doublings, hdoublings, hcap, hfits⟩ := hstart.indexRows hrun
  have hindexed := (indexRows_indexedUpTo hcontent hstep (Nat.zero_le _) (indexedUpTo_zero hstep)
    hrun).1
  have hblocks := hindexed.blocks hrows
  have hpow : (2 : Nat) ^ doublings ≤ 2 ^ 19 := Nat.pow_le_pow_right (by decide) hdoublings
  omega

/-- Opening such a file frees the table. -/
theorem reallocFrees_manyBlocks (hcontent : ReplayContent content header rows)
    (halloc : ∀ size, alloc size = true) (hstep : 0 < sparseStep) (hrows : rows.length ≤ 2 ^ 32)
    (hmany : 2 ^ 31 < blockCount rows.length sparseStep) (linebuf : LineBuffer) :
    reallocFrees linebuf (.openFile alloc (some content) sparseStep) = true := by
  have hheader : fsSafeFgets replayLineSize { content, pos := 0 } =
      { code := 1, line := header, file := atLine content header rows 1 } :=
    fsSafeFgets_atLine hcontent 0
  have hcode : (fetchLine linebuf { content, pos := 0 }).code = 1 := by
    rw [fetchLine_code, hheader]
  have hfile : (fetchLine linebuf { content, pos := 0 }).file = atLine content header rows 1 := by
    rw [fetchLine_file_inside linebuf _ (Nat.zero_le _), hheader]
  have hinside : (atLine content header rows 1).pos ≤ content.length := by
    have hmoved := fsSafeFgets_inside { content, pos := 0 }
    rw [hheader] at hmoved
    exact hmoved
  have hviews := indexRows_views alloc sparseStep
    { offsets := [], cap := 4096, pos := (atLine content header rows 1).pos, line := 0 }
    (atLine content header rows 1) hinside (fetchLine linebuf { content, pos := 0 }).buf.bytes
  have hwrapped := @indexRows_wrapped alloc halloc sparseStep
    { offsets := [], cap := 4096, pos := (atLine content header rows 1).pos, line := 0 }
    (atLine content header rows 1) (fetchLine linebuf { content, pos := 0 }).buf.bytes
  have hreached : ¬ (sparseStep = 0 ∨ (1 : Int) ≤ 0 ∨ true = false) := by
    simp [Nat.ne_of_gt hstep]
  rw [reallocFrees, indexingOf, hcode, hfile, halloc, if_neg hreached]
  dsimp only
  generalize ReplayRecord.indexRows alloc sparseStep _ _ _ = indexed at hviews hwrapped ⊢
  cases hcomplete : indexed.complete with
  | true =>
      rw [if_pos hcomplete] at hviews
      exact absurd hviews (indexRows_manyBlocks hcontent hstep hrows hmany _)
  | false => simpa using hwrapped hcomplete

end Wrapped

/-- Both pointers of all handles are tracked. -/
structure ReplayMemory.Tracked (memory : ReplayMemory H) : Prop where
  files : Tracks (·.fp.isSome) (fun _ => false) memory.world.parts memory.files
  tables : Tracks (·.offsets.isSome) ReplayRecord.dangling memory.world.parts memory.tables

section Index

/-- `fs_replay_read_line` finds an offset in the table for every row it accepts, and does
not divide by 0 to find it. -/
def ReplayRecord.IndexSafe (record : ReplayRecord) : Prop :=
  record.hasIndex = true → 0 < record.sparseStep ∧ ∃ offsets, record.offsets = some offsets ∧
    ∀ file lineIndex, lineIndex < record.numLines →
      (startLine (record.replay file offsets) lineIndex).2 < offsets.length

/-- The block of a row, or the one behind it if the index has one. -/
theorem startLine_block (replay : FsReplay) (lineIndex : Nat) :
    (startLine replay lineIndex).2 = lineIndex / replay.sparseStep ∨
      (startLine replay lineIndex).2 < replay.numBlocks := by
  simp only [startLine]
  split_ifs with hnext hnear hnear
  · exact Or.inl rfl
  · exact Or.inr hnext.1
  · exact Or.inl rfl
  · refine absurd ?_ hnear
    rw [sub32]
    omega

theorem blockCount_le_blockCount {small large : Nat} (hle : small ≤ large) (step : Nat) :
    blockCount small step ≤ blockCount large step :=
  Nat.div_le_div_right (Nat.sub_le_sub_right (Nat.add_le_add_right hle step) 1)

/-- Every row that has been passed over lies in a block with an offset. -/
theorem indexRows_blocks {alloc : Nat → Bool} {sparseStep : Nat} (hstep : 0 < sparseStep)
    (state : IndexState) (file : FsFile)
    (hblocks : blockCount state.line sparseStep ≤ state.offsets.length) : ∀ linebuf : LineBuffer,
    blockCount (ReplayRecord.indexRows alloc sparseStep state file linebuf).state.line
        sparseStep ≤
      (ReplayRecord.indexRows alloc sparseStep state file linebuf).state.offsets.length := by
  intro linebuf
  rw [ReplayRecord.indexRows]
  by_cases hgot : 0 < (fetchLine linebuf file).code
  · simp only [hgot, ↓reduceDIte]
    cases hadded : addOffset alloc sparseStep state with
    | error code => exact hblocks
    | ok added =>
        refine indexRows_blocks hstep _ (fetchLine linebuf file).file ?_ _
        have hwrap := blockCount_le_blockCount (Nat.mod_le (state.line + 1) (2 ^ 32)) sparseStep
        refine hwrap.trans ?_
        rcases addOffset_cases hadded with ⟨hstart, hoffsets⟩ | ⟨hinside, hoffsets⟩
        · have hmul : state.line / sparseStep * sparseStep = state.line :=
            Nat.div_mul_cancel (Nat.dvd_of_mod_eq_zero hstart)
          have hcount := blockCount_mul hstep (state.line / sparseStep)
          rw [hmul] at hcount
          rw [blockCount_succ hstep, hoffsets, List.length_append, List.length_singleton, ← hcount]
          exact Nat.add_le_add_right hblocks 1
        · rw [blockCount_succ_of_mod hstep hinside, hoffsets]
          exact hblocks
  · simp only [hgot, ↓reduceDIte]
    exact hblocks
termination_by file.remaining.length
decreasing_by exact length_remaining_fetchLine hgot

theorem indexSafe_of_blocks {record : ReplayRecord} {offsets : List Nat}
    (hstep : 0 < record.sparseStep) (hoffsets : record.offsets = some offsets)
    (hcount : record.numBlocks = offsets.length)
    (hblocks : blockCount record.numLines record.sparseStep ≤ offsets.length) :
    record.IndexSafe := by
  refine fun _ => ⟨hstep, offsets, hoffsets, fun file lineIndex hline => ?_⟩
  rcases startLine_block (record.replay file offsets) lineIndex with hown | hnext
  · have hrow : lineIndex / record.sparseStep + 1 ≤
        blockCount record.numLines record.sparseStep := by
      rw [← blockCount_succ hstep]
      exact blockCount_le_blockCount hline _
    rw [hown]
    exact hrow.trans hblocks
  · rw [← hcount]
    exact hnext

theorem indexSafe_open (alloc : Nat → Bool) (content : Option (List UInt8)) (sparseStep : Nat)
    (linebuf : LineBuffer) {record : ReplayRecord} (hsafe : record.IndexSafe) :
    (record.fsReplayOpen alloc content sparseStep linebuf).part.IndexSafe := by
  have hunindexed : ∀ other : ReplayRecord, other.hasIndex = false → other.IndexSafe := by
    intro other hnone hindex
    rw [hnone] at hindex
    cases hindex
  rw [ReplayRecord.fsReplayOpen]
  by_cases hstep : sparseStep = 0
  · rw [if_pos hstep]
    exact hsafe
  · rw [if_neg hstep]
    cases content with
    | none => exact hunindexed _ rfl
    | some content =>
        dsimp only
        split_ifs
        · exact hunindexed _ rfl
        · exact hunindexed _ rfl
        · exact hunindexed _ rfl
        · have hpos := Nat.pos_of_ne_zero hstep
          refine indexSafe_of_blocks hpos rfl rfl (indexRows_blocks hpos _ _ ?_ _)
          rw [blockCount, Nat.zero_add, Nat.div_eq_of_lt (Nat.sub_lt hpos Nat.one_pos)]
          exact Nat.zero_le _

theorem indexSafe_request (floats : FloatText) (linebuf : LineBuffer) {record : ReplayRecord}
    (hsafe : record.IndexSafe) (request : ReplayRequest) :
    (replayRequest floats linebuf record request).part.IndexSafe := by
  cases request with
  | openFile alloc content sparseStep => exact indexSafe_open alloc content sparseStep linebuf hsafe
  | read call =>
      obtain ⟨fp, hpart, _⟩ := read_keeps floats linebuf record call
      rw [hpart]
      exact hsafe
  | getSize => exact hsafe
  | close => exact fun hindex => nomatch hindex

/-- After any calls on any handles, successful or not, every handle finds its rows inside
its own table. -/
theorem replays_indexSafe (floats : FloatText) (linebuf : LineBuffer)
    (requests : List (H × ReplayRequest)) (handle : H) :
    ((run (ReplayMemory.perform floats) (zeroReplays H linebuf) requests).world.parts
      handle).IndexSafe := by
  have hstep : ∀ (state : ReplayMemory H) (request : H × ReplayRequest),
      (∀ other, (state.world.parts other).IndexSafe) → True →
        ∀ other, ((state.perform floats request).world.parts other).IndexSafe := by
    intro state request hsafe _ other
    simp only [ReplayMemory.perform, World.parts_perform]
    split_ifs
    · exact indexSafe_request floats _ (hsafe request.1) request.2
    · exact hsafe other
  have hzero : ∀ other : H, ((zeroReplays H linebuf).world.parts other).IndexSafe :=
    fun _ hindex => nomatch hindex
  exact run_invariant hstep hzero (along_of_forall (fun _ _ => trivial) _ requests) handle

end Index

section Runs

variable (floats : FloatText) {memory : ReplayMemory H}

theorem dangling_isSome {record : ReplayRecord} (hdangling : record.dangling = true) :
    record.offsets.isSome = true := by
  rw [ReplayRecord.dangling] at hdangling
  split at hdangling
  · cases hdangling
  · next hoffsets => rw [hoffsets, Option.isSome_some]

theorem parts_perform (request : H × ReplayRequest) :
    (memory.perform floats request).world.parts =
      Function.update memory.world.parts request.1
        (replayRequest floats memory.world.scratch (memory.world.parts request.1)
          request.2).part :=
  rfl

theorem part_perform (request : H × ReplayRequest) :
    (memory.world.perform (replayRequest floats) request).parts request.1 =
      (replayRequest floats memory.world.scratch (memory.world.parts request.1) request.2).part :=
  Function.update_self _ _ _

theorem files_perform (request : H × ReplayRequest) :
    (memory.perform floats request).files =
      ledgerAfter (·.fp.isSome) (memory.world.parts request.1)
        (replayRequest floats memory.world.scratch (memory.world.parts request.1) request.2).part
        request.1 memory.files request.2 := by
  rw [← part_perform]
  rfl

theorem tables_perform (request : H × ReplayRequest) :
    (memory.perform floats request).tables =
      if reallocFrees memory.world.scratch request.2 then
        (ledgerAfter (·.offsets.isSome) (memory.world.parts request.1)
          (replayRequest floats memory.world.scratch (memory.world.parts request.1)
            request.2).part request.1 memory.tables request.2).free request.1
      else
        ledgerAfter (·.offsets.isSome) (memory.world.parts request.1)
          (replayRequest floats memory.world.scratch (memory.world.parts request.1)
            request.2).part request.1 memory.tables request.2 := by
  rw [← part_perform]
  rfl

theorem tracked_perform (htracked : memory.Tracked) {request : H × ReplayRequest}
    (hcloses : ClosesOwned memory request) : (memory.perform floats request).Tracked := by
  have hfiles := htracked.files.after (keepsFile_request floats memory.world.scratch
    (memory.world.parts request.1) request.2) fun _ => rfl
  have htables := htracked.tables.after (keepsTable_request floats memory.world.scratch
    (memory.world.parts request.1) request.2) fun hclose => by
      rw [ClosesOwned, hclose] at hcloses
      exact hcloses
  refine ⟨?_, ?_⟩
  · rw [files_perform, parts_perform]
    exact hfiles
  · rw [tables_perform, parts_perform]
    exact htables

omit [DecidableEq H] in
theorem ReplayMemory.Tracked.releasedOnce (htracked : memory.Tracked) : memory.ReleasedOnce :=
  fun resource => ⟨htracked.files.owned.once resource, htracked.tables.owned.once resource⟩

/-- Closing a handle whose table is free already frees it again. -/
theorem released_twice_of_dangling (htracked : memory.Tracked) {handle : H}
    (hdangling : (memory.world.parts handle).dangling = true) :
    ∃ resource, (memory.perform floats (handle, .close)).tables.released resource = 2 := by
  have hset := dangling_isSome hdangling
  obtain ⟨resource, _, htwice⟩ := htracked.tables.released_twice hset hdangling
  have hnone : reallocFrees memory.world.scratch .close = false := rfl
  refine ⟨resource, ?_⟩
  rw [tables_perform, if_neg (Bool.eq_false_iff.1 hnone), ledgerAfter, if_pos hset, htwice]

theorem releasedOnce_perform_iff (htracked : memory.Tracked) (request : H × ReplayRequest) :
    (memory.perform floats request).ReleasedOnce ↔ ClosesOwned memory request := by
  refine ⟨fun honce => ?_, fun hcloses => (tracked_perform floats htracked hcloses).releasedOnce⟩
  obtain ⟨handle, request⟩ := request
  cases request with
  | openFile alloc content sparseStep => trivial
  | read call => trivial
  | getSize => trivial
  | close =>
      by_contra hstale
      obtain ⟨resource, htwice⟩ :=
        released_twice_of_dangling floats htracked (Bool.eq_true_of_not_eq_false hstale)
      have htables := (honce resource).2
      rw [htwice] at htables
      exact absurd htables (by decide)

theorem accounted_perform_iff (htracked : memory.Tracked) (haccounted : memory.Accounted)
    (request : H × ReplayRequest) :
    (memory.perform floats request).Accounted ↔
      OpensClosed memory request ∧ ClosesOwned memory request := by
  have hfiles := htracked.files.accounted_after_iff haccounted.files
    (keepsFile_request floats memory.world.scratch (memory.world.parts request.1) request.2)
    fun hnone => nomatch hnone
  have htables := htracked.tables.accounted_after_iff haccounted.tables
    (keepsTable_request floats memory.world.scratch (memory.world.parts request.1) request.2)
    dangling_isSome
  have hboth : (memory.perform floats request).Accounted ↔
      (memory.perform floats request).files.Accounted ∧
        (memory.perform floats request).ownedTables.Accounted :=
    ⟨fun hafter => ⟨hafter.files, hafter.tables⟩, fun hafter => ⟨hafter.1, hafter.2⟩⟩
  rw [hboth, ReplayMemory.ownedTables, files_perform, tables_perform, parts_perform]
  refine (and_congr hfiles htables).trans ?_
  rw [OpensClosed, ClosesOwned]
  cases request.2 with
  | openFile alloc content sparseStep => exact or_and_left.symm.trans (and_iff_left trivial).symm
  | read call => exact Iff.rfl
  | getSize => exact Iff.rfl
  | close => exact and_congr_left fun _ => iff_of_true rfl trivial

omit [DecidableEq H] in
theorem zeroReplays_tracked (linebuf : LineBuffer) : (zeroReplays H linebuf).Tracked := by
  have hzero : ∀ isSet stale : ReplayRecord → Bool, isSet zeroRecord = false →
      Tracks isSet stale (fun _ : H => zeroRecord)
        { held := fun _ => none, acquired := 0, released := fun _ => 0 } := by
    intro isSet stale hunset
    refine ⟨⟨⟨fun handle resource hheld => ?_, fun _ _ => rfl⟩, ?_, fun _ => Nat.zero_le 1⟩,
      fun _ => hunset, fun handle resource _ hheld => nomatch hheld⟩
    · rw [Ledger.held_owned, ite_self] at hheld
      cases hheld
    · intro first second resource hfirst
      rw [Ledger.held_owned, ite_self] at hfirst
      cases hfirst
  exact ⟨hzero _ _ rfl, hzero _ _ rfl⟩

/-- No file is closed twice and no table is freed twice along a run, exactly as long as no
handle is closed whose failed open has freed its table. -/
theorem replays_released_once_along_iff (linebuf : LineBuffer)
    (requests : List (H × ReplayRequest)) :
    (∀ front, front <+: requests →
        (run (ReplayMemory.perform floats) (zeroReplays H linebuf) front).ReleasedOnce) ↔
      Along (ReplayMemory.perform floats) ClosesOwned (zeroReplays H linebuf) requests := by
  have htracked := @zeroReplays_tracked H linebuf
  have hstep : ∀ (state : ReplayMemory H) (request : H × ReplayRequest), state.Tracked →
      state.ReleasedOnce → ClosesOwned state request → (state.perform floats request).Tracked :=
    fun _ _ hstate _ hcloses => tracked_perform floats hstate hcloses
  exact forall_prefix_run_iff hstep
    (fun _ request hstate _ => releasedOnce_perform_iff floats hstate request)
    htracked htracked.releasedOnce

/-- Nothing is lost along a run exactly when every handle that is opened holds nothing, and
none is closed whose failed open has freed its table. -/
theorem replays_accounted_along_iff (linebuf : LineBuffer)
    (requests : List (H × ReplayRequest)) :
    (∀ front, front <+: requests →
        (run (ReplayMemory.perform floats) (zeroReplays H linebuf) front).Accounted) ↔
      Along (ReplayMemory.perform floats)
        (fun state request => OpensClosed state request ∧ ClosesOwned state request)
        (zeroReplays H linebuf) requests := by
  have hzero : (zeroReplays H linebuf).Accounted :=
    ⟨fun _ hnone => absurd hnone (Nat.not_lt_zero _),
      fun _ hnone => absurd hnone (Nat.not_lt_zero _)⟩
  have hstep : ∀ (state : ReplayMemory H) (request : H × ReplayRequest), state.Tracked →
      state.Accounted → OpensClosed state request ∧ ClosesOwned state request →
        (state.perform floats request).Tracked :=
    fun _ _ hstate _ hmeets => tracked_perform floats hstate hmeets.2
  exact forall_prefix_run_iff hstep
    (fun _ request hstate haccounted => accounted_perform_iff floats hstate haccounted request)
    (zeroReplays_tracked linebuf) hzero

/-- After any calls that have released nothing twice, a handle that is opened on a file of
more than `2 ^ 31` blocks and closed again frees its table twice. -/
theorem replays_released_twice {content header : List UInt8} {rows : List (List UInt8)}
    {alloc : Nat → Bool} {sparseStep : Nat} (hcontent : ReplayContent content header rows)
    (halloc : ∀ size, alloc size = true) (hstep : 0 < sparseStep) (hrows : rows.length ≤ 2 ^ 32)
    (hmany : 2 ^ 31 < blockCount rows.length sparseStep) (linebuf : LineBuffer)
    {requests : List (H × ReplayRequest)} (hrequests : Along (ReplayMemory.perform floats)
      ClosesOwned (zeroReplays H linebuf) requests) (handle : H) :
    ∃ resource, (run (ReplayMemory.perform floats) (zeroReplays H linebuf)
      (requests ++ [(handle, .openFile alloc (some content) sparseStep),
        (handle, .close)])).tables.released resource = 2 := by
  have hreached : ∀ (state : ReplayMemory H) (request : H × ReplayRequest), state.Tracked →
      ClosesOwned state request → (state.perform floats request).Tracked :=
    fun _ _ hstate hcloses => tracked_perform floats hstate hcloses
  have htracked := run_invariant hreached (zeroReplays_tracked linebuf) hrequests
  rw [run, List.foldl_append]
  change (run (ReplayMemory.perform floats) (zeroReplays H linebuf) requests).Tracked at htracked
  change ∃ resource, (((run (ReplayMemory.perform floats) (zeroReplays H linebuf)
    requests).perform floats (handle, .openFile alloc (some content) sparseStep)).perform floats
      (handle, .close)).tables.released resource = 2
  generalize run (ReplayMemory.perform floats) (zeroReplays H linebuf) requests = memory at htracked
  refine released_twice_of_dangling floats (@tracked_perform _ _ floats memory htracked
    (handle, .openFile alloc (some content) sparseStep) trivial) ?_
  rw [parts_perform, Function.update_self]
  exact (open_dangling _ _ (Nat.ne_of_gt hstep)).1.trans
    (reallocFrees_manyBlocks hcontent halloc hstep hrows hmany _)

/-- One row more than the index can have offsets, each a row of its own block. -/
def zeroRows : List (List UInt8) :=
  List.replicate (2 ^ 31 + 1) (asciiText "0\n")

theorem replays_released_twice_zeroRows :
    ∃ resource, (run (ReplayMemory.perform zeroFloats) (zeroReplays Nat fun _ => 0)
      ([] ++ [(0, .openFile (fun _ => true) (some (fourRowsHeader :: zeroRows).flatten) 1),
        (0, .close)])).tables.released resource = 2 := by
  have hlines : ∀ line ∈ fourRowsHeader :: zeroRows,
      line = fourRowsHeader ∨ line = asciiText "0\n" := by
    intro line hline
    rcases List.mem_cons.1 hline with hheader | hrow
    · exact Or.inl hheader
    · exact Or.inr (List.eq_of_mem_replicate hrow)
  have hcontent : ReplayContent (fourRowsHeader :: zeroRows).flatten fourRowsHeader zeroRows := by
    refine ⟨Lines.splitLines_flatten fun line hline => ?_, fun line hline => ?_⟩
    · rcases hlines line hline with rfl | rfl
      · exact ⟨asciiText "type", by decide, by decide⟩
      · exact ⟨asciiText "0", by decide, by decide⟩
    · rcases hlines line hline with rfl | rfl <;> decide
  have hlength : zeroRows.length = 2 ^ 31 + 1 := List.length_replicate
  have hnone : Along (ReplayMemory.perform zeroFloats) ClosesOwned
      (zeroReplays Nat fun _ => 0) [] := trivial
  exact replays_released_twice zeroFloats hcontent (fun _ => rfl) Nat.one_pos
    (by rw [hlength]; decide) (by rw [hlength]; decide) (fun _ => 0) hnone 0

end Runs

end Trifecta
