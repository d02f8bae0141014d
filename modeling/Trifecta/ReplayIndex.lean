/-
Opening a replay file whose lines fit the buffer, with memory for its index: the
call succeeds, and the index describes the file.
-/
import Trifecta.ReplayCursor

namespace Trifecta

open Lines

/-- The memory of the offsets has been doubled some times, and the offsets fit. -/
def HasCapacity (state : IndexState) : Prop :=
  ∃ doublings, doublings ≤ 19 ∧ state.cap = 4096 * 2 ^ doublings ∧
    state.offsets.length ≤ state.cap

/-- What is added keeps to the capacities that can be reached, at most `2 ^ 31`. -/
theorem HasCapacity.addOffset {alloc : Nat → Bool} {sparseStep : Nat} {state added : IndexState}
    (hcapacity : HasCapacity state)
    (hadded : Trifecta.addOffset alloc sparseStep state = .ok added) : HasCapacity added := by
  obtain ⟨doublings, hdoublings, hcap, hfits⟩ := hcapacity
  rw [Trifecta.addOffset] at hadded
  dsimp only at hadded
  split_ifs at hadded with hstart hfull hzero
  · obtain rfl := Except.ok.inj hadded
    rw [not_or] at hzero
    have hless : doublings < 19 := by
      by_contra hmany
      obtain rfl : doublings = 19 := by omega
      have hwrap : 4096 * 2 ^ 19 * 2 % 2 ^ 32 = 0 := by decide
      exact hzero.1 (hcap ▸ hwrap)
    have hpow : (2 : Nat) ^ doublings ≤ 2 ^ 18 := Nat.pow_le_pow_right (by decide) (by omega)
    have hdouble : state.cap * 2 % 2 ^ 32 = 4096 * 2 ^ (doublings + 1) := by
      rw [hcap, Nat.pow_succ]
      omega
    refine ⟨doublings + 1, hless, hdouble, ?_⟩
    have hpos : 0 < (2 : Nat) ^ doublings := Nat.pow_pos (by decide)
    simp only [List.length_append, List.length_singleton, hfull, hcap, Nat.pow_succ]
    omega
  · obtain rfl := Except.ok.inj hadded
    refine ⟨doublings, hdoublings, hcap, ?_⟩
    have hroom : state.offsets.length < state.cap := Nat.lt_of_le_of_ne hfits hfull
    rw [List.length_append, List.length_singleton]
    exact hroom
  · obtain rfl := Except.ok.inj hadded
    exact ⟨doublings, hdoublings, hcap, hfits⟩

/-- With memory for it, an offset can be added while there are fewer than `2 ^ 31`. -/
theorem exists_addOffset {alloc : Nat → Bool} (halloc : ∀ size, alloc size = true)
    (sparseStep : Nat) {state : IndexState} (hcapacity : HasCapacity state)
    (hfew : state.offsets.length < 2 ^ 31) :
    ∃ added, addOffset alloc sparseStep state = .ok added ∧ HasCapacity added ∧
      added.offsets.length ≤ state.offsets.length + 1 := by
  have hgranted : ∃ added, addOffset alloc sparseStep state = .ok added := by
    obtain ⟨doublings, hdoublings, hcap, hfits⟩ := hcapacity
    rw [addOffset]
    dsimp only
    split_ifs with hstart hfull hrefused
    · rcases hrefused with hwrap | hrefused
      · -- a full memory of `2 ^ 31` offsets would hold more lines than there are
        have hless : doublings < 19 := by
          by_contra hmany
          obtain rfl : doublings = 19 := by omega
          rw [hfull, hcap] at hfew
          exact absurd hfew (by decide)
        have hpow : (2 : Nat) ^ doublings ≤ 2 ^ 18 := Nat.pow_le_pow_right (by decide) (by omega)
        have hpos : 0 < (2 : Nat) ^ doublings := Nat.pow_pos (by decide)
        rw [hcap] at hwrap
        omega
      · rw [halloc] at hrefused
        cases hrefused
    · exact ⟨_, rfl⟩
    · exact ⟨_, rfl⟩
    · exact ⟨_, rfl⟩
  obtain ⟨added, hadded⟩ := hgranted
  refine ⟨added, hadded, hcapacity.addOffset hadded, ?_⟩
  rcases addOffset_cases hadded with ⟨_, hoffsets⟩ | ⟨_, hoffsets⟩
  · rw [hoffsets, List.length_append, List.length_singleton]
  · rw [hoffsets]
    exact Nat.le_succ _

section Open

variable {content header : List UInt8} {rows : List (List UInt8)} {alloc : Nat → Bool}

/-- The loop reaches the end of the rows. -/
theorem exists_indexRows (hcontent : ReplayContent content header rows)
    (halloc : ∀ size, alloc size = true) (hrows : rows.length < 2 ^ 31) (sparseStep : Nat)
    {count : Nat} (hcount : count ≤ rows.length) {state : IndexState}
    (hcapacity : HasCapacity state) (hoffsets : state.offsets.length ≤ count) :
    ∃ last, indexRows alloc sparseStep state (atLine content header rows (count + 1)) =
      .ok last := by
  induction hleft : rows.length - count generalizing count state with
  | zero =>
      obtain rfl : count = rows.length := by omega
      exact ⟨_, indexRows_end hcontent alloc sparseStep state⟩
  | succ left ih =>
      have hlt : count < rows.length := by omega
      obtain ⟨added, hadded, hlarger, hlength⟩ :=
        exists_addOffset halloc sparseStep hcapacity (by omega)
      rw [indexRows_row hcontent alloc sparseStep state count hlt, hadded]
      exact ih hlt hlarger (Nat.le_trans hlength (Nat.succ_le_succ hoffsets)) (by omega)

/-- With memory for its index, a file of lines that fit the buffer opens. -/
theorem exists_fsReplayOpen (hcontent : ReplayContent content header rows)
    (halloc : ∀ size, alloc size = true) (hrows : rows.length < 2 ^ 31) {step : Nat}
    (hstep : step ≠ 0) : ∃ replay, fsReplayOpen alloc (some content) step = .ok replay := by
  have hstart : HasCapacity
      { offsets := [], cap := 4096, pos := (atLine content header rows 1).pos, line := 0 } :=
    ⟨0, Nat.zero_le 19, rfl, Nat.zero_le 4096⟩
  obtain ⟨⟨state, file⟩, hrun⟩ :=
    exists_indexRows hcontent halloc hrows step (Nat.zero_le _) hstart (Nat.le_refl 0)
  exact ⟨_, (fsReplayOpen_eq_ok_iff (fsSafeFgets_atLine hcontent 0)).mpr
    ⟨hstep, halloc _, state, file, hrun, rfl⟩⟩

/-- A replay whose index describes the rows behind the header of its file. -/
structure IndexExact (content header : List UInt8) (rows : List (List UInt8)) (step : Nat)
    (replay : FsReplay) : Prop where
  numLines : replay.numLines = rows.length
  numBlocks : replay.numBlocks = blockCount rows.length step
  offsets : ∀ block < replay.numBlocks,
    replay.offsets[block]? = some (offset (header :: rows) (block * step + 1))
  hasIndex : replay.hasIndex = true ↔ 0 < replay.numLines
  file : replay.file = { content, pos := offset (header :: rows) 1 }

theorem lt_of_lt_blockCount {count step block : Nat} (hstep : 0 < step)
    (hblock : block < blockCount count step) : block * step < count := by
  rw [blockCount, Nat.lt_div_iff_mul_lt hstep] at hblock
  have hcomm := Nat.mul_comm block step
  omega

theorem blockCount_pos_iff {count step : Nat} (hstep : 0 < step) :
    0 < blockCount count step ↔ 0 < count := by
  rw [blockCount, Nat.div_pos_iff]
  omega

/-- What opening leaves behind once the loop has passed over all rows. -/
theorem indexExact_of_open (hcontent : ReplayContent content header rows)
    (hrows : rows.length < 2 ^ 31) {step : Nat} {replay : FsReplay}
    (hopen : fsReplayOpen alloc (some content) step = .ok replay) :
    IndexExact content header rows step replay := by
  obtain ⟨hstep, _, state, file, hrun, hreplay⟩ :=
    (fsReplayOpen_eq_ok_iff (fsSafeFgets_atLine hcontent 0)).mp hopen
  have hpos := Nat.pos_of_ne_zero hstep
  obtain ⟨hindexed, _⟩ :=
    indexRows_indexedUpTo hcontent hpos (Nat.zero_le _) (indexedUpTo_zero hpos) hrun
  have hblocks : state.offsets.length = blockCount rows.length step :=
    hindexed.blocks (by omega)
  have hline : state.line = rows.length := by
    rw [hindexed.line, Nat.mod_eq_of_lt (by omega)]
  refine ⟨?_, ?_, ?_, ?_, ?_⟩
  · rw [hreplay]
    exact hline
  · rw [hreplay]
    exact hblocks
  · intro block hblock
    rw [hreplay] at hblock ⊢
    have hlt : block * step < rows.length := lt_of_lt_blockCount hpos (hblocks ▸ hblock)
    exact hindexed.offsets block hlt (by omega)
  · rw [hreplay]
    simp only [openedReplay, decide_eq_true_eq, hblocks, hline]
    exact blockCount_pos_iff hpos
  · by_cases hempty : rows = []
    · subst hempty
      -- without rows the file stands behind the header already
      obtain ⟨rfl, rfl⟩ :=
        Prod.mk.inj (Except.ok.inj ((indexRows_end hcontent _ _ _).symm.trans hrun))
      rw [hreplay]
      rfl
    · exact (fsReplayOpen_indexed hcontent hempty hopen).2.2

/-- Opening a file whose lines are at most 511 bytes, with memory for its index,
succeeds and leaves an exact index. -/
theorem fsReplayOpen_exact (hlines : splitLines lineFeed content = header :: rows)
    (hlength : ∀ line ∈ header :: rows, line.length ≤ 511)
    (halloc : ∀ size, alloc size = true) (hrows : rows.length < 2 ^ 31) {step : Nat}
    (hstep : 1 ≤ step) :
    ∃ replay, fsReplayOpen alloc (some content) step = .ok replay ∧
      IndexExact content header rows step replay := by
  have hcontent : ReplayContent content header rows := ⟨hlines, hlength⟩
  obtain ⟨replay, hopen⟩ := exists_fsReplayOpen hcontent halloc hrows (Nat.ne_of_gt hstep)
  exact ⟨replay, hopen, indexExact_of_open hcontent hrows hopen⟩

theorem fsReplayOpen_exact_fourRows :
    ∃ replay, fsReplayOpen (fun _ => true) (some fourRowsFile) 3 = .ok replay ∧
      IndexExact fourRowsFile fourRowsHeader fourRows 3 replay :=
  fsReplayOpen_exact replayContent_fourRows.lines replayContent_fourRows.length_le
    (fun _ => rfl) (by decide) (by decide)

end Open

end Trifecta
