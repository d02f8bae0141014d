/-
The length of saved rows beside the line buffer of the reader: when a packet is
one row of a replay, and how many rows of a capture a replay counts.
-/
import Trifecta.RowColumns
import Trifecta.SavedCapture
import Mathlib.Algebra.Order.BigOperators.Group.List
import Mathlib.Algebra.BigOperators.Ring.List

namespace Trifecta

open CText FixedText JoinedCells

/-- `fs_replay_get_size`. -/
def fsReplayGetSize (replay : FsReplay) : Nat :=
  replay.numLines

/-- The row of a packet as `format_packet` would write it without a limit. -/
def wholeRow (floats : FloatText) (packet : FsPacketUnion) : List UInt8 :=
  joined comma (rowCells floats packet) ++ [lineFeed]

/-- The text of a packet is not cut, it ends with its only line feed, and the
reader takes it whole, wherever it stands in a file. -/
structure ReplayableRow (floats : FloatText) (packet : FsPacketUnion) : Prop where
  notTruncated : formatPacket floats packet = wholeRow floats packet
  oneLineFeed : ∃ body, formatPacket floats packet = body ++ [lineFeed] ∧ lineFeed ∉ body
  length_le : (formatPacket floats packet).length ≤ 511
  readWhole : ∀ before rest : List UInt8,
    fsSafeFgets replayLineSize
        { content := before ++ (formatPacket floats packet ++ rest), pos := before.length } =
      { code := 1
        line := formatPacket floats packet
        file :=
          { content := before ++ (formatPacket floats packet ++ rest)
            pos := (before ++ formatPacket floats packet).length } }

section Reading

/-- A line that fits the buffer is read whole. -/
theorem fsSafeFgets_line {body : List UInt8} (hbody : lineFeed ∉ body) {bufSize : Nat}
    (hroom : body.length + 1 ≤ bufSize - 1) (before rest : List UInt8) :
    fsSafeFgets bufSize
        { content := before ++ (body ++ [lineFeed] ++ rest), pos := before.length } =
      { code := 1
        line := body ++ [lineFeed]
        file :=
          { content := before ++ (body ++ [lineFeed] ++ rest)
            pos := (before ++ (body ++ [lineFeed])).length } } := by
  have hremaining : FsFile.remaining
      { content := before ++ (body ++ [lineFeed] ++ rest), pos := before.length } =
        body ++ [lineFeed] ++ rest := List.drop_left
  have hread : fsSafeFgetsFrom bufSize [] (body ++ [lineFeed] ++ rest) =
      (1, body ++ [lineFeed], rest) := by
    rw [List.append_assoc, List.singleton_append]
    exact fsSafeFgetsFrom_line hbody rest hroom
  rw [fsSafeFgets, hremaining, hread]
  simp only [FsFile.seek, List.length_append, GotLine.mk.injEq, FsFile.mk.injEq, true_and]
  omega

/-- A line that does not fit is not read. -/
theorem fsSafeFgets_long {bufSize : Nat} {file : FsFile}
    (hnone : lineFeed ∉ file.remaining.take (bufSize - 1))
    (hlong : bufSize - 1 < file.remaining.length) : (fsSafeFgets bufSize file).code = -1 :=
  congrArg Prod.fst (fsSafeFgetsFrom_overflow hnone hlong)

end Reading

section Rows

variable {floats : FloatText} {packet : FsPacketUnion}

theorem length_wholeRow : (wholeRow floats packet).length = rowWidth floats packet := by
  rw [rowWidth_eq, wholeRow, List.length_append, List.length_singleton]

theorem length_formatPacket :
    (formatPacket floats packet).length = min (saverLinebufSize - 1) (rowWidth floats packet) := by
  rw [← length_wholeRow, wholeRow, formatPacket, List.length_take]

theorem formatPacket_of_width (hwidth : rowWidth floats packet ≤ 511) :
    formatPacket floats packet = wholeRow floats packet := by
  rw [← length_wholeRow] at hwidth
  exact List.take_of_length_le (Nat.le_trans hwidth (by decide))

/-- A packet is one row exactly when the row is not too wide for the reader. -/
theorem replayableRow_iff (hfloats : floats.Documented) :
    ReplayableRow floats packet ↔ rowWidth floats packet ≤ 511 := by
  have hbody := (@not_mem_joined_rowCells floats hfloats packet).2
  constructor
  · intro hrow
    rw [← length_wholeRow, ← hrow.notTruncated]
    exact hrow.length_le
  · intro hwidth
    have hwhole := formatPacket_of_width hwidth
    refine ⟨hwhole, ⟨_, hwhole, hbody⟩, ?_, ?_⟩
    · rw [hwhole, length_wholeRow]
      exact hwidth
    · intro before rest
      rw [hwhole]
      refine fsSafeFgets_line hbody ?_ before rest
      rw [← rowWidth_eq]
      exact hwidth

/-- The reader does not get past a row that is too wide. -/
theorem fsSafeFgets_wide (hfloats : floats.Documented) (hwide : ¬ rowWidth floats packet ≤ 511)
    (before rest : List UInt8) :
    (fsSafeFgets replayLineSize
      { content := before ++ (formatPacket floats packet ++ rest),
        pos := before.length }).code = -1 := by
  have hremaining : FsFile.remaining
      { content := before ++ (formatPacket floats packet ++ rest), pos := before.length } =
        formatPacket floats packet ++ rest := List.drop_left
  have hlength := @length_formatPacket floats packet
  have hjoined := @rowWidth_eq floats packet
  change (formatPacket floats packet).length = min 1023 _ at hlength
  apply fsSafeFgets_long
  · rw [hremaining, List.take_append_of_le_length (by change 511 ≤ _; omega), formatPacket,
      List.take_take, List.take_append_of_le_length
        (by change min 511 1023 ≤ (joined comma (rowCells floats packet)).length; omega)]
    intro hmem
    exact (not_mem_joined_rowCells hfloats).2 (List.mem_of_mem_take hmem)
  · rw [hremaining, List.length_append]
    change 511 < _
    omega

end Rows

section Captures

variable {floats : FloatText} {packets : List FsPacketUnion}

/-- The rows that the index of a replay gets to. -/
def rowsInIndex (floats : FloatText) (packets : List FsPacketUnion) : Nat :=
  (packets.takeWhile fun packet => rowWidth floats packet ≤ 511).length

/-- The indexing loop counts the rows up to the first one that is too wide. -/
theorem line_indexRows (hfloats : floats.Documented) {alloc : Nat → Bool} {sparseStep count : Nat}
    {before : List UInt8} {state last : IndexState} {file : FsFile}
    (hstate : state.line = count % 2 ^ 32)
    (hrun : indexRows alloc sparseStep state
      { content := before ++ (packets.map (formatPacket floats)).flatten, pos := before.length } =
        .ok (last, file)) :
    last.line = (count + rowsInIndex floats packets) % 2 ^ 32 := by
  induction packets generalizing before state count with
  | nil =>
      rw [indexRows] at hrun
      have hend : (fsSafeFgets replayLineSize
          { content := before ++ ([].map (formatPacket floats)).flatten,
            pos := before.length }).code = 0 := by
        simp [fsSafeFgets, FsFile.remaining, fsSafeFgetsFrom]
      rw [dif_neg (by rw [hend]; decide)] at hrun
      obtain ⟨rfl, _⟩ := Prod.mk.inj (Except.ok.inj hrun)
      exact hstate
  | cons packet rest ih =>
      rw [List.map_cons, List.flatten_cons, indexRows] at hrun
      rw [rowsInIndex, List.takeWhile_cons]
      by_cases hwidth : rowWidth floats packet ≤ 511
      · have hread := ((replayableRow_iff hfloats).mpr hwidth).readWhole before
          (rest.map (formatPacket floats)).flatten
        rw [hread, dif_pos Int.zero_lt_one] at hrun
        cases hadded : addOffset alloc sparseStep state with
        | error code => simp [hadded] at hrun
        | ok added =>
            simp only [hadded] at hrun
            rw [← List.append_assoc] at hrun
            have hnext : (state.line + 1) % 2 ^ 32 = (count + 1) % 2 ^ 32 := by omega
            have hlast := ih hnext hrun
            rw [hlast, if_pos (by simpa using hwidth), List.length_cons, rowsInIndex]
            omega
      · have hread := fsSafeFgets_wide hfloats hwidth before
          (rest.map (formatPacket floats)).flatten
        rw [dif_neg (by rw [hread]; decide)] at hrun
        obtain ⟨rfl, _⟩ := Prod.mk.inj (Except.ok.inj hrun)
        rw [if_neg (by simpa using hwidth)]
        exact hstate

theorem fsSafeFgets_headerLine (rest : List UInt8) :
    fsSafeFgets replayLineSize { content := headerLine ++ rest, pos := 0 } =
      { code := 1, line := headerLine,
        file := { content := headerLine ++ rest, pos := headerLine.length } } := by
  obtain ⟨hheader, hbody, hlength⟩ := headerLine_facts
  have hroom : headerLine.dropLast.length + 1 ≤ replayLineSize - 1 := by
    rw [List.length_dropLast, hlength]
    decide
  have hread := fsSafeFgets_line hbody hroom [] rest
  rw [← hheader] at hread
  simpa only [List.nil_append, List.length_nil] using hread

/-- The size of the replay of a capture. -/
theorem fsReplayGetSize_savedFile (hfloats : floats.Documented) {alloc : Nat → Bool} {step : Nat}
    {replay : FsReplay}
    (hopen : fsReplayOpen alloc (some (savedFile floats packets)) step = .ok replay) :
    fsReplayGetSize replay = rowsInIndex floats packets % 2 ^ 32 := by
  obtain ⟨_, _, state, file, hrun, rfl⟩ :=
    (fsReplayOpen_eq_ok_iff (fsSafeFgets_headerLine _)).mp hopen
  have hlast := @line_indexRows floats packets hfloats alloc step 0 headerLine _ _ _ rfl hrun
  rw [Nat.zero_add] at hlast
  exact hlast

/-- Every packet of a capture is one row of its replay, and the replay has as many
rows as the capture has packets. -/
structure OneRowEach (floats : FloatText) (packets : List FsPacketUnion) (replay : FsReplay) :
    Prop where
  rows : ∀ packet ∈ packets, ReplayableRow floats packet
  size : fsReplayGetSize replay = packets.length

theorem rowsInIndex_of_rowWidth (hwidths : ∀ packet ∈ packets, rowWidth floats packet ≤ 511) :
    rowsInIndex floats packets = packets.length := by
  rw [rowsInIndex, List.takeWhile_eq_self_iff.mpr fun packet hpacket => by
    simpa using hwidths packet hpacket]

theorem oneRowEach_of_rowWidth (hfloats : floats.Documented) {alloc : Nat → Bool} {step : Nat}
    {replay : FsReplay}
    (hopen : fsReplayOpen alloc (some (savedFile floats packets)) step = .ok replay)
    (hwidths : ∀ packet ∈ packets, rowWidth floats packet ≤ 511)
    (hsmall : packets.length < 2 ^ 32) : OneRowEach floats packets replay := by
  refine ⟨fun packet hpacket => (replayableRow_iff hfloats).mpr (hwidths packet hpacket), ?_⟩
  rw [fsReplayGetSize_savedFile hfloats hopen, rowsInIndex_of_rowWidth hwidths,
    Nat.mod_eq_of_lt hsmall]

/-- That is so exactly when no row is too wide and 32 bits count the rows. -/
theorem oneRowEach_iff (hfloats : floats.Documented) {alloc : Nat → Bool} {step : Nat}
    {replay : FsReplay}
    (hopen : fsReplayOpen alloc (some (savedFile floats packets)) step = .ok replay) :
    OneRowEach floats packets replay ↔
      (∀ packet ∈ packets, rowWidth floats packet ≤ 511) ∧ packets.length < 2 ^ 32 := by
  constructor
  · rintro ⟨hrows, hcount⟩
    have hwidths : ∀ packet ∈ packets, rowWidth floats packet ≤ 511 :=
      fun packet hpacket => (replayableRow_iff hfloats).mp (hrows packet hpacket)
    rw [fsReplayGetSize_savedFile hfloats hopen, rowsInIndex_of_rowWidth hwidths] at hcount
    exact ⟨hwidths, by omega⟩
  · rintro ⟨hwidths, hsmall⟩
    exact oneRowEach_of_rowWidth hfloats hopen hwidths hsmall

end Captures

section NarrowRows

variable {floats : FloatText} {packet : FsPacketUnion}

theorem length_headCells_le :
    (decimal packet.type.toNat).length ≤ 3 ∧ (decimal (compositeTime packet)).length ≤ 10 := by
  have htype := packet.type.toNat_lt
  have hlength : (packet.read 1 4).length = 4 := Block.length_read packet (by decide)
  have htime := Block.ofLittleEndian_lt (packet.read 1 4)
  rw [hlength] at htime
  exact ⟨length_decimal_le (by decide) (by omega),
    length_decimal_le (by decide) (Nat.lt_trans htime (by decide))⟩

/-- The columns of a structure that are neither temperatures nor the motion status. -/
def numberColumns (layout : Layout FsFieldId) : List FsFieldId :=
  savedColumns.filter fun field =>
    field ∉ temperatureColumns ∧ field ≠ .devicemotion ∧ layout.member field ≠ none

/-- The most bytes that a column takes up when no number takes up more than `width`. -/
def columnBound (layout : Layout FsFieldId) (width : Nat) (field : FsFieldId) : Nat :=
  13 * (decide (field ∈ temperatureColumns)).toNat +
    10 * (decide (field = .devicemotion)).toNat +
    width * (decide (field ∈ numberColumns layout)).toNat

theorem columnWidth_le (hintegers : floats.PrintsIntegers) (hshort : packet.type.toNat ≤ 11)
    {width : Nat} (hnumbers : ∀ field ∈ numberColumns (packetLayout packet.type.toNat),
      ∀ bytes ∈ (packetLayout packet.type.toNat).get field packet,
        min 31 (printedText floats field bytes).length ≤ width)
    {field : FsFieldId} (hfield : field ∈ savedColumns) :
    columnWidth floats packet field ≤
      columnBound (packetLayout packet.type.toNat) width field := by
  simp only [columnWidth, savedLayout_eq_packetLayout hshort, columnBound]
  cases hget : (sourceLayout (packetLayout packet.type.toNat) field).get field packet with
  | none => exact Nat.zero_le _
  | some bytes =>
      dsimp only
      by_cases htemperature : field ∈ temperatureColumns
      · obtain ⟨_, _, hsource, htext⟩ := temperatureColumns_facts htemperature
        obtain ⟨hsize, _, _, hwidths⟩ := packetLayouts_facts (Or.inl rfl)
          (show compositeLayout 4 ∈ packetLayouts 4 from List.mem_cons_self)
        obtain ⟨read, hread, hlength⟩ :=
          exists_get_of_size hsize (hwidths field htemperature) packet
        rw [hsource, hread] at hget
        obtain rfl := Option.some.inj hget
        have hprinted := length_temperature_le hintegers hlength
        rw [htext]
        simp only [htemperature, decide_true, Bool.toNat_true]
        omega
      · by_cases hmotion : field = .devicemotion
        · subst hmotion
          have hprinted : (printedText floats .devicemotion bytes).length ≤ 10 :=
            length_decimal_le (by decide) (by omega)
          simp only [decide_true, Bool.toNat_true]
          omega
        · have hsource : sourceLayout (packetLayout packet.type.toNat) field =
              packetLayout packet.type.toNat := by
            cases field <;> first | rfl | exact absurd htemperature (by decide)
          rw [hsource] at hget
          obtain ⟨place, hplace, _⟩ := Option.map_eq_some_iff.mp hget
          have hnumber : field ∈ numberColumns (packetLayout packet.type.toNat) := by
            rw [numberColumns, List.mem_filter]
            exact ⟨hfield, by simp [htemperature, hmotion, hplace]⟩
          have hprinted := hnumbers field hnumber bytes hget
          simp only [hnumber, decide_true, Bool.toNat_true]
          omega

theorem sum_columnBound {layout : Layout FsFieldId} (hlayout : layout ∈ packetLayouts 4)
    (width : Nat) : (savedColumns.map (columnBound layout width)).sum =
      49 + width * (numberColumns layout).length := by
  have hcounts : ∀ layout ∈ packetLayouts 4,
      (savedColumns.map fun field => (decide (field ∈ temperatureColumns)).toNat).sum = 3 ∧
      (savedColumns.map fun field => (decide (field = .devicemotion)).toNat).sum = 1 ∧
      (savedColumns.map fun field => (decide (field ∈ numberColumns layout)).toNat).sum =
        (numberColumns layout).length := by
    decide +kernel
  obtain ⟨htemperatures, hmotion, hnumbers⟩ := hcounts layout hlayout
  unfold columnBound
  rw [List.sum_map_add, List.sum_map_add, List.sum_map_mul_left, List.sum_map_mul_left,
    List.sum_map_mul_left, htemperatures, hmotion, hnumbers]
  omega

/-- The width of a row whose numbers are at most `width` bytes wide. -/
theorem rowWidth_le_of_numbers (hintegers : floats.PrintsIntegers)
    (hshort : packet.type.toNat ≤ 11) {width : Nat}
    (hnumbers : ∀ field ∈ numberColumns (packetLayout packet.type.toNat),
      ∀ bytes ∈ (packetLayout packet.type.toNat).get field packet,
        min 31 (printedText floats field bytes).length ≤ width) :
    rowWidth floats packet ≤
      104 + width * (numberColumns (packetLayout packet.type.toNat)).length := by
  have hlayout : packetLayout packet.type.toNat ∈ packetLayouts 4 := by
    rw [packetLayout]
    split_ifs <;> simp [packetLayouts]
  have htype : (decimal packet.type.toNat).length ≤ 2 :=
    length_decimal_le (by decide) (by omega)
  have hsum : (savedColumns.map (columnWidth floats packet)).sum ≤
      (savedColumns.map (columnBound (packetLayout packet.type.toNat) width)).sum :=
    List.sum_le_sum fun field hfield => columnWidth_le hintegers hshort hnumbers hfield
  rw [sum_columnBound hlayout] at hsum
  have hhead := (@length_headCells_le packet).2
  rw [rowWidth]
  omega

/-- The numbers of a composite packet are printed in at most 13 characters, those of the
second composite type in at most 11; of other types nothing is asked. -/
def NarrowNumbers (floats : FloatText) (packet : FsPacketUnion) : Prop :=
  ∀ field ∈ numberColumns (packetLayout packet.type.toNat),
    ∀ bytes ∈ (packetLayout packet.type.toNat).get field packet,
      (packet.type.toNat ≤ 3 → (printedText floats field bytes).length ≤ 13) ∧
        (8 ≤ packet.type.toNat ∧ packet.type.toNat ≤ 11 →
          (printedText floats field bytes).length ≤ 11)

/-- The rows of regular packets, and of packets with a 64-bit time, fit whatever the
packet holds. -/
theorem rowWidth_le_of_narrow (hintegers : floats.PrintsIntegers)
    (hnarrow : NarrowNumbers floats packet) : rowWidth floats packet ≤ 511 := by
  by_cases hshort : packet.type.toNat ≤ 11
  · by_cases hcomposite : packet.type.toNat ≤ 3
    · have hcount : (numberColumns (packetLayout packet.type.toNat)).length = 31 := by
        rw [packetLayout, if_pos hcomposite]
        decide +kernel
      have hwidth := @rowWidth_le_of_numbers floats packet hintegers hshort 13
        fun field hfield bytes hbytes =>
          Nat.le_trans (Nat.min_le_right _ _) ((hnarrow field hfield bytes hbytes).1 hcomposite)
      omega
    · by_cases hregular : packet.type.toNat ≤ 7
      · have hcount : (numberColumns (packetLayout packet.type.toNat)).length = 13 := by
          rw [packetLayout, if_neg hcomposite, if_pos hregular]
          decide +kernel
        have hwidth := @rowWidth_le_of_numbers floats packet hintegers hshort 31
          fun _ _ _ _ => Nat.min_le_left _ _
        omega
      · have hcount : (numberColumns (packetLayout packet.type.toNat)).length = 37 := by
          rw [packetLayout, if_neg hcomposite, if_neg hregular, if_pos hshort]
          decide +kernel
        have hwidth := @rowWidth_le_of_numbers floats packet hintegers hshort 11
          fun field hfield bytes hbytes => Nat.le_trans (Nat.min_le_right _ _)
            ((hnarrow field hfield bytes hbytes).2 ⟨by omega, hshort⟩)
        omega
  · have hnone : savedLayout packet.type.toNat = none := by
      rw [savedLayout, if_neg (by omega), if_neg (by omega), if_neg (by omega)]
    have hempty : columnWidth floats packet = fun _ => 0 := by
      funext field
      simp only [columnWidth, hnone]
    have hsum : (savedColumns.map (columnWidth floats packet)).sum = 0 := by
      rw [hempty]
      rfl
    have hhead := @length_headCells_le packet
    rw [rowWidth, hsum]
    omega

end NarrowRows

/-- A capture whose first row is too wide replays as an empty one, whatever follows. -/
theorem fsReplayGetSize_wide {floats : FloatText} (hfloats : floats.Documented)
    {packet : FsPacketUnion} (hwide : ¬ rowWidth floats packet ≤ 511)
    (later : List FsPacketUnion) {step : Nat} (hstep : step ≠ 0) :
    ∃ replay, fsReplayOpen (fun _ => true) (some (savedFile floats (packet :: later))) step =
        .ok replay ∧ fsReplayGetSize replay = 0 := by
  have hheader := fsSafeFgets_headerLine ((packet :: later).map (formatPacket floats)).flatten
  have hread := fsSafeFgets_wide hfloats hwide headerLine (later.map (formatPacket floats)).flatten
  rw [savedFile]
  generalize headerLine = header at hheader hread ⊢
  have hindex : ∀ state : IndexState, ∃ last, indexRows (fun _ => true) step state
      { content := header ++ ((packet :: later).map (formatPacket floats)).flatten,
        pos := header.length } = .ok (state, last) := by
    intro state
    rw [indexRows, List.map_cons, List.flatten_cons, dif_neg (by rw [hread]; decide)]
    exact ⟨_, rfl⟩
  obtain ⟨last, hrun⟩ := hindex { offsets := [], cap := 4096, pos := header.length, line := 0 }
  exact ⟨_, (fsReplayOpen_eq_ok_iff hheader).mpr ⟨hstep, rfl, _, last, hrun, rfl⟩, rfl⟩

/-- A packet of type 8 with -1000 in every number. -/
def thousandsPacket : FsPacketUnion :=
  (Block.zero 185).write 0
    ([8, 0, 0, 0, 0] ++ (List.replicate 34 [0, 0, 122, 196]).flatten ++
      (List.replicate 3 [0, 0, 0, 0, 0, 64, 143, 192]).flatten)

/-- A capture of an ordinary packet has one row. -/
theorem oneRowEach_moving :
    ∃ replay, fsReplayOpen (fun _ => true) (some (savedFile printedFloats [movingPacket])) 200 =
        .ok replay ∧ OneRowEach printedFloats [movingPacket] replay := by
  have hwidths : ∀ packet ∈ [movingPacket], rowWidth printedFloats packet ≤ 511 := by
    rw [List.forall_mem_singleton]
    decide +kernel
  have hfits : ∀ packet ∈ [movingPacket], FitsLine printedFloats packet := by
    rw [List.forall_mem_singleton, FitsLine]
    decide +kernel
  obtain ⟨replay, hopen⟩ := exists_fsReplayOpen
    (replayContent_savedFile documented_printedFloats hfits) (fun _ => rfl) (by decide)
    (show 200 ≠ 0 by decide)
  exact ⟨replay, hopen,
    (oneRowEach_iff documented_printedFloats hopen).mpr ⟨hwidths, by decide⟩⟩

/-- The row of a packet full of -1000 is 519 bytes long and hides the packet behind it. -/
theorem not_oneRowEach_thousands :
    ¬ ∀ (packets : List FsPacketUnion) (replay : FsReplay),
      (∀ packet ∈ packets, obtainPacketLength packet.type.toNat ≠ 0) →
      fsReplayOpen (fun _ => true) (some (savedFile printedFloats packets)) 200 = .ok replay →
      OneRowEach printedFloats packets replay := by
  intro hall
  have hwidth : rowWidth printedFloats thousandsPacket = 519 := by decide +kernel
  have haccepted : ∀ packet ∈ [thousandsPacket, movingPacket],
      obtainPacketLength packet.type.toNat ≠ 0 := by decide +kernel
  obtain ⟨replay, hopen, hsize⟩ := fsReplayGetSize_wide documented_printedFloats
    (by rw [hwidth]; decide) [movingPacket] (show 200 ≠ 0 by decide)
  have hcount := (hall _ replay haccepted hopen).size
  rw [hsize] at hcount
  exact absurd hcount (by decide)

/-- A capture replays one row for each packet when the composite ones have narrow numbers,
whatever numbers the others have. -/
theorem narrowCapture_oneRowEach {floats : FloatText} {packets : List FsPacketUnion}
    (hfloats : floats.Documented) (hintegers : floats.PrintsIntegers) {alloc : Nat → Bool}
    {step : Nat} {replay : FsReplay}
    (hopen : fsReplayOpen alloc (some (savedFile floats packets)) step = .ok replay)
    (hnarrow : ∀ packet ∈ packets, NarrowNumbers floats packet)
    (hsmall : packets.length < 2 ^ 32) : OneRowEach floats packets replay :=
  oneRowEach_of_rowWidth hfloats hopen
    (fun packet hpacket => rowWidth_le_of_narrow hintegers (hnarrow packet hpacket)) hsmall

theorem narrowCapture_oneRowEach_moving :
    ∃ replay, fsReplayOpen (fun _ => true)
        (some (savedFile printedFloats [movingPacket, .zero 185])) 200 = .ok replay ∧
      OneRowEach printedFloats [movingPacket, .zero 185] replay := by
  have hnarrow : ∀ packet ∈ [movingPacket, .zero 185], NarrowNumbers printedFloats packet := by
    rw [List.forall_mem_cons, List.forall_mem_singleton, NarrowNumbers, NarrowNumbers]
    decide +kernel
  have hfits : ∀ packet ∈ [movingPacket, .zero 185], FitsLine printedFloats packet := by
    rw [List.forall_mem_cons, List.forall_mem_singleton, FitsLine, FitsLine]
    decide +kernel
  obtain ⟨replay, hopen⟩ := exists_fsReplayOpen
    (replayContent_savedFile documented_printedFloats hfits) (fun _ => rfl) (by decide)
    (show 200 ≠ 0 by decide)
  exact ⟨replay, hopen, narrowCapture_oneRowEach documented_printedFloats
    printsIntegers_printedFloats hopen hnarrow (by decide)⟩

end Trifecta
