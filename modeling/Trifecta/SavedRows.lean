/-
Reading back the row of one packet: the cells of the row under the header that
the saver writes, the members they give the packet, and when these are the
members that were saved.
-/
import Trifecta.Saver
import Trifecta.Library.JoinedCells

namespace Trifecta

open CText JoinedCells

/-- What the C library documents of its conversions: printed numbers have no
byte that ends a cell, a line or a string, and a text without a number reads as
zero. -/
structure FloatText.Documented (floats : FloatText) : Prop where
  plain_float : ∀ bits, ∀ byte ∈ floats.printFloat bits, byte ≠ 0 ∧ byte ≠ comma ∧ byte ≠ lineFeed
  plain_double : ∀ bits, ∀ byte ∈ floats.printDouble bits,
    byte ≠ 0 ∧ byte ≠ comma ∧ byte ≠ lineFeed
  plain_int16 : ∀ value, ∀ byte ∈ floats.printInt16 value,
    byte ≠ 0 ∧ byte ≠ comma ∧ byte ≠ lineFeed
  strtof_nil : floats.strtof [] = 0
  strtod_nil : floats.strtod [] = 0

/-- The text printed for a member fits its scratch field and reads back as the
same number. -/
def PrintsExactly (floats : FloatText) (field : FsFieldId) (bytes : List UInt8) : Prop :=
  match field with
  | .temp0 | .temp1 | .temp2 | .devicemotion => True
  | .rx | .ry | .rz =>
      let bits := (Block.ofLittleEndian bytes).toUInt64
      (floats.printDouble bits).length ≤ 31 ∧ floats.strtod (floats.printDouble bits) = bits
  | _ =>
      let bits := (Block.ofLittleEndian bytes).toUInt32
      (floats.printFloat bits).length ≤ 31 ∧ floats.strtof (floats.printFloat bits) = bits

/-- Every number that the row of the packet shows is printed exactly. -/
def ExactPacket (floats : FloatText) (packet : FsPacketUnion) : Prop :=
  ∀ layout ∈ savedLayout packet.type.toNat, ∀ field ∈ savedColumns,
    ∀ bytes ∈ layout.get field packet, PrintsExactly floats field bytes

section Cells

variable {floats : FloatText}

theorem plain_decimal {value : Nat} {byte : UInt8} (hbyte : byte ∈ decimal value) :
    byte ≠ 0 ∧ byte ≠ comma ∧ byte ≠ lineFeed := by
  have hdigit := isdigit_of_mem_decimal hbyte
  refine ⟨?_, ?_, ?_⟩ <;>
  · rintro rfl
    exact absurd hdigit (by decide)

theorem plain_formatMember (hfloats : floats.Documented) {field : FsFieldId}
    {bytes : List UInt8} {byte : UInt8} (hbyte : byte ∈ formatMember floats field bytes) :
    byte ≠ 0 ∧ byte ≠ comma ∧ byte ≠ lineFeed := by
  rw [formatMember.eq_def] at hbyte
  split at hbyte
  iterate 3 exact hfloats.plain_int16 _ _ (List.mem_of_mem_take hbyte)
  · exact plain_decimal (List.mem_of_mem_take hbyte)
  iterate 3 exact hfloats.plain_double _ _ (List.mem_of_mem_take hbyte)
  · exact hfloats.plain_float _ _ (List.mem_of_mem_take hbyte)

theorem plain_formatColumn (hfloats : floats.Documented) {packet : FsPacketUnion}
    {field : FsFieldId} {byte : UInt8} (hbyte : byte ∈ formatColumn floats packet field) :
    byte ≠ 0 ∧ byte ≠ comma ∧ byte ≠ lineFeed := by
  rw [formatColumn] at hbyte
  split at hbyte
  · rw [formatField] at hbyte
    split at hbyte
    · exact plain_formatMember hfloats hbyte
    · exact absurd hbyte List.not_mem_nil
  · exact absurd hbyte List.not_mem_nil

theorem plain_rowCells (hfloats : floats.Documented) {packet : FsPacketUnion}
    {cell : List UInt8} (hcell : cell ∈ rowCells floats packet) {byte : UInt8}
    (hbyte : byte ∈ cell) : byte ≠ 0 ∧ byte ≠ comma ∧ byte ≠ lineFeed := by
  rw [rowCells, List.mem_cons, List.mem_cons, List.mem_map] at hcell
  rcases hcell with rfl | rfl | ⟨field, _, rfl⟩
  · exact plain_decimal hbyte
  · exact plain_decimal hbyte
  · exact plain_formatColumn hfloats hbyte

/-- The joined cells of a row have neither a terminator nor a line feed. -/
theorem not_mem_joined_rowCells (hfloats : floats.Documented) {packet : FsPacketUnion} :
    0 ∉ joined comma (rowCells floats packet) ∧
      lineFeed ∉ joined comma (rowCells floats packet) := by
  constructor
  · exact not_mem_joined (by decide) fun _ hcell hbyte => (plain_rowCells hfloats hcell hbyte).1 rfl
  · exact not_mem_joined (by decide) fun _ hcell hbyte =>
      (plain_rowCells hfloats hcell hbyte).2.2 rfl

/-- The cell that reading a row gives a column: the last one keeps the line feed. -/
def columnCell (floats : FloatText) (packet : FsPacketUnion) (field : FsFieldId) : List UInt8 :=
  formatColumn floats packet field ++ if field = .devicemotion then [lineFeed] else []

/-- A row that fits the line buffer. -/
def FitsLine (floats : FloatText) (packet : FsPacketUnion) : Prop :=
  (formatPacket floats packet).length ≤ replayLineSize - 1

theorem formatPacket_eq {packet : FsPacketUnion} (hfits : FitsLine floats packet) :
    formatPacket floats packet =
      [comma].intercalate (rowCells floats packet) ++ [lineFeed] := by
  rw [FitsLine, formatPacket, List.length_take] at hfits
  change min 1023 _ ≤ 511 at hfits
  exact List.take_of_length_le (by change _ ≤ 1023; omega)

theorem lineCells_formatPacket (hfloats : floats.Documented) {packet : FsPacketUnion}
    (hfits : FitsLine floats packet) :
    lineCells (formatPacket floats packet) =
      decimal packet.type.toNat :: decimal (compositeTime packet) ::
        savedColumns.map (columnCell floats packet) := by
  have hrow := formatPacket_eq hfits
  have hnozero : 0 ∉ formatPacket floats packet := by
    rw [hrow, List.mem_append, not_or]
    exact ⟨(not_mem_joined_rowCells hfloats).1, by decide⟩
  have hcells : rowCells floats packet =
      (decimal packet.type.toNat :: decimal (compositeTime packet) ::
        savedColumns.dropLast.map (formatColumn floats packet)) ++
        [formatColumn floats packet .devicemotion] := rfl
  have hread : (decimal packet.type.toNat :: decimal (compositeTime packet) ::
        savedColumns.dropLast.map (formatColumn floats packet)) ++
        [formatColumn floats packet .devicemotion ++ [lineFeed]] =
      decimal packet.type.toNat :: decimal (compositeTime packet) ::
        savedColumns.map (columnCell floats packet) := by
    simp [savedColumns, columnCell]
  have hseparate : ∀ cell ∈ decimal packet.type.toNat :: decimal (compositeTime packet) ::
      savedColumns.map (columnCell floats packet), comma ∉ cell := by
    intro cell hcell hcomma
    rw [List.mem_cons, List.mem_cons, List.mem_map] at hcell
    rcases hcell with rfl | rfl | ⟨field, _, rfl⟩
    · exact (plain_decimal hcomma).2.1 rfl
    · exact (plain_decimal hcomma).2.1 rfl
    · rcases List.mem_append.mp hcomma with hcolumn | hend
      · exact (plain_formatColumn hfloats hcolumn).2.1 rfl
      · split at hend
        · exact absurd hend (by decide)
        · exact absurd hend List.not_mem_nil
  rw [lineCells, cString_of_not_mem hnozero, List.take_of_length_le hfits, hrow, hcells,
    joined_concat_append, hread, List.splitOn_intercalate comma hseparate (by simp)]
  exact List.take_of_length_le (by simp [savedColumns, fsReplayMaxColumns])

end Cells

/-- The field that the reader takes a saved column for: it does not know the
names of the temperature columns. -/
def replayField (field : FsFieldId) : FsFieldId :=
  match field with
  | .temp0 | .temp1 | .temp2 => .none
  | _ => field

/-- The header line names the saved columns to the reader, all but the temperatures. -/
theorem fsReplayParseHeader_headerLine :
    fsReplayParseHeader headerLine =
      .type :: .time :: savedColumns.map replayField ++ List.replicate 21 .none := by
  decide +kernel

/-- The columns of a saved row as the reader sees them. -/
def savedCells (floats : FloatText) (packet : FsPacketUnion) : List (FsFieldId × List UInt8) :=
  (.type, decimal packet.type.toNat) :: (.time, decimal (compositeTime packet)) ::
    savedColumns.map fun field => (replayField field, columnCell floats packet field)

theorem zip_lineCells {floats : FloatText} (hfloats : floats.Documented)
    {packet : FsPacketUnion} (hfits : FitsLine floats packet) :
    (fsReplayParseHeader headerLine).zip (lineCells (formatPacket floats packet)) =
      savedCells floats packet := by
  rw [fsReplayParseHeader_headerLine, lineCells_formatPacket hfloats hfits, savedCells,
    ← List.zip_map', ← List.append_nil (decimal _ :: _ :: _), List.zip_append (by simp)]
  simp

theorem length_cellValue {floats : FloatText} {field : FsFieldId} {cell : List UInt8}
    {value : Nat → List UInt8} (hvalue : cellValue floats field cell = some value)
    (width : Nat) : (value width).length = width := by
  cases field <;> simp only [cellValue, Option.some.injEq, reduceCtorEq] at hvalue <;>
    rw [← hvalue, Block.length_littleEndian]

section Store

variable {floats : FloatText} {layout : Layout FsFieldId}

theorem get_storeCell_of_ne {field : FsFieldId} {column : FsFieldId × List UInt8}
    (hne : field ≠ column.1) (packet : FsPacketUnion) :
    layout.get field (storeCell floats layout packet column) = layout.get field packet := by
  rw [storeCell]
  cases hvalue : cellValue floats column.1 column.2 with
  | none => rfl
  | some value => exact Layout.get_set_of_ne hne (length_cellValue hvalue) packet

theorem get_foldl_storeCell_of_not_mem {field : FsFieldId}
    {columns : List (FsFieldId × List UInt8)} (hnone : field ∉ columns.map Prod.fst)
    (packet : FsPacketUnion) :
    layout.get field (columns.foldl (storeCell floats layout) packet) =
      layout.get field packet := by
  induction columns generalizing packet with
  | nil => rfl
  | cons column rest ih =>
      rw [List.map_cons, List.mem_cons, not_or] at hnone
      rw [List.foldl_cons, ih hnone.2, get_storeCell_of_ne hnone.1]

/-- A member has the value of the last column that is read into it. -/
theorem get_foldl_storeCell {field : FsFieldId} {cell : List UInt8}
    {before after : List (FsFieldId × List UInt8)} {value : Nat → List UInt8}
    (hvalue : cellValue floats field cell = some value) (hlast : field ∉ after.map Prod.fst)
    (hsize : layout.totalSize ≤ 185) (packet : FsPacketUnion) :
    layout.get field ((before ++ (field, cell) :: after).foldl (storeCell floats layout) packet) =
      (layout.member field).map fun place => value place.2 := by
  rw [List.foldl_append, List.foldl_cons, get_foldl_storeCell_of_not_mem hlast, storeCell]
  simp only [hvalue]
  exact Layout.get_set_same (length_cellValue hvalue) hsize _

end Store

/-- The packet before the columns of a row are read into it. -/
def clearedPacket (layout : Layout FsFieldId) (packetType : Nat) (out : FsPacketUnion) :
    FsPacketUnion :=
  layout.set .type (fun size => Block.littleEndian size packetType) (layout.clear out)

/-- Reading a saved row back. -/
theorem fsReplayParsePacket_formatPacket {floats : FloatText} (hfloats : floats.Documented)
    {packet : FsPacketUnion} (hfits : FitsLine floats packet) (out : FsPacketUnion) :
    fsReplayParsePacket floats (fsReplayParseHeader headerLine) (formatPacket floats packet) out =
      match replayLayout packet.type.toNat with
      | none => (-2, out)
      | some layout =>
          (0, (savedCells floats packet).foldl (storeCell floats layout)
            (clearedPacket layout packet.type.toNat out)) := by
  have hbyte := packet.type.toNat_lt
  have htype : rowType (savedCells floats packet) = packet.type.toNat := by
    have hread := @strtol_decimal_append packet.type.toNat (by omega) [] (by simp)
    rw [List.append_nil] at hread
    simp only [rowType, savedCells, List.find?_cons, decide_true]
    rw [atoi, hread]
    exact Int.bmod_eq_of_le (by omega) (by omega)
  have hmod : ((packet.type.toNat : Int) % 2 ^ 32).toNat = packet.type.toNat := by omega
  simp only [fsReplayParsePacket, zip_lineCells hfloats hfits, htype, hmod]
  rfl

/-- The structure that holds a packet of an accepted type. -/
def packetLayout (packetType : Nat) : Layout FsFieldId :=
  if packetType ≤ 3 then compositeLayout 4
  else if packetType ≤ 7 then regularLayout 4
  else if packetType ≤ 11 then composite2Layout 4
  else if packetType ≤ 103 then compositeLayout 8
  else if packetType ≤ 107 then regularLayout 8
  else composite2Layout 8

/-- The size of a member that has a column. -/
def memberWidth (field : FsFieldId) : Nat :=
  match field with
  | .rx | .ry | .rz => 8
  | .temp0 | .temp1 | .temp2 => 2
  | .devicemotion => 1
  | _ => 4

/-- The structures that rows are read into, with a time of `timeSize` bytes. -/
def ReplayedLayout (layout : Layout FsFieldId) (timeSize : Nat) : Prop :=
  layout = compositeLayout timeSize ∨ layout = composite2Layout timeSize

theorem replayedLayout_facts {layout : Layout FsFieldId} {timeSize : Nat}
    (hlayout : ReplayedLayout layout timeSize) (htime : timeSize = 4 ∨ timeSize = 8) :
    layout.totalSize ≤ 185 ∧ layout.member .type = some (0, 1) ∧
      layout.member .time = some (1, timeSize) ∧
      ∀ field ∈ savedColumns, layout.member field = none ∨
        (layout.member field).map Prod.snd = some (memberWidth field) := by
  rcases hlayout with rfl | rfl <;> rcases htime with rfl | rfl <;> decide

section ReadBack

variable {floats : FloatText} {layout : Layout FsFieldId} {packet : FsPacketUnion}

theorem replayField_eq (field : FsFieldId) :
    replayField field = field ∨ replayField field = .none := by
  cases field <;> first | exact Or.inl rfl | exact Or.inr rfl

/-- A saved member that the reader knows has the value of its cell. -/
theorem get_savedCells {field : FsFieldId} (hcolumn : field ∈ savedColumns)
    (hknown : replayField field = field) {value : Nat → List UInt8}
    (hvalue : cellValue floats field (columnCell floats packet field) = some value)
    (hsize : layout.totalSize ≤ 185) (start : FsPacketUnion) :
    layout.get field ((savedCells floats packet).foldl (storeCell floats layout) start) =
      (layout.member field).map fun place => value place.2 := by
  obtain ⟨before, after, hsplit⟩ := List.append_of_mem hcolumn
  have hnodup : savedColumns.Nodup := by decide
  rw [hsplit, List.nodup_append] at hnodup
  have hlater : field ∉ after := (List.nodup_cons.mp hnodup.2.1).1
  have hsome : field ≠ .none := by
    rintro rfl
    exact absurd hcolumn (by decide)
  have hlast : field ∉ (after.map fun other =>
      (replayField other, columnCell floats packet other)).map Prod.fst := by
    rw [List.map_map, List.mem_map]
    rintro ⟨other, hother, hsame⟩
    rcases replayField_eq other with hself | hnone
    · exact hlater ((hself.symm.trans hsame) ▸ hother)
    · exact hsome (hsame.symm.trans hnone)
  have hcells : savedCells floats packet =
      ((.type, decimal packet.type.toNat) :: (.time, decimal (compositeTime packet)) ::
        before.map fun other => (replayField other, columnCell floats packet other)) ++
        (field, columnCell floats packet field) ::
          after.map fun other => (replayField other, columnCell floats packet other) := by
    rw [savedCells, hsplit, List.map_append, List.map_cons, hknown]
    rfl
  rw [hcells]
  exact get_foldl_storeCell hvalue hlast hsize start

theorem get_time_savedCells (hsize : layout.totalSize ≤ 185) (start : FsPacketUnion) :
    layout.get .time ((savedCells floats packet).foldl (storeCell floats layout) start) =
      (layout.member .time).map fun place =>
        Block.littleEndian place.2 (strtoul (decimal (compositeTime packet))) := by
  have hlast : FsFieldId.time ∉ (savedColumns.map fun other =>
      (replayField other, columnCell floats packet other)).map Prod.fst := by
    rw [List.map_map]
    exact of_decide_eq_true rfl
  exact @get_foldl_storeCell floats layout .time (decimal (compositeTime packet))
    [(.type, decimal packet.type.toNat)] _ _ rfl hlast hsize start

theorem get_clearedPacket (hsize : layout.totalSize ≤ 185) {field : FsFieldId}
    (hne : field ≠ .type) (packetType : Nat) (out : FsPacketUnion) :
    layout.get field (clearedPacket layout packetType out) =
      (layout.member field).map fun place => List.replicate place.2 0 := by
  rw [clearedPacket, Layout.get_set_of_ne hne (fun width => Block.length_littleEndian width _),
    Layout.get_clear hsize]

/-- The temperatures of a packet read back are zero. -/
theorem get_temperature_savedCells (hsize : layout.totalSize ≤ 185) {field : FsFieldId}
    (htemperature : field = .temp0 ∨ field = .temp1 ∨ field = .temp2) (packetType : Nat)
    (out : FsPacketUnion) :
    layout.get field ((savedCells floats packet).foldl (storeCell floats layout)
        (clearedPacket layout packetType out)) =
      (layout.member field).map fun place => List.replicate place.2 0 := by
  have hnone : field ∉ (savedCells floats packet).map Prod.fst := by
    rw [savedCells, List.map_cons, List.map_cons, List.map_map]
    rcases htemperature with rfl | rfl | rfl <;> exact of_decide_eq_true rfl
  rw [get_foldl_storeCell_of_not_mem hnone, get_clearedPacket hsize]
  rcases htemperature with rfl | rfl | rfl <;> decide

theorem get_type_savedCells (hsize : layout.totalSize ≤ 185) (packetType : Nat)
    (out : FsPacketUnion) :
    layout.get .type ((savedCells floats packet).foldl (storeCell floats layout)
        (clearedPacket layout packetType out)) =
      (layout.member .type).map fun place => Block.littleEndian place.2 packetType := by
  have hnone : FsFieldId.type ∉ ((.time, decimal (compositeTime packet)) ::
      savedColumns.map fun other =>
        (replayField other, columnCell floats packet other)).map Prod.fst := by
    rw [List.map_cons, List.map_map]
    exact of_decide_eq_true rfl
  have hskip : storeCell floats layout (clearedPacket layout packetType out)
      (.type, decimal packet.type.toNat) = clearedPacket layout packetType out := rfl
  rw [savedCells, List.foldl_cons, hskip, get_foldl_storeCell_of_not_mem hnone, clearedPacket,
    Layout.get_set_same (fun width => Block.length_littleEndian width _) hsize]

end ReadBack

section Members

variable {floats : FloatText} {bytes : List UInt8}

theorem toNat_toUInt32 (hlength : bytes.length = 4) :
    (Block.ofLittleEndian bytes).toUInt32.toNat = Block.ofLittleEndian bytes := by
  have hrange := Block.ofLittleEndian_lt bytes
  rw [hlength] at hrange
  simp only [UInt32.toNat_ofNat', Nat.toUInt32_eq]
  exact Nat.mod_eq_of_lt (by omega)

theorem toNat_toUInt64 (hlength : bytes.length = 8) :
    (Block.ofLittleEndian bytes).toUInt64.toNat = Block.ofLittleEndian bytes := by
  have hrange := Block.ofLittleEndian_lt bytes
  rw [hlength] at hrange
  simp only [UInt64.toNat_ofNat', Nat.toUInt64_eq]
  exact Nat.mod_eq_of_lt (by omega)

theorem read_float (hlength : bytes.length = 4)
    (hexact : (floats.printFloat (Block.ofLittleEndian bytes).toUInt32).length ≤ 31 ∧
      floats.strtof (floats.printFloat (Block.ofLittleEndian bytes).toUInt32) =
        (Block.ofLittleEndian bytes).toUInt32) :
    Block.littleEndian bytes.length (floats.strtof
      ((floats.printFloat (Block.ofLittleEndian bytes).toUInt32).take 31)).toNat = bytes := by
  rw [List.take_of_length_le hexact.1, hexact.2, toNat_toUInt32 hlength,
    Block.littleEndian_ofLittleEndian]

theorem read_double (hlength : bytes.length = 8)
    (hexact : (floats.printDouble (Block.ofLittleEndian bytes).toUInt64).length ≤ 31 ∧
      floats.strtod (floats.printDouble (Block.ofLittleEndian bytes).toUInt64) =
        (Block.ofLittleEndian bytes).toUInt64) :
    Block.littleEndian bytes.length (floats.strtod
      ((floats.printDouble (Block.ofLittleEndian bytes).toUInt64).take 31)).toNat = bytes := by
  rw [List.take_of_length_le hexact.1, hexact.2, toNat_toUInt64 hlength,
    Block.littleEndian_ofLittleEndian]

/-- A signed byte printed with `%u` is read back by `atoi`. -/
theorem read_motion (hlength : bytes.length = 1) :
    Block.littleEndian bytes.length
      (atoi ((decimal (signedValue bytes % 2 ^ 32).toNat).take 31 ++ [lineFeed]) %
        2 ^ 32).toNat = bytes := by
  obtain ⟨byte, rfl⟩ := List.length_eq_one_iff.mp hlength
  have hbyte := byte.toNat_lt
  have hvalue : signedValue [byte] = (byte.toNat : Int).bmod 256 := by
    simp [signedValue, Block.ofLittleEndian]
  generalize hprinted : (signedValue [byte] % 2 ^ 32).toNat = printed
  have hrange : printed < 2 ^ 32 := by omega
  have hlow : printed % 256 = byte.toNat := by
    rw [← hprinted, hvalue, Int.bmod_def]
    split <;> omega
  have hdigits : (decimal printed).length ≤ 31 := by
    rw [decimal, List.length_map, Nat.length_toDigits_le_iff (by decide) (by decide)]
    omega
  have hread := @strtol_decimal_append printed (by omega) [lineFeed] (by simp [lineFeed, isdigit])
  have hsame : ((atoi (decimal printed ++ [lineFeed])) % 2 ^ 32).toNat = printed := by
    rw [atoi, hread, Int.bmod_def]
    split <;> omega
  rw [List.take_of_length_le hdigits, hsame, List.length_singleton, Block.littleEndian_succ, hlow]
  simp [Block.littleEndian]

/-- A cell printed from a member gives the bytes of the member back. -/
theorem read_formatMember {field : FsFieldId} (hcolumn : field ∈ savedColumns)
    (hknown : replayField field = field) (hexact : PrintsExactly floats field bytes)
    (hwidth : bytes.length = memberWidth field) :
    ∃ value, cellValue floats field (formatMember floats field bytes ++
        if field = .devicemotion then [lineFeed] else []) = some value ∧
      value bytes.length = bytes := by
  cases field
  case devicemotion => exact ⟨_, rfl, read_motion hwidth⟩
  all_goals first
    | exact absurd hcolumn (by decide)
    | exact absurd hknown (by decide)
    | exact ⟨_, by simp only [reduceCtorEq, ↓reduceIte, List.append_nil]; rfl,
        read_float hwidth hexact⟩
    | exact ⟨_, by simp only [reduceCtorEq, ↓reduceIte, List.append_nil]; rfl,
        read_double hwidth hexact⟩

/-- An empty cell gives zero bytes. -/
theorem read_empty (hfloats : floats.Documented) {field : FsFieldId}
    (hcolumn : field ∈ savedColumns) :
    ∃ value, cellValue floats field (if field = .devicemotion then [lineFeed] else []) =
        some value ∧ ∀ width, value width = List.replicate width 0 := by
  have hzero : ∀ width, Block.littleEndian width 0 = List.replicate width 0 := by
    intro width
    simp [Block.littleEndian]
  have hatoi : (atoi [lineFeed] % 2 ^ 32).toNat = 0 := by decide
  cases field
  case devicemotion =>
    exact ⟨_, rfl, fun width => by
      simp only [↓reduceIte]
      rw [hatoi]
      exact hzero width⟩
  all_goals first
    | exact absurd hcolumn (by decide)
    | exact ⟨_, rfl, fun width => by
        simp only [reduceCtorEq, ↓reduceIte, hfloats.strtof_nil]; exact hzero width⟩
    | exact ⟨_, rfl, fun width => by
        simp only [reduceCtorEq, ↓reduceIte, hfloats.strtod_nil]; exact hzero width⟩

end Members

end Trifecta
