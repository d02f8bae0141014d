/-
The columns of a saved row beside the packet: what stands under each name of the
header line, and when this is the value of the packet's own structure.
-/
import Trifecta.SavedRows
import Trifecta.Library.FixedText
import Trifecta.Packets

namespace Trifecta

open CText FixedText JoinedCells

/-- `%f` of an integer of 16 bits is exact. -/
def FloatText.PrintsIntegers (floats : FloatText) : Prop :=
  ∀ value : Int, -2 ^ 15 ≤ value → value < 2 ^ 15 → floats.printInt16 value = wholeText value

/-- The conversions of the C library, for a saver that reads no numbers back. -/
def printedFloats : FloatText where
  strtof _ := 0
  strtod _ := 0
  printFloat bits := fixedText 8 23 bits.toNat
  printDouble bits := fixedText 11 52 bits.toNat
  printInt16 := wholeText

theorem plain_of_printed {byte : UInt8} (hbyte : Printed byte) :
    byte ≠ 0 ∧ byte ≠ comma ∧ byte ≠ lineFeed := by
  rcases hbyte with hdigit | hsign
  · refine ⟨?_, ?_, ?_⟩ <;>
    · rintro rfl
      exact absurd hdigit (by decide)
  · simp only [List.mem_cons, List.not_mem_nil, or_false] at hsign
    rcases hsign with rfl | rfl | rfl | rfl | rfl | rfl <;> decide

theorem documented_printedFloats : printedFloats.Documented where
  plain_float _ _ hbyte := plain_of_printed (printed_of_mem_fixedText hbyte)
  plain_double _ _ hbyte := plain_of_printed (printed_of_mem_fixedText hbyte)
  plain_int16 _ _ hbyte := plain_of_printed (printed_of_mem_wholeText hbyte)
  strtof_nil := rfl
  strtod_nil := rfl

theorem printsIntegers_printedFloats : printedFloats.PrintsIntegers :=
  fun _ _ _ => rfl

/-- What the conversion of a member prints, before it is cut to a scratch field. -/
def printedText (floats : FloatText) (field : FsFieldId) (bytes : List UInt8) : List UInt8 :=
  match field with
  | .temp0 | .temp1 | .temp2 => floats.printInt16 (signedValue bytes)
  | .devicemotion => decimal (signedValue bytes % 2 ^ 32).toNat
  | .rx | .ry | .rz => floats.printDouble (Block.ofLittleEndian bytes).toUInt64
  | _ => floats.printFloat (Block.ofLittleEndian bytes).toUInt32

/-- The value of a member as text: the motion status is a signed byte. -/
def fieldValue (floats : FloatText) (field : FsFieldId) (bytes : List UInt8) : List UInt8 :=
  if field = .devicemotion then signedDecimal (signedValue bytes)
  else printedText floats field bytes

def temperatureColumns : List FsFieldId :=
  [.temp0, .temp1, .temp2]

/-- The time of a packet, as its own structure has it. -/
def packetTime (packet : FsPacketUnion) : Nat :=
  match (packetLayout packet.type.toNat).get .time packet with
  | some bytes => Block.ofLittleEndian bytes
  | none => 0

/-- The names of the header line behind type and time, with the members that they
stand for. -/
def namedColumns : List (String × FsFieldId) :=
  [("Ax0", .ax0), ("Ay0", .ay0), ("Az0", .az0), ("Gx0", .gx0), ("Gy0", .gy0), ("Gz0", .gz0),
    ("Ax1", .ax1), ("Ay1", .ay1), ("Az1", .az1), ("Gx1", .gx1), ("Gy1", .gy1), ("Gz1", .gz1),
    ("Ax2", .ax2), ("Ay2", .ay2), ("Az2", .az2), ("Gx2", .gx2), ("Gy2", .gy2), ("Gz2", .gz2),
    ("Q0", .q0), ("Q1", .q1), ("Q2", .q2), ("Q3", .q3),
    ("MagX", .magx), ("MagY", .magy), ("MagZ", .magz),
    ("OmegaX0", .omegax0), ("OmegaY0", .omegy0), ("OmegaZ0", .omegaz0),
    ("AccX", .accx), ("AccY", .accy), ("AccZ", .accz),
    ("Vx", .vx), ("Vy", .vy), ("Vz", .vz), ("Rx", .rx), ("Ry", .ry), ("Rz", .rz),
    ("Temp_0", .temp0), ("Temp_1", .temp1), ("Temp_2", .temp2),
    ("DeviceMotionStatus", .devicemotion)]

/-- The values of a line: the text between its commas, up to the line feed. -/
def csvValues (line : List UInt8) : List (List UInt8) :=
  (line.takeWhile (· ≠ lineFeed)).splitOn comma

/-- The value that a row has under a name of the header line. -/
def valueUnder (name : String) (row : List UInt8) : Option (List UInt8) :=
  (csvValues row)[(csvValues headerLine).idxOf (asciiText name)]?

/-- A row has one value for each column of the header line: the type and the full
time of the packet, the members of the packet's own structure, and nothing under
the names that this structure does not have. -/
structure FaithfulRow (floats : FloatText) (packet : FsPacketUnion) (row : List UInt8) : Prop where
  columns : (csvValues row).length = (csvValues headerLine).length
  type : valueUnder "PacketType" row = some (decimal packet.type.toNat)
  time : valueUnder "Time" row = some (decimal (packetTime packet))
  carried : ∀ column ∈ namedColumns,
    ∀ bytes ∈ (packetLayout packet.type.toNat).get column.2 packet,
      valueUnder column.1 row = some (fieldValue floats column.2 bytes)
  absent : ∀ column ∈ namedColumns,
    (packetLayout packet.type.toNat).get column.2 packet = none →
      valueUnder column.1 row = some []

/-- The number of bytes of a column: what is printed for it takes up at most its
scratch field. -/
def columnWidth (floats : FloatText) (packet : FsPacketUnion) (field : FsFieldId) : Nat :=
  match savedLayout packet.type.toNat with
  | some layout =>
      match (sourceLayout layout field).get field packet with
      | some bytes => min 31 (printedText floats field bytes).length
      | none => 0
  | none => 0

/-- The number of bytes of the row with its line feed, were there no limit. -/
def rowWidth (floats : FloatText) (packet : FsPacketUnion) : Nat :=
  (decimal packet.type.toNat).length + (decimal (compositeTime packet)).length +
    (savedColumns.map (columnWidth floats packet)).sum + 43

/-- The packet has a 32-bit time, each member that is printed fits its scratch
field, the motion status is not negative, the temperatures of the packet are the
bytes where the standard composite structure has them, and the row fits the line
buffer. -/
structure ShownInFull (floats : FloatText) (packet : FsPacketUnion) : Prop where
  type : packet.type.toNat ≤ 11
  printed : ∀ field ∈ savedColumns,
    ∀ bytes ∈ (packetLayout packet.type.toNat).get field packet,
      (printedText floats field bytes).length ≤ 31
  motion : ∀ bytes ∈ (packetLayout packet.type.toNat).get .devicemotion packet,
    0 ≤ signedValue bytes
  temperatures : ∀ field ∈ temperatureColumns,
    (compositeLayout 4).get field packet = (packetLayout packet.type.toNat).get field packet
  width : rowWidth floats packet ≤ saverLinebufSize

section Widths

variable {floats : FloatText} {packet : FsPacketUnion}

theorem formatMember_eq_take (floats : FloatText) (field : FsFieldId) (bytes : List UInt8) :
    formatMember floats field bytes = (printedText floats field bytes).take 31 := by
  cases field <;> rfl

theorem length_formatColumn (field : FsFieldId) :
    (formatColumn floats packet field).length = columnWidth floats packet field := by
  rw [formatColumn, columnWidth]
  cases savedLayout packet.type.toNat with
  | none => rfl
  | some layout =>
      dsimp only
      rw [formatField]
      cases (sourceLayout layout field).get field packet with
      | none => rfl
      | some bytes =>
          dsimp only
          rw [formatMember_eq_take, List.length_take]

theorem rowWidth_eq :
    rowWidth floats packet = (joined comma (rowCells floats packet)).length + 1 := by
  have hwidths : (rowCells floats packet).map List.length =
      (decimal packet.type.toNat).length :: (decimal (compositeTime packet)).length ::
        savedColumns.map (columnWidth floats packet) := by
    rw [rowCells, List.map_cons, List.map_cons, List.map_map]
    exact congrArg (_ :: _ :: ·) (List.map_congr_left fun field _ => length_formatColumn field)
  have hcount : (rowCells floats packet).length = 43 := rfl
  have hne : rowCells floats packet ≠ [] := List.cons_ne_nil _ _
  rw [length_joined_add_one hne, hwidths, hcount, List.sum_cons, List.sum_cons, rowWidth]
  omega

end Widths

section Values

variable {floats : FloatText} {packet : FsPacketUnion}

/-- The values of a row are those of its cells as far as the line buffer has room. -/
theorem csvValues_formatPacket (hfloats : floats.Documented) :
    csvValues (formatPacket floats packet) =
      ((joined comma (rowCells floats packet)).take (saverLinebufSize - 1)).splitOn comma := by
  rw [csvValues, formatPacket, takeWhile_take_append (not_mem_joined_rowCells hfloats).2]

/-- The value of a packet under a column name. -/
def ownColumn (floats : FloatText) (packet : FsPacketUnion) (field : FsFieldId) : List UInt8 :=
  match (packetLayout packet.type.toNat).get field packet with
  | some bytes => fieldValue floats field bytes
  | none => []

/-- The values of a faithful row. -/
def ownCells (floats : FloatText) (packet : FsPacketUnion) : List (List UInt8) :=
  decimal packet.type.toNat :: decimal (packetTime packet) ::
    savedColumns.map (ownColumn floats packet)

theorem csvValues_headerLine :
    csvValues headerLine = asciiText "PacketType" :: asciiText "Time" ::
      namedColumns.map fun column => asciiText column.1 := by
  decide +kernel

theorem savedColumns_eq : savedColumns = namedColumns.map Prod.snd :=
  rfl

/-- Where the names stand in the header line. -/
theorem valueUnder_named (row : List UInt8) (index : Fin namedColumns.length) :
    valueUnder (namedColumns.get index).1 row = (csvValues row)[index.val + 2]? := by
  have hplace : (csvValues headerLine).idxOf (asciiText (namedColumns.get index).1) =
      index.val + 2 := by
    rw [csvValues_headerLine]
    revert index
    decide +kernel
  rw [valueUnder, hplace]

theorem valueUnder_type_time (row : List UInt8) :
    valueUnder "PacketType" row = (csvValues row)[0]? ∧
      valueUnder "Time" row = (csvValues row)[1]? := by
  have hplaces : (csvValues headerLine).idxOf (asciiText "PacketType") = 0 ∧
      (csvValues headerLine).idxOf (asciiText "Time") = 1 := by
    rw [csvValues_headerLine]
    decide +kernel
  rw [valueUnder, valueUnder, hplaces.1, hplaces.2]
  exact ⟨rfl, rfl⟩

theorem getElem?_ownCells (index : Fin namedColumns.length) :
    (ownCells floats packet)[index.val + 2]? =
      some (ownColumn floats packet (namedColumns.get index).2) := by
  rw [ownCells, List.getElem?_cons_succ, List.getElem?_cons_succ, savedColumns_eq, List.map_map,
    List.getElem?_map, List.getElem?_eq_getElem index.isLt]
  rfl

/-- The values under the names are the values in their order. -/
theorem faithfulRow_iff_values {row : List UInt8} :
    FaithfulRow floats packet row ↔ csvValues row = ownCells floats packet := by
  have hcount : (csvValues headerLine).length = 43 := by
    rw [csvValues_headerLine]
    rfl
  obtain ⟨htype, htime⟩ := valueUnder_type_time row
  constructor
  · intro hfaithful
    have hlength : (csvValues row).length = 43 := hfaithful.columns.trans hcount
    apply List.ext_getElem?
    intro place
    match place with
    | 0 => exact htype.symm.trans hfaithful.type
    | 1 => exact htime.symm.trans hfaithful.time
    | index + 2 =>
        by_cases hindex : index < namedColumns.length
        · rw [getElem?_ownCells ⟨index, hindex⟩, ← valueUnder_named row ⟨index, hindex⟩]
          have hcolumn := List.get_mem namedColumns ⟨index, hindex⟩
          cases hbytes : (packetLayout packet.type.toNat).get
              (namedColumns.get ⟨index, hindex⟩).2 packet with
          | none => rw [hfaithful.absent _ hcolumn hbytes, ownColumn, hbytes]
          | some bytes => rw [hfaithful.carried _ hcolumn bytes hbytes, ownColumn, hbytes]
        · have hown : (ownCells floats packet).length = 43 := rfl
          have hnames : namedColumns.length = 41 := rfl
          rw [List.getElem?_eq_none (by omega), List.getElem?_eq_none (by omega)]
  · intro hvalues
    have hnamed : ∀ column ∈ namedColumns,
        valueUnder column.1 row = some (ownColumn floats packet column.2) := by
      intro column hcolumn
      obtain ⟨index, rfl⟩ := List.mem_iff_get.mp hcolumn
      rw [valueUnder_named row index, hvalues, getElem?_ownCells index]
    refine ⟨?_, ?_, ?_, fun column hcolumn bytes hbytes => ?_, fun column hcolumn hnone => ?_⟩
    · rw [hvalues, hcount]
      rfl
    · rw [htype, hvalues]
      rfl
    · rw [htime, hvalues]
      rfl
    · rw [hnamed column hcolumn, ownColumn, hbytes]
    · rw [hnamed column hcolumn, ownColumn, hnone]

end Values

section Members

/-- The structures that hold the packets with a time of `timeSize` bytes. -/
def packetLayouts (timeSize : Nat) : List (Layout FsFieldId) :=
  [compositeLayout timeSize, regularLayout timeSize, composite2Layout timeSize]

theorem packetLayout_mem {packetType : Nat} (haccepted : obtainPacketLength packetType ≠ 0) :
    packetLayout packetType ∈ packetLayouts 4 ∧ packetType ≤ 11 ∨
      packetLayout packetType ∈ packetLayouts 8 ∧ 100 ≤ packetType := by
  by_cases hshort : packetType ≤ 11
  · left
    refine ⟨?_, hshort⟩
    rw [packetLayout]
    split_ifs <;> simp [packetLayouts]
  · right
    rw [obtainPacketLength] at haccepted
    have hlong : 100 ≤ packetType := by
      split_ifs at haccepted <;> omega
    refine ⟨?_, hlong⟩
    rw [packetLayout, if_neg (by omega), if_neg (by omega), if_neg hshort]
    split_ifs <;> simp [packetLayouts]

/-- Time, temperatures and motion status are members of every structure. -/
theorem packetLayouts_facts {timeSize : Nat} (htime : timeSize = 4 ∨ timeSize = 8)
    {layout : Layout FsFieldId} (hlayout : layout ∈ packetLayouts timeSize) :
    layout.totalSize ≤ 185 ∧ layout.member .time = some (1, timeSize) ∧
      (layout.member .devicemotion).map Prod.snd = some 1 ∧
      ∀ field ∈ temperatureColumns,
        (layout.member field).map Prod.snd = some 2 := by
  rcases htime with rfl | rfl <;> revert layout <;> decide

theorem savedLayout_eq_packetLayout {packetType : Nat} (hshort : packetType ≤ 11) :
    savedLayout packetType = some (packetLayout packetType) := by
  rw [savedLayout, packetLayout]
  split_ifs <;> first | rfl | omega

/-- The bytes of a member of known size. -/
theorem exists_get_of_size {layout : Layout FsFieldId} (hsize : layout.totalSize ≤ 185)
    {field : FsFieldId} {width : Nat} (hwidth : (layout.member field).map Prod.snd = some width)
    (packet : FsPacketUnion) :
    ∃ bytes, layout.get field packet = some bytes ∧ bytes.length = width := by
  obtain ⟨place, hplace, rfl⟩ := Option.map_eq_some_iff.mp hwidth
  have hrange := Layout.member_range hplace
  exact ⟨packet.read place.1 place.2, by rw [Layout.get, hplace, Option.map_some],
    Block.length_read packet (by omega)⟩

theorem signedValue_range {bytes : List UInt8} (hlength : bytes.length = 2) :
    -2 ^ 15 ≤ signedValue bytes ∧ signedValue bytes < 2 ^ 15 := by
  rw [signedValue, hlength]
  exact ⟨Int.le_bmod (by decide), Int.bmod_lt (by decide)⟩

/-- Members of one size with the same value have the same bytes. -/
theorem signedValue_injective {bytes other : List UInt8} (hlength : bytes.length = other.length)
    (hsame : signedValue bytes = signedValue other) : bytes = other := by
  have hbytes := Block.ofLittleEndian_lt bytes
  have hother := Block.ofLittleEndian_lt other
  rw [signedValue, signedValue, hlength] at hsame
  rw [hlength] at hbytes
  have hvalue : Block.ofLittleEndian bytes = Block.ofLittleEndian other := by
    have hmod := congrArg (· % ((256 ^ other.length : Nat) : Int)) hsame
    rw [Int.bmod_emod, Int.bmod_emod, ← Int.natCast_emod, ← Int.natCast_emod,
      Nat.mod_eq_of_lt hbytes, Nat.mod_eq_of_lt hother] at hmod
    exact Int.ofNat_inj.mp hmod
  rw [← Block.littleEndian_ofLittleEndian bytes, ← Block.littleEndian_ofLittleEndian other,
    hlength, hvalue]

end Members

section Columns

variable {floats : FloatText} {packet : FsPacketUnion}

theorem temperatureColumns_facts {field : FsFieldId} (hfield : field ∈ temperatureColumns) :
    field ∈ savedColumns ∧ field ≠ .devicemotion ∧
      (∀ layout, sourceLayout layout field = compositeLayout 4) ∧
      ∀ floats bytes,
        printedText floats field bytes = FloatText.printInt16 floats (signedValue bytes) := by
  simp only [temperatureColumns, List.mem_cons, List.not_mem_nil, or_false] at hfield
  rcases hfield with rfl | rfl | rfl <;>
    exact ⟨by decide, by decide, fun _ => rfl, fun _ _ => rfl⟩

theorem length_decimal32_le (value : Int) : (decimal (value % 2 ^ 32).toNat).length ≤ 31 := by
  have hlength := @length_decimal_le (value % 2 ^ 32).toNat 10 (by decide) (by omega)
  omega

theorem length_temperature_le (hintegers : floats.PrintsIntegers) {bytes : List UInt8}
    (hlength : bytes.length = 2) : (floats.printInt16 (signedValue bytes)).length ≤ 13 := by
  obtain ⟨hlow, hhigh⟩ := signedValue_range hlength
  rw [hintegers _ hlow hhigh]
  exact length_wholeText_le (by decide) (by omega)

/-- A column that is neither a temperature nor the motion status shows its member
when all of its text fits the scratch field. -/
theorem formatColumn_number_iff (hshort : packet.type.toNat ≤ 11) {field : FsFieldId}
    (htemperature : field ∉ temperatureColumns)
    (hmotion : field ≠ .devicemotion) :
    formatColumn floats packet field = ownColumn floats packet field ↔
      ∀ bytes ∈ (packetLayout packet.type.toNat).get field packet,
        (printedText floats field bytes).length ≤ 31 := by
  have hsource : sourceLayout (packetLayout packet.type.toNat) field =
      packetLayout packet.type.toNat := by
    cases field <;> first | rfl | exact absurd htemperature (by decide)
  simp only [formatColumn, savedLayout_eq_packetLayout hshort, formatField, hsource, ownColumn]
  cases (packetLayout packet.type.toNat).get field packet with
  | none => simp
  | some bytes => simp [formatMember_eq_take, fieldValue, hmotion]

/-- A temperature column shows the packet's own temperature when the standard
composite structure has the same bytes in its place. -/
theorem formatColumn_temperature_iff (hintegers : floats.PrintsIntegers)
    (hshort : packet.type.toNat ≤ 11)
    (hlayout : packetLayout packet.type.toNat ∈ packetLayouts 4) {field : FsFieldId}
    (htemperature : field ∈ temperatureColumns) :
    formatColumn floats packet field = ownColumn floats packet field ↔
      (compositeLayout 4).get field packet =
        (packetLayout packet.type.toNat).get field packet := by
  obtain ⟨hsize, _, _, htemperatures⟩ := packetLayouts_facts (Or.inl rfl) hlayout
  obtain ⟨own, hown, hownLength⟩ :=
    exists_get_of_size hsize (htemperatures field htemperature) packet
  obtain ⟨hcompositeSize, _, _, hcomposites⟩ :=
    packetLayouts_facts (Or.inl rfl) (show compositeLayout 4 ∈ packetLayouts 4 from
      List.mem_cons_self)
  obtain ⟨read, hread, hreadLength⟩ :=
    exists_get_of_size hcompositeSize (hcomposites field htemperature) packet
  obtain ⟨_, hmotion, hsource, htext⟩ := temperatureColumns_facts htemperature
  simp only [formatColumn, savedLayout_eq_packetLayout hshort, formatField, hsource, hread,
    ownColumn, hown, formatMember_eq_take, fieldValue, if_neg hmotion, htext, Option.some.injEq]
  have hlength := length_temperature_le hintegers hreadLength
  rw [List.take_of_length_le (Nat.le_trans hlength (by decide))]
  constructor
  · intro hsame
    obtain ⟨hreadLow, hreadHigh⟩ := signedValue_range hreadLength
    obtain ⟨hownLow, hownHigh⟩ := signedValue_range hownLength
    rw [hintegers _ hreadLow hreadHigh, hintegers _ hownLow hownHigh] at hsame
    exact signedValue_injective (hreadLength.trans hownLength.symm) (wholeText_injective hsame)
  · rintro rfl
    rfl

/-- The text of a signed byte printed with `%u` shows its value when it is not
negative, also when the text is cut. -/
theorem take_motion_eq {byte : UInt8} {kept : Nat}
    (hsame : (decimal (signedValue [byte] % 2 ^ 32).toNat).take kept =
      signedDecimal (signedValue [byte])) : 0 ≤ signedValue [byte] := by
  by_contra hnegative
  rw [signedDecimal_of_neg (by omega)] at hsame
  exact minusSign_not_mem_decimal _ (List.mem_of_mem_take (hsame ▸ List.mem_cons_self))

theorem signedValue_byte_lt (byte : UInt8) : signedValue [byte] < 2 ^ 7 := by
  have hbelow := @Int.bmod_lt (Block.ofLittleEndian [byte] : Int) 256 (by decide)
  exact hbelow

theorem decimal_motion {byte : UInt8} (hvalue : 0 ≤ signedValue [byte]) :
    decimal (signedValue [byte] % 2 ^ 32).toNat = signedDecimal (signedValue [byte]) := by
  have hbyte := signedValue_byte_lt byte
  rw [signedDecimal_of_nonneg hvalue]
  congr 1
  omega

/-- The motion status of an accepted packet and its column. -/
theorem motion_columns (haccepted : obtainPacketLength packet.type.toNat ≠ 0) :
    ∃ byte, (packetLayout packet.type.toNat).get .devicemotion packet = some [byte] ∧
      ownColumn floats packet .devicemotion = signedDecimal (signedValue [byte]) ∧
      formatColumn floats packet .devicemotion =
        if packet.type.toNat ≤ 11 then decimal (signedValue [byte] % 2 ^ 32).toNat else [] := by
  have hfacts : (packetLayout packet.type.toNat).totalSize ≤ 185 ∧
      ((packetLayout packet.type.toNat).member .devicemotion).map Prod.snd = some 1 := by
    rcases packetLayout_mem haccepted with ⟨hlayout, _⟩ | ⟨hlayout, _⟩
    · obtain ⟨hsize, _, hmotion, _⟩ := packetLayouts_facts (Or.inl rfl) hlayout
      exact ⟨hsize, hmotion⟩
    · obtain ⟨hsize, _, hmotion, _⟩ := packetLayouts_facts (Or.inr rfl) hlayout
      exact ⟨hsize, hmotion⟩
  obtain ⟨bytes, hbytes, hlength⟩ := exists_get_of_size hfacts.1 hfacts.2 packet
  obtain ⟨byte, rfl⟩ := List.length_eq_one_iff.mp hlength
  refine ⟨byte, hbytes, by simp [ownColumn, hbytes, fieldValue], ?_⟩
  split
  · next hshort =>
      simp only [formatColumn, savedLayout_eq_packetLayout hshort, formatField, sourceLayout,
        hbytes, formatMember_eq_take]
      exact List.take_of_length_le (length_decimal32_le _)
  · next hlong =>
      rcases packetLayout_mem haccepted with ⟨_, hshort⟩ | ⟨_, hlow⟩
      · exact absurd hshort hlong
      · have hnone : savedLayout packet.type.toNat = none := by
          rw [savedLayout, if_neg (by omega), if_neg (by omega), if_neg (by omega)]
        simp only [formatColumn, hnone]

/-- What the columns of a packet with a 32-bit time need to show its values. -/
theorem formatColumns_eq_iff (hintegers : floats.PrintsIntegers)
    (hshort : packet.type.toNat ≤ 11)
    (hlayout : packetLayout packet.type.toNat ∈ packetLayouts 4) {byte : UInt8}
    (hbyte : (packetLayout packet.type.toNat).get .devicemotion packet = some [byte])
    (hown : ownColumn floats packet .devicemotion = signedDecimal (signedValue [byte]))
    (hcolumn : formatColumn floats packet .devicemotion =
      decimal (signedValue [byte] % 2 ^ 32).toNat) :
    (∀ field ∈ savedColumns, formatColumn floats packet field = ownColumn floats packet field) ↔
      (∀ field ∈ savedColumns, ∀ bytes ∈ (packetLayout packet.type.toNat).get field packet,
        (printedText floats field bytes).length ≤ 31) ∧
      (∀ bytes ∈ (packetLayout packet.type.toNat).get .devicemotion packet,
        0 ≤ signedValue bytes) ∧
      ∀ field ∈ temperatureColumns, (compositeLayout 4).get field packet =
        (packetLayout packet.type.toNat).get field packet := by
  obtain ⟨hsize, _, _, htemperatures⟩ := packetLayouts_facts (Or.inl rfl) hlayout
  constructor
  · intro hcolumns
    refine ⟨fun field hfield bytes hbytes => ?_, fun bytes hbytes => ?_,
      fun field hfield => ?_⟩
    · by_cases htemperature : field ∈ temperatureColumns
      · obtain ⟨own, hget, hlength⟩ :=
          exists_get_of_size hsize (htemperatures field htemperature) packet
        obtain rfl := Option.some.inj (hget.symm.trans hbytes)
        rw [(temperatureColumns_facts htemperature).2.2.2]
        exact Nat.le_trans (length_temperature_le hintegers hlength) (by decide)
      · by_cases hmotion : field = .devicemotion
        · subst hmotion
          exact length_decimal32_le _
        · exact (formatColumn_number_iff hshort htemperature hmotion).mp
            (hcolumns field hfield) bytes hbytes
    · obtain rfl := Option.some.inj (hbyte.symm.trans hbytes)
      have hsame := hcolumns .devicemotion (by decide)
      rw [hcolumn, hown] at hsame
      exact take_motion_eq (by rw [List.take_of_length_le (Nat.le_refl _), hsame])
    · exact (formatColumn_temperature_iff hintegers hshort hlayout hfield).mp
        (hcolumns field (temperatureColumns_facts hfield).1)
  · rintro ⟨hprinted, hmotions, hsources⟩ field hfield
    by_cases htemperature : field ∈ temperatureColumns
    · exact (formatColumn_temperature_iff hintegers hshort hlayout htemperature).mpr
        (hsources field htemperature)
    · by_cases hmotion : field = .devicemotion
      · subst hmotion
        rw [hcolumn, hown, decimal_motion (hmotions [byte] hbyte)]
      · exact (formatColumn_number_iff hshort htemperature hmotion).mpr
          (hprinted field hfield)

/-- The cells of a packet are its own values, whatever room the row has. -/
theorem rowCells_eq_ownCells_iff (hintegers : floats.PrintsIntegers)
    (haccepted : obtainPacketLength packet.type.toNat ≠ 0) :
    rowCells floats packet = ownCells floats packet ↔
      packet.type.toNat ≤ 11 ∧
      (∀ field ∈ savedColumns, ∀ bytes ∈ (packetLayout packet.type.toNat).get field packet,
        (printedText floats field bytes).length ≤ 31) ∧
      (∀ bytes ∈ (packetLayout packet.type.toNat).get .devicemotion packet,
        0 ≤ signedValue bytes) ∧
      ∀ field ∈ temperatureColumns, (compositeLayout 4).get field packet =
        (packetLayout packet.type.toNat).get field packet := by
  obtain ⟨byte, hbyte, hown, hcolumn⟩ := @motion_columns floats packet haccepted
  have hcells : rowCells floats packet = ownCells floats packet ↔
      compositeTime packet = packetTime packet ∧
        ∀ field ∈ savedColumns, formatColumn floats packet field =
          ownColumn floats packet field := by
    rw [rowCells, ownCells, List.cons.injEq, List.cons.injEq, List.map_inj_left]
    exact (and_iff_right rfl).trans
      (and_congr_left fun _ => ⟨decimal_injective, fun hsame => by rw [hsame]⟩)
  rw [hcells]
  rcases packetLayout_mem haccepted with ⟨hlayout, hshort⟩ | ⟨_, hlong⟩
  · have htimes : compositeTime packet = packetTime packet := by
      rw [packetTime, Layout.get, (packetLayouts_facts (Or.inl rfl) hlayout).2.1]
      rfl
    rw [if_pos hshort] at hcolumn
    rw [and_iff_right htimes, and_iff_right hshort]
    exact formatColumns_eq_iff hintegers hshort hlayout hbyte hown hcolumn
  · have hnot : ¬ packet.type.toNat ≤ 11 := by omega
    rw [if_neg hnot] at hcolumn
    refine iff_of_false (fun hsame => ?_) fun hshown => hnot hshown.1
    have hempty := hsame.2 .devicemotion (by decide)
    rw [hcolumn, hown] at hempty
    exact signedDecimal_ne_nil _ hempty.symm

theorem ownCells_eq_append :
    ownCells floats packet = (decimal packet.type.toNat :: decimal (packetTime packet) ::
      savedColumns.dropLast.map (ownColumn floats packet)) ++
        [ownColumn floats packet .devicemotion] :=
  rfl

theorem rowCells_eq_append :
    rowCells floats packet = (decimal packet.type.toNat :: decimal (compositeTime packet) ::
      savedColumns.dropLast.map (formatColumn floats packet)) ++
        [formatColumn floats packet .devicemotion] :=
  rfl

theorem comma_not_mem_rowCells (hfloats : floats.Documented) :
    ∀ cell ∈ rowCells floats packet, comma ∉ cell :=
  fun _ hcell hcomma => (plain_rowCells hfloats hcell hcomma).2.1 rfl

/-- A motion column that is cut is not the motion status any more. -/
theorem formatColumn_motion_of_take (haccepted : obtainPacketLength packet.type.toNat ≠ 0)
    {kept : Nat} (hsame : (formatColumn floats packet .devicemotion).take kept =
      ownColumn floats packet .devicemotion) :
    formatColumn floats packet .devicemotion = ownColumn floats packet .devicemotion := by
  obtain ⟨byte, _, hown, hcolumn⟩ := @motion_columns floats packet haccepted
  rw [hcolumn, hown] at hsame ⊢
  split at hsame
  · next hshort =>
      rw [if_pos hshort]
      exact decimal_motion (take_motion_eq hsame)
  · exact absurd (hsame.symm.trans List.take_nil) (signedDecimal_ne_nil _)

/-- The values of the written row are the packet's own when its cells are and the
line buffer has room for them. -/
theorem csvValues_eq_ownCells_iff (hfloats : floats.Documented)
    (haccepted : obtainPacketLength packet.type.toNat ≠ 0) :
    csvValues (formatPacket floats packet) = ownCells floats packet ↔
      rowCells floats packet = ownCells floats packet ∧
        rowWidth floats packet ≤ saverLinebufSize := by
  have hcommas := @comma_not_mem_rowCells floats packet hfloats
  have hne : rowCells floats packet ≠ [] := List.cons_ne_nil _ _
  rw [csvValues_formatPacket hfloats, rowWidth_eq]
  constructor
  · intro hvalues
    have hfront := List.forall_mem_append.mp (rowCells_eq_append ▸ hcommas)
    have hlast := List.forall_mem_singleton.mp hfront.2
    have hcount : (((joined comma (rowCells floats packet)).take
        (saverLinebufSize - 1)).splitOn comma).length = 42 + 1 := by
      rw [hvalues]
      rfl
    obtain ⟨kept, hkept⟩ := splitOn_take_joined hfront.1 hlast hcount
    rw [← rowCells_eq_append, hvalues, ownCells_eq_append] at hkept
    obtain ⟨hcells, hmotion⟩ := List.append_inj' hkept rfl
    have hsame : rowCells floats packet = ownCells floats packet := by
      rw [rowCells_eq_append, ownCells_eq_append, ← hcells, formatColumn_motion_of_take haccepted
        (List.singleton_inj.mp hmotion).symm]
    refine ⟨hsame, ?_⟩
    have htext := @List.intercalate_splitOn UInt8
      ((joined comma (rowCells floats packet)).take (saverLinebufSize - 1)) _ _ comma
    rw [hvalues, ← hsame] at htext
    have hroom := (List.take_eq_self_iff _).mp htext.symm
    change _ ≤ 1023 at hroom
    change _ ≤ 1024
    omega
  · rintro ⟨hsame, hroom⟩
    change _ ≤ 1024 at hroom
    rw [List.take_of_length_le (by change _ ≤ 1023; omega), hsame]
    exact List.splitOn_intercalate comma (hsame ▸ hcommas) (List.cons_ne_nil _ _)

/-- A row is faithful exactly when its packet is shown in full. -/
theorem faithfulRow_iff (hfloats : floats.Documented) (hintegers : floats.PrintsIntegers)
    (haccepted : obtainPacketLength packet.type.toNat ≠ 0) :
    FaithfulRow floats packet (formatPacket floats packet) ↔ ShownInFull floats packet := by
  rw [faithfulRow_iff_values, csvValues_eq_ownCells_iff hfloats haccepted,
    rowCells_eq_ownCells_iff hintegers haccepted]
  constructor
  · rintro ⟨⟨hshort, hprinted, hmotion, htemperatures⟩, hwidth⟩
    exact ⟨hshort, hprinted, hmotion, htemperatures, hwidth⟩
  · rintro ⟨hshort, hprinted, hmotion, htemperatures, hwidth⟩
    exact ⟨⟨hshort, hprinted, hmotion, htemperatures⟩, hwidth⟩

end Columns

/-- A packet of type 5 with the quaternion of a device that lies flat, in motion. -/
def movingPacket : FsPacketUnion :=
  (((Block.zero 185).write 0 [5]).write 17 [0, 0, 128, 63]).write 75 [2]

theorem faithfulRow_moving :
    FaithfulRow printedFloats movingPacket (formatPacket printedFloats movingPacket) := by
  refine (faithfulRow_iff documented_printedFloats printsIntegers_printedFloats
    (by decide +kernel)).mpr ⟨?_, ?_, ?_, ?_, ?_⟩ <;> decide +kernel

/-- A packet of type 108 whose time has more than 32 bits. -/
def longTimePacket : FsPacketUnion :=
  (Block.zero 185).write 0 [108, 5, 0, 0, 0, 1]

/-- The row of a packet with a 64-bit time shows the low half of it. -/
theorem not_faithfulRow_longTime :
    ¬ ∀ packet : FsPacketUnion, obtainPacketLength packet.type.toNat ≠ 0 →
      FaithfulRow printedFloats packet (formatPacket printedFloats packet) := by
  intro hall
  have hfaithful := hall longTimePacket (by decide +kernel)
  have hshown : valueUnder "Time" (formatPacket printedFloats longTimePacket) =
      some (decimal 5) := by decide +kernel
  have htime : packetTime longTimePacket = 2 ^ 32 + 5 := by decide +kernel
  have hsame := hfaithful.time
  rw [hshown, htime] at hsame
  exact absurd (decimal_injective (Option.some.inj hsame)) (by decide)

end Trifecta
