/-
Reading a saved packet back from a line of a CSV file: the names of the header
line, the byte layouts of the packet types, and the conversion of one row.
-/
import Trifecta.Defs
import Trifecta.Library.Layout

namespace Trifecta

open CText

abbrev fsReplayMaxColumns : Nat := 64
abbrev replayLineSize : Nat := 512

abbrev comma : UInt8 := 44

/-- The bytes of an ASCII text. -/
def asciiText (text : String) : List UInt8 :=
  text.toList.map fun c => c.toNat.toUInt8

/-- `fs_field_id_t`. -/
inductive FsFieldId
  | none
  | type | time
  | ax0 | ay0 | az0 | gx0 | gy0 | gz0
  | ax1 | ay1 | az1 | gx1 | gy1 | gz1
  | ax2 | ay2 | az2 | gx2 | gy2 | gz2
  | q0 | q1 | q2 | q3
  | omegax0 | omegy0 | omegaz0 | omegax1 | omegy1 | omegaz1
  | accx | accy | accz
  | vx | vy | vz
  | rx | ry | rz
  | reserved01 | reserved02 | reserved03
  | magx | magy | magz
  | temp0 | temp1 | temp2
  | diag | baro
  | devicemotion
deriving DecidableEq, Repr

/-- `header_map`. -/
def headerMap : List (String × FsFieldId) :=
  [("type", .type), ("packettype", .type), ("time", .time),
    ("ax0", .ax0), ("ay0", .ay0), ("az0", .az0), ("gx0", .gx0), ("gy0", .gy0), ("gz0", .gz0),
    ("ax1", .ax1), ("ay1", .ay1), ("az1", .az1), ("gx1", .gx1), ("gy1", .gy1), ("gz1", .gz1),
    ("ax2", .ax2), ("ay2", .ay2), ("az2", .az2), ("gx2", .gx2), ("gy2", .gy2), ("gz2", .gz2),
    ("q0", .q0), ("q1", .q1), ("q2", .q2), ("q3", .q3),
    ("omegax0", .omegax0), ("omegay0", .omegy0), ("omegaz0", .omegaz0),
    ("omegax1", .omegax1), ("omegay1", .omegy1), ("omegaz1", .omegaz1),
    ("accx", .accx), ("accy", .accy), ("accz", .accz),
    ("vx", .vx), ("vy", .vy), ("vz", .vz), ("rx", .rx), ("ry", .ry), ("rz", .rz),
    ("reserved0_1", .reserved01), ("reserved0_2", .reserved02), ("reserved0_3", .reserved03),
    ("magx", .magx), ("magy", .magy), ("magz", .magz),
    ("mag_x", .magx), ("mag_y", .magy), ("mag_z", .magz),
    ("temp0", .temp0), ("temp1", .temp1), ("temp2", .temp2),
    ("diagnosticflag", .diag), ("barometricpressure", .baro), ("baro", .baro),
    ("devicemotionstatus", .devicemotion), ("label", .devicemotion)]

/-- `fs_normalize_token` into an array of `outSize` characters: white space
around the token goes, and letters become lower case. -/
def fsNormalizeToken (token : List UInt8) (outSize : Nat) : List UInt8 :=
  let started := (token.dropWhile isspace).takeWhile (· ≠ comma)
  let kept := started.take (outSize - 1)
  ((kept.reverse.dropWhile isspace).reverse).map tolower

/-- The cells of a line: its C string, cut to the size of `tmp`, between the
commas.  What follows the last column that is kept is dropped. -/
def lineCells (line : List UInt8) : List (List UInt8) :=
  (((cString line).take (replayLineSize - 1)).splitOn comma).take fsReplayMaxColumns

/-- The field that a header cell names, the first match of `header_map`. -/
def headerField (cell : List UInt8) : FsFieldId :=
  let norm := fsNormalizeToken (cell.take 63) 64
  match headerMap.find? fun entry => asciiText entry.1 = norm with
  | some entry => entry.2
  | none => .none

/-- `fs_replay_parse_header`: `field_for_column`, with `FIELD_NONE` in the columns
that the header does not have. -/
def fsReplayParseHeader (line : List UInt8) : List FsFieldId :=
  let fields := (lineCells line).map headerField
  fields ++ List.replicate (fsReplayMaxColumns - fields.length) .none

/-- The raw and calibrated readings that all composite layouts start with. -/
def rawReadings : Layout FsFieldId :=
  [(.ax0, 4), (.ay0, 4), (.az0, 4), (.gx0, 4), (.gy0, 4), (.gz0, 4),
    (.ax1, 4), (.ay1, 4), (.az1, 4), (.gx1, 4), (.gy1, 4), (.gz1, 4),
    (.ax2, 4), (.ay2, 4), (.az2, 4), (.gx2, 4), (.gy2, 4), (.gz2, 4)]

def quaternion : Layout FsFieldId := [(.q0, 4), (.q1, 4), (.q2, 4), (.q3, 4)]
def magnetometer : Layout FsFieldId := [(.magx, 4), (.magy, 4), (.magz, 4)]
def angularVelocity : Layout FsFieldId := [(.omegax0, 4), (.omegy0, 4), (.omegaz0, 4)]
def acceleration : Layout FsFieldId := [(.accx, 4), (.accy, 4), (.accz, 4)]
def velocity : Layout FsFieldId := [(.vx, 4), (.vy, 4), (.vz, 4)]
def position : Layout FsFieldId := [(.rx, 8), (.ry, 8), (.rz, 8)]

/-- The members that all layouts end with; `FIELD_NONE` stands for the reserved
bytes. -/
def statusMembers : Layout FsFieldId :=
  [(.temp0, 2), (.temp1, 2), (.temp2, 2), (.devicemotion, 1), (.diag, 1), (.none, 4), (.baro, 4)]

/-- `fs_imu_composite_packet` and `fs_imu_composite_packet_64`, with a time of
`timeSize` bytes. -/
def compositeLayout (timeSize : Nat) : Layout FsFieldId :=
  [(.type, 1), (.time, timeSize)] ++ rawReadings ++ quaternion ++ magnetometer ++
    acceleration ++ angularVelocity ++ statusMembers

/-- `fs_imu_regular_packet` and `fs_imu_regular_packet_64`. -/
def regularLayout (timeSize : Nat) : Layout FsFieldId :=
  [(.type, 1), (.time, timeSize)] ++ angularVelocity ++ quaternion ++ magnetometer ++
    acceleration ++ [(.reserved01, 4), (.reserved02, 4), (.reserved03, 4)] ++ statusMembers

/-- `fs_imu_composite_packet_2` and `fs_imu_composite_packet_64_2`. -/
def composite2Layout (timeSize : Nat) : Layout FsFieldId :=
  [(.type, 1), (.time, timeSize)] ++ rawReadings ++ quaternion ++ magnetometer ++
    angularVelocity ++ acceleration ++ velocity ++ position ++ statusMembers

/-- The sizes that the source asserts of its structures. -/
example :
    [(compositeLayout 4).totalSize, (regularLayout 4).totalSize, (composite2Layout 4).totalSize,
      (compositeLayout 8).totalSize, (regularLayout 8).totalSize, (composite2Layout 8).totalSize] =
      [145, 85, 181, 149, 89, 185] := by decide

/-- The floating-point conversions of the C library, on the bit patterns of
`float` and `double`. -/
structure FloatText where
  strtof : List UInt8 → UInt32
  strtod : List UInt8 → UInt64
  /-- `%f` of a `float` -/
  printFloat : UInt32 → List UInt8
  /-- `%f` of a `double` -/
  printDouble : UInt64 → List UInt8
  /-- `%f` of an integer of 16 bits turned into a `float` -/
  printInt16 : Int → List UInt8

/-- The bytes that a cell puts into a member of the given size.  The columns of
type, reserved and second angular velocity values are passed over. -/
def cellValue (floats : FloatText) (field : FsFieldId) (cell : List UInt8) :
    Option (Nat → List UInt8) :=
  match field with
  | .none | .type | .reserved01 | .reserved02 | .reserved03 | .omegax1 | .omegy1 | .omegaz1 =>
      none
  | .time => some fun size => Block.littleEndian size (strtoul cell)
  | .rx | .ry | .rz => some fun size => Block.littleEndian size (floats.strtod cell).toNat
  | .temp0 | .temp1 | .temp2 | .diag | .devicemotion =>
      some fun size => Block.littleEndian size (atoi cell % 2 ^ 32).toNat
  | _ => some fun size => Block.littleEndian size (floats.strtof cell).toNat

/-- One round of the loop over the columns. -/
def storeCell (floats : FloatText) (layout : Layout FsFieldId) (packet : FsPacketUnion)
    (column : FsFieldId × List UInt8) : FsPacketUnion :=
  match cellValue floats column.1 column.2 with
  | none => packet
  | some value => layout.set column.1 value packet

/-- The structure that a packet type is read into. -/
def replayLayout (packetType : Int) : Option (Layout FsFieldId) :=
  if packetType = 0 ∨ packetType = 1 ∨ packetType = 2 then some (compositeLayout 4)
  else if packetType = 8 ∨ packetType = 9 ∨ packetType = 10 then some (composite2Layout 4)
  else if packetType = 100 ∨ packetType = 101 ∨ packetType = 102 then some (compositeLayout 8)
  else if packetType = 108 ∨ packetType = 109 ∨ packetType = 110 then some (composite2Layout 8)
  else none

/-- The packet type of a row: the first cell of a `FIELD_TYPE` column, else 0. -/
def rowType (columns : List (FsFieldId × List UInt8)) : Int :=
  match columns.find? fun column => column.1 = .type with
  | some column => atoi column.2
  | none => 0

/-- `fs_replay_parse_packet`: the return code and the packet written to `out`. -/
def fsReplayParsePacket (floats : FloatText) (fieldForColumn : List FsFieldId)
    (line : List UInt8) (out : FsPacketUnion) : Int × FsPacketUnion :=
  let columns := fieldForColumn.zip (lineCells line)
  let packetType := rowType columns
  match replayLayout packetType with
  | none => (-2, out)
  | some layout =>
      let typed := layout.set .type
        (fun size => Block.littleEndian size (packetType % 2 ^ 32).toNat) (layout.clear out)
      (0, columns.foldl (storeCell floats layout) typed)

/-- The code 1 is never a parse result, so that it can stand for the end of a file. -/
theorem fsReplayParsePacket_code (floats : FloatText) (fieldForColumn : List FsFieldId)
    (line : List UInt8) (out : FsPacketUnion) :
    (fsReplayParsePacket floats fieldForColumn line out).1 = 0 ∨
      (fsReplayParsePacket floats fieldForColumn line out).1 = -2 := by
  rw [fsReplayParsePacket]
  cases replayLayout (rowType (fieldForColumn.zip (lineCells line))) with
  | none => exact Or.inr rfl
  | some layout => exact Or.inl rfl

end Trifecta
