/-
Saving packets to a CSV file: the header line, the row of one packet, and the
contents of the file for a sequence of packets.
-/
import Trifecta.Packets
import Trifecta.ReplayFile

namespace Trifecta

open CText

abbrev saverLinebufSize : Nat := 1024

/-- The line that `write_header` writes. -/
def headerLine : List UInt8 :=
  asciiText <|
    "PacketType,Time," ++
    "Ax0,Ay0,Az0,Gx0,Gy0,Gz0," ++
    "Ax1,Ay1,Az1,Gx1,Gy1,Gz1," ++
    "Ax2,Ay2,Az2,Gx2,Gy2,Gz2," ++
    "Q0,Q1,Q2,Q3," ++
    "MagX,MagY,MagZ," ++
    "OmegaX0,OmegaY0,OmegaZ0," ++
    "AccX,AccY,AccZ," ++
    "Vx,Vy,Vz," ++
    "Rx,Ry,Rz," ++
    "Temp_0,Temp_1,Temp_2," ++
    "DeviceMotionStatus\n"

/-- The members that the columns after type and time are for, in their order. -/
def savedColumns : List FsFieldId :=
  [.ax0, .ay0, .az0, .gx0, .gy0, .gz0,
    .ax1, .ay1, .az1, .gx1, .gy1, .gz1,
    .ax2, .ay2, .az2, .gx2, .gy2, .gz2,
    .q0, .q1, .q2, .q3,
    .magx, .magy, .magz,
    .omegax0, .omegy0, .omegaz0,
    .accx, .accy, .accz,
    .vx, .vy, .vz,
    .rx, .ry, .rz,
    .temp0, .temp1, .temp2,
    .devicemotion]

/-- The structure that `format_packet` reads a packet type from.  Other types
have only their type and time written. -/
def savedLayout (packetType : Nat) : Option (Layout FsFieldId) :=
  if packetType ≤ 3 then some (compositeLayout 4)
  else if packetType ≤ 7 then some (regularLayout 4)
  else if 8 ≤ packetType ∧ packetType ≤ 11 then some (composite2Layout 4)
  else none

/-- A signed number of 8 or 16 bits from its bytes. -/
def signedValue (bytes : List UInt8) : Int :=
  (Block.ofLittleEndian bytes : Int).bmod (256 ^ bytes.length)

/-- `snprintf` of a member into its scratch field of 32 characters. -/
def formatMember (floats : FloatText) (field : FsFieldId) (bytes : List UInt8) : List UInt8 :=
  match field with
  | .temp0 | .temp1 | .temp2 => (floats.printInt16 (signedValue bytes)).take 31
  | .devicemotion => (decimal (signedValue bytes % 2 ^ 32).toNat).take 31
  | .rx | .ry | .rz => (floats.printDouble (Block.ofLittleEndian bytes).toUInt64).take 31
  | _ => (floats.printFloat (Block.ofLittleEndian bytes).toUInt32).take 31

/-- The structure that a column is read from: the temperatures are always taken
from the standard composite structure. -/
def sourceLayout (layout : Layout FsFieldId) (field : FsFieldId) : Layout FsFieldId :=
  match field with
  | .temp0 | .temp1 | .temp2 => compositeLayout 4
  | _ => layout

/-- The text of a column: empty for a member that the structure does not have. -/
def formatField (floats : FloatText) (layout : Layout FsFieldId) (packet : FsPacketUnion)
    (field : FsFieldId) : List UInt8 :=
  match (sourceLayout layout field).get field packet with
  | some bytes => formatMember floats field bytes
  | none => []

/-- The text of a column of a packet. -/
def formatColumn (floats : FloatText) (packet : FsPacketUnion) (field : FsFieldId) :
    List UInt8 :=
  match savedLayout packet.type.toNat with
  | some layout => formatField floats layout packet field
  | none => []

/-- The member `time` of the standard composite structure. -/
def compositeTime (packet : FsPacketUnion) : Nat :=
  Block.ofLittleEndian (packet.read 1 4)

/-- The cells of the row of a packet. -/
def rowCells (floats : FloatText) (packet : FsPacketUnion) : List (List UInt8) :=
  decimal packet.type.toNat :: decimal (compositeTime packet) ::
    savedColumns.map (formatColumn floats packet)

/-- `format_packet`, into the line buffer of the saving thread. -/
def formatPacket (floats : FloatText) (packet : FsPacketUnion) : List UInt8 :=
  ([comma].intercalate (rowCells floats packet) ++ [lineFeed]).take (saverLinebufSize - 1)

/-- The file after the header line and the rows of `packets` have been written. -/
def savedFile (floats : FloatText) (packets : List FsPacketUnion) : List UInt8 :=
  headerLine ++ (packets.map (formatPacket floats)).flatten

end Trifecta
