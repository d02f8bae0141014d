/-
The serial framer: received bytes go through a ring buffer that is scanned for
binary frames, Base64 frames and commands, each handled as far as it is found
complete.
-/
import Trifecta.Commands
import Trifecta.Packets

namespace Trifecta

open CText

abbrev packetHeader : UInt8 := 58 -- ':'
abbrev packetHeaderV2 : UInt8 := 64 -- '@'
abbrev packetFooter : UInt8 := 33 -- '!'

/-- `fs_delimiter_indices_t`, with `none` for -1. -/
structure FsDelimiterIndices where
  colonIndex : Option Nat
  binaryIndex : Option Nat
  exclamIndex : Option Nat
  semicolonIndex : Option Nat
deriving DecidableEq, Repr

/-- The body of the scanning loop, without its exit: the indices found so far
and the candidates for the next frame header. -/
def scanByte (result : FsDelimiterIndices) (b64Candidate binCandidate : Option Nat) (i : Nat)
    (byte : UInt8) : FsDelimiterIndices × Option Nat × Option Nat :=
  if byte = packetHeader then (result, some i, binCandidate)
  else if byte = packetHeaderV2 then (result, b64Candidate, some i)
  else if byte = packetFooter then
    ({ result with
        exclamIndex := result.exclamIndex.or (some i)
        colonIndex := result.colonIndex.or b64Candidate
        binaryIndex := result.binaryIndex.or binCandidate }, b64Candidate, binCandidate)
  else if byte = cmdTerminator ∧ result.semicolonIndex = none then
    ({ result with semicolonIndex := some i }, b64Candidate, binCandidate)
  else (result, b64Candidate, binCandidate)

/-- The loop of `fs_scan_delimiters`. -/
def scanDelimitersFrom (result : FsDelimiterIndices) (b64Candidate binCandidate : Option Nat)
    (i : Nat) : List UInt8 → FsDelimiterIndices
  | [] => result
  | byte :: rest =>
      let next := scanByte result b64Candidate binCandidate i byte
      if next.1.colonIndex.isSome ∧ next.1.binaryIndex.isSome ∧ next.1.exclamIndex.isSome ∧
          next.1.semicolonIndex.isSome then next.1
      else scanDelimitersFrom next.1 next.2.1 next.2.2 (i + 1) rest

/-- `fs_scan_delimiters`. -/
def fsScanDelimiters (buffer : List UInt8) : FsDelimiterIndices :=
  scanDelimitersFrom ⟨none, none, none, none⟩ none none 0 buffer

/-- `fs_cb_push`. -/
def fsCbPush (rb : FsBytesRingbuffer) (data : List UInt8) : FsBytesRingbuffer :=
  rb.pushAll data

/-- `fs_cb_peek`. -/
def fsCbPeek (rb : FsBytesRingbuffer) (maxLen : Nat) : List UInt8 :=
  rb.peek maxLen

/-- `fs_cb_pop` on a driver's data buffer. -/
def popData (driver : Driver) (length : Nat) : Driver :=
  { driver with
    device := { driver.device with dataBuffer := driver.device.dataBuffer.discard length } }

/-- A segment found at the front of the buffer, by the order in which the
framer looks: its delimiters' indices. -/
inductive SegmentFound
  | binary (header exclam : Nat)
  | base64 (header exclam : Nat)
  | command (semicolon : Nat)
  | incomplete
deriving DecidableEq, Repr

/-- `exclam_index > header_index`, for a header that was found. -/
def frameIndices (headerIndex exclamIndex : Option Nat) : Option (Nat × Nat) :=
  match headerIndex, exclamIndex with
  | some header, some exclam => if header < exclam then some (header, exclam) else none
  | _, _ => none

/-- The conditions of the framer's branches. -/
def findSegment (indices : FsDelimiterIndices) : SegmentFound :=
  match frameIndices indices.binaryIndex indices.exclamIndex with
  | some (header, exclam) => .binary header exclam
  | none =>
      match frameIndices indices.colonIndex indices.exclamIndex with
      | some (header, exclam) => .base64 header exclam
      | none =>
          match indices.semicolonIndex with
          | some semicolon => .command semicolon
          | none => .incomplete

/-- One round of the framer's loop returns or goes on. -/
inductive SerialRound
  | returned (code : Int) (driver : Driver)
  | again (driver : Driver)

/-- The body of the loop of `fs_device_process_packets_serial`, `none` when
decoding a frame does not return. -/
def serialRound (stack : Nat → FsPacketUnion) (driver : Driver) : Option SerialRound :=
  let temp := fsCbPeek driver.device.dataBuffer fsMaxDataLength
  if temp = [] then some (.returned 0 driver)
  else
    match findSegment (fsScanDelimiters temp) with
    | .binary header exclam =>
        let packetStart := header + 1
        -- one byte less than the frame holds, which wraps around when it holds none
        let packetLen := sizeSub (sizeSub exclam packetStart) 1
        let segmented := segmentPackets stack driver (temp.drop packetStart) packetLen
        some (.again (popData segmented.2 (exclam + 1)))
    | .base64 header exclam =>
        let payloadStart := header + 1
        let payloadLen := sizeSub exclam payloadStart
        (base64ToPacket driver (temp.drop payloadStart) payloadLen).map fun decoded =>
          .again (popData decoded.2 (exclam + 1))
    | .command semicolon =>
        let handled := fsHandleReceivedCommands driver.device temp
        some (.again (popData { driver with device := handled.2 } (semicolon + 1)))
    | .incomplete => some (.returned (-1) driver)

/-- The loop of `fs_device_process_packets_serial` for at most `fuel` rounds,
`none` when these do not suffice. -/
def processSerialLoop (stack : Nat → FsPacketUnion) : Nat → Driver → Option (Int × Driver)
  | 0, _ => none
  | fuel + 1, driver =>
      match serialRound stack driver with
      | none => none
      | some (.returned code after) => some (code, after)
      | some (.again next) => processSerialLoop stack fuel next

/-- `fs_device_process_packets_serial`.  Every round removes a byte, so that
one round more than there are bytes is enough. -/
def fsDeviceProcessPacketsSerial (stack : Nat → FsPacketUnion) (driver : Driver)
    (rxBuf : List UInt8) : Option (Int × Driver) :=
  let dataBuffer := fsCbPush driver.device.dataBuffer rxBuf
  processSerialLoop stack (dataBuffer.count + 1)
    { driver with device := { driver.device with dataBuffer := dataBuffer } }

/-- `fs_device_parse_packet`. -/
def fsDeviceParsePacket (stack : Nat → FsPacketUnion) (driver : Driver) (rxBuf : List UInt8)
    (source : FsCommunicationMode) : Option (Int × Driver) :=
  if rxBuf = [] then some (-1, driver)
  else
    match source with
    | .tcpUdp | .tcpUdpAp | .i2c | .spi =>
        let segmented := segmentPackets stack driver rxBuf rxBuf.length
        if segmented.1 < 0 then some (-1, segmented.2) else some (0, segmented.2)
    | .uart | .usbCdc =>
        match fsDeviceProcessPacketsSerial stack driver rxBuf with
        | none => none
        | some processed =>
            if processed.1 ≠ 0 then some (-1, processed.2) else some (0, processed.2)
    | _ => some (-1, driver)

end Trifecta
