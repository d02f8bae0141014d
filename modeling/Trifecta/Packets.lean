/-
Packets received from a device: their lengths, cutting a binary buffer into
packets, decoding a Base64 frame, and queueing what was found.
-/
import Trifecta.Base64

namespace Trifecta

open CText

/-- `obtain_packet_length`. -/
def obtainPacketLength (packetType : Nat) : Nat :=
  if packetType ≤ 3 then 145
  else if packetType ≤ 7 then 85
  else if packetType ≤ 11 then 181
  else if 100 ≤ packetType ∧ packetType ≤ 103 then 149
  else if 104 ≤ packetType ∧ packetType ≤ 107 then 89
  else if 108 ≤ packetType ∧ packetType ≤ 111 then 185
  else 0

/-- The member `type`, the first byte of every packet layout. -/
def FsPacketUnion.type (packet : FsPacketUnion) : UInt8 :=
  packet.bytes[0]?.getD 0

/-- A device handle with the decode buffer that all handles share, and the
packets handed to `fs_enqueue_into_packet_queue` so far, oldest first. -/
structure Driver where
  device : FsDeviceInfo
  currentDecodeBuffer : Block fsMaxPacketLength
  enqueued : List FsPacketUnion

/-- `fs_save_on_packet`. -/
def fsSaveOnPacket (saver : FsSaveDevice) (packet : FsPacketUnion) : FsSaveDevice :=
  if saver.running ≠ .running then saver
  else { saver with packetsToSave := saver.packetsToSave.pushForce packet }

/-- `fs_enqueue_into_packet_queue`.  The forced push cannot fail, so that the
code is always 0. -/
def fsEnqueueIntoPacketQueue (driver : Driver) (packet : FsPacketUnion) : Int × Driver :=
  (0, { driver with
    device := { driver.device with
      packetBufQueue := driver.device.packetBufQueue.pushForce packet
      lastReceivedPacket := packet
      saveContext := driver.device.saveContext.map fun saver => fsSaveOnPacket saver packet }
    enqueued := driver.enqueued ++ [packet] })

/-- The loop of `segment_packets` from `pos` on.  A round advances by a whole
packet, so that `rxLen` rounds are enough.  `stack` is what the local `pkt`
holds before each copy. -/
def segmentPacketsFrom (stack : Nat → FsPacketUnion) (buf : List UInt8) (rxLen : Nat) :
    Nat → Nat → Int → Driver → Int × Driver
  | 0, _, packetCount, driver => (packetCount, driver)
  | fuel + 1, pos, packetCount, driver =>
      if pos < rxLen then
        let packetType := buf[pos]?.getD 0
        let packetLength := obtainPacketLength packetType.toNat
        if packetLength = 0 then (0, driver)
        else if rxLen < pos + packetLength then (-1, driver)
        else
          let pkt := (stack driver.enqueued.length).write 0 ((buf.drop pos).take packetLength)
          if FsPacketUnion.type pkt ≠ packetType then (-1, driver)
          else
            segmentPacketsFrom stack buf rxLen fuel (pos + packetLength) (packetCount + 1)
              (fsEnqueueIntoPacketQueue driver pkt).2
      else (packetCount, driver)

/-- `segment_packets`. -/
def segmentPackets (stack : Nat → FsPacketUnion) (driver : Driver) (rxBuf : List UInt8)
    (rxLen : Nat) : Int × Driver :=
  if rxLen = 0 ∨ fsMaxDataLength < rxLen then (-1, driver)
  else segmentPacketsFrom stack rxBuf rxLen rxLen 0 0 driver

/-- The packet that starts at the front of the decode buffer. -/
def packetInBuffer (buffer : Block fsMaxPacketLength) : FsPacketUnion where
  bytes := buffer.read 0 185
  length_bytes := buffer.length_read (by decide)

/-- `base64_to_packet` on the memory at `segment`, `none` when decoding does not
return.  The number of decoded bytes is not looked at. -/
def base64ToPacket (driver : Driver) (segment : List UInt8) (length : Nat) :
    Option (Int × Driver) :=
  match fsBase64Decode (segment.set length 0) fsMaxPacketLength 0 with
  | none => none
  | some decoding =>
      let driver := { driver with
        currentDecodeBuffer := driver.currentDecodeBuffer.write 0 decoding.written }
      if decoding.code ≠ 0 then some (-1, driver)
      else
        let packet := packetInBuffer driver.currentDecodeBuffer
        if obtainPacketLength (FsPacketUnion.type packet).toNat ≤ 0 then some (-1, driver)
        else
          let result := fsEnqueueIntoPacketQueue driver packet
          if result.1 ≠ 0 then some (-1, result.2) else some (0, result.2)

theorem obtainPacketLength_le (packetType : Nat) : obtainPacketLength packetType ≤ 185 := by
  unfold obtainPacketLength
  split_ifs <;> omega

end Trifecta
