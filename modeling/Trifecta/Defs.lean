/-
The device handle of the driver and the records it is made of, with the
bounded string copy they are filled by.
-/
import Trifecta.Library.CText
import Trifecta.Library.RingBuffer

namespace Trifecta

open CText

abbrev fsMaxDataLength : Nat := 512
abbrev fsMaxCmdQueueLength : Nat := 16
abbrev fsMaxCmdLength : Nat := 256
abbrev fsMaxPacketQueueLength : Nat := 16
abbrev fsMaxPacketLength : Nat := 256
abbrev fsTrifectaPort : Int := 8888

theorem fsMaxCmdLength_pos : 0 < fsMaxCmdLength := by decide

theorem fsMaxPacketQueueLength_pos : 0 < fsMaxPacketQueueLength := by decide

/-- Subtraction in `size_t`. -/
def sizeSub (a b : Nat) : Nat :=
  if b ≤ a then a - b else 2 ^ 64 - (b - a)

/-- `fs_safe_strnlen`. -/
def fsSafeStrnlen (s : List UInt8) (maxlen : Nat) : Nat :=
  (cString (s.take maxlen)).length

/-- `fs_safe_strncpy`: at most `maxlen - 1` characters of the source string and
a terminator overwrite the front of `dest`. -/
def fsSafeStrncpy (dest src : List UInt8) (maxlen : Nat) : List UInt8 :=
  if maxlen = 0 then dest
  else
    let copied := (cString src).take (maxlen - 1)
    copied ++ 0 :: dest.drop (copied.length + 1)

theorem length_fsSafeStrncpy {dest : List UInt8} (src : List UInt8) {maxlen : Nat}
    (hmaxlen : maxlen ≤ dest.length) :
    (fsSafeStrncpy dest src maxlen).length = dest.length := by
  unfold fsSafeStrncpy
  split
  · rfl
  · simp only [List.length_append, List.length_take, List.length_cons, List.length_drop]
    omega

/-- `fs_run_status_t`. -/
inductive FsRunStatus
  | error
  | idle
  | running
deriving DecidableEq, Repr

/-- `fs_communication_mode_t`. -/
inductive FsCommunicationMode
  | uninitialized
  | usbCdc
  | uart
  | tcpUdp
  | tcpUdpAp
  | can
  | i2c
  | espn
  | spi
  | ble
deriving DecidableEq, Repr

/-- `fs_device_id_t`. -/
inductive FsDeviceId
  | unknown
  | tk
  | tk0
  | tk1
  | tk2
  | tm
  | tm0
  | tm1
  | tm2
  | stv
  | stv1
  | stv2
deriving DecidableEq, Repr

structure FsDriverConfig where
  useSerialInterruptMode : Bool
  serialDataReadyGpio : Int
  backgroundTaskPriority : Int
  backgroundTaskCoreAffinity : Int
  readTimeoutMicros : Int
  taskWaitMs : Int
  taskStackSizeBytes : Int
deriving DecidableEq

@[ext] structure FsDeviceParams where
  communicationMode : FsCommunicationMode
  status : FsRunStatus
  allEnabledInterfaces : Int
  ipAddr : Block 39
  ssid : Block 32
  ssidAp : Block 32
  pwAp : Block 64
  tcpPort : Int
  udpPort : Int
  tcpSock : Int
  udpSock : Int
  serialPath : Block 128
  serialPort : Int
  baudrate : Int
  ping : Int
  hpTimestamp : Nat
deriving DecidableEq

@[ext] structure FsDeviceDescriptor where
  deviceId : FsDeviceId
  deviceName : Block 32
  deviceFw : Block 32
  deviceDesc : Block 64
  deviceSn : Block 32
  deviceModel : Block 32
deriving DecidableEq

/-- `fs_packet_union_t`, as its 185 bytes. -/
abbrev FsPacketUnion : Type := Block 185

/-- `fs_command_info_t`: the characters of one command.  The rest of the
256-byte payload array is zero. -/
structure FsCommandInfo where
  payload : List UInt8
  payload_lt : payload.length < fsMaxCmdLength
deriving DecidableEq

abbrev FsPacketRingbuffer : Type := RingBuffer FsPacketUnion fsMaxPacketQueueLength
abbrev FsCommandRingbuffer : Type := RingBuffer FsCommandInfo fsMaxCmdQueueLength
abbrev FsBytesRingbuffer : Type := RingBuffer UInt8 fsMaxDataLength

/-- The part of `fs_save_device_t` that a device hands its packets to. -/
structure FsSaveDevice where
  packetsToSave : FsPacketRingbuffer
  running : FsRunStatus

/-- `fs_device_info_t`. -/
structure FsDeviceInfo where
  deviceDescriptor : FsDeviceDescriptor
  deviceParams : FsDeviceParams
  driverConfig : FsDriverConfig
  lastReceivedPacket : FsPacketUnion
  dataBuffer : FsBytesRingbuffer
  packetBufQueue : FsPacketRingbuffer
  commandQueue : FsCommandRingbuffer
  saveContext : Option FsSaveDevice

/-- `FS_DRIVER_CONFIG_DEFAULT` on Linux. -/
def fsDriverConfigDefault : FsDriverConfig where
  useSerialInterruptMode := false
  serialDataReadyGpio := 0
  backgroundTaskPriority := -1
  backgroundTaskCoreAffinity := -1
  readTimeoutMicros := 1000
  taskWaitMs := 3
  taskStackSizeBytes := 0

/-- `FS_DEVICE_PARAMS_BLANK`. -/
def fsDeviceParamsBlank : FsDeviceParams where
  communicationMode := .uninitialized
  status := .idle
  allEnabledInterfaces := 0
  ipAddr := .zero 39
  ssid := .zero 32
  ssidAp := .zero 32
  pwAp := .zero 64
  tcpPort := 8888
  udpPort := 0
  tcpSock := -1
  udpSock := -1
  serialPath := .zero 128
  serialPort := -1
  baudrate := 0
  ping := 0
  hpTimestamp := 0

/-- `FS_DEVICE_DESCRIPTOR_BLANK`. -/
def fsDeviceDescriptorBlank : FsDeviceDescriptor where
  deviceId := .unknown
  deviceName := .zero 32
  deviceFw := .zero 32
  deviceDesc := .zero 64
  deviceSn := .zero 32
  deviceModel := .zero 32

/-- `FS_DEVICE_INFO_UNINITIALIZED`. -/
def fsDeviceInfoUninitialized : FsDeviceInfo where
  deviceDescriptor := fsDeviceDescriptorBlank
  deviceParams := fsDeviceParamsBlank
  driverConfig := fsDriverConfigDefault
  lastReceivedPacket := .zero 185
  dataBuffer := .init (fun _ => 0) (by decide)
  packetBufQueue := .init (fun _ => .zero 185) (by decide)
  commandQueue := .init (fun _ => ⟨[], by decide⟩) (by decide)
  saveContext := none

end Trifecta
