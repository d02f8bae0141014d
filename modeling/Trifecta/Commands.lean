/-
Commands received from a device: cutting a byte buffer into commands, queueing
them, and carrying each one out on the device handle.
-/
import Trifecta.Defs
import Trifecta.Library.Registers
import Trifecta.Library.Segments

namespace Trifecta

open CText Registers Segments

abbrev cmdTerminator : UInt8 := 59 -- ';'
abbrev cmdIdentify : UInt8 := 73 -- 'I'
abbrev cmdIdentifyParamDevSn : UInt8 := 112 -- 'p'
abbrev cmdIdentifyParamDevmodel : UInt8 := 109 -- 'm'
abbrev cmdIdentifyParamDevfwversion : UInt8 := 102 -- 'f'
abbrev cmdIdentifyParamDevdesc : UInt8 := 100 -- 'd'
abbrev cmdIdentifyParamUartBaudRate : UInt8 := 98 -- 'b'
abbrev cmdIdentifyParamSsid : UInt8 := 115 -- 's'
abbrev cmdIdentifyParamSsidAp : UInt8 := 49 -- '1'
abbrev cmdIdentifyParamPasswordAp : UInt8 := 51 -- '3'
abbrev cmdIdentifyParamTransmit : UInt8 := 116 -- 't'

/-- The bytes that end reading in the middle of a command: line feed, carriage
return and NUL. -/
def isLineBreak (inByte : UInt8) : Bool :=
  inByte = 10 || inByte = 13 || inByte = 0

/-- The payload after `memset`. -/
def FsCommandInfo.empty : FsCommandInfo := ⟨[], fsMaxCmdLength_pos⟩

/-- `cmd.payload[input_pos++] = inByte`. -/
def FsCommandInfo.append (cmd : FsCommandInfo) (inByte : UInt8)
    (hroom : cmd.payload.length < fsMaxCmdLength - 1) : FsCommandInfo where
  payload := cmd.payload ++ [inByte]
  payload_lt := by
    rw [List.length_append, List.length_singleton]
    omega

/-- `fs_enqueue_into_command_queue`: the queue does not grow past its size. -/
def fsEnqueueIntoCommandQueue (queue : FsCommandRingbuffer) (cmd : FsCommandInfo) :
    Option FsCommandRingbuffer :=
  queue.push cmd

inductive SegmentState
  | waiting
  | reading
deriving DecidableEq, Repr

/-- The loop of `fs_segment_commands`: the return code and the queue. -/
def fsSegmentCommandsFrom (queue : FsCommandRingbuffer) (cmd : FsCommandInfo) :
    SegmentState → List UInt8 → Int × FsCommandRingbuffer
  | _, [] => (0, queue)
  | state, inByte :: rest =>
      if inByte = cmdTerminator then
        match fsEnqueueIntoCommandQueue queue cmd with
        | none => (-1, queue)
        | some next => fsSegmentCommandsFrom next .empty .waiting rest
      else if isLineBreak inByte then
        if state = .waiting then fsSegmentCommandsFrom queue .empty .waiting rest
        else (3, queue)
      else if hroom : cmd.payload.length < fsMaxCmdLength - 1 then
        fsSegmentCommandsFrom queue (cmd.append inByte hroom) .reading rest
      else
        -- an overlong command is thrown away and reading goes on with its rest
        fsSegmentCommandsFrom queue .empty .reading rest

/-- `fs_segment_commands`. -/
def fsSegmentCommands (queue : FsCommandRingbuffer) (cmdBuf : List UInt8) :
    Int × FsCommandRingbuffer :=
  fsSegmentCommandsFrom queue .empty .waiting cmdBuf

/-- The fields of the handle that a received command can set. -/
inductive CommandField
  | deviceName
  | baudrate
  | ssid
  | ssidAp
  | pwAp
  | allEnabledInterfaces
  | deviceSn
  | deviceModel
  | deviceFw
  | deviceDesc
deriving DecidableEq, Repr

/-- The field named by the first character of a command. -/
def commandField (cmdChar : UInt8) : Option CommandField :=
  if cmdChar = cmdIdentify then some .deviceName
  else if cmdChar = cmdIdentifyParamUartBaudRate then some .baudrate
  else if cmdChar = cmdIdentifyParamSsid then some .ssid
  else if cmdChar = cmdIdentifyParamSsidAp then some .ssidAp
  else if cmdChar = cmdIdentifyParamPasswordAp then some .pwAp
  else if cmdChar = cmdIdentifyParamTransmit then some .allEnabledInterfaces
  else if cmdChar = cmdIdentifyParamDevSn then some .deviceSn
  else if cmdChar = cmdIdentifyParamDevmodel then some .deviceModel
  else if cmdChar = cmdIdentifyParamDevfwversion then some .deviceFw
  else if cmdChar = cmdIdentifyParamDevdesc then some .deviceDesc
  else none

/-- Copy a parameter into a character array: `fs_safe_strncpy` with the size of
the array less one, then a terminator in its last place. -/
def copyParam {size : Nat} (array : Block size) (params : List UInt8) : Block size where
  bytes := (fsSafeStrncpy array.bytes params (size - 1)).set (size - 1) 0
  length_bytes := by
    rw [List.length_set, length_fsSafeStrncpy params (by simp), array.length_bytes]

/-- One case of the `switch` of `fs_handle_received_commands`. -/
def setField (device : FsDeviceInfo) (field : CommandField) (params : List UInt8) :
    FsDeviceInfo :=
  match field with
  | .deviceName =>
      { device with
        deviceDescriptor.deviceName := copyParam device.deviceDescriptor.deviceName params }
  | .baudrate =>
      let baud := atoi params
      if 0 < baud then { device with deviceParams.baudrate := baud } else device
  | .ssid =>
      { device with deviceParams.ssid := copyParam device.deviceParams.ssid params }
  | .ssidAp =>
      { device with deviceParams.ssidAp := copyParam device.deviceParams.ssidAp params }
  | .pwAp =>
      { device with deviceParams.pwAp := copyParam device.deviceParams.pwAp params }
  | .allEnabledInterfaces =>
      { device with deviceParams.allEnabledInterfaces := atoi params }
  | .deviceSn =>
      { device with
        deviceDescriptor.deviceSn := copyParam device.deviceDescriptor.deviceSn params }
  | .deviceModel =>
      { device with
        deviceDescriptor.deviceModel := copyParam device.deviceDescriptor.deviceModel params }
  | .deviceFw =>
      { device with
        deviceDescriptor.deviceFw := copyParam device.deviceDescriptor.deviceFw params }
  | .deviceDesc =>
      { device with
        deviceDescriptor.deviceDesc := copyParam device.deviceDescriptor.deviceDesc params }

/-- The body of the dequeueing loop of `fs_handle_received_commands`. -/
def applyCommand (device : FsDeviceInfo) (cmd : FsCommandInfo) : FsDeviceInfo :=
  match commandField (cmd.payload.headD 0) with
  | none => device
  | some field => setField device field cmd.payload.tail

/-- The dequeueing loop of `fs_handle_received_commands`, for at most `limit`
rounds. -/
def drainCommands : Nat → FsDeviceInfo → FsDeviceInfo
  | 0, device => device
  | limit + 1, device =>
      match device.commandQueue.pop with
      | none => device
      | some (cmd, rest) =>
          drainCommands limit (applyCommand { device with commandQueue := rest } cmd)

/-- `fs_handle_received_commands`: return code and device handle. -/
def fsHandleReceivedCommands (device : FsDeviceInfo) (cmdBuf : List UInt8) :
    Int × FsDeviceInfo :=
  let segmented := fsSegmentCommands device.commandQueue cmdBuf
  let device := { device with commandQueue := segmented.2 }
  if segmented.1 ≠ 0 then (-1, device)
  else (0, drainCommands device.commandQueue.count device)

end Trifecta
