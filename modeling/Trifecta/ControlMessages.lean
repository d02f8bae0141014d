/-
The messages that control a device, and streams of them read back by the grammar of
commands.
-/
import Trifecta.ConfigurationMessages
import Trifecta.LatestValues
import Trifecta.Library.FixedText

namespace Trifecta

open CText FixedText Segments

abbrev cmdStream : UInt8 := 65 -- 'A'
abbrev cmdSetListeningPort : UInt8 := 108 -- 'l'
abbrev cmdSetYawDeg : UInt8 := 121 -- 'y'
abbrev cmdSetPosition : UInt8 := 48 -- '0'
abbrev cmdSetGnssBaseline : UInt8 := 66 -- 'B'
abbrev cmdSetGnssLeverArm : UInt8 := 76 -- 'L'

/-- `FS_GNSS_PF_WGS84`. -/
abbrev fsGnssPfWgs84 : Int := 2

/-- `%.nf` of a `float` and of a `double`. -/
def floatText (places : Nat) (value : UInt32) : List UInt8 :=
  fixedTextTo places 8 23 value.toNat

def doubleText (places : Nat) (value : UInt64) : List UInt8 :=
  fixedTextTo places 11 52 value.toNat

/-- The commands of a message, each with its terminator, behind a leading one. -/
def commandsText (payloads : List (List UInt8)) : List UInt8 :=
  cmdTerminator :: payloads.flatMap fun payload => payload ++ [cmdTerminator]

/-- A message of one command, printed into `send_buf`. -/
def sendCommand (payload : List UInt8) (transmitted : Int) (device : FsDeviceInfo) :
    Transmission :=
  fsSendCommand transmitted device (printed fsMaxCmdLength (commandsText [payload]))

/-- `%c%d` -/
def numberCommand (code : UInt8) (value : Int) : List UInt8 :=
  code :: signedDecimal value

/-- `%c%.6f,%.6f,%.6f` -/
def vectorCommand (code : UInt8) (vector : FsVector3) : List UInt8 :=
  code :: floatText 6 vector.x ++ comma :: floatText 6 vector.y ++ comma :: floatText 6 vector.z

/-- `%c%d,%.10f,%.10f,%.3f` -/
def positionCommand (position : FsVector3D) : List UInt8 :=
  numberCommand cmdSetPosition fsGnssPfWgs84 ++ comma :: doubleText 10 position.x ++
    comma :: doubleText 10 position.y ++ comma :: doubleText 3 position.z

section Calls

variable (transmitted : Int) (device : FsDeviceInfo)

def fsStartStream : Transmission :=
  sendCommand (numberCommand cmdStream 1) transmitted device

def fsStopStream : Transmission :=
  sendCommand (numberCommand cmdStream 0) transmitted device

def fsReadOneShot : Transmission :=
  sendCommand (numberCommand cmdStream 2) transmitted device

def fsSetAhrsHeading (headingDeg : UInt32) : Transmission :=
  sendCommand (cmdSetYawDeg :: floatText 8 headingDeg) transmitted device

def fsSetInsPosition (position : FsVector3D) : Transmission :=
  sendCommand (positionCommand position) transmitted device

def fsSetCommunicationMode (modes : Int32) : Transmission :=
  sendCommand (numberCommand cmdIdentifyParamTransmit modes.toInt) transmitted device

/-- `fs_set_network_udp_port`, which sends the terminator of the string as well. -/
def fsSetNetworkUdpPort (udpPort : Int32) : Transmission :=
  if udpPort.toInt < 1024 ∨ 65535 < udpPort.toInt then ⟨-1, []⟩
  else
    fsSendCommand transmitted device (printed fsMaxCmdLength
      (commandsText [numberCommand cmdSetListeningPort udpPort.toInt]) ++ [0])

def fsSetSerialUartBaudrate (baudrate : Int32) : Transmission :=
  sendCommand (numberCommand cmdIdentifyParamUartBaudRate baudrate.toInt) transmitted device

def fsSetGnssBaseline (baseline : FsVector3) : Transmission :=
  sendCommand (vectorCommand cmdSetGnssBaseline baseline) transmitted device

def fsSetGnssLeverArm (leverArm : FsVector3) : Transmission :=
  sendCommand (vectorCommand cmdSetGnssLeverArm leverArm) transmitted device

/-- The questions of `fs_get_device_operating_state` and `fs_get_device_descriptors`. -/
def stateQuestions : List (List UInt8) :=
  [cmdIdentify, cmdIdentifyParamDevfwversion, cmdIdentifyParamDevdesc, cmdIdentifyParamDevSn,
    cmdIdentifyParamTransmit, cmdIdentifyParamSsid, cmdIdentifyParamSsidAp,
    cmdIdentifyParamPasswordAp, cmdIdentifyParamUartBaudRate].map fun code =>
      numberCommand code (-1)

/-- `fs_get_device_operating_state`: the transmission, and the parameters as they are when
the questions have been sent. -/
def fsGetDeviceOperatingState : Transmission × Option FsDeviceParams :=
  let sent := fsSendCommand transmitted device
    (printed fsMaxDataLength (commandsText stateQuestions))
  if sent.code < 0 then (⟨-1, sent.messages⟩, none)
  else (⟨0, sent.messages⟩, some device.deviceParams)

/-- `fs_get_device_descriptors`. -/
def fsGetDeviceDescriptors : Transmission × Option FsDeviceDescriptor :=
  let sent := fsSendCommand transmitted device
    (printed fsMaxDataLength (commandsText stateQuestions))
  if sent.code < 0 then (⟨-1, sent.messages⟩, none)
  else (⟨0, sent.messages⟩, some device.deviceDescriptor)

end Calls

/-- A control call with its arguments, floating-point numbers by their bit patterns. -/
inductive ControlCall
  | startStream
  | stopStream
  | readOneShot
  | setAhrsHeading (headingDeg : UInt32)
  | setInsPosition (position : FsVector3D)
  | setCommunicationMode (modes : Int32)
  | setNetworkUdpPort (udpPort : Int32)
  | setSerialUartBaudrate (baudrate : Int32)
  | setGnssBaseline (baseline : FsVector3)
  | setGnssLeverArm (leverArm : FsVector3)
  | getDeviceOperatingState
  | getDeviceDescriptors

def controlCall (transmitted : Int) (device : FsDeviceInfo) : ControlCall → Transmission
  | .startStream => fsStartStream transmitted device
  | .stopStream => fsStopStream transmitted device
  | .readOneShot => fsReadOneShot transmitted device
  | .setAhrsHeading headingDeg => fsSetAhrsHeading transmitted device headingDeg
  | .setInsPosition position => fsSetInsPosition transmitted device position
  | .setCommunicationMode modes => fsSetCommunicationMode transmitted device modes
  | .setNetworkUdpPort udpPort => fsSetNetworkUdpPort transmitted device udpPort
  | .setSerialUartBaudrate baudrate => fsSetSerialUartBaudrate transmitted device baudrate
  | .setGnssBaseline baseline => fsSetGnssBaseline transmitted device baseline
  | .setGnssLeverArm leverArm => fsSetGnssLeverArm transmitted device leverArm
  | .getDeviceOperatingState => (fsGetDeviceOperatingState transmitted device).1
  | .getDeviceDescriptors => (fsGetDeviceDescriptors transmitted device).1

/-- The commands that a call is to have carried out. -/
def ControlCall.commands : ControlCall → List (List UInt8)
  | .startStream => [numberCommand cmdStream 1]
  | .stopStream => [numberCommand cmdStream 0]
  | .readOneShot => [numberCommand cmdStream 2]
  | .setAhrsHeading headingDeg => [cmdSetYawDeg :: floatText 8 headingDeg]
  | .setInsPosition position => [positionCommand position]
  | .setCommunicationMode modes => [numberCommand cmdIdentifyParamTransmit modes.toInt]
  | .setNetworkUdpPort udpPort =>
      if udpPort.toInt < 1024 ∨ 65535 < udpPort.toInt then []
      else [numberCommand cmdSetListeningPort udpPort.toInt]
  | .setSerialUartBaudrate baudrate =>
      [numberCommand cmdIdentifyParamUartBaudRate baudrate.toInt]
  | .setGnssBaseline baseline => [vectorCommand cmdSetGnssBaseline baseline]
  | .setGnssLeverArm leverArm => [vectorCommand cmdSetGnssLeverArm leverArm]
  | .getDeviceOperatingState => stateQuestions
  | .getDeviceDescriptors => stateQuestions

/-! What the grammar makes of the parts of a stream. -/

/-- A command that is neither empty nor too long, and has no byte of the grammar in it. -/
structure PlainCommand (payload : List UInt8) : Prop where
  ne_nil : payload ≠ []
  length_lt : payload.length < fsMaxCmdLength
  plain : ∀ inByte ∈ payload, inByte ≠ cmdTerminator ∧ isLineBreak inByte = false

/-- A stream is read to its end, as these commands and empty ones. -/
structure ReadsBack (stream : List UInt8) (payloads : List (List UInt8)) : Prop where
  whole : interrupted stream = false
  commands : visibleCommands stream = payloads

section Grammar

variable {payload rest : List UInt8} {payloads : List (List UInt8)}

theorem readsBack_congr {first second : List UInt8}
    (hwhole : interrupted first = interrupted second)
    (hvisible : visibleCommands first = visibleCommands second) :
    ReadsBack first payloads ↔ ReadsBack second payloads :=
  ⟨fun hback => ⟨hwhole ▸ hback.whole, hvisible ▸ hback.commands⟩,
    fun hback => ⟨hwhole ▸ hback.whole, hvisible ▸ hback.commands⟩⟩

theorem interrupted_terminator : interrupted (cmdTerminator :: rest) = interrupted rest := by
  rw [interrupted, interrupted, scanCommands, if_pos rfl]

theorem visibleCommands_terminator :
    visibleCommands (cmdTerminator :: rest) = visibleCommands rest := by
  simp [visibleCommands, commandsIn, scanCommands, FsCommandInfo.empty]

/-- Between commands, the terminator of a string is passed over. -/
theorem readsBack_zero_iff : ReadsBack (0 :: rest) payloads ↔ ReadsBack rest payloads := by
  have hscan : scanCommands .empty .waiting (0 :: rest) = scanCommands .empty .waiting rest := by
    rw [scanCommands, if_neg (by decide), if_pos (by decide), if_pos rfl]
  refine readsBack_congr ?_ ?_
  · rw [interrupted, interrupted, hscan]
  · rw [visibleCommands, visibleCommands, commandsIn, commandsIn, hscan]

theorem interrupted_plain (hplain : PlainCommand payload) :
    interrupted (payload ++ cmdTerminator :: rest) = interrupted rest := by
  have hscan := scanCommands_plain .empty .waiting payload rest
    (by simpa [FsCommandInfo.empty] using hplain.length_lt) hplain.plain
  rw [interrupted, interrupted, hscan]

theorem visibleCommands_payload (hplain : PlainCommand payload) :
    visibleCommands (payload ++ cmdTerminator :: rest) = payload :: visibleCommands rest := by
  obtain ⟨code, text, rfl⟩ := List.exists_cons_of_ne_nil hplain.ne_nil
  exact visibleCommands_plain rest hplain.length_lt hplain.plain

/-- Plain commands in front of a stream are read back in front of its own. -/
theorem readsBack_commandsText_iff {front : List (List UInt8)}
    (hfront : ∀ payload ∈ front, PlainCommand payload) :
    ReadsBack (commandsText front ++ rest) (front ++ payloads) ↔ ReadsBack rest payloads := by
  have hstream : ∀ front : List (List UInt8), (∀ payload ∈ front, PlainCommand payload) →
      interrupted ((front.flatMap fun payload => payload ++ [cmdTerminator]) ++ rest) =
          interrupted rest ∧
        visibleCommands ((front.flatMap fun payload => payload ++ [cmdTerminator]) ++ rest) =
          front ++ visibleCommands rest := by
    intro front hplain
    induction front with
    | nil => exact ⟨rfl, rfl⟩
    | cons payload later ih =>
        obtain ⟨hpayload, hlater⟩ := List.forall_mem_cons.1 hplain
        obtain ⟨hwhole, hvisible⟩ := ih hlater
        rw [List.flatMap_cons, List.append_assoc, List.append_assoc, List.singleton_append,
          interrupted_plain hpayload, visibleCommands_payload hpayload, hwhole, hvisible]
        exact ⟨rfl, rfl⟩
  obtain ⟨hwhole, hvisible⟩ := hstream front hfront
  rw [commandsText, List.cons_append]
  constructor
  · rintro ⟨hread, hcommands⟩
    rw [interrupted_terminator, hwhole] at hread
    rw [visibleCommands_terminator, hvisible] at hcommands
    exact ⟨hread, List.append_cancel_left hcommands⟩
  · rintro ⟨hread, hcommands⟩
    refine ⟨?_, ?_⟩
    · rw [interrupted_terminator, hwhole, hread]
    · rw [visibleCommands_terminator, hvisible, hcommands]

end Grammar

/-! The bytes and lengths of the messages. -/

def PlainValue (text : List UInt8) : Prop :=
  ∀ inByte ∈ text, inByte ≠ cmdTerminator ∧ isLineBreak inByte = false

section Texts

theorem plainValue_append {front back : List UInt8} (hfront : PlainValue front)
    (hback : PlainValue back) : PlainValue (front ++ back) := by
  intro inByte hmem
  exact (List.mem_append.1 hmem).elim (hfront inByte) (hback inByte)

theorem plainValue_cons {inByte : UInt8} {text : List UInt8}
    (hbyte : inByte ≠ cmdTerminator ∧ isLineBreak inByte = false) (htext : PlainValue text) :
    PlainValue (inByte :: text) :=
  List.forall_mem_cons.2 ⟨hbyte, htext⟩

theorem plainByte_of_printed {inByte : UInt8} (hprinted : Printed inByte) :
    inByte ≠ cmdTerminator ∧ isLineBreak inByte = false := by
  have hnot : ∀ bad : UInt8, ¬ Printed bad → inByte ≠ bad := by
    rintro bad hbad rfl
    exact hbad hprinted
  have hterminator : inByte ≠ 59 := hnot 59 (by unfold Printed; decide)
  have hfeed : inByte ≠ 10 := hnot 10 (by unfold Printed; decide)
  have hreturn : inByte ≠ 13 := hnot 13 (by unfold Printed; decide)
  have hzero : inByte ≠ 0 := hnot 0 (by unfold Printed; decide)
  exact ⟨hterminator, by simp [isLineBreak, hfeed, hreturn, hzero]⟩

theorem plainValue_signedDecimal (value : Int) : PlainValue (signedDecimal value) :=
  fun _ hmem => plainByte_of_printed (printed_of_mem_signedDecimal hmem)

theorem plainValue_floatText (places : Nat) (value : UInt32) : PlainValue (floatText places value) :=
  fun _ hmem => plainByte_of_printed (printed_of_mem_fixedTextTo hmem)

theorem plainValue_doubleText (places : Nat) (value : UInt64) :
    PlainValue (doubleText places value) :=
  fun _ hmem => plainByte_of_printed (printed_of_mem_fixedTextTo hmem)

theorem plainValue_comma {text : List UInt8} (htext : PlainValue text) :
    PlainValue (comma :: text) :=
  plainValue_cons (by decide) htext

theorem plainValue_vectorCommand {code : UInt8}
    (hcode : code ≠ cmdTerminator ∧ isLineBreak code = false) (vector : FsVector3) :
    PlainValue (vectorCommand code vector) :=
  plainValue_cons hcode (plainValue_append (plainValue_append (plainValue_floatText _ _)
    (plainValue_comma (plainValue_floatText _ _))) (plainValue_comma (plainValue_floatText _ _)))

theorem plainValue_positionCommand (position : FsVector3D) :
    PlainValue (positionCommand position) :=
  plainValue_append (plainValue_append (plainValue_append
    (plainValue_cons (by decide) (plainValue_signedDecimal _))
    (plainValue_comma (plainValue_doubleText _ _))) (plainValue_comma (plainValue_doubleText _ _)))
    (plainValue_comma (plainValue_doubleText _ _))

theorem length_numberCommand_le (code : UInt8) {value : Int} (hvalue : value.natAbs < 10 ^ 10) :
    (numberCommand code value).length ≤ 12 := by
  have hdigits := length_decimal_le (by decide : 0 < 10) hvalue
  rw [numberCommand, List.length_cons, signedDecimal]
  split
  · rw [List.length_cons]
    omega
  · omega

theorem natAbs_toInt_lt (value : Int32) : value.toInt.natAbs < 10 ^ 10 := by
  have hlow := value.le_toInt
  have hhigh := value.toInt_lt
  omega

theorem length_floatText_le {places : Nat} (hplaces : 0 < places) (value : UInt32) :
    (floatText places value).length ≤ 41 + places := by
  have hlength := @length_fixedTextTo_le places 8 23 39 hplaces (by decide) (by decide) (by decide)
    (by norm_num) value.toNat
  rw [floatText]
  omega

theorem length_vectorCommand_le (code : UInt8) (vector : FsVector3) :
    (vectorCommand code vector).length ≤ 144 := by
  have hx := length_floatText_le (by decide : 0 < 6) vector.x
  have hy := length_floatText_le (by decide : 0 < 6) vector.y
  have hz := length_floatText_le (by decide : 0 < 6) vector.z
  simp only [vectorCommand, List.length_append, List.length_cons]
  omega

theorem length_commandsText_singleton (payload : List UInt8) :
    (commandsText [payload]).length = payload.length + 2 := by
  simp [commandsText]

theorem plainValue_zero {text : List UInt8} (hplain : PlainValue text) : 0 ∉ text :=
  fun hmem => absurd (hplain 0 hmem).2 (by decide)

theorem zero_not_mem_commandsText {payloads : List (List UInt8)}
    (hplain : ∀ payload ∈ payloads, PlainValue payload) : 0 ∉ commandsText payloads := by
  intro hmem
  rw [commandsText, List.mem_cons, List.mem_flatMap] at hmem
  rcases hmem with hterminator | ⟨payload, hpayload, hbyte⟩
  · exact absurd hterminator (by decide)
  · rw [List.mem_append, List.mem_singleton] at hbyte
    exact hbyte.elim (plainValue_zero (hplain payload hpayload)) (by decide)

/-- A text that does not fit is cut. -/
theorem printed_of_long {size : Nat} (hsize : 0 < size) {text : List UInt8}
    (hlength : size ≤ text.length) (hzero : 0 ∉ text) :
    printed size text = text.take (size - 1) := by
  have hcut : (text.take (size - 1)).length = size - 1 := by
    rw [List.length_take]
    omega
  have hkept : 0 ∉ text.take (size - 1) := fun hmem => hzero (List.mem_of_mem_take hmem)
  have hmeasured : fsSafeStrnlen (text.take (size - 1) ++ [0]) size = size - 1 := by
    rw [fsSafeStrnlen, List.take_of_length_le (by simp; omega), cString_append_zero hkept, hcut]
  rw [printed, hmeasured, List.take_left' hcut]

end Texts

/-! Calls, and streams of calls. -/

/-- The message of a call has room in `send_buf`.  Only positions can be too long. -/
def ControlCall.Fits : ControlCall → Prop
  | .setInsPosition position => (positionCommand position).length + 2 < fsMaxCmdLength
  | _ => True

/-- What is behind the last command of a message. -/
def ControlCall.trailing : ControlCall → List UInt8
  | .setNetworkUdpPort _ => [0]
  | _ => []

section Streams

/-- A command that is plain, and has room in a message of its own where `fits` holds. -/
structure MessageCommand (fits : Prop) (payload : List UInt8) : Prop where
  ne_nil : payload ≠ []
  plain : PlainValue payload
  room : fits → payload.length + 2 < fsMaxCmdLength

theorem messageCommand_number {fits : Prop} {code : UInt8}
    (hcode : code ≠ cmdTerminator ∧ isLineBreak code = false) {value : Int}
    (hvalue : value.natAbs < 10 ^ 10) : MessageCommand fits (numberCommand code value) := by
  refine ⟨List.cons_ne_nil _ _, plainValue_cons hcode (plainValue_signedDecimal value), fun _ => ?_⟩
  have hlength := length_numberCommand_le code hvalue
  have hmax : fsMaxCmdLength = 256 := rfl
  omega

theorem messageCommand_vector {fits : Prop} {code : UInt8}
    (hcode : code ≠ cmdTerminator ∧ isLineBreak code = false) (vector : FsVector3) :
    MessageCommand fits (vectorCommand code vector) := by
  refine ⟨List.cons_ne_nil _ _, plainValue_vectorCommand hcode vector, fun _ => ?_⟩
  have hlength := length_vectorCommand_le code vector
  have hmax : fsMaxCmdLength = 256 := rfl
  omega

theorem messageCommand_heading {fits : Prop} (headingDeg : UInt32) :
    MessageCommand fits (cmdSetYawDeg :: floatText 8 headingDeg) := by
  refine ⟨List.cons_ne_nil _ _, plainValue_cons (by decide) (plainValue_floatText _ _), fun _ => ?_⟩
  have hlength := length_floatText_le (by decide : 0 < 8) headingDeg
  have hmax : fsMaxCmdLength = 256 := rfl
  rw [List.length_cons]
  omega

/-- The commands of every call are commands of the grammar. -/
theorem messageCommand_of_mem {call : ControlCall} {payload : List UInt8}
    (hpayload : payload ∈ call.commands) : MessageCommand call.Fits payload := by
  have hquestions : ∀ {fits : Prop}, payload ∈ stateQuestions → MessageCommand fits payload := by
    intro fits hmem
    obtain ⟨code, hcode, rfl⟩ := List.mem_map.1 hmem
    have hcodes : [cmdIdentify, cmdIdentifyParamDevfwversion, cmdIdentifyParamDevdesc,
        cmdIdentifyParamDevSn, cmdIdentifyParamTransmit, cmdIdentifyParamSsid,
        cmdIdentifyParamSsidAp, cmdIdentifyParamPasswordAp, cmdIdentifyParamUartBaudRate].all
          (fun code => code != cmdTerminator && !isLineBreak code) = true := by decide
    have hplain := List.all_eq_true.1 hcodes code hcode
    rw [Bool.and_eq_true, bne_iff_ne, Bool.not_eq_true'] at hplain
    exact messageCommand_number hplain (by decide)
  cases call with
  | getDeviceOperatingState => exact hquestions hpayload
  | getDeviceDescriptors => exact hquestions hpayload
  | setNetworkUdpPort udpPort =>
      rw [ControlCall.commands] at hpayload
      split at hpayload
      · exact absurd hpayload List.not_mem_nil
      · rw [List.mem_singleton.1 hpayload]
        exact messageCommand_number (by decide) (natAbs_toInt_lt udpPort)
  | setAhrsHeading headingDeg =>
      rw [List.mem_singleton.1 hpayload]
      exact messageCommand_heading headingDeg
  | setInsPosition position =>
      rw [List.mem_singleton.1 hpayload]
      exact ⟨List.cons_ne_nil _ _, plainValue_positionCommand position, id⟩
  | setGnssBaseline baseline =>
      rw [List.mem_singleton.1 hpayload]
      exact messageCommand_vector (by decide) baseline
  | setGnssLeverArm leverArm =>
      rw [List.mem_singleton.1 hpayload]
      exact messageCommand_vector (by decide) leverArm
  | setCommunicationMode modes =>
      rw [List.mem_singleton.1 hpayload]
      exact messageCommand_number (by decide) (natAbs_toInt_lt modes)
  | setSerialUartBaudrate baudrate =>
      rw [List.mem_singleton.1 hpayload]
      exact messageCommand_number (by decide) (natAbs_toInt_lt baudrate)
  | startStream | stopStream | readOneShot =>
      rw [List.mem_singleton.1 hpayload]
      exact messageCommand_number (by decide) (by decide)

/-- The links that commands are sent over. -/
def commandLink (device : FsDeviceInfo) : Bool :=
  serialLink device.deviceParams.communicationMode ||
    networkLink device.deviceParams.communicationMode

/-- The message of a call that fits, with nothing sent for a port that is refused. -/
def ControlCall.message (call : ControlCall) : List (List UInt8) :=
  if call.commands = [] then [] else [commandsText call.commands ++ call.trailing]

variable {transmitted : Int} {device : FsDeviceInfo}

theorem messages_sendCommand (hlink : commandLink device = true) (payload : List UInt8) :
    (sendCommand payload transmitted device).messages =
      [printed fsMaxCmdLength (commandsText [payload])] := by
  rw [sendCommand, messages_fsSendCommand]
  exact if_pos hlink

theorem printed_commandsText {size : Nat} {payloads : List (List UInt8)}
    (hplain : ∀ payload ∈ payloads, PlainValue payload)
    (hlength : (commandsText payloads).length < size) :
    printed size (commandsText payloads) = commandsText payloads :=
  printed_of_short hlength (zero_not_mem_commandsText hplain)

theorem messages_sendCommand_of_room (hlink : commandLink device = true) {payload : List UInt8}
    {fits : Prop} (hpayload : MessageCommand fits payload) (hfits : fits) :
    (sendCommand payload transmitted device).messages = [commandsText [payload] ++ []] := by
  rw [messages_sendCommand hlink, printed_commandsText, List.append_nil]
  · exact List.forall_mem_singleton.2 hpayload.plain
  · rw [length_commandsText_singleton]
    exact hpayload.room hfits

theorem messages_questions (hlink : commandLink device = true) :
    (fsSendCommand transmitted device
      (printed fsMaxDataLength (commandsText stateQuestions))).messages =
        [commandsText stateQuestions ++ []] := by
  have hplain : ∀ payload ∈ stateQuestions, PlainValue payload := fun payload hmem =>
    (@messageCommand_of_mem .getDeviceDescriptors payload hmem).plain
  rw [messages_fsSendCommand, printed_commandsText hplain (by decide), List.append_nil]
  exact if_pos hlink

/-- A call that fits hands its message to the link as a whole. -/
theorem messages_controlCall (hlink : commandLink device = true) {call : ControlCall}
    (hfits : call.Fits) : (controlCall transmitted device call).messages = call.message := by
  have hsent : ∀ payload, payload ∈ call.commands →
      (sendCommand payload transmitted device).messages = [commandsText [payload] ++ []] :=
    fun payload hmem => messages_sendCommand_of_room hlink (messageCommand_of_mem hmem) hfits
  cases call with
  | getDeviceOperatingState =>
      rw [controlCall, fsGetDeviceOperatingState]
      split <;> exact messages_questions hlink
  | getDeviceDescriptors =>
      rw [controlCall, fsGetDeviceDescriptors]
      split <;> exact messages_questions hlink
  | setNetworkUdpPort udpPort =>
      rw [ControlCall.message, controlCall, fsSetNetworkUdpPort, ControlCall.commands]
      split
      · exact (if_pos rfl).symm
      · next hport =>
          have hcommand := @messageCommand_of_mem (.setNetworkUdpPort udpPort)
            (numberCommand cmdSetListeningPort udpPort.toInt) (by
              rw [ControlCall.commands, if_neg hport]
              exact List.mem_singleton_self _)
          rw [messages_fsSendCommand, printed_commandsText, if_neg (List.cons_ne_nil _ _)]
          · exact if_pos hlink
          · exact List.forall_mem_singleton.2 hcommand.plain
          · rw [length_commandsText_singleton]
            exact hcommand.room trivial
  | startStream | stopStream | readOneShot | setAhrsHeading | setInsPosition
  | setCommunicationMode | setSerialUartBaudrate | setGnssBaseline | setGnssLeverArm =>
      exact hsent _ List.mem_cons_self

variable {rest : List UInt8} {payloads : List (List UInt8)}

/-- The message of a call that fits stands for its commands, whatever follows. -/
theorem readsBack_controlCall_iff (hlink : commandLink device = true) {call : ControlCall}
    (hfits : call.Fits) :
    ReadsBack ((controlCall transmitted device call).messages.flatten ++ rest)
        (call.commands ++ payloads) ↔ ReadsBack rest payloads := by
  have hplain : ∀ payload ∈ call.commands, PlainCommand payload := by
    intro payload hmem
    have hcommand := messageCommand_of_mem hmem
    have hroom := hcommand.room hfits
    exact ⟨hcommand.ne_nil, by omega, hcommand.plain⟩
  have htrailing : ReadsBack (call.trailing ++ rest) payloads ↔ ReadsBack rest payloads := by
    cases call with
    | setNetworkUdpPort udpPort => exact readsBack_zero_iff
    | _ => exact Iff.rfl
  rw [messages_controlCall hlink hfits, ControlCall.message]
  split_ifs with hnone
  · rw [hnone]
    exact Iff.rfl
  · rw [List.flatten_singleton, List.append_assoc]
    exact (readsBack_commandsText_iff hplain).trans htrailing

/-- The last command of a message that is cut is lost. -/
theorem not_readsBack_cut {payload : List UInt8} (hplain : PlainValue payload)
    (hlength : fsMaxCmdLength ≤ payload.length + 2) :
    ¬ ReadsBack (printed fsMaxCmdLength (commandsText [payload])) [payload] := by
  have hmax : fsMaxCmdLength = 256 := rfl
  intro hback
  have hcut : printed fsMaxCmdLength (commandsText [payload]) =
      cmdTerminator :: payload.take 254 := by
    rw [printed_of_long (by decide) (by rwa [length_commandsText_singleton])
      (zero_not_mem_commandsText (List.forall_mem_singleton.2 hplain))]
    simp only [commandsText, List.flatMap_singleton, hmax, Nat.add_one_sub_one, List.take_succ_cons]
    rw [List.take_append_of_le_length (by omega)]
  have hnone : visibleCommands (cmdTerminator :: payload.take 254) = [] := by
    rw [visibleCommands_terminator, visibleCommands, commandsIn_of_not_mem]
    · rfl
    · exact fun hmem => (hplain cmdTerminator (List.mem_of_mem_take hmem)).1 rfl
  have hcommands := hback.commands
  rw [hcut, hnone] at hcommands
  exact absurd hcommands (List.cons_ne_nil _ _).symm

/-- A message alone is read back exactly when it fits. -/
theorem readsBack_message_iff (hlink : commandLink device = true) (call : ControlCall) :
    ReadsBack (controlCall transmitted device call).messages.flatten call.commands ↔
      call.Fits := by
  have hempty : ReadsBack [] [] := ⟨rfl, rfl⟩
  constructor
  · intro hback
    cases call with
    | setInsPosition position =>
        by_contra hlong
        rw [controlCall, fsSetInsPosition, messages_sendCommand hlink,
          List.flatten_singleton] at hback
        exact not_readsBack_cut (plainValue_positionCommand position) (Nat.le_of_not_lt hlong)
          hback
    | _ => trivial
  · intro hfits
    have hback := (@readsBack_controlCall_iff transmitted device [] [] hlink call hfits).2 hempty
    rwa [List.append_nil, List.append_nil] at hback

/-- The bytes that a sequence of calls hands to the link. -/
def controlStream (device : FsDeviceInfo) (calls : List (Int × ControlCall)) : List UInt8 :=
  (calls.flatMap fun call => (controlCall call.1 device call.2).messages).flatten

theorem readsBack_controlStream_iff (hlink : commandLink device = true)
    {calls : List (Int × ControlCall)} (hfits : ∀ call ∈ calls, call.2.Fits) :
    ReadsBack (controlStream device calls ++ rest)
        ((calls.flatMap fun call => call.2.commands) ++ payloads) ↔ ReadsBack rest payloads := by
  induction calls with
  | nil => exact Iff.rfl
  | cons call later ih =>
      obtain ⟨hcall, hlater⟩ := List.forall_mem_cons.1 hfits
      have hstream : controlStream device (call :: later) =
          (controlCall call.1 device call.2).messages.flatten ++ controlStream device later := by
        simp [controlStream]
      rw [hstream, List.flatMap_cons, List.append_assoc, List.append_assoc]
      exact (readsBack_controlCall_iff hlink hcall).trans (ih hlater)

/-- After every call of a sequence, all that has been sent is read back as the commands of
the calls, in order and nothing else, exactly when every message fits. -/
theorem controlStream_readsBack_iff (device : FsDeviceInfo) (hlink : commandLink device = true)
    (calls : List (Int × ControlCall)) :
    (∀ front, front <+: calls →
        ReadsBack (controlStream device front) (front.flatMap fun call => call.2.commands)) ↔
      ∀ call ∈ calls, call.2.Fits := by
  constructor
  · intro hall
    induction calls using List.reverseRecOn with
    | nil => exact fun _ hmem => absurd hmem List.not_mem_nil
    | append_singleton before call ih =>
        have hbefore := ih fun front hfront =>
          hall front (hfront.trans (List.prefix_append before [call]))
        have hback := hall (before ++ [call]) List.prefix_rfl
        have hstream : controlStream device (before ++ [call]) =
            controlStream device before ++
              (controlCall call.1 device call.2).messages.flatten := by
          simp [controlStream]
        rw [hstream, List.flatMap_append, List.flatMap_singleton,
          readsBack_controlStream_iff hlink hbefore, readsBack_message_iff hlink] at hback
        intro other hother
        rcases List.mem_append.1 hother with hold | hnew
        · exact hbefore other hold
        · rw [List.mem_singleton.1 hnew]
          exact hback
  · intro hfits front hfront
    have hback := (@readsBack_controlStream_iff device [] [] hlink front fun call hmem =>
      hfits call (hfront.subset hmem)).2 ⟨rfl, rfl⟩
    rwa [List.append_nil, List.append_nil] at hback

def startAndPlace : List (Int × ControlCall) :=
  [(4, .startStream), (7, .setNetworkUdpPort 9000),
    (42, .setInsPosition ⟨0x4047800000000000, 0xC05EC00000000000, 0⟩)]

theorem controlStream_readsBack_iff_uart :
    (∀ front, front <+: startAndPlace →
        ReadsBack (controlStream uartDevice front)
          (front.flatMap fun call => call.2.commands)) ↔
      ∀ call ∈ startAndPlace, call.2.Fits :=
  controlStream_readsBack_iff uartDevice (by decide) startAndPlace

/-- The largest number is too long for a message. -/
example : ¬ (ControlCall.setInsPosition ⟨0x7FEFFFFFFFFFFFFF, 0, 0⟩).Fits := by
  unfold ControlCall.Fits
  decide +kernel

end Streams

end Trifecta
