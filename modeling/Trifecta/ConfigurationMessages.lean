/-
The messages that configure the name and the network of a device, read back by
the grammar of commands.
-/
import Trifecta.CommandFields
import Trifecta.Startup

namespace Trifecta

open CText Segments

abbrev cmdSetSsid : UInt8 := 83 -- 'S'
abbrev cmdSetPassword : UInt8 := 80 -- 'P'
abbrev cmdSetSsidAp : UInt8 := 113 -- 'q'
abbrev cmdSetPasswordAp : UInt8 := 119 -- 'w'
abbrev cmdSetDevName : UInt8 := 78 -- 'N'

/-- What a call returns, and the messages it hands to the transmit function of
the link. -/
structure Transmission where
  code : Int
  messages : List (List UInt8)
deriving DecidableEq

/-- `fs_send_command`, with the number of bytes that the link transmits. -/
def fsSendCommand (transmitted : Int) (device : FsDeviceInfo) (message : List UInt8) :
    Transmission :=
  match device.deviceParams.communicationMode with
  | .uart | .usbCdc | .i2c | .spi => ⟨if 0 < transmitted then 0 else -1, [message]⟩
  | .tcpUdp | .tcpUdpAp => ⟨transmitted, [message]⟩
  | _ => ⟨-1, []⟩

theorem code_fsSendCommand {σ : Type} (answers : Answers) (machine : Machine σ)
    (message : List UInt8) :
    (fsSendCommand answers.transmittedCommand machine.device message).code =
      machine.fsSendCommand answers := by
  rw [fsSendCommand, Machine.fsSendCommand]
  cases machine.device.deviceParams.communicationMode <;> rfl

/-- A text printed by `snprintf` into an array of `size` bytes, as far as
`fs_safe_strnlen` measures it. -/
def printed (size : Nat) (text : List UInt8) : List UInt8 :=
  let sendBuf := text.take (size - 1) ++ [0]
  sendBuf.take (fsSafeStrnlen sendBuf size)

/-- `%c%s;` -/
def commandText (code : UInt8) (value : List UInt8) : List UInt8 :=
  code :: cString value ++ [cmdTerminator]

/-- `fs_set_device_name`. -/
def fsSetDeviceName (transmitted : Int) (device : FsDeviceInfo) (name : List UInt8) :
    Transmission :=
  fsSendCommand transmitted device
    (printed fsMaxCmdLength (cmdTerminator :: commandText cmdSetDevName name))

/-- `fs_set_network_parameters`. -/
def fsSetNetworkParameters (transmitted : Int) (device : FsDeviceInfo) (ssid pw : List UInt8)
    (accessPoint : Bool) : Transmission :=
  if device.deviceParams.communicationMode = .tcpUdp ∨
      device.deviceParams.communicationMode = .tcpUdpAp then ⟨-1, []⟩
  else if accessPoint then
    fsSendCommand transmitted device (printed (2 * fsMaxCmdLength)
      (cmdTerminator :: (commandText cmdSetSsidAp ssid ++ commandText cmdSetPasswordAp pw)))
  else
    fsSendCommand transmitted device (printed (2 * fsMaxCmdLength)
      (cmdTerminator :: (commandText cmdSetSsid ssid ++ commandText cmdSetPassword pw)))

/-- A value of at most `limit` bytes, without its terminator. -/
structure ConfigText (limit : Nat) where
  text : List UInt8
  length_text : text.length ≤ limit
  zero_not_mem : 0 ∉ text

/-- Neither the terminator of a command nor a line break. -/
def PlainBytes (text : List UInt8) : Prop :=
  ∀ byte ∈ text, byte ≠ 59 ∧ byte ≠ 13 ∧ byte ≠ 10

/-- A receiver with an empty queue cuts the message into these commands and
empty ones, and reads it to its end. -/
def ParsesTo (queue : FsCommandRingbuffer) (message : List UInt8)
    (payloads : List (List UInt8)) : Prop :=
  (fsSegmentCommands queue message).1 = 0 ∧
    ((fsSegmentCommands queue message).2.toList.map FsCommandInfo.payload).filter (· ≠ []) =
      payloads

/-- The commands of a buffer that are not empty. -/
def visibleCommands (buffer : List UInt8) : List (List UInt8) :=
  ((commandsIn buffer).map FsCommandInfo.payload).filter (· ≠ [])

theorem plain_iff {text : List UInt8} (htext : 0 ∉ text) :
    (∀ inByte ∈ text, inByte ≠ cmdTerminator ∧ isLineBreak inByte = false) ↔ PlainBytes text := by
  refine forall₂_congr fun byte hbyte => ?_
  have hzero : byte ≠ 0 := fun heq => htext (heq ▸ hbyte)
  simp only [isLineBreak, cmdTerminator, hzero, decide_false, Bool.or_false,
    Bool.or_eq_false_iff, decide_eq_false_iff_not, ne_eq]
  tauto

/-- A message that reads back to the end shows its commands. -/
theorem visibleCommands_of_parsesTo {queue : FsCommandRingbuffer} (hempty : queue.toList = [])
    {message : List UInt8} {payloads : List (List UInt8)}
    (hparses : ParsesTo queue message payloads) : visibleCommands message = payloads := by
  obtain ⟨hcode, hpayloads⟩ := hparses
  have hfit : queue.count + (scanCommands .empty .waiting message).1.length ≤
      fsMaxCmdQueueLength := by
    by_contra hover
    have hfull := (fsSegmentCommandsFrom_of_overflow queue .empty .waiting message
      (Nat.lt_of_not_le hover)).1
    rw [fsSegmentCommands, hfull] at hcode
    exact absurd hcode (by decide)
  have hqueue := (fsSegmentCommandsFrom_of_fit queue .empty .waiting message hfit).2
  rw [hempty, List.nil_append] at hqueue
  rw [fsSegmentCommands, hqueue] at hpayloads
  exact hpayloads

/-- A line break inside the first command leaves no command. -/
theorem commandsIn_eq_nil_of_break {front back : List UInt8} {code bad : UInt8}
    (hplain : ∀ inByte ∈ code :: front, inByte ≠ cmdTerminator ∧ isLineBreak inByte = false)
    (hbad : isLineBreak bad = true) : commandsIn (code :: front ++ bad :: back) = [] := by
  have hinside : ∀ (text : List UInt8), text ≠ [] →
      (∀ inByte ∈ text, inByte ≠ cmdTerminator ∧ isLineBreak inByte = false) →
      text.foldl insideStep false = true := by
    intro text hne htext
    obtain ⟨first, last, rfl⟩ := (List.eq_nil_or_concat' text).resolve_left hne
    obtain ⟨hterminator, hbreak⟩ := htext last (by simp)
    rw [List.foldl_append, List.foldl_cons, List.foldl_nil, insideStep, if_neg hterminator,
      if_neg (by simp [hbreak])]
  refine ((interrupted_first_iff _).2 ⟨code :: front, ⟨bad, back, rfl, hbad, ?_⟩, ?_⟩).2
  · exact hinside (code :: front) (List.cons_ne_nil code front) hplain
  · exact fun hmem => (hplain cmdTerminator hmem).1 rfl

/-- Plain bytes up to the terminator are the first command. -/
theorem visibleCommands_plain {code : UInt8} {text : List UInt8} (rest : List UInt8)
    (hlength : (code :: text).length < fsMaxCmdLength)
    (hplain : ∀ inByte ∈ code :: text, inByte ≠ cmdTerminator ∧ isLineBreak inByte = false) :
    visibleCommands (code :: text ++ cmdTerminator :: rest) =
      (code :: text) :: visibleCommands rest := by
  have hscan := scanCommands_plain .empty .waiting (code :: text) rest
    (by simpa [FsCommandInfo.empty] using hlength) hplain
  rw [visibleCommands, commandsIn, hscan, List.map_cons]
  exact List.filter_cons_of_pos (by simp)

/-- Where the first command of a message is the one that was written, the values
of the message are plain up to there. -/
theorem plain_of_visibleCommands {code : UInt8} {text rest : List UInt8}
    {payloads : List (List UInt8)} (hlength : (code :: text).length < fsMaxCmdLength)
    (hcode : code ≠ cmdTerminator ∧ isLineBreak code = false)
    (hvisible : visibleCommands (code :: text ++ cmdTerminator :: rest) =
      (code :: text) :: payloads) :
    (∀ inByte ∈ text, inByte ≠ cmdTerminator ∧ isLineBreak inByte = false) ∧
      visibleCommands rest = payloads := by
  cases hfind : text.find? fun inByte => inByte = cmdTerminator || isLineBreak inByte with
  | none =>
      have htext : ∀ inByte ∈ text, inByte ≠ cmdTerminator ∧ isLineBreak inByte = false := by
        simpa using hfind
      rw [visibleCommands_plain rest hlength (List.forall_mem_cons.2 ⟨hcode, htext⟩)] at hvisible
      exact ⟨htext, (List.cons.inj hvisible).2⟩
  | some bad =>
      obtain ⟨hbad, front, back, rfl, hfront⟩ := List.find?_eq_some_iff_append.1 hfind
      have hplain : ∀ inByte ∈ code :: front,
          inByte ≠ cmdTerminator ∧ isLineBreak inByte = false :=
        List.forall_mem_cons.2 ⟨hcode, by simpa using hfront⟩
      have hbuffer : code :: (front ++ bad :: back) ++ cmdTerminator :: rest =
          code :: front ++ bad :: (back ++ cmdTerminator :: rest) := by simp
      exfalso
      by_cases hterminator : bad = cmdTerminator
      · have hshort : (code :: front).length < fsMaxCmdLength := by
          rw [List.length_cons, List.length_append] at hlength
          rw [List.length_cons]
          omega
        rw [hbuffer, hterminator, visibleCommands_plain _ hshort hplain] at hvisible
        have hsame := congrArg List.length (List.cons.inj hvisible).1
        simp at hsame
      · have hbreak : isLineBreak bad = true := by simpa [hterminator] using hbad
        rw [hbuffer, visibleCommands, commandsIn_eq_nil_of_break hplain hbreak] at hvisible
        exact absurd hvisible (by simp)

/-- The message of a list of commands is read back exactly when all their values
are plain. -/
theorem parsesTo_commandStream_iff {queue : FsCommandRingbuffer} (hempty : queue.toList = [])
    {cmds : List FsCommandInfo} (hcount : cmds.length < fsMaxCmdQueueLength)
    (hcodes : ∀ cmd ∈ cmds, ∃ code text, cmd.payload = code :: text ∧
      code ≠ cmdTerminator ∧ isLineBreak code = false) :
    ParsesTo queue (cmdTerminator :: commandStream cmds) (cmds.map FsCommandInfo.payload) ↔
      ∀ cmd ∈ cmds, ∀ inByte ∈ cmd.payload,
        inByte ≠ cmdTerminator ∧ isLineBreak inByte = false := by
  constructor
  · intro hparses
    have hvisible := visibleCommands_of_parsesTo hempty hparses
    have hleading : visibleCommands (cmdTerminator :: commandStream cmds) =
        visibleCommands (commandStream cmds) := by
      simp [visibleCommands, commandsIn, scanCommands, FsCommandInfo.empty]
    rw [hleading] at hvisible
    clear hparses hleading hcount
    induction cmds with
    | nil => simp
    | cons cmd later ih =>
        rw [List.forall_mem_cons] at hcodes ⊢
        obtain ⟨⟨code, text, hpayload, hcode⟩, hlater⟩ := hcodes
        have hstream : commandStream (cmd :: later) =
            code :: text ++ cmdTerminator :: commandStream later := by
          simp [commandStream, join, hpayload]
        rw [hstream, List.map_cons, hpayload] at hvisible
        obtain ⟨htext, hrest⟩ := plain_of_visibleCommands (hpayload ▸ cmd.payload_lt) hcode hvisible
        rw [hpayload]
        exact ⟨List.forall_mem_cons.2 ⟨hcode, htext⟩, ih hlater hrest⟩
  · intro hplain
    have hscan : scanCommands .empty .waiting (cmdTerminator :: commandStream cmds) =
        (.empty :: cmds, false) := by
      rw [scanCommands, if_pos rfl, scanCommands_commandStream cmds hplain]
    have hfit : queue.count + (scanCommands .empty .waiting
        (cmdTerminator :: commandStream cmds)).1.length ≤ fsMaxCmdQueueLength := by
      rw [hscan, (RingBuffer.toList_eq_nil_iff queue).1 hempty, List.length_cons]
      omega
    obtain ⟨hcode, hqueue⟩ := fsSegmentCommandsFrom_of_fit queue .empty .waiting _ hfit
    rw [hscan] at hcode hqueue
    refine ⟨hcode, ?_⟩
    rw [fsSegmentCommands, hqueue, hempty, List.nil_append, List.map_cons,
      List.filter_cons_of_neg (by simp [FsCommandInfo.empty])]
    refine List.filter_eq_self.2 fun payload hpayload => ?_
    obtain ⟨cmd, hcmd, rfl⟩ := List.mem_map.1 hpayload
    obtain ⟨code, text, heq, _⟩ := hcodes cmd hcmd
    simp [heq]

/-- A text that fits is printed as a whole. -/
theorem printed_of_short {size : Nat} {text : List UInt8} (hlength : text.length < size)
    (hzero : 0 ∉ text) : printed size text = text := by
  have hshort : text.take (size - 1) = text := List.take_of_length_le (by omega)
  have hmeasured : fsSafeStrnlen (text ++ [0]) size = text.length := by
    rw [fsSafeStrnlen, List.take_of_length_le (by simp; omega), cString_append_zero hzero]
  rw [printed, hshort, hmeasured, List.take_left]

/-- The links over which network parameters are sent. -/
def serialLink (mode : FsCommunicationMode) : Bool :=
  mode = .uart || mode = .usbCdc || mode = .i2c || mode = .spi

def networkLink (mode : FsCommunicationMode) : Bool :=
  mode = .tcpUdp || mode = .tcpUdpAp

theorem messages_fsSendCommand (transmitted : Int) (device : FsDeviceInfo)
    (message : List UInt8) :
    (fsSendCommand transmitted device message).messages =
      if serialLink device.deviceParams.communicationMode ||
        networkLink device.deviceParams.communicationMode then [message] else [] := by
  rw [fsSendCommand]
  cases device.deviceParams.communicationMode <;> rfl

/-- One command of a configuration message. -/
def ConfigText.command {limit : Nat} (value : ConfigText limit) (code : UInt8)
    (hlimit : limit < 255) : FsCommandInfo where
  payload := code :: value.text
  payload_lt := by
    have hlength := value.length_text
    have hmax : fsMaxCmdLength = 256 := rfl
    rw [List.length_cons]
    omega

/-- The codes of the commands for a name of a network and its password. -/
def networkCodes (accessPoint : Bool) : UInt8 × UInt8 :=
  if accessPoint then (cmdSetSsidAp, cmdSetPasswordAp) else (cmdSetSsid, cmdSetPassword)

/-- The commands that a call is to send. -/
def networkCommands (ssid : ConfigText 32) (pw : ConfigText 63) (accessPoint : Bool) :
    List FsCommandInfo :=
  [ssid.command (networkCodes accessPoint).1 (by decide),
    pw.command (networkCodes accessPoint).2 (by decide)]

def nameCommands (name : ConfigText 31) : List FsCommandInfo :=
  [name.command cmdSetDevName (by decide)]

theorem commandText_eq {limit : Nat} (value : ConfigText limit) (code : UInt8)
    (hlimit : limit < 255) :
    commandText code value.text = (value.command code hlimit).payload ++ [cmdTerminator] := by
  rw [commandText, cString_of_not_mem value.zero_not_mem]
  rfl

/-- The printed message of two commands is their stream. -/
theorem printed_networkMessage (ssid : ConfigText 32) (pw : ConfigText 63) {first second : UInt8}
    (hfirst : 0 ≠ first) (hsecond : 0 ≠ second) :
    printed (2 * fsMaxCmdLength)
        (cmdTerminator :: (commandText first ssid.text ++ commandText second pw.text)) =
      cmdTerminator :: commandStream [ssid.command first (by decide),
        pw.command second (by decide)] := by
  have hssid := ssid.length_text
  have hpw := pw.length_text
  have hmax : fsMaxCmdLength = 256 := rfl
  rw [commandText_eq ssid first (by decide), commandText_eq pw second (by decide),
    printed_of_short]
  · simp [commandStream, join]
  · simp [ConfigText.command]
    omega
  · have hterminator : 0 ≠ cmdTerminator := by decide
    simp [ConfigText.command, ssid.zero_not_mem, pw.zero_not_mem, hfirst, hsecond, hterminator]

theorem messages_fsSetNetworkParameters (transmitted : Int) (device : FsDeviceInfo)
    (ssid : ConfigText 32) (pw : ConfigText 63) (accessPoint : Bool) :
    (fsSetNetworkParameters transmitted device ssid.text pw.text accessPoint).messages =
      if serialLink device.deviceParams.communicationMode then
        [cmdTerminator :: commandStream (networkCommands ssid pw accessPoint)] else [] := by
  have hcall : fsSetNetworkParameters transmitted device ssid.text pw.text accessPoint =
      if device.deviceParams.communicationMode = .tcpUdp ∨
          device.deviceParams.communicationMode = .tcpUdpAp then ⟨-1, []⟩
      else fsSendCommand transmitted device
        (cmdTerminator :: commandStream (networkCommands ssid pw accessPoint)) := by
    rw [fsSetNetworkParameters, printed_networkMessage ssid pw (by decide) (by decide),
      printed_networkMessage ssid pw (by decide) (by decide)]
    cases accessPoint <;> rfl
  rw [hcall, apply_ite Transmission.messages, messages_fsSendCommand]
  cases device.deviceParams.communicationMode <;> rfl

theorem messages_fsSetDeviceName (transmitted : Int) (device : FsDeviceInfo)
    (name : ConfigText 31) :
    (fsSetDeviceName transmitted device name.text).messages =
      if serialLink device.deviceParams.communicationMode ||
        networkLink device.deviceParams.communicationMode then
        [cmdTerminator :: commandStream (nameCommands name)] else [] := by
  have hlength := name.length_text
  rw [fsSetDeviceName, messages_fsSendCommand, commandText_eq name cmdSetDevName (by decide),
    printed_of_short]
  · simp [commandStream, join, nameCommands]
  · have hmax : fsMaxCmdLength = 256 := rfl
    simp [ConfigText.command]
    omega
  · have hcodes : 0 ≠ cmdTerminator ∧ 0 ≠ cmdSetDevName := by decide
    simp [ConfigText.command, name.zero_not_mem, hcodes]

/-- Values are plain as the payloads of their commands are. -/
theorem plain_command_iff {limit : Nat} (value : ConfigText limit) {code : UInt8}
    (hlimit : limit < 255) (hcode : code ≠ cmdTerminator ∧ isLineBreak code = false) :
    (∀ inByte ∈ (value.command code hlimit).payload,
        inByte ≠ cmdTerminator ∧ isLineBreak inByte = false) ↔ PlainBytes value.text := by
  rw [← plain_iff value.zero_not_mem]
  exact List.forall_mem_cons.trans (and_iff_right hcode)

/-- A configuration message is read back as the commands it is to carry exactly
when no value has a terminator of commands or a line break in it. -/
theorem configurationMessages_iff (transmitted : Int) (device : FsDeviceInfo)
    (ssid : ConfigText 32) (pw : ConfigText 63) (name : ConfigText 31) (accessPoint : Bool)
    {queue : FsCommandRingbuffer} (hempty : queue.toList = []) :
    (∀ message ∈ (fsSetNetworkParameters transmitted device ssid.text pw.text
        accessPoint).messages,
      (ParsesTo queue message
          ((networkCommands ssid pw accessPoint).map FsCommandInfo.payload) ↔
        PlainBytes ssid.text ∧ PlainBytes pw.text)) ∧
    ∀ message ∈ (fsSetDeviceName transmitted device name.text).messages,
      (ParsesTo queue message ((nameCommands name).map FsCommandInfo.payload) ↔
        PlainBytes name.text) := by
  constructor
  · intro message hmessage
    rw [messages_fsSetNetworkParameters, List.mem_ite_nil_right] at hmessage
    obtain rfl := List.mem_singleton.1 hmessage.2
    have hcodes : ((networkCodes accessPoint).1 ≠ cmdTerminator ∧
          isLineBreak (networkCodes accessPoint).1 = false) ∧
        (networkCodes accessPoint).2 ≠ cmdTerminator ∧
          isLineBreak (networkCodes accessPoint).2 = false := by
      cases accessPoint <;> exact ⟨⟨by decide, by decide⟩, by decide, by decide⟩
    have hcount : (networkCommands ssid pw accessPoint).length < fsMaxCmdQueueLength := by
      show 2 < 16
      decide
    rw [parsesTo_commandStream_iff hempty hcount]
    · rw [networkCommands, List.forall_mem_cons, List.forall_mem_singleton,
        plain_command_iff ssid _ hcodes.1, plain_command_iff pw _ hcodes.2]
    · rw [networkCommands, List.forall_mem_cons, List.forall_mem_singleton]
      exact ⟨⟨_, ssid.text, rfl, hcodes.1⟩, ⟨_, pw.text, rfl, hcodes.2⟩⟩
  · intro message hmessage
    rw [messages_fsSetDeviceName, List.mem_ite_nil_right] at hmessage
    obtain rfl := List.mem_singleton.1 hmessage.2
    have hcode : cmdSetDevName ≠ cmdTerminator ∧ isLineBreak cmdSetDevName = false := by decide
    have hcount : (nameCommands name).length < fsMaxCmdQueueLength := by
      show 1 < 16
      decide
    rw [parsesTo_commandStream_iff hempty hcount, nameCommands, List.forall_mem_singleton,
      plain_command_iff name _ hcode]
    rw [nameCommands, List.forall_mem_singleton]
    exact ⟨_, name.text, rfl, hcode⟩

/-- The value of a configuration call. -/
def configText (limit : Nat) (text : List UInt8) (hlength : text.length ≤ limit)
    (hzero : 0 ∉ text) : ConfigText limit :=
  ⟨text, hlength, hzero⟩

/-- A device on a serial line. -/
def uartDevice : FsDeviceInfo :=
  { fsDeviceInfoUninitialized with deviceParams.communicationMode := .uart }

theorem configurationMessages_iff_home :
    let ssid := configText 32 [104, 111, 109, 101] (by decide) (by decide)
    let pw := configText 63 [115, 101, 99, 114, 101, 116] (by decide) (by decide)
    ∀ message ∈ (fsSetNetworkParameters 16 uartDevice ssid.text pw.text false).messages,
      (ParsesTo uartDevice.commandQueue message
          ((networkCommands ssid pw false).map FsCommandInfo.payload) ↔
        PlainBytes ssid.text ∧ PlainBytes pw.text) :=
  (configurationMessages_iff 16 uartDevice _ _ (configText 31 [] (by decide) (by decide)) false
    (by decide)).1

/-- The network `a;R0` restarts the device. -/
theorem not_parsesTo_restart :
    ¬ ∀ (transmitted : Int) (device : FsDeviceInfo) (ssid : ConfigText 32) (pw : ConfigText 63)
      (accessPoint : Bool) (queue : FsCommandRingbuffer), queue.toList = [] →
      ∀ message ∈ (fsSetNetworkParameters transmitted device ssid.text pw.text
        accessPoint).messages,
        ParsesTo queue message
          ((networkCommands ssid pw accessPoint).map FsCommandInfo.payload) := by
  intro hall
  obtain ⟨_, hpayloads⟩ := hall 10 uartDevice
    (configText 32 [97, 59, 82, 48] (by decide) (by decide))
    (configText 63 [98] (by decide) (by decide)) false uartDevice.commandQueue (by decide)
    [59, 83, 97, 59, 82, 48, 59, 80, 98, 59] (by decide +kernel)
  have hqueue : ((fsSegmentCommands uartDevice.commandQueue
      [59, 83, 97, 59, 82, 48, 59, 80, 98, 59]).2.toList.map FsCommandInfo.payload).filter
        (· ≠ []) = [[83, 97], [82, 48], [80, 98]] := by decide +kernel
  rw [hqueue] at hpayloads
  exact absurd hpayloads (by decide)

end Trifecta
