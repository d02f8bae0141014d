/-
Starting a connection over serial or over the network: the identification
command is sent and answers are read in a bounded retry loop.  The answers of
the driver calls are the input, and every buffer handed to the command handler
is recorded.
-/
import Trifecta.CommandSegments

namespace Trifecta

open CText

abbrev connectionRetries : Nat := 10

/-- The answer of a receive call of the driver: the value it returns and what
`rx_buffer` holds afterwards. -/
structure Received where
  returned : Int
  rxBuffer : Block fsMaxDataLength
  le_returned : -2 ^ 63 ≤ returned
  returned_le : returned ≤ fsMaxDataLength

namespace Received

/-- The number of bytes the driver has put into `rx_buffer`. -/
def count (received : Received) : Nat :=
  received.returned.toNat

/-- The bytes the driver has put into `rx_buffer`. -/
def bytes (received : Received) : List UInt8 :=
  received.rxBuffer.bytes.take received.count

/-- The `ssize_t` answer stored in a `size_t`. -/
def rxLen (received : Received) : Nat :=
  (received.returned % 2 ^ 64).toNat

end Received

/-- The answers of the driver calls of one round.  The serial loop reads a
second time after an answer it could not handle, and drops what it reads. -/
structure Attempt where
  transmitted : Int
  received : Received

/-- One call of `fs_handle_received_commands`: the length it is given, and the
receive call that filled the buffer. -/
structure HandlerCall where
  bufLen : Nat
  received : Received

/-- What a round does when the identification command cannot be sent. -/
inductive TransmitFailure
  | giveUp
  | tryAgain
deriving DecidableEq, Repr

/-- How the retry loop ends: the device handle, the calls of the command
handler in order, and whether the loop was left by giving up. -/
structure Handshake where
  device : FsDeviceInfo
  calls : List HandlerCall
  gaveUp : Bool

/-- The retry loop of `fs_serial_start` and `fs_network_start`.  `stack` stands
behind `rx_buffer` in memory. -/
def handshakeLoop (onFailure : TransmitFailure) (stack : List UInt8) (device : FsDeviceInfo) :
    List Attempt → Handshake
  | [] => { device, calls := [], gaveUp := false }
  | attempt :: rest =>
      if attempt.transmitted ≤ 0 then
        if onFailure = .giveUp then { device, calls := [], gaveUp := true }
        else handshakeLoop onFailure stack device rest
      else if 0 < attempt.received.rxLen then
        let call : HandlerCall := { bufLen := attempt.received.rxLen, received := attempt.received }
        let handled := fsHandleReceivedCommands device
          ((attempt.received.rxBuffer.bytes ++ stack).take call.bufLen)
        if handled.1 = 0 then { device := handled.2, calls := [call], gaveUp := false }
        else
          let later := handshakeLoop onFailure stack handled.2 rest
          { later with calls := call :: later.calls }
      else handshakeLoop onFailure stack device rest

/-- Clearing the device name before a connection. -/
def clearDeviceName (device : FsDeviceInfo) : FsDeviceInfo :=
  { device with deviceDescriptor.deviceName := .zero 32 }

/-- The test for a device that has told its name. -/
def namedDevice (device : FsDeviceInfo) : Bool :=
  0 < fsSafeStrnlen device.deviceDescriptor.deviceName.bytes 32

/-- The platform's serial driver and threads. -/
structure SerialPlatform where
  fsInitSerialDriver : FsDeviceParams → Int × FsDeviceParams
  fsShutdownSerialDriver : FsDeviceParams → FsDeviceParams
  interruptsSupported : FsCommunicationMode → Bool
  fsInitSerialInterrupts : Int
  fsThreadStart : Int

/-- A return code, the device handle and the calls of the command handler. -/
structure StartResult where
  code : Int
  device : FsDeviceInfo
  calls : List HandlerCall

/-- `fs_serial_exit`, as far as the device handle goes. -/
def fsSerialExit (platform : SerialPlatform) (device : FsDeviceInfo) : FsDeviceInfo :=
  { device with
    deviceParams := platform.fsShutdownSerialDriver { device.deviceParams with status := .idle } }

/-- `fs_serial_start`. -/
def fsSerialStart (platform : SerialPlatform) (stack : List UInt8)
    (attempts : Fin connectionRetries → Attempt) (device : FsDeviceInfo) : StartResult :=
  let device := clearDeviceName device
  let initialized := platform.fsInitSerialDriver device.deviceParams
  let device := { device with deviceParams := initialized.2 }
  if initialized.1 ≠ 0 then { code := initialized.1, device, calls := [] }
  else
    let run := handshakeLoop .giveUp stack device (List.ofFn attempts)
    if run.gaveUp then { code := -9, device := run.device, calls := run.calls }
    else if namedDevice run.device then
      let interrupts := platform.interruptsSupported run.device.deviceParams.communicationMode &&
        run.device.driverConfig.useSerialInterruptMode
      if interrupts && platform.fsInitSerialInterrupts ≠ 0 then
        { code := -5, device := run.device, calls := run.calls }
      else if platform.fsThreadStart ≠ 0 then
        { code := -5, device := run.device, calls := run.calls }
      else { code := 0, device := run.device, calls := run.calls }
    else { code := -6, device := fsSerialExit platform run.device, calls := run.calls }

/-- The platform's TCP and UDP drivers and threads. -/
structure NetworkPlatform where
  fsInitNetworkTcpDriver : FsDeviceParams → Int × FsDeviceParams
  fsInitNetworkUdpDriver : FsDeviceParams → Int × FsDeviceParams
  fsShutdownNetworkTcpDriver : FsDeviceParams → FsDeviceParams
  fsShutdownNetworkUdpDriver : FsDeviceParams → FsDeviceParams
  /-- the port that `fs_get_udp_port_for_device` keeps for the address -/
  udpPort : List UInt8 → Int
  /-- the answer to the command that tells the device this port -/
  transmittedPort : Int
  threadsStarted : Int

/-- `fs_network_set_host_udp_port`. -/
def fsNetworkSetHostUdpPort (udpPort transmitted : Int) : Int :=
  if udpPort < 1024 ∨ 65535 < udpPort then -1
  else if 0 < transmitted then 0
  else -1

/-- Both network drivers shut down. -/
def shutdownNetwork (platform : NetworkPlatform) (params : FsDeviceParams) : FsDeviceParams :=
  platform.fsShutdownNetworkTcpDriver (platform.fsShutdownNetworkUdpDriver params)

/-- The clearing of the old name and address at the start of `fs_network_start`. -/
def setNetworkAddress (ip : List UInt8) (device : FsDeviceInfo) : FsDeviceInfo :=
  let device := clearDeviceName device
  { device with
    deviceParams.ipAddr :=
      { bytes := fsSafeStrncpy (Block.zero 39).bytes ip 38
        length_bytes := by rw [length_fsSafeStrncpy ip (by simp), Block.length_bytes] }
    deviceParams.tcpPort := fsTrifectaPort }

/-- `fs_network_start`. -/
def fsNetworkStart (platform : NetworkPlatform) (stack : List UInt8)
    (attempts : Fin connectionRetries → Attempt) (ip : List UInt8) (device : FsDeviceInfo) :
    StartResult :=
  let device := setNetworkAddress ip device
  let initialized := platform.fsInitNetworkTcpDriver device.deviceParams
  if initialized.1 ≠ 0 then
    { code := -1
      device :=
        { device with
          deviceParams := platform.fsShutdownNetworkTcpDriver
            { initialized.2 with communicationMode := .uninitialized } }
      calls := [] }
  else
    let run := handshakeLoop .tryAgain stack { device with deviceParams := initialized.2 }
      (List.ofFn attempts)
    let device := run.device
    if namedDevice device then
      let params := { device.deviceParams with udpPort := platform.udpPort ip }
      -- the UDP driver is not started when the port could not be told
      let opened :=
        if fsNetworkSetHostUdpPort params.udpPort platform.transmittedPort ≠ 0 then (-1, params)
        else platform.fsInitNetworkUdpDriver params
      if opened.1 ≠ 0 then
        { code := -2
          device :=
            { device with
              deviceParams := shutdownNetwork platform
                { opened.2 with communicationMode := .uninitialized } }
          calls := run.calls }
      else if platform.threadsStarted ≠ 0 then
        { code := -4
          device := { device with deviceParams := shutdownNetwork platform opened.2 }
          calls := run.calls }
      else { code := 0, device := { device with deviceParams := opened.2 }, calls := run.calls }
    else
      { code := -3
        device := { device with deviceParams := shutdownNetwork platform device.deviceParams }
        calls := run.calls }

/-- The handler is given no more than was received, and nothing after a failed
receive. -/
def HandlerCall.ParsesReceived (call : HandlerCall) : Prop :=
  0 ≤ call.received.returned ∧ call.bufLen ≤ call.received.count ∧
    call.bufLen ≤ fsMaxDataLength

/-- With `queued` commands waiting, the handler accepts the received bytes: no
line break stands inside a command and the command queue has room. -/
def Accepts (queued : Nat) (bytes : List UInt8) : Prop :=
  interrupted bytes = false ∧ queued + (commandsIn bytes).length ≤ fsMaxCmdQueueLength

instance (queued : Nat) (bytes : List UInt8) : Decidable (Accepts queued bytes) :=
  inferInstanceAs (Decidable (_ ∧ _))

/-- No receive fails before an answer is accepted or, where the loop gives up, a
transmission fails.  `queued` commands are waiting at the start. -/
def NoFailedReceive (onFailure : TransmitFailure) : Nat → List Attempt → Prop
  | _, [] => True
  | queued, attempt :: rest =>
      if attempt.transmitted ≤ 0 then
        onFailure = .tryAgain → NoFailedReceive onFailure queued rest
      else
        0 ≤ attempt.received.returned ∧
          (attempt.received.returned = 0 → NoFailedReceive onFailure queued rest) ∧
          (0 < attempt.received.returned → ¬ Accepts queued attempt.received.bytes →
            NoFailedReceive onFailure
              (min fsMaxCmdQueueLength (queued + (commandsIn attempt.received.bytes).length)) rest)

/-- The handler succeeds exactly on what it accepts; what it refuses stays
queued as far as there is room. -/
theorem fsHandleReceivedCommands_accepts (device : FsDeviceInfo) (buffer : List UInt8) :
    ((fsHandleReceivedCommands device buffer).1 = 0 ↔
        Accepts device.commandQueue.count buffer) ∧
      (¬ Accepts device.commandQueue.count buffer →
        (fsHandleReceivedCommands device buffer).2.commandQueue.count =
          min fsMaxCmdQueueLength (device.commandQueue.count + (commandsIn buffer).length)) := by
  by_cases hfit : device.commandQueue.count + (commandsIn buffer).length ≤ fsMaxCmdQueueLength
  · obtain ⟨hcode, hqueue⟩ :=
      fsSegmentCommandsFrom_of_fit device.commandQueue .empty .waiting buffer hfit
    have hcount := congrArg List.length hqueue
    rw [RingBuffer.length_toList, List.length_append, RingBuffer.length_toList] at hcount
    cases hbreak : interrupted buffer with
    | false =>
        have hsegment : (fsSegmentCommands device.commandQueue buffer).1 = 0 := by
          rw [fsSegmentCommands, hcode]
          exact if_neg (by rw [← interrupted, hbreak]; exact Bool.false_ne_true)
        have haccepts : Accepts device.commandQueue.count buffer := ⟨hbreak, hfit⟩
        simp [fsHandleReceivedCommands, hsegment, haccepts]
    | true =>
        have hsegment : (fsSegmentCommands device.commandQueue buffer).1 = 3 := by
          rw [fsSegmentCommands, hcode]
          exact if_pos (by rw [← interrupted, hbreak])
        have hrefused : ¬ Accepts device.commandQueue.count buffer := by
          simp [Accepts, hbreak]
        refine ⟨by simp [fsHandleReceivedCommands, hsegment, hrefused], fun _ => ?_⟩
        rw [Nat.min_eq_right hfit, fsHandleReceivedCommands, hsegment, if_pos (by decide)]
        exact hcount
  · have hover := Nat.lt_of_not_le hfit
    obtain ⟨hcode, hfull⟩ := fsHandleReceivedCommands_of_overflow device buffer hover
    have hrefused : ¬ Accepts device.commandQueue.count buffer := fun h => hfit h.2
    refine ⟨by simp [hcode, hrefused], fun _ => ?_⟩
    rw [hfull, Nat.min_eq_left (Nat.le_of_lt hover)]

namespace Received

theorem rxLen_of_nonneg {received : Received} (hok : 0 ≤ received.returned) :
    received.rxLen = received.count := by
  have hle : received.returned ≤ 512 := received.returned_le
  rw [rxLen, count, Int.emod_eq_of_lt hok (by omega)]

/-- A negative answer becomes a length far beyond the buffer. -/
theorem rxLen_of_neg {received : Received} (hfailed : received.returned < 0) :
    fsMaxDataLength < received.rxLen := by
  have hge := received.le_returned
  change 512 < (received.returned % 2 ^ 64).toNat
  omega

theorem count_le (received : Received) : received.count ≤ fsMaxDataLength := by
  have hle := received.returned_le
  rw [count]
  omega

/-- What the handler reads after a receive that has not failed. -/
theorem take_rxLen {received : Received} (hok : 0 ≤ received.returned) (stack : List UInt8) :
    (received.rxBuffer.bytes ++ stack).take received.rxLen = received.bytes := by
  rw [rxLen_of_nonneg hok, bytes, List.take_append_of_le_length]
  rw [received.rxBuffer.length_bytes]
  exact received.count_le

/-- The call after a receive is harmless exactly when the receive has not failed. -/
theorem parsesReceived_iff (received : Received) :
    HandlerCall.ParsesReceived { bufLen := received.rxLen, received } ↔
      0 ≤ received.returned := by
  constructor
  · intro hcall
    exact hcall.1
  · intro hok
    have hlen := rxLen_of_nonneg hok
    exact ⟨hok, Nat.le_of_eq hlen, hlen ▸ received.count_le⟩

end Received

/-- The calls of the retry loop are harmless exactly when no receive fails
before the loop ends. -/
theorem handshakeLoop_parsesReceived_iff (onFailure : TransmitFailure) (stack : List UInt8)
    (device : FsDeviceInfo) (attempts : List Attempt) :
    (∀ call ∈ (handshakeLoop onFailure stack device attempts).calls, call.ParsesReceived) ↔
      NoFailedReceive onFailure device.commandQueue.count attempts := by
  induction attempts generalizing device with
  | nil => simp [handshakeLoop, NoFailedReceive]
  | cons attempt rest ih =>
      rw [handshakeLoop, NoFailedReceive]
      by_cases htransmitted : attempt.transmitted ≤ 0
      · cases onFailure with
        | giveUp => simp [htransmitted]
        | tryAgain => simpa [htransmitted] using ih device
      rw [if_neg htransmitted, if_neg htransmitted]
      rcases lt_trichotomy attempt.received.returned 0 with hfailed | hnothing | hsome
      · -- the failed receive passes the guard of the loop
        have hlong := Received.rxLen_of_neg hfailed
        have hcall := (Received.parsesReceived_iff attempt.received).not.mpr (by omega)
        rw [if_pos (by omega)]
        refine iff_of_false (fun hall => hcall ?_) (fun hno => ?_)
        · refine hall _ ?_
          dsimp only
          split <;> simp
        · exact absurd hno.1 (by omega)
      · have hlen : attempt.received.rxLen = 0 := by
          rw [Received.rxLen_of_nonneg (by omega), Received.count, hnothing, Int.toNat_zero]
        simpa [hlen, hnothing] using ih device
      · have hok : 0 ≤ attempt.received.returned := Int.le_of_lt hsome
        have hlen : 0 < attempt.received.rxLen := by
          rw [Received.rxLen_of_nonneg hok, Received.count]
          omega
        have hcall := (Received.parsesReceived_iff attempt.received).mpr hok
        obtain ⟨haccepts, hrefused⟩ :=
          fsHandleReceivedCommands_accepts device attempt.received.bytes
        rw [if_pos hlen]
        simp only [Received.take_rxLen hok]
        by_cases hanswer : Accepts device.commandQueue.count attempt.received.bytes
        · rw [if_pos (haccepts.mpr hanswer)]
          simp [hanswer, hcall, hok, hsome.ne']
        · rw [if_neg (mt haccepts.mp hanswer)]
          have hlater := ih (fsHandleReceivedCommands device attempt.received.bytes).2
          rw [hrefused hanswer] at hlater
          simp [hanswer, hcall, hok, hsome, hsome.ne', hlater]

theorem fsSerialStart_calls (platform : SerialPlatform) (stack : List UInt8)
    (attempts : Fin connectionRetries → Attempt) (device : FsDeviceInfo) :
    (fsSerialStart platform stack attempts device).calls =
      if (platform.fsInitSerialDriver device.deviceParams).1 ≠ 0 then []
      else
        (handshakeLoop .giveUp stack
          { clearDeviceName device with
            deviceParams := (platform.fsInitSerialDriver device.deviceParams).2 }
          (List.ofFn attempts)).calls := by
  simp only [fsSerialStart, apply_ite StartResult.calls, ite_self]
  rfl

theorem fsNetworkStart_calls (platform : NetworkPlatform) (stack : List UInt8)
    (attempts : Fin connectionRetries → Attempt) (ip : List UInt8) (device : FsDeviceInfo) :
    (fsNetworkStart platform stack attempts ip device).calls =
      if (platform.fsInitNetworkTcpDriver (setNetworkAddress ip device).deviceParams).1 ≠ 0 then []
      else
        (handshakeLoop .tryAgain stack
          { setNetworkAddress ip device with
            deviceParams :=
              (platform.fsInitNetworkTcpDriver (setNetworkAddress ip device).deviceParams).2 }
          (List.ofFn attempts)).calls := by
  simp only [fsNetworkStart, apply_ite StartResult.calls, ite_self]

/-- Whatever the drivers answer, serial and network start hand the command
handler only received bytes exactly when their driver does not start or no
receive fails before an answer is accepted. -/
theorem starts_parseReceived_iff (serial : SerialPlatform) (network : NetworkPlatform)
    (stack : List UInt8) (attempts : Fin connectionRetries → Attempt) (ip : List UInt8)
    (device : FsDeviceInfo) :
    ((∀ call ∈ (fsSerialStart serial stack attempts device).calls, call.ParsesReceived) ↔
        (serial.fsInitSerialDriver device.deviceParams).1 ≠ 0 ∨
          NoFailedReceive .giveUp device.commandQueue.count (List.ofFn attempts)) ∧
      ((∀ call ∈ (fsNetworkStart network stack attempts ip device).calls,
          call.ParsesReceived) ↔
        (network.fsInitNetworkTcpDriver (setNetworkAddress ip device).deviceParams).1 ≠ 0 ∨
          NoFailedReceive .tryAgain device.commandQueue.count (List.ofFn attempts)) := by
  constructor
  · rw [fsSerialStart_calls]
    split
    · next hinit => simp [hinit]
    · next hinit =>
        rw [handshakeLoop_parsesReceived_iff]
        simp only [hinit, false_or]
        rfl
  · rw [fsNetworkStart_calls]
    split
    · next hinit => simp [hinit]
    · next hinit =>
        rw [handshakeLoop_parsesReceived_iff]
        simp only [hinit, false_or]
        rfl

/-- A round in which the device does not answer in time. -/
def timedOut : Attempt where
  transmitted := 13
  received :=
    { returned := -1
      rxBuffer := .zero fsMaxDataLength
      le_returned := by decide
      returned_le := by decide }

/-- Drivers that start and shut down without touching the device handle. -/
def quietNetwork : NetworkPlatform where
  fsInitNetworkTcpDriver params := (0, params)
  fsInitNetworkUdpDriver params := (0, params)
  fsShutdownNetworkTcpDriver params := params
  fsShutdownNetworkUdpDriver params := params
  udpPort _ := fsTrifectaPort
  transmittedPort := 7
  threadsStarted := 0

/-- A receive that times out in the first round gets its answer parsed, with a
length of `2 ^ 64 - 1`. -/
theorem not_parsesReceived_timedOut :
    ¬ ∀ call ∈ (fsNetworkStart quietNetwork [] (fun _ => timedOut)
        [49, 48, 46, 48, 46, 48, 46, 53] fsDeviceInfoUninitialized).calls, call.ParsesReceived := by
  rw [fsNetworkStart_calls, if_neg (by decide), handshakeLoop_parsesReceived_iff]
  intro hno
  have hfirst : 0 ≤ timedOut.received.returned := by
    rw [List.ofFn_succ, NoFailedReceive, if_neg (by decide)] at hno
    exact hno.1
  exact absurd hfirst (by decide)

end Trifecta
