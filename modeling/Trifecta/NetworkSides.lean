/-
What the two threads of a network device do to the handle, in any order of their
steps: the commands that the TCP thread carries out and the packets that the UDP
thread delivers do not meet.
-/
import Trifecta.CommandChunks
import Trifecta.NetworkStop

namespace Trifecta

open Transitions

/-- What the command handler reads and sets of a handle, the rest blanked out. -/
def FsDeviceInfo.commandSide (device : FsDeviceInfo) : FsDeviceInfo :=
  { fsDeviceInfoUninitialized with
    commandQueue := device.commandQueue
    deviceDescriptor := { device.deviceDescriptor with
      deviceId := fsDeviceDescriptorBlank.deviceId }
    deviceParams := { fsDeviceParamsBlank with
      allEnabledInterfaces := device.deviceParams.allEnabledInterfaces
      ssid := device.deviceParams.ssid
      ssidAp := device.deviceParams.ssidAp
      pwAp := device.deviceParams.pwAp
      baudrate := device.deviceParams.baudrate } }

section Commands

theorem commandSide_applyCommand (device : FsDeviceInfo) (cmd : FsCommandInfo) :
    (applyCommand device cmd).commandSide = applyCommand device.commandSide cmd := by
  rw [applyCommand, applyCommand]
  cases commandField (cmd.payload.headD 0) with
  | none => rfl
  | some field =>
      cases field <;> try rfl
      -- only a positive baudrate is stored
      simp only [setField]
      split <;> rfl

theorem commandSide_drainCommands (limit : Nat) (device : FsDeviceInfo) :
    (drainCommands limit device).commandSide = drainCommands limit device.commandSide := by
  induction limit generalizing device with
  | zero => rfl
  | succ limit ih =>
      have hqueue : device.commandSide.commandQueue = device.commandQueue := rfl
      rw [drainCommands, drainCommands, hqueue]
      cases device.commandQueue.pop with
      | none => rfl
      | some popped =>
          obtain ⟨cmd, rest⟩ := popped
          dsimp only
          rw [ih, commandSide_applyCommand]
          rfl

/-- The command handler works on its side of the handle alone. -/
theorem commandSide_fsHandleReceivedCommands (device : FsDeviceInfo) (cmdBuf : List UInt8) :
    (fsHandleReceivedCommands device cmdBuf).2.commandSide =
      (fsHandleReceivedCommands device.commandSide cmdBuf).2 := by
  have hqueue : device.commandSide.commandQueue = device.commandQueue := rfl
  rw [fsHandleReceivedCommands, fsHandleReceivedCommands, hqueue]
  dsimp only
  split_ifs
  · rfl
  · exact commandSide_drainCommands _ _

end Commands

section Packets

variable (stack : Nat → FsPacketUnion)

theorem sinks_fsEnqueueIntoPacketQueue {first second : Driver} (hsinks : first.sinks = second.sinks)
    (packet : FsPacketUnion) :
    (fsEnqueueIntoPacketQueue first packet).2.sinks =
      (fsEnqueueIntoPacketQueue second packet).2.sinks := by
  obtain ⟨henqueued, hqueue, _, hsaved⟩ := PacketSinks.mk.inj hsinks
  simp only [Driver.sinks, fsEnqueueIntoPacketQueue, henqueued, hqueue, hsaved]

theorem sinks_segmentPacketsFrom (buf : List UInt8) (rxLen fuel pos : Nat) (packetCount : Int)
    {first second : Driver} (hsinks : first.sinks = second.sinks) :
    (segmentPacketsFrom stack buf rxLen fuel pos packetCount first).2.sinks =
      (segmentPacketsFrom stack buf rxLen fuel pos packetCount second).2.sinks := by
  induction fuel generalizing pos packetCount first second with
  | zero => exact hsinks
  | succ fuel ih =>
      have henqueued : first.enqueued = second.enqueued := congrArg PacketSinks.enqueued hsinks
      unfold segmentPacketsFrom
      dsimp only
      rw [henqueued]
      split_ifs
      · exact hsinks
      · exact hsinks
      · exact hsinks
      · exact ih _ _ (sinks_fsEnqueueIntoPacketQueue hsinks _)
      · exact hsinks

/-- Cutting a datagram works on the packets' side of the handle alone. -/
theorem sinks_segmentPackets (rxBuf : List UInt8) (rxLen : Nat) {first second : Driver}
    (hsinks : first.sinks = second.sinks) :
    (segmentPackets stack first rxBuf rxLen).2.sinks =
      (segmentPackets stack second rxBuf rxLen).2.sinks := by
  rw [segmentPackets, segmentPackets]
  split_ifs
  · exact hsinks
  · exact sinks_segmentPacketsFrom stack rxBuf rxLen rxLen 0 0 hsinks

/-- Over a network whatever is received is cut as a datagram. -/
theorem fsDeviceParsePacket_tcpUdp (driver : Driver) (rxBuf : List UInt8) :
    ∃ code, fsDeviceParsePacket stack driver rxBuf .tcpUdp =
      some (code, (segmentPackets stack driver rxBuf rxBuf.length).2) := by
  rw [fsDeviceParsePacket]
  split_ifs with hempty
  · exact ⟨-1, by simp [hempty, segmentPackets]⟩
  · dsimp only
    split_ifs <;> exact ⟨_, rfl⟩

end Packets

/-- The datagrams cut one after another. -/
def segmentAll (stack : Nat → FsPacketUnion) (driver : Driver) (datagrams : List (List UInt8)) :
    Driver :=
  datagrams.foldl (fun driver rxBuf => (segmentPackets stack driver rxBuf rxBuf.length).2) driver

/-- The settings are those that the TCP thread's chunks alone leave, and the packets
those that the UDP thread's datagrams alone leave. -/
structure SidesApart (stack : Nat → FsPacketUnion) (opened : Driver) (session : NetworkSession) :
    Prop where
  commands : session.driver.device.commandSide =
    (handleCalls opened.device session.handled).commandSide
  packets : session.driver.sinks = (segmentAll stack opened session.parsed).sinks

theorem Kernel.shutdownSocket_params (kernel : Kernel) (kind : SocketKind)
    (params : FsDeviceParams) (linux : Linux) :
    (kernel.shutdownSocket kind params linux).2.1 =
      if params.sock kind < 0 then params
      else { params.setSock kind (-1) with status := .idle } := by
  rw [shutdownSocket]
  dsimp only
  split <;> rfl

section Steps

variable {stack : Nat → FsPacketUnion} {opened : Driver} {session : NetworkSession}

/-- A change that reaches neither side. -/
theorem SidesApart.left (hsides : SidesApart stack opened session) {next : NetworkSession}
    (hcommands : next.driver.device.commandSide = session.driver.device.commandSide)
    (hpackets : next.driver.sinks = session.driver.sinks) (hhandled : next.handled = session.handled)
    (hparsed : next.parsed = session.parsed) : SidesApart stack opened next := by
  constructor
  · rw [hcommands, hhandled]
    exact hsides.commands
  · rw [hpackets, hparsed]
    exact hsides.packets

/-- A change of the parameters that commands do not set. -/
theorem SidesApart.setShared (hsides : SidesApart stack opened session) {next : NetworkSession}
    {params : FsDeviceParams} (hdriver : next.driver = session.driver.setParams params)
    (hcommands : (session.driver.setParams params).device.commandSide =
      session.driver.device.commandSide)
    (hhandled : next.handled = session.handled) (hparsed : next.parsed = session.parsed) :
    SidesApart stack opened next :=
  hsides.left (by rw [hdriver, hcommands]) (by rw [hdriver]; rfl) hhandled hparsed

theorem commandSide_setSock (driver : Driver) (kind : SocketKind) (sock : Int) :
    (driver.setParams (driver.device.deviceParams.setSock kind sock)).device.commandSide =
      driver.device.commandSide := by
  cases kind <;> rfl

theorem sidesApart_tcpStep (hsides : SidesApart stack opened session) (kernel : Kernel)
    (received : Received) : SidesApart stack opened (tcpStep kernel received session) := by
  rw [tcpStep]
  cases session.tcp with
  | reconnectTcp =>
      obtain ⟨sock, hsock⟩ := kernel.initSocket_params .tcp (fun linux => (kernel.connect, linux))
        session.params session.linux
      have hdriver : (session.call kernel.fsInitNetworkTcpDriver).2.driver =
          session.driver.setParams (session.params.setSock .tcp sock) :=
        congrArg session.driver.setParams hsock
      exact hsides.setShared hdriver (commandSide_setSock session.driver .tcp sock) rfl rfl
  | reconnectUdp =>
      obtain ⟨sock, hsock⟩ := kernel.initSocket_params .udp kernel.bindSocket session.params
        session.linux
      have hdriver : (session.call kernel.fsInitNetworkUdpDriver).2.driver =
          session.driver.setParams (session.params.setSock .udp sock) :=
        congrArg session.driver.setParams hsock
      exact hsides.setShared hdriver (commandSide_setSock session.driver .udp sock) rfl rfl
  | handle received =>
      have hunset := unset_fsHandleReceivedCommands session.driver.device received.bytes
      have hsinks := congrArg (fun device => Driver.sinks { session.driver with device }) hunset
      constructor
      · dsimp only
        rw [commandSide_fsHandleReceivedCommands, hsides.commands,
          ← commandSide_fsHandleReceivedCommands]
        simp only [handleCalls, List.foldl_append, List.foldl_cons, List.foldl_nil]
      · exact hsinks.trans hsides.packets
  | _ => exact hsides.left rfl rfl rfl rfl

theorem sidesApart_udpStep (hsides : SidesApart stack opened session)
    (hmode : session.params.communicationMode = .tcpUdp) (received : Received) :
    SidesApart stack opened (udpStep stack received session) := by
  rw [udpStep]
  cases session.udp with
  | parse received =>
      obtain ⟨code, hparsed⟩ := fsDeviceParsePacket_tcpUdp stack session.driver received.bytes
      obtain ⟨queue, last, saver, hdevice⟩ := onlyDelivers_segmentPackets stack session.driver
        received.bytes received.bytes.length
      dsimp only
      rw [hmode, hparsed]
      constructor
      · dsimp only
        rw [hdevice]
        exact hsides.commands
      · dsimp only
        rw [sinks_segmentPackets stack received.bytes received.bytes.length hsides.packets]
        simp only [segmentAll, List.foldl_append, List.foldl_cons, List.foldl_nil]
  | _ => exact hsides.left rfl rfl rfl rfl

section Caller

variable (hsides : session.params.communicationMode = .tcpUdp → SidesApart stack opened session)

include hsides

/-- A store of a status or a socket by the caller. -/
theorem sidesApart_stored {next : NetworkSession} (kind : SocketKind) (sock : Int)
    (status : FsRunStatus)
    (hdriver : next.driver =
      session.driver.setParams { session.params.setSock kind sock with status })
    (hhandled : next.handled = session.handled) (hparsed : next.parsed = session.parsed)
    (hmode : next.params.communicationMode = .tcpUdp) : SidesApart stack opened next := by
  have hkept := communicationMode_setSock session.params kind sock
  rw [NetworkSession.params, hdriver] at hmode
  refine (hsides (hkept.symm.trans hmode)).setShared hdriver ?_ hhandled hparsed
  cases kind <;> rfl

/-- The caller changes neither side as long as the mode is set. -/
theorem sidesApart_callerStep (kernel : Kernel)
    (hmode : (callerStep kernel session).params.communicationMode = .tcpUdp) :
    SidesApart stack opened (callerStep kernel session) := by
  rw [callerStep] at hmode ⊢
  cases hcaller : session.caller with
  | nil =>
      rw [hcaller] at hmode
      exact hsides hmode
  | cons step later =>
      rw [hcaller] at hmode
      cases step with
      | start thread =>
          obtain ⟨status, hstatus⟩ : ∃ status,
              (kernel.fsThreadStart thread.thread session.params session.linux).2.1 =
                { session.params with status } := by
            rw [Kernel.fsThreadStart]
            split_ifs <;> exact ⟨_, rfl⟩
          have hdriver := congrArg session.driver.setParams hstatus
          have hstored : ∀ next : NetworkSession,
              next.driver = session.driver.setParams { session.params with status } →
              next.handled = session.handled → next.parsed = session.parsed →
              next.params.communicationMode = .tcpUdp → SidesApart stack opened next :=
            fun next => sidesApart_stored hsides .tcp session.params.tcpSock status
          dsimp only at hmode ⊢
          split_ifs at hmode ⊢
          · cases thread <;> exact hstored _ hdriver rfl rfl hmode
          · exact hstored _ hdriver rfl rfl hmode
      | shutdown socket =>
          have hdriver := congrArg session.driver.setParams
            (kernel.shutdownSocket_params socket session.params session.linux)
          by_cases hopen : session.params.sock socket < 0
          · rw [if_pos hopen] at hdriver
            exact sidesApart_stored hsides .tcp session.params.tcpSock session.params.status
              hdriver rfl rfl hmode
          · rw [if_neg hopen] at hdriver
            exact sidesApart_stored hsides socket (-1) .idle hdriver rfl rfl hmode
      | storeMode =>
          have hstored : FsCommunicationMode.uninitialized = .tcpUdp := hmode
          exact absurd hstored (by decide)
      | erase =>
          have hzeroed : FsCommunicationMode.usbCdc = .tcpUdp := hmode
          exact absurd hzeroed (by decide)
      | testStarted | storeIdle | testClosed => exact (hsides hmode).left rfl rfl rfl rfl

/-- No step brings the sides together as long as the mode is set. -/
theorem sidesApart_networkStep (action : NetworkAction)
    (hmode : (networkStep stack session action).params.communicationMode = .tcpUdp) :
    SidesApart stack opened (networkStep stack session action) := by
  cases action with
  | tcp kernel received =>
      have hkept := (params_tcpStep kernel received session).2.1
      exact sidesApart_tcpStep (hsides (hkept.symm.trans hmode)) kernel received
  | udp received =>
      have hbefore := (params_udpStep stack received session).2.1.symm.trans hmode
      exact sidesApart_udpStep (hsides hbefore) hbefore received
  | caller kernel => exact sidesApart_callerStep hsides kernel hmode
  | closedown =>
      rw [networkStep, NetworkSession.closedown] at hmode ⊢
      split_ifs at hmode ⊢
      · exact (hsides hmode).left rfl rfl rfl rfl
      · exact hsides hmode

end Caller

end Steps

theorem sidesApart_run (stack : Nat → FsPacketUnion) (driver : Driver) (linux : Linux)
    (actions : List NetworkAction)
    (hmode : (run (networkStep stack) (networkOpened driver linux) actions).params.communicationMode
      = .tcpUdp) :
    SidesApart stack driver (run (networkStep stack) (networkOpened driver linux) actions) := by
  have hstep : ∀ session action,
      (session.params.communicationMode = .tcpUdp → SidesApart stack driver session) → True →
      (networkStep stack session action).params.communicationMode = .tcpUdp →
        SidesApart stack driver (networkStep stack session action) :=
    fun _ action hsides _ => sidesApart_networkStep hsides action
  have hopened : SidesApart stack driver (networkOpened driver linux) := ⟨rfl, rfl⟩
  exact run_invariant hstep (fun _ => hopened) (along_of_forall (fun _ _ => trivial) _ actions)
    hmode

/-- A name, as a device tells it. -/
def namedChunk : Received :=
  receivedBytes 3 (Nat.le_of_ble_eq_true rfl) ((Block.zero fsMaxDataLength).write 0 [73, 97, 59])

/-- A packet of zero bytes, of the type whose length is 145. -/
def packetDatagram : Received :=
  receivedBytes 145 (Nat.le_of_ble_eq_true rfl) (.zero fsMaxDataLength)

/-- The threads take turns until each has received something. -/
def packetAndName : List NetworkAction :=
  List.replicate 3 (.caller smallKernel) ++
    (List.replicate 4 [NetworkAction.tcp smallKernel namedChunk, .udp packetDatagram]).flatten ++
      [.tcp smallKernel namedChunk]

/-- In any order of the steps of both threads and the caller, the settings of the
handle are what the chunks of the TCP thread make of them one after another, and its
packets what the datagrams of the UDP thread do. -/
theorem networkRun_sides (stack : Nat → FsPacketUnion) (driver : Driver) (linux : Linux)
    (actions : List NetworkAction)
    (hmode : (run (networkStep stack) (networkOpened driver linux) actions).params.communicationMode
      = .tcpUdp) :
    let session := run (networkStep stack) (networkOpened driver linux) actions
    session.driver.device.commandSide =
        (handleCalls driver.device session.handled).commandSide ∧
      session.driver.sinks = (segmentAll stack driver session.parsed).sinks := by
  obtain ⟨hcommands, hpackets⟩ := sidesApart_run stack driver linux actions hmode
  exact ⟨hcommands, hpackets⟩

theorem networkRun_sides_packetAndName :
    let session := run (networkStep fun _ => .zero 185) (networkOpened driverNetworked .untouched)
      packetAndName
    session.driver.device.commandSide =
        (handleCalls driverNetworked.device session.handled).commandSide ∧
      session.driver.sinks =
        (segmentAll (fun _ => .zero 185) driverNetworked session.parsed).sinks := by
  have hmode : (run (networkStep fun _ => .zero 185) (networkOpened driverNetworked .untouched)
      packetAndName).params.communicationMode = .tcpUdp := by
    decide +kernel
  exact networkRun_sides (fun _ => .zero 185) driverNetworked .untouched packetAndName hmode

/-! What a device that sends whole packets and whole commands achieves. -/

section Delivery

variable (stack : Nat → FsPacketUnion)

end Delivery

end Trifecta
