/-
Opening, closing and rebooting a device over drivers that keep a state of their
own, such as a log of the system calls they make.
-/
import Trifecta.CommandFields
import Trifecta.SessionMode

namespace Trifecta

open CText

abbrev fsMaxNumberDevices : Nat := 16

/-- `fs_device_port_map_t`. -/
structure FsDevicePortMap where
  ipAddr : Block 39
  assignedIndex : Nat

/-- The static table of the network driver and the index it will assign next. -/
structure PortTable where
  devicePortMap : Fin fsMaxNumberDevices → FsDevicePortMap
  nextIndex : Nat

namespace PortTable

def zeroed : PortTable where
  devicePortMap _ := { ipAddr := .zero 39, assignedIndex := 0 }
  nextIndex := 0

/-- `strncmp` with the size of the entry's array. -/
def sameAddress (entry : FsDevicePortMap) (ip : List UInt8) : Bool :=
  cString entry.ipAddr.bytes = (cString ip).take 39

/-- `strncpy` with the size of the entry's array less one. -/
def copyAddress (array : Block 39) (ip : List UInt8) : Block 39 :=
  let copied := (cString ip).take 38
  array.write 0 (copied ++ List.replicate (38 - copied.length) 0)

/-- The index that the table has for an address, or assigns to it. -/
def assign (table : PortTable) (ip : List UInt8) : Nat × PortTable :=
  match (List.finRange fsMaxNumberDevices).find?
      (fun slot => sameAddress (table.devicePortMap slot) ip) with
  | some slot => ((table.devicePortMap slot).assignedIndex, table)
  | none =>
      let index := Fin.ofNat fsMaxNumberDevices table.nextIndex
      let entry : FsDevicePortMap :=
        { ipAddr := copyAddress (table.devicePortMap index).ipAddr ip
          assignedIndex := index }
      (index,
        { devicePortMap := Function.update table.devicePortMap index entry
          nextIndex := table.nextIndex + 1 })

/-- `fs_get_udp_port_for_device`. -/
def fsGetUdpPortForDevice (table : PortTable) (ip : List UInt8) : Int × PortTable :=
  let assigned := table.assign ip
  (fsTrifectaPort + assigned.1, assigned.2)

end PortTable

/-- A platform function reads and writes the parameters of the handle and the
state of the platform. -/
abbrev PlatformCall (σ : Type) : Type :=
  FsDeviceParams → σ → Int × FsDeviceParams × σ

inductive UpdateThread
  | serial
  | tcp
  | udp
deriving DecidableEq, Repr

/-- The platform functions that a device is opened and closed with. -/
structure Backend (σ : Type) where
  fsInitSerialDriver : PlatformCall σ
  fsShutdownSerialDriver : PlatformCall σ
  interruptsSupported : FsCommunicationMode → Bool
  fsInitSerialInterrupts : PlatformCall σ
  fsInitNetworkTcpDriver : PlatformCall σ
  fsInitNetworkUdpDriver : PlatformCall σ
  fsShutdownNetworkTcpDriver : PlatformCall σ
  fsShutdownNetworkUdpDriver : PlatformCall σ
  fsThreadStart : UpdateThread → PlatformCall σ
  /-- `fs_transmit_networked_tcp` for the command that tells the device a port -/
  transmitListeningPort : Int → PlatformCall σ

/-- What comes from the device during one call. -/
structure Answers where
  /-- what stands behind the receive buffer in memory -/
  stack : List UInt8
  attempts : Fin connectionRetries → Attempt
  /-- the number of bytes of a single command that could be sent -/
  transmittedCommand : Int

/-- The parameters that only the drivers and the calls below write. -/
structure Link where
  communicationMode : FsCommunicationMode
  status : FsRunStatus
  ipAddr : Block 39
  tcpSock : Int
  udpSock : Int
  serialPath : Block 128
  serialPort : Int

def FsDeviceParams.link (params : FsDeviceParams) : Link where
  communicationMode := params.communicationMode
  status := params.status
  ipAddr := params.ipAddr
  tcpSock := params.tcpSock
  udpSock := params.udpSock
  serialPath := params.serialPath
  serialPort := params.serialPort

/-- No command of a device reaches the link. -/
theorem link_fsHandleReceivedCommands (device : FsDeviceInfo) (cmdBuf : List UInt8) :
    (fsHandleReceivedCommands device cmdBuf).2.deviceParams.link = device.deviceParams.link := by
  have hunset := unset_fsHandleReceivedCommands device cmdBuf
  have hkept := congrArg (fun device => device.deviceParams.link) hunset
  exact hkept

theorem link_handshakeLoop (onFailure : TransmitFailure) (stack : List UInt8)
    (device : FsDeviceInfo) (attempts : List Attempt) :
    (handshakeLoop onFailure stack device attempts).device.deviceParams.link =
      device.deviceParams.link := by
  induction attempts generalizing device with
  | nil => rfl
  | cons attempt rest ih =>
      rw [handshakeLoop]
      dsimp only
      split_ifs
      · rfl
      · exact ih device
      · exact link_fsHandleReceivedCommands device _
      · exact (ih _).trans (link_fsHandleReceivedCommands device _)
      · exact ih device

/-- The default configuration leaves the parameters as they are. -/
@[simp] theorem deviceParams_configureDriver (device : FsDeviceInfo) :
    (configureDriver device).deviceParams = device.deviceParams := by
  rw [configureDriver]
  split <;> rfl

theorem deviceParams_setMode_configureDriver (device : FsDeviceInfo)
    (mode : FsCommunicationMode) :
    ((configureDriver device).setMode mode).deviceParams =
      { device.deviceParams with communicationMode := mode } := by
  rw [FsDeviceInfo.setMode, deviceParams_configureDriver]

/-- A device handle, the port table and the state of the platform. -/
structure Machine (σ : Type) where
  device : FsDeviceInfo
  ports : PortTable
  platform : σ

namespace Machine

variable {σ : Type}

def onDevice (machine : Machine σ) (change : FsDeviceInfo → FsDeviceInfo) : Machine σ :=
  { machine with device := change machine.device }

def setMode (machine : Machine σ) (mode : FsCommunicationMode) : Machine σ :=
  machine.onDevice (·.setMode mode)

/-- A call of a platform function. -/
def call (machine : Machine σ) (function : PlatformCall σ) : Int × Machine σ :=
  let answer := function machine.device.deviceParams machine.platform
  (answer.1,
    { machine with
      device := { machine.device with deviceParams := answer.2.1 }
      platform := answer.2.2 })

section Fields

variable (machine : Machine σ) (change : FsDeviceInfo → FsDeviceInfo)
  (mode : FsCommunicationMode) (function : PlatformCall σ)

@[simp] theorem device_onDevice : (machine.onDevice change).device = change machine.device :=
  rfl

@[simp] theorem platform_onDevice : (machine.onDevice change).platform = machine.platform :=
  rfl

@[simp] theorem device_setMode : (machine.setMode mode).device = machine.device.setMode mode :=
  rfl

@[simp] theorem platform_setMode : (machine.setMode mode).platform = machine.platform :=
  rfl

@[simp] theorem code_call :
    (machine.call function).1 = (function machine.device.deviceParams machine.platform).1 :=
  rfl

@[simp] theorem params_call : (machine.call function).2.device.deviceParams =
    (function machine.device.deviceParams machine.platform).2.1 :=
  rfl

@[simp] theorem platform_call : (machine.call function).2.platform =
    (function machine.device.deviceParams machine.platform).2.2 :=
  rfl

end Fields

section Calls

variable (backend : Backend σ) (answers : Answers)

/-- `fs_serial_exit`.  Sending the stop command leaves the handle as it is. -/
def fsSerialExit (machine : Machine σ) : Int × Machine σ :=
  (machine.onDevice fun device => { device with deviceParams.status := .idle }).call
    backend.fsShutdownSerialDriver

/-- The end of `fs_serial_start`, for a device that has told its name. -/
def startSerialUpdates (machine : Machine σ) : Int × Machine σ :=
  let interrupts := backend.interruptsSupported machine.device.deviceParams.communicationMode &&
    machine.device.driverConfig.useSerialInterruptMode
  let enabled := if interrupts then machine.call backend.fsInitSerialInterrupts else (0, machine)
  if enabled.1 ≠ 0 then (-5, enabled.2)
  else
    let started := enabled.2.call (backend.fsThreadStart .serial)
    if started.1 ≠ 0 then (-5, started.2) else (0, started.2)

/-- `fs_serial_start`. -/
def fsSerialStart (machine : Machine σ) : Int × Machine σ :=
  let opened := (machine.onDevice clearDeviceName).call backend.fsInitSerialDriver
  if opened.1 ≠ 0 then opened
  else
    let shaken := handshakeLoop .giveUp answers.stack opened.2.device (List.ofFn answers.attempts)
    let machine := { opened.2 with device := shaken.device }
    if shaken.gaveUp then (-9, machine)
    else if namedDevice shaken.device then startSerialUpdates backend machine
    else (-6, (fsSerialExit backend machine).2)

/-- `fs_network_set_host_udp_port`. -/
def fsNetworkSetHostUdpPort (udpPort : Int) (machine : Machine σ) : Int × Machine σ :=
  if udpPort < 1024 ∨ 65535 < udpPort then (-1, machine)
  else
    let sent := machine.call (backend.transmitListeningPort udpPort)
    if 0 < sent.1 then (0, sent.2) else (-1, sent.2)

/-- The port of the table is assigned to the handle. -/
def assignPort (ip : List UInt8) (machine : Machine σ) : Machine σ :=
  let assigned := machine.ports.fsGetUdpPortForDevice ip
  { machine with ports := assigned.2 }.onDevice fun device =>
    { device with deviceParams.udpPort := assigned.1 }

/-- The port is assigned, told to the device and opened. -/
def openUdp (ip : List UInt8) (machine : Machine σ) : Int × Machine σ :=
  let machine := machine.assignPort ip
  let announced := fsNetworkSetHostUdpPort backend machine.device.deviceParams.udpPort machine
  if announced.1 ≠ 0 then announced else announced.2.call backend.fsInitNetworkUdpDriver

/-- Both network drivers shut down. -/
def shutdownNetwork (machine : Machine σ) : Machine σ :=
  ((machine.call backend.fsShutdownNetworkUdpDriver).2.call backend.fsShutdownNetworkTcpDriver).2

/-- Both update threads of a network device, and the sum of their return codes. -/
def startNetworkUpdates (machine : Machine σ) : Int × Machine σ :=
  let tcp := machine.call (backend.fsThreadStart .tcp)
  let udp := tcp.2.call (backend.fsThreadStart .udp)
  (tcp.1 + udp.1, udp.2)

/-- The end of `fs_network_start`, after the UDP driver. -/
def startNetworkDevice (udp : Int × Machine σ) : Int × Machine σ :=
  if udp.1 ≠ 0 then (-2, shutdownNetwork backend (udp.2.setMode .uninitialized))
  else
    let updates := startNetworkUpdates backend udp.2
    if updates.1 ≠ 0 then (-4, shutdownNetwork backend updates.2) else (0, updates.2)

/-- `fs_network_start`. -/
def fsNetworkStart (ip : List UInt8) (machine : Machine σ) : Int × Machine σ :=
  let tcp := (machine.onDevice (setNetworkAddress ip)).call backend.fsInitNetworkTcpDriver
  if tcp.1 ≠ 0 then
    (-1, ((tcp.2.setMode .uninitialized).call backend.fsShutdownNetworkTcpDriver).2)
  else
    let shaken := handshakeLoop .tryAgain answers.stack tcp.2.device (List.ofFn answers.attempts)
    let machine := { tcp.2 with device := shaken.device }
    if namedDevice shaken.device then startNetworkDevice backend (openUdp backend ip machine)
    else (-3, shutdownNetwork backend machine)

/-- The call of `fs_network_start` in `fs_initialize_networked`. -/
def networkStarted (ip : List UInt8) (machine : Machine σ) : Int × Machine σ :=
  fsNetworkStart backend answers ip ((machine.onDevice configureDriver).setMode .tcpUdp)

/-- `fs_initialize_networked`. -/
def fsInitializeNetworked (ip : List UInt8) (machine : Machine σ) : Int × Machine σ :=
  if machine.device.deviceParams.status = .running then (-1, machine)
  else
    let started := networkStarted backend answers ip machine
    if started.1 ≠ 0 then (-1, started.2.setMode .uninitialized)
    else if started.2.device.deviceParams.communicationMode = .tcpUdp then (0, started.2)
    else (-1, started.2)

/-- The call of `fs_serial_start` in `fs_initialize_serial`. -/
def serialStarted (context : Int) (serialMode : FsCommunicationMode) (machine : Machine σ) :
    Int × Machine σ :=
  fsSerialStart backend answers
    (((machine.onDevice configureDriver).setMode serialMode).onDevice fun device =>
      { device with deviceParams.serialPort := context })

/-- `fs_initialize_serial`. -/
def fsInitializeSerial (context : Int) (serialMode : FsCommunicationMode)
    (machine : Machine σ) : Int × Machine σ :=
  if machine.device.deviceParams.status = .running then (-11, machine)
  else
    let started := serialStarted backend answers context serialMode machine
    if started.1 ≠ 0 then (started.1, started.2.setMode .uninitialized)
    else
      match started.2.device.deviceParams.communicationMode with
      | .uart =>
          (0, started.2.onDevice fun device =>
            { device with deviceParams.baudrate := fsTrifectaSerialBaudrate })
      | .usbCdc | .i2c | .spi => (0, started.2)
      | _ => (-1, started.2)

/-- `fs_network_exit`. -/
def fsNetworkExit (machine : Machine σ) : Int × Machine σ :=
  let idle := machine.onDevice fun device => { device with deviceParams.status := .idle }
  let tcp := idle.call backend.fsShutdownNetworkTcpDriver
  let udp := tcp.2.call backend.fsShutdownNetworkUdpDriver
  (if tcp.1 = 0 ∧ udp.1 = 0 then 0 else -1, udp.2)

/-- The driver exit that `fs_closedown` calls, if any. -/
def driverExit (machine : Machine σ) : Option (Int × Machine σ) :=
  match machine.device.deviceParams.communicationMode with
  | .uart | .usbCdc | .i2c | .spi => some (fsSerialExit backend machine)
  | .tcpUdp => some (fsNetworkExit backend machine)
  | _ => none

/-- `fs_closedown`. -/
def fsClosedown (machine : Machine σ) : Int × Machine σ :=
  match driverExit backend machine with
  | none => (-1, machine)
  | some exited =>
      if exited.1 ≠ 0 then (-1, exited.2) else (0, exited.2.onDevice fun _ => zeroedDevice)

/-- The answer of `fs_send_command`. -/
def fsSendCommand (machine : Machine σ) : Int :=
  match machine.device.deviceParams.communicationMode with
  | .uart | .usbCdc | .i2c | .spi => if 0 < answers.transmittedCommand then 0 else -1
  | .tcpUdp | .tcpUdpAp => answers.transmittedCommand
  | _ => -1

/-- `fs_reboot_device`. -/
def fsRebootDevice (machine : Machine σ) : Int × Machine σ :=
  let sent := fsSendCommand answers machine
  if sent < 0 then (sent, machine) else fsClosedown backend machine

/-- The end of a network start succeeds when the UDP driver and the threads have
started, and leaves everything to the threads. -/
theorem startNetworkDevice_started (udp : Int × Machine σ) :
    let started := startNetworkDevice backend udp
    let updates := startNetworkUpdates backend udp.2
    (started.1 = 0 ↔ udp.1 = 0 ∧ updates.1 = 0) ∧ (started.1 = 0 → started.2 = updates.2) := by
  rw [startNetworkDevice]
  by_cases hopened : udp.1 = 0
  · rw [if_neg (not_not_intro hopened)]
    by_cases hupdates : (startNetworkUpdates backend udp.2).1 = 0 <;> simp [hopened, hupdates]
  · simp [hopened]

end Calls

/-- A property of the parameters and the platform at this point. -/
def Holds (inv : FsDeviceParams → σ → Prop) (machine : Machine σ) : Prop :=
  inv machine.device.deviceParams machine.platform

end Machine

/-- A platform function keeps a property of the parameters and the platform. -/
def Kept {σ : Type} (inv : FsDeviceParams → σ → Prop) (function : PlatformCall σ) : Prop :=
  ∀ params platform, inv params platform →
    inv (function params platform).2.1 (function params platform).2.2

/-- The network functions keep a property that depends on the sockets and holds
without a mode whenever it holds with one. -/
structure NetworkKept {σ : Type} (backend : Backend σ) (inv : FsDeviceParams → σ → Prop) :
    Prop where
  initTcp : Kept inv backend.fsInitNetworkTcpDriver
  initUdp : Kept inv backend.fsInitNetworkUdpDriver
  shutdownTcp : Kept inv backend.fsShutdownNetworkTcpDriver
  shutdownUdp : Kept inv backend.fsShutdownNetworkUdpDriver
  threadStart : ∀ thread, Kept inv (backend.fsThreadStart thread)
  listeningPort : ∀ port, Kept inv (backend.transmitListeningPort port)
  sockets : ∀ (params next : FsDeviceParams) (platform : σ), next.tcpSock = params.tcpSock →
    next.udpSock = params.udpSock →
    next.communicationMode = params.communicationMode ∨ next.communicationMode = .uninitialized →
    inv params platform → inv next platform

namespace Machine

section Keeping

variable {σ : Type} {inv : FsDeviceParams → σ → Prop} {backend : Backend σ}
  (hkept : NetworkKept backend inv) {machine : Machine σ}

include hkept

theorem shutdownNetwork_holds (hholds : machine.Holds inv) :
    (machine.shutdownNetwork backend).Holds inv :=
  hkept.shutdownTcp _ _ (hkept.shutdownUdp _ _ hholds)

theorem uninitialized_holds (hholds : machine.Holds inv) :
    (machine.setMode .uninitialized).Holds inv :=
  hkept.sockets machine.device.deviceParams _ _ rfl rfl (Or.inr rfl) hholds

theorem openUdp_holds (hholds : machine.Holds inv) (ip : List UInt8) :
    (machine.openUdp backend ip).2.Holds inv := by
  have hassigned : (machine.assignPort ip).Holds inv :=
    hkept.sockets machine.device.deviceParams _ _ rfl rfl (Or.inl rfl) hholds
  have htold : ∀ port,
      ((machine.assignPort ip).fsNetworkSetHostUdpPort backend port).2.Holds inv := by
    intro port
    rw [fsNetworkSetHostUdpPort]
    split_ifs
    · exact hassigned
    · dsimp only
      split <;> exact hkept.listeningPort port _ _ hassigned
  rw [openUdp]
  split
  · exact htold _
  · exact hkept.initUdp _ _ (htold _)

theorem startNetworkDevice_holds {udp : Int × Machine σ} (hudp : udp.2.Holds inv) :
    (startNetworkDevice backend udp).2.Holds inv := by
  have hupdates : (udp.2.startNetworkUpdates backend).2.Holds inv :=
    hkept.threadStart .udp _ _ (hkept.threadStart .tcp _ _ hudp)
  rw [startNetworkDevice]
  split
  · exact shutdownNetwork_holds hkept (uninitialized_holds hkept hudp)
  · dsimp only
    split
    · exact shutdownNetwork_holds hkept hupdates
    · exact hupdates

/-- A network start keeps what the functions it calls keep. -/
theorem fsNetworkStart_holds (hholds : machine.Holds inv) (answers : Answers)
    (ip : List UInt8) :
    (machine.fsNetworkStart backend answers ip).2.Holds inv := by
  have hrequested : (machine.onDevice (setNetworkAddress ip)).Holds inv :=
    hkept.sockets machine.device.deviceParams _ _ rfl rfl (Or.inl rfl) hholds
  have hopened : ((machine.onDevice (setNetworkAddress ip)).call
      backend.fsInitNetworkTcpDriver).2.Holds inv := hkept.initTcp _ _ hrequested
  rw [fsNetworkStart]
  generalize (machine.onDevice (setNetworkAddress ip)).call
    backend.fsInitNetworkTcpDriver = opened at hopened ⊢
  split
  · exact hkept.shutdownTcp _ _ (uninitialized_holds hkept hopened)
  · have hlink := link_handshakeLoop .tryAgain answers.stack opened.2.device
      (List.ofFn answers.attempts)
    have hshaken : Holds inv
        { opened.2 with
          device := (handshakeLoop .tryAgain answers.stack opened.2.device
            (List.ofFn answers.attempts)).device } :=
      hkept.sockets opened.2.device.deviceParams _ _ (congrArg Link.tcpSock hlink)
        (congrArg Link.udpSock hlink) (Or.inl (congrArg Link.communicationMode hlink)) hopened
    dsimp only
    split
    · exact startNetworkDevice_holds hkept (openUdp_holds hkept hshaken ip)
    · exact shutdownNetwork_holds hkept hshaken

end Keeping

end Machine

/-- Drivers that keep no state of their own and threads that leave the handle
to their caller. -/
def Drivers.backend (drivers : Drivers) : Backend Unit where
  fsInitSerialDriver params _ :=
    let answer := drivers.serial.fsInitSerialDriver params
    (answer.1, answer.2, ())
  fsShutdownSerialDriver params _ :=
    (drivers.fsShutdownSerialDriver, drivers.serial.fsShutdownSerialDriver params, ())
  interruptsSupported := drivers.serial.interruptsSupported
  fsInitSerialInterrupts params _ := (drivers.serial.fsInitSerialInterrupts, params, ())
  fsInitNetworkTcpDriver params _ :=
    let answer := drivers.network.fsInitNetworkTcpDriver params
    (answer.1, answer.2, ())
  fsInitNetworkUdpDriver params _ :=
    let answer := drivers.network.fsInitNetworkUdpDriver params
    (answer.1, answer.2, ())
  fsShutdownNetworkTcpDriver params _ :=
    (drivers.fsShutdownNetworkTcpDriver, drivers.network.fsShutdownNetworkTcpDriver params, ())
  fsShutdownNetworkUdpDriver params _ :=
    (drivers.fsShutdownNetworkUdpDriver, drivers.network.fsShutdownNetworkUdpDriver params, ())
  fsThreadStart
    | .serial, params, _ => (drivers.serial.fsThreadStart, params, ())
    | .tcp, params, _ => (drivers.network.threadsStarted, params, ())
    | .udp, params, _ => (0, params, ())
  transmitListeningPort _ params _ := (drivers.network.transmittedPort, params, ())

def Drivers.answers (drivers : Drivers) (transmittedCommand : Int) : Answers where
  stack := drivers.stack
  attempts := drivers.attempts
  transmittedCommand := transmittedCommand

namespace Machine

/-- A return code and the device handle. -/
def outcome {σ : Type} (result : Int × Machine σ) : Int × FsDeviceInfo :=
  (result.1, result.2.device)

theorem outcome_ite {σ : Type} {condition : Prop} [Decidable condition]
    {first second : Int × Machine σ} {firstPlain secondPlain : StartResult}
    (hfirst : condition → outcome first = (firstPlain.code, firstPlain.device))
    (hsecond : ¬ condition → outcome second = (secondPlain.code, secondPlain.device)) :
    outcome (if condition then first else second) =
      ((if condition then firstPlain else secondPlain).code,
        (if condition then firstPlain else secondPlain).device) := by
  split
  · next hholds => exact hfirst hholds
  · next hfails => exact hsecond hfails

section Stateless

variable (drivers : Drivers) (transmittedCommand : Int) (machine : Machine Unit)

theorem outcome_startSerialUpdates (calls : List HandlerCall) :
    outcome (startSerialUpdates drivers.backend machine) =
      let device := machine.device
      let interrupts :=
        drivers.serial.interruptsSupported device.deviceParams.communicationMode &&
          device.driverConfig.useSerialInterruptMode
      let started : StartResult :=
        if interrupts && drivers.serial.fsInitSerialInterrupts ≠ 0 then
          { code := -5, device, calls }
        else if drivers.serial.fsThreadStart ≠ 0 then { code := -5, device, calls }
        else { code := 0, device, calls }
      (started.code, started.device) := by
  rw [startSerialUpdates]
  cases hinterrupts : drivers.serial.interruptsSupported
      machine.device.deviceParams.communicationMode &&
    machine.device.driverConfig.useSerialInterruptMode with
  | false =>
      by_cases hthread : drivers.serial.fsThreadStart = 0 <;>
        simp [hinterrupts, hthread, outcome, call, Drivers.backend]
  | true =>
      by_cases henabled : drivers.serial.fsInitSerialInterrupts = 0 <;>
        by_cases hthread : drivers.serial.fsThreadStart = 0 <;>
          simp [hinterrupts, henabled, hthread, outcome, call, Drivers.backend]

/-- Over drivers without a state both start functions take the same branches. -/
theorem outcome_fsSerialStart :
    outcome (fsSerialStart drivers.backend (drivers.answers transmittedCommand) machine) =
      let started := Trifecta.fsSerialStart drivers.serial drivers.stack drivers.attempts
        machine.device
      (started.code, started.device) := by
  rw [fsSerialStart, Trifecta.fsSerialStart]
  refine outcome_ite (fun _ => rfl) fun _ => ?_
  refine outcome_ite (fun _ => rfl) fun _ => ?_
  refine outcome_ite (fun _ => ?_) fun _ => rfl
  exact outcome_startSerialUpdates drivers _ _

/-- The port of the table, told and opened. -/
theorem outcome_openUdp (ip : List UInt8)
    (hport : drivers.network.udpPort ip = (machine.ports.fsGetUdpPortForDevice ip).1) :
    outcome (openUdp drivers.backend ip machine) =
      let params :=
        { machine.device.deviceParams with udpPort := drivers.network.udpPort ip }
      let opened :=
        if Trifecta.fsNetworkSetHostUdpPort params.udpPort drivers.network.transmittedPort ≠ 0 then
          (-1, params)
        else drivers.network.fsInitNetworkUdpDriver params
      (opened.1, { machine.device with deviceParams := opened.2 }) := by
  rcases hassigned : machine.ports.fsGetUdpPortForDevice ip with ⟨port, ports⟩
  rw [hassigned] at hport
  simp only [openUdp, assignPort, hassigned, fsNetworkSetHostUdpPort,
    Trifecta.fsNetworkSetHostUdpPort, hport, onDevice]
  by_cases hrange : port < 1024 ∨ 65535 < port
  · simp [hrange, outcome]
  · by_cases hsent : 0 < drivers.network.transmittedPort <;>
      simp [hrange, hsent, outcome, call, Drivers.backend]

theorem outcome_startNetworkDevice (calls : List HandlerCall) {udp : Int × Machine Unit}
    {device : FsDeviceInfo} {opened : Int × FsDeviceParams}
    (hudp : outcome udp = (opened.1, { device with deviceParams := opened.2 })) :
    outcome (startNetworkDevice drivers.backend udp) =
      let started : StartResult :=
        if opened.1 ≠ 0 then
          { code := -2
            device :=
              { device with
                deviceParams := Trifecta.shutdownNetwork drivers.network
                  { opened.2 with communicationMode := .uninitialized } }
            calls }
        else if drivers.network.threadsStarted ≠ 0 then
          { code := -4
            device :=
              { device with
                deviceParams := Trifecta.shutdownNetwork drivers.network opened.2 }
            calls }
        else { code := 0, device := { device with deviceParams := opened.2 }, calls }
      (started.code, started.device) := by
  obtain ⟨code, found, ports, _⟩ := udp
  obtain ⟨rfl, rfl⟩ := Prod.mk.inj hudp
  rw [startNetworkDevice]
  refine outcome_ite (fun _ => rfl) fun _ => ?_
  have hthreads : (startNetworkUpdates drivers.backend
      ⟨{ device with deviceParams := opened.2 }, ports, ()⟩).1 =
        drivers.network.threadsStarted :=
    Int.add_zero _
  dsimp only
  rw [hthreads]
  exact outcome_ite (fun _ => rfl) fun _ => rfl

theorem outcome_fsNetworkStart (ip : List UInt8)
    (hport : drivers.network.udpPort ip = (machine.ports.fsGetUdpPortForDevice ip).1) :
    outcome (fsNetworkStart drivers.backend (drivers.answers transmittedCommand) ip machine) =
      let started := Trifecta.fsNetworkStart drivers.network drivers.stack drivers.attempts ip
        machine.device
      (started.code, started.device) := by
  rw [fsNetworkStart, Trifecta.fsNetworkStart]
  refine outcome_ite (fun _ => rfl) fun _ => ?_
  refine outcome_ite (fun _ => ?_) fun _ => rfl
  exact outcome_startNetworkDevice drivers _ (outcome_openUdp drivers _ ip hport)

theorem outcome_fsInitializeSerial (context : Int) (serialMode : FsCommunicationMode) :
    outcome (fsInitializeSerial drivers.backend (drivers.answers transmittedCommand) context
        serialMode machine) =
      Trifecta.fsInitializeSerial drivers machine.device context serialMode := by
  have hstarted : outcome (serialStarted drivers.backend (drivers.answers transmittedCommand)
      context serialMode machine) =
      ((Trifecta.serialStarted drivers machine.device context serialMode).code,
        (Trifecta.serialStarted drivers machine.device context serialMode).device) :=
    outcome_fsSerialStart drivers transmittedCommand _
  rw [fsInitializeSerial, Trifecta.fsInitializeSerial]
  revert hstarted
  generalize serialStarted _ _ _ _ _ = started
  generalize Trifecta.serialStarted _ _ _ _ = plain
  intro hstarted
  obtain ⟨code, device, ports, _⟩ := started
  obtain ⟨rfl, rfl⟩ := Prod.mk.inj hstarted
  dsimp only
  split_ifs
  · rfl
  · rfl
  · cases hmode : plain.device.deviceParams.communicationMode <;> simp [outcome, onDevice, hmode]

theorem outcome_fsInitializeNetworked (ip : List UInt8)
    (hport : drivers.network.udpPort ip = (machine.ports.fsGetUdpPortForDevice ip).1) :
    outcome (fsInitializeNetworked drivers.backend (drivers.answers transmittedCommand) ip
        machine) =
      Trifecta.fsInitializeNetworked drivers machine.device ip := by
  have hstarted : outcome (networkStarted drivers.backend (drivers.answers transmittedCommand) ip
      machine) =
      ((Trifecta.networkStarted drivers machine.device ip).code,
        (Trifecta.networkStarted drivers machine.device ip).device) :=
    outcome_fsNetworkStart drivers transmittedCommand _ ip hport
  rw [fsInitializeNetworked, Trifecta.fsInitializeNetworked]
  revert hstarted
  generalize networkStarted _ _ _ _ = started
  generalize Trifecta.networkStarted _ _ _ = plain
  intro hstarted
  obtain ⟨code, device, ports, _⟩ := started
  obtain ⟨rfl, rfl⟩ := Prod.mk.inj hstarted
  dsimp only
  split_ifs <;> rfl

theorem outcome_fsClosedown :
    outcome (fsClosedown drivers.backend machine) =
      ((Trifecta.fsClosedown drivers machine.device).code,
        (Trifecta.fsClosedown drivers machine.device).device) := by
  have hexit : (driverExit drivers.backend machine).map outcome =
      (Trifecta.driverExit drivers machine.device).map
        (fun exited => (exited.code, exited.device)) := by
    rw [driverExit, Trifecta.driverExit]
    cases machine.device.deviceParams.communicationMode <;> rfl
  rw [fsClosedown, Trifecta.fsClosedown]
  revert hexit
  generalize driverExit drivers.backend machine = exited
  generalize Trifecta.driverExit drivers machine.device = plain
  intro hexit
  cases plain with
  | none =>
      obtain rfl := Option.map_eq_none_iff.1 hexit
      rfl
  | some plain =>
      obtain ⟨⟨code, device, ports, _⟩, rfl, hsame⟩ := Option.map_eq_some_iff.1 hexit
      obtain ⟨rfl, rfl⟩ := Prod.mk.inj hsame
      dsimp only
      split_ifs <;> rfl

end Stateless

end Machine

end Trifecta
