/-
Opening and closing a device: the communication mode of the handle over
sequences of calls, whatever the drivers answer.
-/
import Trifecta.Handshake
import Trifecta.Library.Transitions

namespace Trifecta

open Transitions

abbrev fsTrifectaSerialBaudrate : Int := 2000000

/-- What the drivers do during one call. -/
structure Drivers where
  serial : SerialPlatform
  network : NetworkPlatform
  /-- what stands behind the receive buffer in memory -/
  stack : List UInt8
  attempts : Fin connectionRetries → Attempt
  fsShutdownSerialDriver : Int
  fsShutdownNetworkTcpDriver : Int
  fsShutdownNetworkUdpDriver : Int

inductive DriverFunction
  | fsTransmitSerial
  | fsShutdownSerialDriver
  | fsTransmitNetworkedTcp
  | fsShutdownNetworkTcpDriver
  | fsShutdownNetworkUdpDriver
deriving DecidableEq, Repr

/-- A return code, the device handle and the driver functions called. -/
structure ExitResult where
  code : Int
  device : FsDeviceInfo
  called : List DriverFunction

def FsDeviceInfo.setMode (device : FsDeviceInfo) (mode : FsCommunicationMode) : FsDeviceInfo :=
  { device with deviceParams.communicationMode := mode }

/-- The default configuration for a handle without one. -/
def configureDriver (device : FsDeviceInfo) : FsDeviceInfo :=
  if device.driverConfig.taskStackSizeBytes = 0 then
    { device with driverConfig := fsDriverConfigDefault }
  else device

section Calls

variable (drivers : Drivers) (device : FsDeviceInfo)

/-- The call of `fs_network_start` in `fs_initialize_networked`. -/
def networkStarted (ip : List UInt8) : StartResult :=
  fsNetworkStart drivers.network drivers.stack drivers.attempts ip
    ((configureDriver device).setMode .tcpUdp)

/-- `fs_initialize_networked`. -/
def fsInitializeNetworked (ip : List UInt8) : Int × FsDeviceInfo :=
  if device.deviceParams.status = .running then (-1, device)
  else
    let started := networkStarted drivers device ip
    if started.code ≠ 0 then (-1, started.device.setMode .uninitialized)
    else if started.device.deviceParams.communicationMode = .tcpUdp then (0, started.device)
    else (-1, started.device)

/-- The call of `fs_serial_start` in `fs_initialize_serial`. -/
def serialStarted (context : Int) (serialMode : FsCommunicationMode) : StartResult :=
  let device := (configureDriver device).setMode serialMode
  fsSerialStart drivers.serial drivers.stack drivers.attempts
    { device with deviceParams.serialPort := context }

/-- `fs_initialize_serial`. -/
def fsInitializeSerial (context : Int) (serialMode : FsCommunicationMode) : Int × FsDeviceInfo :=
  if device.deviceParams.status = .running then (-11, device)
  else
    let started := serialStarted drivers device context serialMode
    if started.code ≠ 0 then (started.code, started.device.setMode .uninitialized)
    else
      match started.device.deviceParams.communicationMode with
      | .uart =>
          (0, { started.device with deviceParams.baudrate := fsTrifectaSerialBaudrate })
      | .usbCdc | .i2c | .spi => (0, started.device)
      | _ => (-1, started.device)

/-- `fs_network_exit`. -/
def fsNetworkExit : ExitResult where
  code := if drivers.fsShutdownNetworkTcpDriver = 0 ∧ drivers.fsShutdownNetworkUdpDriver = 0
    then 0 else -1
  device :=
    { device with
      deviceParams := drivers.network.fsShutdownNetworkUdpDriver
        (drivers.network.fsShutdownNetworkTcpDriver { device.deviceParams with status := .idle }) }
  called := [.fsTransmitNetworkedTcp, .fsShutdownNetworkTcpDriver, .fsShutdownNetworkUdpDriver]

/-- The driver exit that `fs_closedown` calls, if any. -/
def driverExit : Option ExitResult :=
  match device.deviceParams.communicationMode with
  | .uart | .usbCdc | .i2c | .spi =>
      some
        { code := drivers.fsShutdownSerialDriver
          device := fsSerialExit drivers.serial device
          called := [.fsTransmitSerial, .fsShutdownSerialDriver] }
  | .tcpUdp => some (fsNetworkExit drivers device)
  | _ => none

/-- A handle of zero bytes. -/
def zeroedDevice : FsDeviceInfo :=
  { fsDeviceInfoUninitialized with
    deviceParams :=
      { fsDeviceParamsBlank with
        -- the mode whose number is zero
        communicationMode := .usbCdc
        tcpPort := 0
        tcpSock := 0
        udpSock := 0
        serialPort := 0 }
    driverConfig :=
      { useSerialInterruptMode := false
        serialDataReadyGpio := 0
        backgroundTaskPriority := 0
        backgroundTaskCoreAffinity := 0
        readTimeoutMicros := 0
        taskWaitMs := 0
        taskStackSizeBytes := 0 } }

/-- `fs_closedown`.  The mode is set to uninitialized and then cleared with the
rest of the handle. -/
def fsClosedown : ExitResult :=
  match driverExit drivers device with
  | none => { code := -1, device, called := [] }
  | some exited =>
      if exited.code ≠ 0 then { exited with code := -1 }
      else { code := 0, device := zeroedDevice, called := exited.called }

end Calls

/-- A handle, and whether an initialization has succeeded since the last
successful closedown. -/
structure Session where
  device : FsDeviceInfo
  isOpen : Bool

/-- A call, with what the drivers do during it; or a write of the run status by
a background thread. -/
inductive SessionCall
  | initializeNetworked (drivers : Drivers) (ip : List UInt8)
  | initializeSerial (drivers : Drivers) (context : Int) (serialMode : FsCommunicationMode)
  | closedown (drivers : Drivers)
  | threadStatus (status : FsRunStatus)

def Session.initialized (session : Session) (result : Int × FsDeviceInfo) : Session where
  device := result.2
  isOpen := session.isOpen || result.1 = 0

def sessionCall (session : Session) : SessionCall → Session
  | .initializeNetworked drivers ip =>
      session.initialized (fsInitializeNetworked drivers session.device ip)
  | .initializeSerial drivers context serialMode =>
      session.initialized (fsInitializeSerial drivers session.device context serialMode)
  | .closedown drivers =>
      let closed := fsClosedown drivers session.device
      { device := closed.device, isOpen := session.isOpen && closed.code ≠ 0 }
  | .threadStatus status =>
      { session with
        device := { session.device with deviceParams.status := status } }

def unopened : Session where
  device := fsDeviceInfoUninitialized
  isOpen := false

/-- The mode is uninitialized exactly when no session is open, and a closedown
is then refused without a call of a driver function. -/
structure ModeTracksSession (session : Session) : Prop where
  mode : session.device.deviceParams.communicationMode = .uninitialized ↔
    session.isOpen = false
  refused : session.isOpen = false → ∀ drivers,
    fsClosedown drivers session.device = { code := -1, device := session.device, called := [] }

/-- A start that fails finds no session open; one that succeeds leaves a mode
of its kind, or leaves a mode exactly when a session is open. -/
def StartTracked (isOpen : Bool) (kind : List FsCommunicationMode) (started : StartResult) :
    Prop :=
  if started.code ≠ 0 then isOpen = false
  else started.device.deviceParams.communicationMode ∈ kind ∨
    (started.device.deviceParams.communicationMode = .uninitialized ↔ isOpen = false)

/-- An initialization is refused because the handle runs, or its start is
tracked; a closedown calls no driver exit, or one that fails and leaves the mode
set. -/
def CallTracked (session : Session) : SessionCall → Prop
  | .initializeNetworked drivers ip => session.device.deviceParams.status = .running ∨
      StartTracked session.isOpen [.tcpUdp] (networkStarted drivers session.device ip)
  | .initializeSerial drivers context serialMode =>
      session.device.deviceParams.status = .running ∨
        StartTracked session.isOpen [.uart, .usbCdc, .i2c, .spi]
          (serialStarted drivers session.device context serialMode)
  | .closedown drivers => ∀ exited ∈ driverExit drivers session.device,
      exited.code ≠ 0 ∧ exited.device.deviceParams.communicationMode ≠ .uninitialized
  | .threadStatus _ => True

/-- On an uninitialized handle there is no driver to exit. -/
theorem modeTracksSession_iff (session : Session) :
    ModeTracksSession session ↔
      (session.device.deviceParams.communicationMode = .uninitialized ↔
        session.isOpen = false) := by
  constructor
  · exact ModeTracksSession.mode
  · intro hmode
    refine ⟨hmode, fun hclosed drivers => ?_⟩
    have huninit := hmode.2 hclosed
    rw [fsClosedown, driverExit, huninit]

section Steps

variable (session : Session) (drivers : Drivers)

/-- An initialization by the outcome of its start. -/
theorem initialized_tracks_iff {kind : List FsCommunicationMode} {started : StartResult}
    {result : Int × FsDeviceInfo} (hkind : .uninitialized ∉ kind)
    (hfailed : started.code ≠ 0 →
      result.1 ≠ 0 ∧ result.2.deviceParams.communicationMode = .uninitialized)
    (hstarted : started.code = 0 →
      (result.1 = 0 ↔ started.device.deviceParams.communicationMode ∈ kind) ∧
        result.2.deviceParams.communicationMode =
          started.device.deviceParams.communicationMode) :
    ModeTracksSession (session.initialized result) ↔
      StartTracked session.isOpen kind started := by
  rw [modeTracksSession_iff, Session.initialized, StartTracked]
  by_cases hcode : started.code = 0
  · obtain ⟨hreturned, hmode⟩ := hstarted hcode
    rw [if_neg (not_not_intro hcode), hmode, ← hreturned]
    by_cases hsuccess : result.1 = 0
    · have hset : started.device.deviceParams.communicationMode ≠ .uninitialized := by
        intro huninit
        exact hkind (huninit ▸ hreturned.1 hsuccess)
      simp [hsuccess, hset]
    · simp [hsuccess]
  · obtain ⟨hreturned, hmode⟩ := hfailed hcode
    simp [hcode, hreturned, hmode]

/-- A call that is refused changes nothing. -/
theorem initialized_refused {code : Int} (hcode : code ≠ 0) :
    session.initialized (code, session.device) = session := by
  simp [Session.initialized, hcode]

theorem initializeNetworked_tracks_iff (htracks : ModeTracksSession session) (ip : List UInt8) :
    ModeTracksSession (sessionCall session (.initializeNetworked drivers ip)) ↔
      CallTracked session (.initializeNetworked drivers ip) := by
  rw [sessionCall, CallTracked, fsInitializeNetworked]
  by_cases hrunning : session.device.deviceParams.status = .running
  · rw [if_pos hrunning, initialized_refused session (by decide)]
    exact iff_of_true htracks (Or.inl hrunning)
  · rw [if_neg hrunning, or_iff_right hrunning]
    apply initialized_tracks_iff session (by decide)
    · intro hcode
      simp only [hcode, ne_eq, not_false_eq_true, ↓reduceIte]
      exact ⟨by decide, rfl⟩
    · intro hcode
      simp only [hcode, ne_eq, not_true_eq_false, ↓reduceIte, List.mem_singleton]
      split_ifs with hmode
      · exact ⟨iff_of_true rfl hmode, rfl⟩
      · exact ⟨iff_of_false (by simp) hmode, rfl⟩

theorem initializeSerial_tracks_iff (htracks : ModeTracksSession session) (context : Int)
    (serialMode : FsCommunicationMode) :
    ModeTracksSession (sessionCall session (.initializeSerial drivers context serialMode)) ↔
      CallTracked session (.initializeSerial drivers context serialMode) := by
  rw [sessionCall, CallTracked, fsInitializeSerial]
  by_cases hrunning : session.device.deviceParams.status = .running
  · rw [if_pos hrunning, initialized_refused session (by decide)]
    exact iff_of_true htracks (Or.inl hrunning)
  · rw [if_neg hrunning, or_iff_right hrunning]
    apply initialized_tracks_iff session (by decide)
    · intro hcode
      simp only [hcode, ne_eq, not_false_eq_true, ↓reduceIte]
      exact ⟨trivial, rfl⟩
    · intro hcode
      simp only [hcode, ne_eq, not_true_eq_false, ↓reduceIte]
      cases hmode : (serialStarted drivers session.device context
        serialMode).device.deviceParams.communicationMode <;> simp [hmode]

/-- A closedown that succeeds leaves a handle of zero bytes, whose mode is a
valid one. -/
theorem closedown_tracks_iff (htracks : ModeTracksSession session) :
    ModeTracksSession (sessionCall session (.closedown drivers)) ↔
      CallTracked session (.closedown drivers) := by
  rw [sessionCall, CallTracked, fsClosedown]
  cases hexit : driverExit drivers session.device with
  | none =>
      simpa using htracks
  | some exited =>
      have hset : session.device.deviceParams.communicationMode ≠ .uninitialized := by
        intro huninit
        rw [driverExit, huninit] at hexit
        exact absurd hexit (by simp)
      have hopen : session.isOpen = true := by
        rw [← Bool.not_eq_false]
        exact fun hclosed => hset (htracks.mode.2 hclosed)
      by_cases hcode : exited.code = 0
      · have hzero : zeroedDevice.deviceParams.communicationMode = .usbCdc := rfl
        simp [modeTracksSession_iff, hcode, hzero]
      · simp [modeTracksSession_iff, hcode, hopen]

theorem sessionCall_tracks_iff (htracks : ModeTracksSession session) (call : SessionCall) :
    ModeTracksSession (sessionCall session call) ↔ CallTracked session call := by
  cases call with
  | initializeNetworked drivers ip =>
      exact initializeNetworked_tracks_iff session drivers htracks ip
  | initializeSerial drivers context serialMode =>
      exact initializeSerial_tracks_iff session drivers htracks context serialMode
  | closedown drivers => exact closedown_tracks_iff session drivers htracks
  | threadStatus status =>
      rw [CallTracked, iff_true, modeTracksSession_iff]
      exact htracks.mode

end Steps

/-- The mode tells after every call whether a session is open exactly when each
call is tracked where it is made. -/
theorem modeTracksSession_along_iff (calls : List SessionCall) :
    (∀ front, front <+: calls → ModeTracksSession (run sessionCall unopened front)) ↔
      Along sessionCall CallTracked unopened calls := by
  have hunopened : ModeTracksSession unopened := (modeTracksSession_iff unopened).2 (by decide)
  exact @forall_prefix_run_iff Session SessionCall sessionCall CallTracked (fun _ => True)
    ModeTracksSession (fun _ _ _ _ _ => trivial)
    (fun session call _ htracks => sessionCall_tracks_iff session htracks call) unopened calls
    trivial hunopened

/-- A device that tells its name in the first round, over drivers that always
succeed. -/
def quietDrivers : Drivers where
  serial :=
    { fsInitSerialDriver := fun params => (0, params)
      fsShutdownSerialDriver := id
      interruptsSupported := fun _ => false
      fsInitSerialInterrupts := 0
      fsThreadStart := 0 }
  network := quietNetwork
  stack := []
  attempts _ :=
    { transmitted := 13
      received :=
        { returned := 3
          rxBuffer := (Block.zero fsMaxDataLength).write 0 [73, 97, 59]
          le_returned := by decide
          returned_le := by decide } }
  fsShutdownSerialDriver := 0
  fsShutdownNetworkTcpDriver := 0
  fsShutdownNetworkUdpDriver := 0

def openThenClose : List SessionCall :=
  [.initializeSerial quietDrivers 0 .uart, .threadStatus .running, .closedown quietDrivers]

/-- After a session has been opened and closed the mode is USB CDC, and a
further closedown calls the serial driver. -/
theorem modeTracksSession_not_closed :
    ¬ ∀ calls front : List SessionCall, front <+: calls →
      ModeTracksSession (run sessionCall unopened front) := by
  intro hall
  have htracks := hall openThenClose openThenClose List.prefix_rfl
  have hclosed : (run sessionCall unopened openThenClose).isOpen = false := by decide +kernel
  have hmode : (run sessionCall unopened openThenClose).device.deviceParams.communicationMode =
      .usbCdc := by decide +kernel
  have huninit := htracks.mode.2 hclosed
  rw [hmode] at huninit
  exact absurd huninit (by decide)

end Trifecta
