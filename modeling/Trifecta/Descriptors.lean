/-
The descriptors that the Linux drivers close and shut down, over every sequence
of calls on one handle.
-/
import Trifecta.LinuxDrivers

namespace Trifecta

open Transitions Usage

/-- A socket whose field is not negative is held, and no two fields have the
same one. -/
structure SocketsHeld (params : FsDeviceParams) (descriptors : List (Event Int)) : Prop where
  mem_held : ∀ kind, 0 ≤ params.sock kind → params.sock kind ∈ held descriptors
  distinct : ∀ kind other, 0 ≤ params.sock kind → params.sock kind = params.sock other →
    kind = other

namespace SocketsHeld

variable {params : FsDeviceParams} {descriptors later : List (Event Int)}
  (hsockets : SocketsHeld params descriptors)

include hsockets

theorem congr {next : FsDeviceParams} (hsock : ∀ kind, next.sock kind = params.sock kind)
    (hheld : ∀ kind, 0 ≤ params.sock kind → params.sock kind ∈ held descriptors →
      params.sock kind ∈ held later) : SocketsHeld next later := by
  constructor
  · intro kind hopen
    rw [hsock] at hopen ⊢
    exact hheld kind hopen (hsockets.mem_held kind hopen)
  · intro kind other hopen hsame
    rw [hsock] at hopen
    rw [hsock, hsock] at hsame
    exact hsockets.distinct kind other hopen hsame

/-- A socket is closed and its field is cleared. -/
theorem released (kind : SocketKind) :
    SocketsHeld (params.setSock kind (-1)) (.released (params.sock kind) :: descriptors) := by
  constructor
  · intro other hother
    rw [sock_setSock] at hother ⊢
    split_ifs at hother ⊢ with hsame
    · omega
    · refine mem_held_released.2 ⟨hsockets.mem_held other hother, fun heq => hsame ?_⟩
      exact hsockets.distinct other kind hother heq
  · intro first second hfirst heq
    rw [sock_setSock] at hfirst heq
    rw [sock_setSock] at heq
    split_ifs at hfirst heq <;> first | omega | exact hsockets.distinct first second hfirst heq

/-- A new socket comes into a field. -/
theorem acquired {kind : SocketKind} {sockfd : Int} (hfresh : sockfd ∉ held descriptors) :
    SocketsHeld (params.setSock kind sockfd) (.acquired sockfd :: descriptors) := by
  constructor
  · intro other hother
    rw [sock_setSock] at hother ⊢
    split_ifs at hother ⊢ with hsame
    · exact mem_held_acquired.2 (Or.inl rfl)
    · exact mem_held_acquired.2 (Or.inr (hsockets.mem_held other hother))
  · intro first second hfirst heq
    rw [sock_setSock] at hfirst heq
    rw [sock_setSock] at heq
    split_ifs at hfirst heq with hone htwo htwo
    · rw [hone, htwo]
    · exact absurd (hsockets.mem_held second (heq ▸ hfirst)) (heq ▸ hfresh)
    · exact absurd (hsockets.mem_held first hfirst) (heq ▸ hfresh)
    · exact hsockets.distinct first second hfirst heq

end SocketsHeld

/-- Only held descriptors have been closed, and the fields of the sockets tell which
ones are held. -/
structure SocketsSound (params : FsDeviceParams) (linux : Linux) : Prop where
  proper : Proper linux.descriptors
  sockets : SocketsHeld params linux.descriptors

/-- What a network call keeps. -/
structure NetworkSound (params : FsDeviceParams) (linux : Linux) : Prop extends
    SocketsSound params linux where
  mode : params.communicationMode = .tcpUdp ∨ params.communicationMode = .uninitialized

theorem SocketsSound.congr {params next : FsDeviceParams} {linux : Linux}
    (hsound : SocketsSound params linux) (htcp : next.tcpSock = params.tcpSock)
    (hudp : next.udpSock = params.udpSock) : SocketsSound next linux := by
  refine ⟨hsound.proper, hsound.sockets.congr (fun kind => ?_) fun _ _ hheld => hheld⟩
  cases kind with
  | tcp => exact htcp
  | udp => exact hudp

/-- Only the sockets and the mode matter. -/
theorem NetworkSound.congr {params next : FsDeviceParams} {linux : Linux}
    (hsound : NetworkSound params linux) (htcp : next.tcpSock = params.tcpSock)
    (hudp : next.udpSock = params.udpSock)
    (hmode : next.communicationMode = params.communicationMode ∨
      next.communicationMode = .uninitialized) : NetworkSound next linux := by
  refine ⟨hsound.toSocketsSound.congr htcp hudp, ?_⟩
  rcases hmode with hsame | huninit
  · rw [hsame]
    exact hsound.mode
  · exact Or.inr huninit

namespace Kernel

variable (kernel : Kernel)

theorem closeStale_sound (kind : SocketKind) {params : FsDeviceParams} {linux : Linux}
    (hsound : SocketsSound params linux) :
    SocketsSound (closeStale kind params linux).1 (closeStale kind params linux).2 := by
  rw [closeStale]
  by_cases hopen : 0 ≤ params.sock kind
  · rw [if_pos hopen]
    exact ⟨⟨hsound.sockets.mem_held kind hopen, hsound.proper⟩, hsound.sockets.released kind⟩
  · rw [if_neg hopen]
    exact hsound

/-- Opening a socket keeps the log sound when preparing it leaves the
descriptors alone. -/
theorem openSocket_sound {kind : SocketKind} {prepare : Linux → Bool × Linux}
    (hprepare : ∀ linux, (prepare linux).2.descriptors = linux.descriptors) :
    Kept SocketsSound (kernel.openSocket kind prepare) := by
  intro params linux hsound
  rcases kernel.openSocket_cases kind prepare params linux
    with hresult | ⟨sockfd, _, hfresh, hresult⟩ <;> rw [hresult]
  · exact hsound
  · have hlog := hprepare (linux.log (.acquired sockfd))
    split
    · constructor
      · rw [hlog]
        exact hsound.proper
      · rw [hlog]
        exact hsound.sockets.acquired hfresh
    · constructor
      · rw [Linux.descriptors_log, hlog]
        exact hsound.proper.acquired_released
      · rw [Linux.descriptors_log, hlog]
        refine hsound.sockets.congr (fun _ => rfl) fun other _ hheld => ?_
        rwa [Linux.descriptors_log, held_acquired_released hfresh]

theorem initSocket_sound {kind : SocketKind} {prepare : Linux → Bool × Linux}
    (hprepare : ∀ linux, (prepare linux).2.descriptors = linux.descriptors) :
    Kept SocketsSound (kernel.initSocket kind prepare) := by
  intro params linux hsound
  rw [initSocket]
  split
  · exact hsound
  · exact kernel.openSocket_sound hprepare _ _ (closeStale_sound kind hsound)

theorem descriptors_bindSocket (linux : Linux) :
    (kernel.bindSocket linux).2.descriptors = linux.descriptors := by
  rw [bindSocket]
  split <;> rfl

/-- An init function keeps the log of a network session sound. -/
theorem initSocket_networkSound {kind : SocketKind} {prepare : Linux → Bool × Linux}
    (hprepare : ∀ linux, (prepare linux).2.descriptors = linux.descriptors) :
    Kept NetworkSound (kernel.initSocket kind prepare) := by
  intro params linux hsound
  refine ⟨kernel.initSocket_sound hprepare params linux hsound.toSocketsSound, ?_⟩
  obtain ⟨sock, hsock⟩ := kernel.initSocket_params kind prepare params linux
  rw [hsock, communicationMode_setSock]
  exact hsound.mode

theorem shutdownSocket_sound (kind : SocketKind) :
    Kept NetworkSound (kernel.shutdownSocket kind) := by
  intro params linux hsound
  rw [shutdownSocket]
  by_cases hclosed : params.sock kind < 0
  · rw [if_pos hclosed]
    exact hsound
  · rw [if_neg hclosed]
    have hheld := hsound.sockets.mem_held kind (Int.le_of_not_gt hclosed)
    have hreleased : NetworkSound (params.setSock kind (-1))
        ((linux.log (.used (params.sock kind))).log (.released (params.sock kind))) := by
      refine ⟨⟨hsound.proper.drop hheld, ?_⟩, ?_⟩
      · refine (hsound.sockets.released kind).congr (fun _ => rfl) fun other _ hother => ?_
        simpa using hother
      · rw [communicationMode_setSock]
        exact hsound.mode
    exact hreleased.congr rfl rfl (Or.inl rfl)

theorem fsThreadStart_sound (thread : UpdateThread) :
    Kept NetworkSound (kernel.fsThreadStart thread) := by
  intro params linux hsound
  rw [fsThreadStart]
  split <;> exact hsound.congr rfl rfl (Or.inl rfl)

/-- The Linux drivers and threads keep the log of a network session sound. -/
theorem networkKept : NetworkKept kernel.backend NetworkSound where
  initTcp := kernel.initSocket_networkSound fun _ => rfl
  initUdp := kernel.initSocket_networkSound kernel.descriptors_bindSocket
  shutdownTcp := kernel.shutdownSocket_sound .tcp
  shutdownUdp := kernel.shutdownSocket_sound .udp
  threadStart := kernel.fsThreadStart_sound
  listeningPort _ _ _ hsound := ⟨⟨hsound.proper, hsound.sockets⟩, hsound.mode⟩
  sockets _ _ _ htcp hudp hmode hsound := hsound.congr htcp hudp hmode

end Kernel

/-- Both sockets are zero, as a cleared handle has them. -/
def Cleared (params : FsDeviceParams) : Prop :=
  params.tcpSock = 0 ∧ params.udpSock = 0

instance (params : FsDeviceParams) : Decidable (Cleared params) :=
  inferInstanceAs (Decidable (_ ∧ _))

/-- Only held descriptors have been closed, and the fields of the sockets tell
which ones are held unless the handle is cleared. -/
structure DescriptorsSound (params : FsDeviceParams) (linux : Linux) : Prop where
  proper : Proper linux.descriptors
  sockets : Cleared params ∨ SocketsHeld params linux.descriptors

/-- A serial port that is not negative is held, and is no socket of the handle. -/
def SerialHeld (params : FsDeviceParams) (linux : Linux) : Prop :=
  0 ≤ params.serialPort →
    params.serialPort ∈ held linux.descriptors ∧ ∀ kind, params.serialPort ≠ params.sock kind

theorem DescriptorsSound.congr {params next : FsDeviceParams} {linux : Linux}
    (hsound : DescriptorsSound params linux) (htcp : next.tcpSock = params.tcpSock)
    (hudp : next.udpSock = params.udpSock) : DescriptorsSound next linux := by
  refine ⟨hsound.proper, hsound.sockets.imp ?_ ?_⟩
  · rintro ⟨hzero, hzero'⟩
    exact ⟨htcp.trans hzero, hudp.trans hzero'⟩
  · intro hsockets
    refine hsockets.congr (fun kind => ?_) fun _ _ hheld => hheld
    cases kind with
    | tcp => exact htcp
    | udp => exact hudp

section Serial

variable (kernel : Kernel) {params : FsDeviceParams} {linux : Linux}

/-- A serial port that is held can be closed. -/
theorem DescriptorsSound.released (hsound : DescriptorsSound params linux)
    (hserial : SerialHeld params linux) (hopen : 0 ≤ params.serialPort) :
    DescriptorsSound params (linux.log (.released params.serialPort)) := by
  obtain ⟨hheld, hother⟩ := hserial hopen
  refine ⟨⟨hheld, hsound.proper⟩, hsound.sockets.imp_right fun hsockets => ?_⟩
  refine hsockets.congr (fun _ => rfl) fun kind _ hkind => ?_
  exact mem_held_released.2 ⟨hkind, fun hsame => hother kind hsame.symm⟩

/-- A new descriptor is none of the sockets that are open. -/
theorem DescriptorsSound.acquired (hsound : DescriptorsSound params linux) {port : Int}
    (hfresh : port ∉ held linux.descriptors) :
    DescriptorsSound params (linux.log (.acquired port)) ∧
      (0 < port → ∀ kind, port ≠ params.sock kind) := by
  refine ⟨⟨hsound.proper, hsound.sockets.imp_right fun hsockets => ?_⟩, ?_⟩
  · exact hsockets.congr (fun _ => rfl) fun _ _ hkind => mem_held_acquired.2 (Or.inr hkind)
  · rintro hpos kind rfl
    rcases hsound.sockets with ⟨htcp, hudp⟩ | hsockets
    · cases kind with
      | tcp => exact absurd htcp (Int.ne_of_gt hpos)
      | udp => exact absurd hudp (Int.ne_of_gt hpos)
    · exact hfresh (hsockets.mem_held kind (Int.le_of_lt hpos))

/-- A port that is opened is held, unless it cannot be configured. -/
theorem openSerialPort_sound (hsound : DescriptorsSound params linux) {least : Int}
    (hleast : 0 < least) :
    let opened := kernel.openSerialPort least params linux
    DescriptorsSound opened.2.1 opened.2.2 ∧
      (opened.1 = 0 ∨ kernel.configureSerialPort = true → SerialHeld opened.2.1 opened.2.2) := by
  have hclosed : ∀ log, SerialHeld { params with serialPort := -1 } log :=
    fun _ hopen => absurd hopen (by simp)
  rw [Kernel.openSerialPort]
  have hfresh := kernel.openPath_fresh linux
  generalize kernel.openPath linux = port at hfresh ⊢
  dsimp only
  by_cases hopen : 0 ≤ port
  · rw [if_pos hopen]
    obtain ⟨hacquired, hother⟩ := hsound.acquired (hfresh hopen)
    by_cases hsmall : port < least
    · rw [if_pos hsmall]
      exact ⟨hacquired.congr rfl rfl, fun _ => hclosed _⟩
    rw [if_neg hsmall]
    by_cases hconfigured : kernel.configureSerialPort = true
    · rw [if_pos hconfigured]
      refine ⟨hacquired.congr rfl rfl, fun _ _ => ⟨mem_held_acquired.2 (Or.inl rfl), ?_⟩⟩
      exact hother (by omega)
    · rw [if_neg hconfigured]
      refine ⟨⟨hsound.proper.acquired_released, hsound.sockets.imp_right fun hsockets => ?_⟩,
        fun hholds => ?_⟩
      · refine hsockets.congr (fun _ => rfl) fun kind _ hkind => ?_
        rwa [Linux.descriptors_log, Linux.descriptors_log, held_acquired_released (hfresh hopen)]
      · exact absurd hholds (by simp [hconfigured])
  · rw [if_neg hopen, if_pos (by omega)]
    exact ⟨hsound.congr rfl rfl, fun _ => hclosed _⟩

/-- A socket that is closed or opened is not the serial port. -/
theorem initSocket_serialHeld {kind : SocketKind} {prepare : Linux → Bool × Linux}
    (hprepare : ∀ linux, (prepare linux).2.descriptors = linux.descriptors) :
    Kept SerialHeld (kernel.initSocket kind prepare) := by
  intro params linux hserial
  have hset : ∀ (params : FsDeviceParams) (later : Linux) (sock : Int),
      (0 ≤ params.serialPort → params.serialPort ∈ held later.descriptors ∧
        params.serialPort ≠ sock ∧ ∀ other, params.serialPort ≠ params.sock other) →
      SerialHeld (params.setSock kind sock) later := by
    intro params later sock hapart hopen
    rw [serialPort_setSock] at hopen ⊢
    obtain ⟨hheld, hsock, hother⟩ := hapart hopen
    refine ⟨hheld, fun other => ?_⟩
    rw [sock_setSock]
    split_ifs
    · exact hsock
    · exact hother other
  have hclosed : SerialHeld (Kernel.closeStale kind params linux).1
      (Kernel.closeStale kind params linux).2 := by
    rw [Kernel.closeStale]
    split
    · apply hset
      intro hopen
      obtain ⟨hheld, hother⟩ := hserial hopen
      exact ⟨mem_held_released.2 ⟨hheld, hother kind⟩, by omega, hother⟩
    · exact hserial
  rw [Kernel.initSocket]
  split
  · exact hserial
  dsimp only
  generalize Kernel.closeStale kind params linux = closed at hclosed ⊢
  rcases kernel.openSocket_cases kind prepare closed.1 closed.2
    with hresult | ⟨sockfd, _, hfresh, hresult⟩
  · rw [hresult]
    exact hclosed
  dsimp only at hresult
  rw [hresult]
  have hlog := hprepare (closed.2.log (.acquired sockfd))
  split
  · apply hset
    intro hopen
    obtain ⟨hheld, hother⟩ := hclosed hopen
    rw [hlog]
    exact ⟨mem_held_acquired.2 (Or.inr hheld), fun hsame => hfresh (hsame ▸ hheld), hother⟩
  · intro hopen
    obtain ⟨hheld, hother⟩ := hclosed hopen
    rw [Linux.descriptors_log, hlog, Linux.descriptors_log, held_acquired_released hfresh]
    exact ⟨hheld, hother⟩

theorem fsInitSerialDriver_sound (hsound : DescriptorsSound params linux) :
    let opened := kernel.fsInitSerialDriver params linux
    DescriptorsSound opened.2.1 opened.2.2 ∧
      (opened.1 = 0 → SerialHeld opened.2.1 opened.2.2) := by
  have hrefused : (-1 : Int) = 0 → SerialHeld params linux := fun hcode => absurd hcode (by decide)
  rw [Kernel.fsInitSerialDriver]
  split
  · exact ⟨hsound, hrefused⟩
  · dsimp only
    split
    · exact ⟨hsound, hrefused⟩
    · have hpath : ∀ serialPath, DescriptorsSound { params with serialPath } linux :=
        fun _ => hsound.congr rfl rfl
      have hleast : (0 : Int) < 2 := by decide
      exact ⟨(openSerialPort_sound kernel (hpath _) hleast).1,
        fun hcode => (openSerialPort_sound kernel (hpath _) hleast).2 (Or.inl hcode)⟩

/-- Shutting the serial driver down leaves no port. -/
theorem fsShutdownSerialDriver_sound (hsound : DescriptorsSound params linux)
    (hserial : SerialHeld params linux) :
    let closed := kernel.fsShutdownSerialDriver params linux
    DescriptorsSound closed.2.1 closed.2.2 ∧ SerialHeld closed.2.1 closed.2.2 ∧
      closed.2.1.communicationMode = params.communicationMode := by
  rw [Kernel.fsShutdownSerialDriver]
  by_cases hclosed : params.serialPort < 0
  · rw [if_pos hclosed]
    exact ⟨hsound, hserial, rfl⟩
  · rw [if_neg hclosed]
    refine ⟨(hsound.released hserial (Int.le_of_not_gt hclosed)).congr rfl rfl, ?_, rfl⟩
    exact fun hopen => absurd hopen (by simp)

end Serial

theorem SerialHeld.congr {params next : FsDeviceParams} {linux : Linux}
    (hserial : SerialHeld params linux) (hport : next.serialPort = params.serialPort)
    (htcp : next.tcpSock = params.tcpSock) (hudp : next.udpSock = params.udpSock) :
    SerialHeld next linux := by
  intro hopen
  rw [hport] at hopen ⊢
  refine ⟨(hserial hopen).1, fun kind => ?_⟩
  cases kind with
  | tcp => exact fun hsame => (hserial hopen).2 .tcp (hsame.trans htcp)
  | udp => exact fun hsame => (hserial hopen).2 .udp (hsame.trans hudp)

section Starts

variable (kernel : Kernel) (answers : Answers) {machine : Machine Linux}

/-- `fs_serial_exit` on a port that is held. -/
theorem fsSerialExit_sound (hsound : machine.Holds DescriptorsSound)
    (hserial : machine.Holds SerialHeld) :
    let exited := (machine.fsSerialExit kernel.backend).2
    exited.Holds DescriptorsSound ∧ exited.Holds SerialHeld ∧
      exited.device.deviceParams.communicationMode =
        machine.device.deviceParams.communicationMode := by
  have hidle : DescriptorsSound { machine.device.deviceParams with status := .idle }
      machine.platform := hsound.congr rfl rfl
  exact fsShutdownSerialDriver_sound kernel hidle (hserial.congr rfl rfl rfl)

/-- There are no interrupts on Linux, and the thread writes the run status. -/
theorem startSerialUpdates_sound (hsound : machine.Holds DescriptorsSound)
    (hserial : machine.Holds SerialHeld) :
    let started := (machine.startSerialUpdates kernel.backend).2
    started.Holds DescriptorsSound ∧ started.Holds SerialHeld := by
  have hstarted : (machine.startSerialUpdates kernel.backend).2 =
      (machine.call (kernel.fsThreadStart .serial)).2 := by
    rw [Machine.startSerialUpdates]
    simp only [Kernel.backend, Bool.false_and, Bool.false_eq_true, ↓reduceIte, ne_eq,
      not_true_eq_false]
    split <;> rfl
  dsimp only
  rw [hstarted, Machine.Holds, Machine.Holds, Machine.params_call, Machine.platform_call,
    Kernel.fsThreadStart]
  split <;> exact ⟨hsound.congr rfl rfl, hserial.congr rfl rfl rfl⟩

/-- A serial start that succeeds leaves a port that is held. -/
theorem fsSerialStart_sound (hsound : machine.Holds DescriptorsSound) :
    let started := machine.fsSerialStart kernel.backend answers
    started.2.Holds DescriptorsSound ∧ (started.1 = 0 → started.2.Holds SerialHeld) := by
  have hopened : ∀ opened,
      opened = (machine.onDevice clearDeviceName).call kernel.backend.fsInitSerialDriver →
      opened.2.Holds DescriptorsSound ∧ (opened.1 = 0 → opened.2.Holds SerialHeld) := by
    rintro opened rfl
    exact fsInitSerialDriver_sound kernel hsound
  rw [Machine.fsSerialStart]
  generalize (machine.onDevice clearDeviceName).call kernel.backend.fsInitSerialDriver =
    opened at hopened ⊢
  obtain ⟨hopensound, hopenserial⟩ := hopened opened rfl
  split
  · exact ⟨hopensound, hopenserial⟩
  · next hcode =>
      have hlink := link_handshakeLoop .giveUp answers.stack opened.2.device
        (List.ofFn answers.attempts)
      have htcp := congrArg Link.tcpSock hlink
      have hudp := congrArg Link.udpSock hlink
      have hport := congrArg Link.serialPort hlink
      dsimp only
      generalize handshakeLoop .giveUp answers.stack opened.2.device
        (List.ofFn answers.attempts) = shaken at *
      have hshaken : Machine.Holds DescriptorsSound { opened.2 with device := shaken.device } :=
        hopensound.congr htcp hudp
      have hshakenserial : Machine.Holds SerialHeld { opened.2 with device := shaken.device } :=
        (hopenserial (not_not.1 hcode)).congr hport htcp hudp
      split
      · exact ⟨hshaken, fun _ => hshakenserial⟩
      · split
        · obtain ⟨hstarted, hstartedserial⟩ :=
            startSerialUpdates_sound kernel hshaken hshakenserial
          exact ⟨hstarted, fun _ => hstartedserial⟩
        · obtain ⟨hexited, hexitedserial, _⟩ := fsSerialExit_sound kernel hshaken hshakenserial
          exact ⟨hexited, fun _ => hexitedserial⟩

end Starts

/-- The modes in which `fs_closedown` exits the serial driver. -/
def IsSerialMode (mode : FsCommunicationMode) : Prop :=
  mode ∈ [FsCommunicationMode.uart, .usbCdc, .i2c, .spi]

instance (mode : FsCommunicationMode) : Decidable (IsSerialMode mode) :=
  inferInstanceAs (Decidable (mode ∈ _))

/-- The state of a handle between two calls. -/
structure HandleSound (params : FsDeviceParams) (linux : Linux) : Prop extends
    DescriptorsSound params linux where
  serial : IsSerialMode params.communicationMode →
    params.serialPort = 0 ∨ SerialHeld params linux

/-- The same when the sockets were not cleared. -/
structure OpenSound (params : FsDeviceParams) (linux : Linux) : Prop extends
    SocketsSound params linux where
  serial : IsSerialMode params.communicationMode →
    params.serialPort = 0 ∨ SerialHeld params linux

/-- A call on the handle, with what the kernel and the device answer; or what an
update thread does between two calls. -/
inductive HandleCall
  | initializeNetworked (kernel : Kernel) (answers : Answers) (ip : List UInt8)
  | initializeSerial (kernel : Kernel) (answers : Answers) (context : Int)
      (serialMode : FsCommunicationMode)
  | rebootDevice (kernel : Kernel) (answers : Answers)
  | closedown (kernel : Kernel)
  | threadStatus (status : FsRunStatus)
  | reconnectNetwork (kernel : Kernel)
  | reconnectSerial (kernel : Kernel)

def setStatus (status : FsRunStatus) (device : FsDeviceInfo) : FsDeviceInfo :=
  { device with deviceParams.status := status }

/-- The reconnection in the loop of `fs_tcp_update_thread`. -/
def reconnectNetwork (kernel : Kernel) (machine : Machine Linux) : Machine Linux :=
  let tcp := machine.call kernel.fsInitNetworkTcpDriver
  if tcp.1 ≠ 0 then tcp.2
  else
    let udp := tcp.2.call kernel.fsInitNetworkUdpDriver
    if udp.1 ≠ 0 then udp.2 else udp.2.onDevice (setStatus .running)

/-- The reconnection in the loop of `fs_serial_update_thread`. -/
def reconnectSerial (kernel : Kernel) (machine : Machine Linux) : Machine Linux :=
  let opened := machine.call kernel.fsAttemptReconnectSerial
  if opened.1 ≠ 0 then opened.2 else opened.2.onDevice (setStatus .running)

def handleCall (machine : Machine Linux) : HandleCall → Machine Linux
  | .initializeNetworked kernel answers ip =>
      (machine.fsInitializeNetworked kernel.backend answers ip).2
  | .initializeSerial kernel answers context serialMode =>
      (machine.fsInitializeSerial kernel.backend answers context serialMode).2
  | .rebootDevice kernel answers => (machine.fsRebootDevice kernel.backend answers).2
  | .closedown kernel => (machine.fsClosedown kernel.backend).2
  | .threadStatus status => machine.onDevice (setStatus status)
  | .reconnectNetwork kernel =>
      if machine.device.deviceParams.status = .error then reconnectNetwork kernel machine
      else machine
  | .reconnectSerial kernel =>
      if machine.device.deviceParams.status = .error then reconnectSerial kernel machine
      else machine

/-- A closedown finds a port, or sockets, that were not cleared. -/
def ClosesOpened (params : FsDeviceParams) : Prop :=
  (IsSerialMode params.communicationMode → params.serialPort ≠ 0) ∧
    (params.communicationMode = .tcpUdp → ¬ Cleared params)

/-- A thread that opens the port of a serial session anew can configure it; behind a
session, in any other mode, the port it closes first is still open. -/
def ReopensOpened (kernel : Kernel) (machine : Machine Linux) : Prop :=
  if IsSerialMode machine.device.deviceParams.communicationMode then
    kernel.configureSerialPort = true
  else 2 < machine.device.deviceParams.serialPort → machine.Holds SerialHeld

/-- The call does not take a field that has been cleared, or a port that has been
closed, for an open descriptor. -/
def FindsOpened (machine : Machine Linux) : HandleCall → Prop
  | .initializeNetworked _ _ _ =>
      machine.device.deviceParams.status = .running ∨ ¬ Cleared machine.device.deviceParams
  | .initializeSerial _ _ _ _ => True
  | .rebootDevice _ answers =>
      machine.fsSendCommand answers < 0 ∨ ClosesOpened machine.device.deviceParams
  | .closedown _ => ClosesOpened machine.device.deviceParams
  | .threadStatus _ => True
  | .reconnectNetwork _ =>
      machine.device.deviceParams.status = .error → ¬ Cleared machine.device.deviceParams
  | .reconnectSerial kernel =>
      machine.device.deviceParams.status = .error → ReopensOpened kernel machine

section Steps

/-- A network call starts on sockets that were not cleared. -/
theorem DescriptorsSound.network {params : FsDeviceParams} {linux : Linux}
    (hsound : DescriptorsSound params linux) (hopen : ¬ Cleared params)
    (hmode : params.communicationMode = .tcpUdp) : NetworkSound params linux :=
  ⟨⟨hsound.proper, hsound.sockets.resolve_left hopen⟩, Or.inl hmode⟩

theorem NetworkSound.handle {params : FsDeviceParams} {linux : Linux}
    (hsound : NetworkSound params linux) : HandleSound params linux := by
  refine ⟨⟨hsound.proper, Or.inr hsound.sockets⟩, fun hserial => ?_⟩
  rcases hsound.mode with hmode | hmode <;> rw [hmode] at hserial <;>
    exact absurd hserial (by decide)

theorem HandleSound.of_serialHeld {params : FsDeviceParams} {linux : Linux}
    (hsound : DescriptorsSound params linux) (hserial : SerialHeld params linux) :
    HandleSound params linux :=
  ⟨hsound, fun _ => Or.inr hserial⟩

variable {machine : Machine Linux} (hsound : machine.Holds HandleSound)

include hsound

theorem threadStatus_sound (status : FsRunStatus) :
    (machine.onDevice (setStatus status)).Holds HandleSound := by
  refine ⟨hsound.toDescriptorsSound.congr rfl rfl, fun hmode => ?_⟩
  exact (hsound.serial hmode).imp_right fun hserial => hserial.congr rfl rfl rfl

theorem initializeNetworked_sound (kernel : Kernel) (answers : Answers) (ip : List UInt8)
    (hfinds : FindsOpened machine (.initializeNetworked kernel answers ip)) :
    (machine.fsInitializeNetworked kernel.backend answers ip).2.Holds HandleSound := by
  rw [Machine.fsInitializeNetworked]
  by_cases hrunning : machine.device.deviceParams.status = .running
  · rw [if_pos hrunning]
    exact hsound
  rw [if_neg hrunning]
  have hopen := hfinds.resolve_left hrunning
  have hconfigured : ((machine.onDevice configureDriver).setMode .tcpUdp).Holds NetworkSound := by
    rw [Machine.Holds, Machine.device_setMode, Machine.device_onDevice,
      deviceParams_setMode_configureDriver]
    have hsame : DescriptorsSound
        { machine.device.deviceParams with communicationMode := .tcpUdp } machine.platform :=
      hsound.toDescriptorsSound.congr rfl rfl
    exact hsame.network hopen rfl
  have hstarted : (machine.networkStarted kernel.backend answers ip).2.Holds NetworkSound :=
    Machine.fsNetworkStart_holds kernel.networkKept hconfigured answers ip
  dsimp only
  split_ifs
  · exact (Machine.uninitialized_holds kernel.networkKept hstarted).handle
  · exact hstarted.handle
  · exact hstarted.handle

theorem initializeSerial_sound (kernel : Kernel) (answers : Answers) (context : Int)
    (serialMode : FsCommunicationMode) :
    (machine.fsInitializeSerial kernel.backend answers context serialMode).2.Holds
      HandleSound := by
  rw [Machine.fsInitializeSerial]
  by_cases hrunning : machine.device.deviceParams.status = .running
  · rw [if_pos hrunning]
    exact hsound
  rw [if_neg hrunning]
  have hrequested : (((machine.onDevice configureDriver).setMode serialMode).onDevice
      fun device => { device with deviceParams.serialPort := context }).Holds DescriptorsSound := by
    rw [Machine.Holds, Machine.device_onDevice, Machine.device_setMode, Machine.device_onDevice]
    dsimp only
    rw [deviceParams_setMode_configureDriver]
    exact hsound.toDescriptorsSound.congr rfl rfl
  have hstart : (machine.serialStarted kernel.backend answers context serialMode).2.Holds
        DescriptorsSound ∧
      ((machine.serialStarted kernel.backend answers context serialMode).1 = 0 →
        (machine.serialStarted kernel.backend answers context serialMode).2.Holds SerialHeld) :=
    fsSerialStart_sound kernel answers hrequested
  generalize machine.serialStarted kernel.backend answers context serialMode = started at hstart ⊢
  obtain ⟨hstarted, hserial⟩ := hstart
  by_cases hcode : started.1 = 0
  · dsimp only
    rw [if_neg (not_not_intro hcode)]
    have hhandle := HandleSound.of_serialHeld hstarted (hserial hcode)
    split
    · exact .of_serialHeld (hstarted.congr rfl rfl) ((hserial hcode).congr rfl rfl rfl)
    · exact hhandle
    · exact hhandle
    · exact hhandle
    · exact hhandle
  · dsimp only
    rw [if_pos hcode]
    have huninit : ¬ IsSerialMode .uninitialized := by decide
    exact ⟨hstarted.congr rfl rfl, fun hmode => absurd hmode huninit⟩

/-- A closedown that succeeds clears the handle. -/
theorem closed_sound (code : Int) :
    (if code ≠ 0 then (-1, machine) else (0, machine.onDevice fun _ => zeroedDevice) :
      Int × Machine Linux).2.Holds HandleSound := by
  split
  · exact hsound
  · exact ⟨⟨hsound.proper, Or.inl ⟨rfl, rfl⟩⟩, fun _ => Or.inl rfl⟩

omit hsound in
theorem driverExit_eq (kernel : Kernel) : machine.driverExit kernel.backend =
    if IsSerialMode machine.device.deviceParams.communicationMode then
      some (machine.fsSerialExit kernel.backend)
    else if machine.device.deviceParams.communicationMode = .tcpUdp then
      some (machine.fsNetworkExit kernel.backend)
    else none := by
  rw [Machine.driverExit]
  cases machine.device.deviceParams.communicationMode <;> rfl

theorem closedown_sound (kernel : Kernel)
    (hcloses : ClosesOpened machine.device.deviceParams) :
    (machine.fsClosedown kernel.backend).2.Holds HandleSound := by
  rw [Machine.fsClosedown, driverExit_eq]
  by_cases hserial : IsSerialMode machine.device.deviceParams.communicationMode
  · rw [if_pos hserial]
    have hheld := (hsound.serial hserial).resolve_left (hcloses.1 hserial)
    obtain ⟨hexited, hexitedserial, _⟩ :=
      fsSerialExit_sound kernel hsound.toDescriptorsSound hheld
    exact closed_sound (.of_serialHeld hexited hexitedserial) _
  rw [if_neg hserial]
  by_cases hnetwork : machine.device.deviceParams.communicationMode = .tcpUdp
  · rw [if_pos hnetwork]
    have hsession := hsound.toDescriptorsSound.network (hcloses.2 hnetwork) hnetwork
    have hidle : NetworkSound { machine.device.deviceParams with status := .idle }
        machine.platform := hsession.congr rfl rfl (Or.inl rfl)
    have hexited : (machine.fsNetworkExit kernel.backend).2.Holds NetworkSound :=
      kernel.networkKept.shutdownUdp _ _ (kernel.networkKept.shutdownTcp _ _ hidle)
    exact closed_sound hexited.handle _
  · rw [if_neg hnetwork]
    exact hsound

theorem rebootDevice_sound (kernel : Kernel) (answers : Answers)
    (hfinds : FindsOpened machine (.rebootDevice kernel answers)) :
    (machine.fsRebootDevice kernel.backend answers).2.Holds HandleSound := by
  rw [Machine.fsRebootDevice]
  by_cases hsent : machine.fsSendCommand answers < 0
  · rw [if_pos hsent]
    exact hsound
  · rw [if_neg hsent]
    exact closedown_sound hsound kernel (hfinds.resolve_left hsent)

omit hsound in
theorem OpenSound.handle {params : FsDeviceParams} {linux : Linux}
    (hopened : OpenSound params linux) : HandleSound params linux :=
  ⟨⟨hopened.proper, Or.inr hopened.sockets⟩, hopened.serial⟩

omit hsound in
/-- Reconnecting a socket leaves a serial session as it is. -/
theorem initSocket_openSound (kernel : Kernel) {kind : SocketKind}
    {prepare : Linux → Bool × Linux}
    (hprepare : ∀ linux, (prepare linux).2.descriptors = linux.descriptors) :
    Kept OpenSound (kernel.initSocket kind prepare) := by
  intro params linux hopened
  refine ⟨kernel.initSocket_sound hprepare params linux hopened.toSocketsSound, fun hmode => ?_⟩
  obtain ⟨sock, hsock⟩ := kernel.initSocket_params kind prepare params linux
  rw [hsock, communicationMode_setSock] at hmode
  rcases hopened.serial hmode with hzero | hserial
  · rw [hsock, serialPort_setSock]
    exact Or.inl hzero
  · exact Or.inr (initSocket_serialHeld kernel hprepare params linux hserial)

theorem reconnectNetwork_sound (kernel : Kernel)
    (hopen : ¬ Cleared machine.device.deviceParams) :
    (reconnectNetwork kernel machine).Holds HandleSound := by
  have hopened : machine.Holds OpenSound :=
    ⟨⟨hsound.proper, hsound.sockets.resolve_left hopen⟩, hsound.serial⟩
  have htcp : (machine.call kernel.fsInitNetworkTcpDriver).2.Holds OpenSound :=
    initSocket_openSound kernel (fun _ => rfl) _ _ hopened
  have hudp : ((machine.call kernel.fsInitNetworkTcpDriver).2.call
      kernel.fsInitNetworkUdpDriver).2.Holds OpenSound :=
    initSocket_openSound kernel kernel.descriptors_bindSocket _ _ htcp
  rw [reconnectNetwork]
  dsimp only
  split_ifs
  · exact htcp.handle
  · exact hudp.handle
  · exact threadStatus_sound hudp.handle .running

/-- A reconnection closes a port that is held, whatever the mode is. -/
theorem closedBeforeReopening_sound {kernel : Kernel} (hreopens : ReopensOpened kernel machine) :
    DescriptorsSound machine.device.deviceParams
      (if 2 < machine.device.deviceParams.serialPort then
        machine.platform.log (.released machine.device.deviceParams.serialPort)
      else machine.platform) := by
  split
  · next hport =>
      have hheld : machine.Holds SerialHeld := by
        rw [ReopensOpened] at hreopens
        split at hreopens
        · next hserial => exact (hsound.serial hserial).resolve_left (by omega)
        · exact hreopens hport
      exact hsound.toDescriptorsSound.released hheld (by omega)
  · exact hsound.toDescriptorsSound

theorem reconnectSerial_sound (kernel : Kernel) (hreopens : ReopensOpened kernel machine) :
    (reconnectSerial kernel machine).Holds HandleSound := by
  have hleast : (0 : Int) < 3 := by decide
  obtain ⟨hagain, hserial⟩ := openSerialPort_sound kernel
    (closedBeforeReopening_sound hsound hreopens) hleast
  have hopened : (machine.call kernel.fsAttemptReconnectSerial).2.Holds HandleSound := by
    refine ⟨hagain, fun hmode => Or.inr (hserial (Or.inr ?_))⟩
    rw [ReopensOpened] at hreopens
    have hsame : (machine.call
        kernel.fsAttemptReconnectSerial).2.device.deviceParams.communicationMode =
          machine.device.deviceParams.communicationMode :=
      kernel.communicationMode_openSerialPort _ _ _
    rwa [if_pos (hsame ▸ hmode)] at hreopens
  rw [reconnectSerial]
  split
  · exact hopened
  · exact threadStatus_sound hopened .running

theorem handleCall_sound (call : HandleCall) (hfinds : FindsOpened machine call) :
    (handleCall machine call).Holds HandleSound := by
  cases call with
  | initializeNetworked kernel answers ip =>
      exact initializeNetworked_sound hsound kernel answers ip hfinds
  | initializeSerial kernel answers context serialMode =>
      exact initializeSerial_sound hsound kernel answers context serialMode
  | rebootDevice kernel answers => exact rebootDevice_sound hsound kernel answers hfinds
  | closedown kernel => exact closedown_sound hsound kernel hfinds
  | threadStatus status => exact threadStatus_sound hsound status
  | reconnectNetwork kernel =>
      rw [handleCall]
      split
      · next hreconnects =>
          exact reconnectNetwork_sound hsound kernel (hfinds hreconnects)
      · exact hsound
  | reconnectSerial kernel =>
      rw [handleCall]
      split
      · next hreconnects =>
          exact reconnectSerial_sound hsound kernel (hfinds hreconnects)
      · exact hsound

end Steps

/-- The handle as the application declares it: of zero bytes, or initialized. -/
inductive Declaration
  | zeroBytes
  | initializer
deriving DecidableEq, Repr

def Declaration.device : Declaration → FsDeviceInfo
  | .zeroBytes => zeroedDevice
  | .initializer => fsDeviceInfoUninitialized

def declared (declaration : Declaration) (ports : PortTable) : Machine Linux where
  device := declaration.device
  ports := ports
  platform := .untouched

theorem declared_sound (declaration : Declaration) (ports : PortTable) :
    (declared declaration ports).Holds HandleSound := by
  cases declaration with
  | zeroBytes => exact ⟨⟨trivial, Or.inl ⟨rfl, rfl⟩⟩, fun _ => Or.inl rfl⟩
  | initializer =>
      have hclosed : ∀ kind, ¬ 0 ≤ fsDeviceInfoUninitialized.deviceParams.sock kind := by
        intro kind
        cases kind <;> decide
      have huninit : ¬ IsSerialMode .uninitialized := by decide
      exact ⟨⟨trivial, Or.inr ⟨fun kind hopen => absurd hopen (hclosed kind),
        fun kind _ hopen => absurd hopen (hclosed kind)⟩⟩, fun hmode => absurd hmode huninit⟩

/-- In a run that never takes a cleared field for an open descriptor only held
descriptors are closed and shut down. -/
theorem descriptors_proper (declaration : Declaration) (ports : PortTable)
    (calls : List HandleCall)
    (hfinds : Along handleCall FindsOpened (declared declaration ports) calls)
    {front : List HandleCall} (hfront : front <+: calls) :
    Proper (run handleCall (declared declaration ports) front).platform.descriptors := by
  have hsound : (run handleCall (declared declaration ports) front).Holds HandleSound :=
    @run_invariant (Machine Linux) HandleCall handleCall FindsOpened (Machine.Holds HandleSound)
      (fun _ call hsound => handleCall_sound hsound call) (declared declaration ports) front
      (declared_sound declaration ports) (hfinds.of_prefix hfront)
  exact hsound.proper

/-- A network session on a handle that the initializer was used for. -/
def initializedSession : List HandleCall :=
  [.initializeNetworked smallKernel (quietDrivers.answers 1) firstAddress,
    .closedown smallKernel]

theorem descriptors_proper_initialized :
    Proper
      (run handleCall (declared .initializer .zeroed) initializedSession).platform.descriptors :=
  descriptors_proper .initializer .zeroed initializedSession
    ⟨Or.inr (by decide), ⟨by decide +kernel, by decide +kernel⟩, trivial⟩ List.prefix_rfl

/-- A closedown of a handle of zero bytes closes descriptor zero. -/
theorem not_descriptors_proper_zeroed :
    ¬ ∀ (declaration : Declaration) (ports : PortTable) (calls : List HandleCall),
      Proper (run handleCall (declared declaration ports) calls).platform.descriptors := by
  intro hall
  have hproper := hall .zeroBytes .zeroed [.closedown smallKernel]
  exact absurd hproper (by decide +kernel)

end Trifecta
