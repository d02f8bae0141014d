/-
The Linux serial and network drivers over a log of the descriptors that they
open, use and close.  The answers of the kernel are the input.
-/
import Trifecta.Startup
import Trifecta.Library.Usage

namespace Trifecta

open Usage

/-- What the drivers have done for one handle, latest first: their descriptors,
the local ports bound by the UDP driver and the ports told to the device. -/
structure Linux where
  descriptors : List (Event Int)
  bound : List Int
  announced : List Int

namespace Linux

def untouched : Linux where
  descriptors := []
  bound := []
  announced := []

def log (linux : Linux) (event : Event Int) : Linux :=
  { linux with descriptors := event :: linux.descriptors }

section Fields

variable (linux : Linux) (event : Event Int)

@[simp] theorem descriptors_log :
    (linux.log event).descriptors = event :: linux.descriptors :=
  rfl

@[simp] theorem bound_log : (linux.log event).bound = linux.bound :=
  rfl

@[simp] theorem announced_log : (linux.log event).announced = linux.announced :=
  rfl

end Fields

end Linux

inductive SocketKind
  | tcp
  | udp
deriving DecidableEq, Repr

/-- The field of the handle for a socket. -/
def FsDeviceParams.sock (params : FsDeviceParams) : SocketKind → Int
  | .tcp => params.tcpSock
  | .udp => params.udpSock

def FsDeviceParams.setSock (params : FsDeviceParams) : SocketKind → Int → FsDeviceParams
  | .tcp, sock => { params with tcpSock := sock }
  | .udp, sock => { params with udpSock := sock }

section Sockets

variable (params : FsDeviceParams) (kind other : SocketKind) (sock : Int)

@[simp] theorem sock_setSock :
    (params.setSock kind sock).sock other = if other = kind then sock else params.sock other := by
  cases kind <;> cases other <;> rfl

@[simp] theorem status_setSock : (params.setSock kind sock).status = params.status := by
  cases kind <;> rfl

@[simp] theorem ping_setSock : (params.setSock kind sock).ping = params.ping := by
  cases kind <;> rfl

@[simp] theorem communicationMode_setSock :
    (params.setSock kind sock).communicationMode = params.communicationMode := by
  cases kind <;> rfl

@[simp] theorem serialPort_setSock :
    (params.setSock kind sock).serialPort = params.serialPort := by
  cases kind <;> rfl

end Sockets

/-- The answers of the kernel and of the C library during one call. -/
structure Kernel where
  /-- the text at the address that a serial handle is before it is opened -/
  textAt : Int → List UInt8
  inetPton : List UInt8 → Bool
  socket : SocketKind → Linux → Int
  connect : Bool
  setsockopt : Bool
  bind : Bool
  openPath : Linux → Int
  configureSerialPort : Bool
  close : Int → Bool
  pthreadCreate : UpdateThread → Bool
  transmittedPort : Int
  socket_fresh : ∀ kind linux, 0 ≤ socket kind linux →
    socket kind linux ∉ held linux.descriptors
  openPath_fresh : ∀ linux, 0 ≤ openPath linux → openPath linux ∉ held linux.descriptors

namespace Kernel

variable (kernel : Kernel)

/-- A socket of an earlier connection is closed if its field is not negative. -/
def closeStale (kind : SocketKind) (params : FsDeviceParams) (linux : Linux) :
    FsDeviceParams × Linux :=
  let stale := params.sock kind
  if 0 ≤ stale then (params.setSock kind (-1), linux.log (.released stale)) else (params, linux)

/-- A new socket is opened and prepared. -/
def openSocket (kind : SocketKind) (prepare : Linux → Bool × Linux) : PlatformCall Linux :=
  fun params linux =>
    if kernel.inetPton params.ipAddr.bytes = false then (-1, params, linux)
    else
      let sockfd := kernel.socket kind linux
      if sockfd < 0 then (-1, params, linux)
      else
        let prepared := prepare (linux.log (.acquired sockfd))
        if prepared.1 then (0, params.setSock kind sockfd, prepared.2)
        else (-1, params, prepared.2.log (.released sockfd))

/-- The common body of `fs_init_network_tcp_driver` and
`fs_init_network_udp_driver`. -/
def initSocket (kind : SocketKind) (prepare : Linux → Bool × Linux) : PlatformCall Linux :=
  fun params linux =>
    if params.ipAddr.bytes.headD 0 = 0 then (-1, params, linux)
    else
      let closed := closeStale kind params linux
      kernel.openSocket kind prepare closed.1 closed.2

/-- `fs_init_network_tcp_driver`. -/
def fsInitNetworkTcpDriver : PlatformCall Linux :=
  kernel.initSocket .tcp fun linux => (kernel.connect, linux)

/-- The UDP socket is bound to the port of the driver, whatever port the handle
holds. -/
def bindSocket (linux : Linux) : Bool × Linux :=
  if kernel.setsockopt && kernel.bind then
    (true, { linux with bound := fsTrifectaPort :: linux.bound })
  else (false, linux)

/-- `fs_init_network_udp_driver`. -/
def fsInitNetworkUdpDriver : PlatformCall Linux :=
  kernel.initSocket .udp kernel.bindSocket

/-- The common body of `fs_shutdown_network_tcp_driver` and
`fs_shutdown_network_udp_driver`. -/
def shutdownSocket (kind : SocketKind) : PlatformCall Linux :=
  fun params linux =>
    let sock := params.sock kind
    if sock < 0 then (-1, params, linux)
    else
      (if kernel.close sock then 0 else -1,
        { params.setSock kind (-1) with status := .idle },
        (linux.log (.used sock)).log (.released sock))

/-- `fs_shutdown_network_tcp_driver`. -/
def fsShutdownNetworkTcpDriver : PlatformCall Linux :=
  kernel.shutdownSocket .tcp

/-- `fs_shutdown_network_udp_driver`. -/
def fsShutdownNetworkUdpDriver : PlatformCall Linux :=
  kernel.shutdownSocket .udp

/-- `open` and `configure_serial_port` on the path of the handle.  Of the
descriptors it is given, the driver takes none below `least`, and does not
close it either. -/
def openSerialPort (least : Int) : PlatformCall Linux :=
  fun params linux =>
    let port := kernel.openPath linux
    let linux := if 0 ≤ port then linux.log (.acquired port) else linux
    if port < least then (-1, { params with serialPort := -1 }, linux)
    else
      let params := { params with serialPort := port }
      if kernel.configureSerialPort then (0, params, linux)
      else (-1, params, linux.log (.released port))

/-- `fs_init_serial_driver`. -/
def fsInitSerialDriver : PlatformCall Linux :=
  fun params linux =>
    if params.status = .running then (-1, params, linux)
    else
      let path := kernel.textAt params.serialPort
      let length := fsSafeStrnlen path 128
      if length = 0 ∨ 128 ≤ length then (-1, params, linux)
      else
        let serialPath : Block 128 :=
          { bytes := fsSafeStrncpy params.serialPath.bytes path 128
            length_bytes := by rw [length_fsSafeStrncpy path (by simp), Block.length_bytes] }
        kernel.openSerialPort 2 { params with serialPath } linux

/-- `fs_shutdown_serial_driver`. -/
def fsShutdownSerialDriver : PlatformCall Linux :=
  fun params linux =>
    if params.serialPort < 0 then (-1, params, linux)
    else
      (if kernel.close params.serialPort then 0 else -1, { params with serialPort := -1 },
        linux.log (.released params.serialPort))

/-- `fs_attempt_reconnect_serial`. -/
def fsAttemptReconnectSerial : PlatformCall Linux :=
  fun params linux =>
    let linux := if 2 < params.serialPort then linux.log (.released params.serialPort) else linux
    kernel.openSerialPort 3 params linux

/-- `fs_thread_start`. -/
def fsThreadStart (thread : UpdateThread) : PlatformCall Linux :=
  fun params linux =>
    if kernel.pthreadCreate thread then (0, { params with status := .running }, linux)
    else (-1, { params with status := .error }, linux)

/-- The Linux drivers, which have no serial interrupts. -/
def backend : Backend Linux where
  fsInitSerialDriver := kernel.fsInitSerialDriver
  fsShutdownSerialDriver := kernel.fsShutdownSerialDriver
  interruptsSupported _ := false
  fsInitSerialInterrupts params linux := (-1, params, linux)
  fsInitNetworkTcpDriver := kernel.fsInitNetworkTcpDriver
  fsInitNetworkUdpDriver := kernel.fsInitNetworkUdpDriver
  fsShutdownNetworkTcpDriver := kernel.fsShutdownNetworkTcpDriver
  fsShutdownNetworkUdpDriver := kernel.fsShutdownNetworkUdpDriver
  fsThreadStart := kernel.fsThreadStart
  transmitListeningPort port params linux :=
    (kernel.transmittedPort, params, { linux with announced := port :: linux.announced })

/-- What an attempt to open a socket can do. -/
theorem openSocket_cases (kind : SocketKind) (prepare : Linux → Bool × Linux)
    (params : FsDeviceParams) (linux : Linux) :
    kernel.openSocket kind prepare params linux = (-1, params, linux) ∨
      ∃ sockfd, 0 ≤ sockfd ∧ sockfd ∉ held linux.descriptors ∧
        let prepared := prepare (linux.log (.acquired sockfd))
        kernel.openSocket kind prepare params linux =
          if prepared.1 then (0, params.setSock kind sockfd, prepared.2)
          else (-1, params, prepared.2.log (.released sockfd)) := by
  rw [openSocket]
  by_cases hpton : kernel.inetPton params.ipAddr.bytes = false
  · exact Or.inl (if_pos hpton)
  · rw [if_neg hpton]
    dsimp only
    by_cases hsocket : kernel.socket kind linux < 0
    · exact Or.inl (if_pos hsocket)
    · have hnonneg := Int.le_of_not_gt hsocket
      refine Or.inr ⟨_, hnonneg, kernel.socket_fresh kind linux hnonneg, ?_⟩
      rw [if_neg hsocket]

/-- Opening a socket changes no parameter but that socket. -/
theorem initSocket_params (kind : SocketKind) (prepare : Linux → Bool × Linux)
    (params : FsDeviceParams) (linux : Linux) :
    ∃ sock, (kernel.initSocket kind prepare params linux).2.1 = params.setSock kind sock := by
  have hset : ∀ (first second : Int),
      (params.setSock kind first).setSock kind second = params.setSock kind second := by
    cases kind <;> exact fun _ _ => rfl
  have hself : params.setSock kind (params.sock kind) = params := by cases kind <;> rfl
  obtain ⟨stale, hstale⟩ :
      ∃ stale, (closeStale kind params linux).1 = params.setSock kind stale := by
    rw [closeStale]
    split
    · exact ⟨-1, rfl⟩
    · exact ⟨params.sock kind, hself.symm⟩
  rw [initSocket]
  split
  · exact ⟨params.sock kind, hself.symm⟩
  · dsimp only
    rcases kernel.openSocket_cases kind prepare (closeStale kind params linux).1
        (closeStale kind params linux).2 with hfailed | ⟨sockfd, _, _, hopened⟩
    · rw [hfailed]
      exact ⟨stale, hstale⟩
    · dsimp only at hopened
      rw [hopened]
      split
      · exact ⟨sockfd, by rw [hstale, hset]⟩
      · exact ⟨stale, hstale⟩

/-- Opening a serial port leaves the status alone, and a port that is not below
`least` when it succeeds. -/
theorem openSerialPort_spec (least : Int) (params : FsDeviceParams) (linux : Linux) :
    let opened := kernel.openSerialPort least params linux
    opened.2.1.status = params.status ∧ (opened.1 = 0 → least ≤ opened.2.1.serialPort) := by
  rw [openSerialPort]
  dsimp only
  by_cases hsmall : kernel.openPath linux < least
  · rw [if_pos hsmall]
    exact ⟨rfl, fun hcode => absurd hcode (by simp)⟩
  · rw [if_neg hsmall]
    split
    · exact ⟨rfl, fun _ => Int.le_of_not_gt hsmall⟩
    · exact ⟨rfl, fun hcode => absurd hcode (by simp)⟩

theorem communicationMode_openSerialPort (least : Int) (params : FsDeviceParams)
    (linux : Linux) : (kernel.openSerialPort least params linux).2.1.communicationMode =
      params.communicationMode := by
  rw [openSerialPort]
  dsimp only
  split_ifs <;> rfl

end Kernel

/-- A descriptor as long as it is free. -/
def offer (descriptor : Int) (linux : Linux) : Int :=
  if descriptor ∈ held linux.descriptors then -1 else descriptor

theorem offer_fresh {descriptor : Int} {linux : Linux} (hoffered : 0 ≤ offer descriptor linux) :
    offer descriptor linux ∉ held linux.descriptors := by
  rw [offer] at hoffered ⊢
  split at hoffered
  · exact absurd hoffered (by decide)
  · next hfree => rwa [if_neg hfree]

/-- What `inet_pton` takes for an IPv4 address: four decimal numbers up to 255 without
leading zeros, with points between them. -/
def dottedAddress (text : List UInt8) : Bool :=
  let numbers := (CText.cString text).splitOn 46
  numbers.length = 4 && numbers.all fun digits =>
    digits.length ∈ [1, 2, 3] && digits.all (fun digit => 48 ≤ digit && digit ≤ 57) &&
      (digits.headD 0 ≠ 48 || digits.length = 1) &&
      digits.foldl (fun value digit => 10 * value + (digit.toNat - 48)) 0 ≤ 255

/-- `10.0.0.1`. -/
def firstAddress : List UInt8 :=
  [49, 48, 46, 48, 46, 48, 46, 49]

example : dottedAddress (firstAddress ++ [0]) = true ∧ dottedAddress [49, 0] = false := by
  decide +kernel

/-- A kernel with three free descriptors, whose calls succeed. -/
def smallKernel : Kernel where
  textAt _ := [47, 100]
  inetPton := dottedAddress
  socket kind := offer (if kind = .tcp then 5 else 6)
  connect := true
  setsockopt := true
  bind := true
  openPath := offer 4
  configureSerialPort := true
  close _ := true
  pthreadCreate _ := true
  transmittedPort := 8
  socket_fresh _ _ := offer_fresh
  openPath_fresh _ := offer_fresh

end Trifecta
