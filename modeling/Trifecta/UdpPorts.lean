/-
The UDP port that a networked device is told and the port that its socket is
bound to, over every history of starts on Linux.
-/
import Trifecta.LinuxDrivers

namespace Trifecta

open Transitions

/-- One call of `fs_network_start`, for any device and address. -/
structure NetworkCall where
  device : FsDeviceInfo
  ip : List UInt8
  answers : Answers
  kernel : Kernel

/-- A finished call: its return code, the ports told to the device and the local
ports its socket was bound to. -/
structure PortReport where
  code : Int
  announced : List Int
  bound : List Int
deriving DecidableEq

/-- A call that succeeds has told the device one port and bound that port. -/
def PortReport.Agrees (report : PortReport) : Prop :=
  report.code = 0 → ∃ port, report.announced = [port] ∧ report.bound = [port]

/-- The port table of the process and the calls that have been made, latest
first. -/
structure PortHistory where
  ports : PortTable
  reports : List PortReport

def PortHistory.atStart : PortHistory where
  ports := .zeroed
  reports := []

/-- The call before it opens a driver. -/
def NetworkCall.machine (call : NetworkCall) (ports : PortTable) : Machine Linux :=
  { device := call.device, ports, platform := .untouched }

def networkCall (history : PortHistory) (call : NetworkCall) : PortHistory :=
  let started :=
    (call.machine history.ports).fsNetworkStart call.kernel.backend call.answers call.ip
  { ports := started.2.ports
    reports :=
      { code := started.1
        announced := started.2.platform.announced
        bound := started.2.platform.bound } :: history.reports }

/-- Every call that has succeeded has told its device the port it listens on. -/
def PortsAgree (history : PortHistory) : Prop :=
  ∀ report ∈ history.reports, report.Agrees

/-- Closing a socket binds and tells no port. -/
theorem closeStale_ports (kind : SocketKind) (params : FsDeviceParams) (linux : Linux) :
    let closed := (Kernel.closeStale kind params linux).2
    closed.announced = linux.announced ∧ closed.bound = linux.bound := by
  rw [Kernel.closeStale]
  dsimp only
  split <;> exact ⟨rfl, rfl⟩

/-- Opening the TCP socket binds and tells no port. -/
theorem fsInitNetworkTcpDriver_ports (kernel : Kernel) (params : FsDeviceParams)
    (linux : Linux) :
    let opened := (kernel.fsInitNetworkTcpDriver params linux).2.2
    opened.announced = linux.announced ∧ opened.bound = linux.bound := by
  rw [Kernel.fsInitNetworkTcpDriver, Kernel.initSocket]
  split
  · exact ⟨rfl, rfl⟩
  · have hclosed := closeStale_ports .tcp params linux
    generalize Kernel.closeStale .tcp params linux = closed at hclosed ⊢
    dsimp only at hclosed ⊢
    rcases kernel.openSocket_cases .tcp (fun linux => (kernel.connect, linux)) closed.1 closed.2
      with hresult | ⟨sockfd, _, _, hresult⟩ <;> rw [hresult]
    · exact hclosed
    · dsimp only
      split <;> exact hclosed

/-- A UDP driver that starts has bound the port of the driver. -/
theorem fsInitNetworkUdpDriver_ports {kernel : Kernel} {params : FsDeviceParams}
    {linux : Linux} (hopened : (kernel.fsInitNetworkUdpDriver params linux).1 = 0) :
    let opened := (kernel.fsInitNetworkUdpDriver params linux).2.2
    opened.announced = linux.announced ∧ opened.bound = fsTrifectaPort :: linux.bound := by
  rw [Kernel.fsInitNetworkUdpDriver, Kernel.initSocket] at hopened ⊢
  split at hopened
  · exact absurd hopened (by simp)
  · next hip =>
      rw [if_neg hip]
      have hclosed := closeStale_ports .udp params linux
      generalize Kernel.closeStale .udp params linux = closed at hclosed hopened ⊢
      dsimp only at hclosed hopened ⊢
      rcases kernel.openSocket_cases .udp kernel.bindSocket closed.1 closed.2
        with hresult | ⟨sockfd, _, _, hresult⟩ <;> rw [hresult] at hopened ⊢
      · exact absurd hopened (by simp)
      · cases hbound : kernel.setsockopt && kernel.bind with
        | false => simp [Kernel.bindSocket, hbound] at hopened
        | true => simpa [Kernel.bindSocket, hbound] using hclosed

section Call

variable (call : NetworkCall) (ports : PortTable)

/-- The handle and the log after the TCP driver. -/
def tcpOpened : Int × Machine Linux :=
  ((call.machine ports).onDevice (setNetworkAddress call.ip)).call
    call.kernel.fsInitNetworkTcpDriver

/-- The same after the handshake. -/
def tcpShaken : Machine Linux :=
  { (tcpOpened call ports).2 with
    device := (handshakeLoop .tryAgain call.answers.stack (tcpOpened call ports).2.device
      (List.ofFn call.answers.attempts)).device }

/-- Both drivers can be opened, the device tells its name and can be told a port,
and both update threads start. -/
def Establishes : Prop :=
  (tcpOpened call ports).1 = 0 ∧ namedDevice (tcpShaken call ports).device = true ∧
    ((tcpShaken call ports).openUdp call.kernel.backend call.ip).1 = 0 ∧
    ∀ thread, thread ≠ .serial → call.kernel.pthreadCreate thread = true

/-- The start, by the exit that is taken. -/
theorem fsNetworkStart_eq : (call.machine ports).fsNetworkStart call.kernel.backend call.answers
    call.ip =
      if (tcpOpened call ports).1 ≠ 0 then
        (-1, (((tcpOpened call ports).2.setMode .uninitialized).call
          call.kernel.fsShutdownNetworkTcpDriver).2)
      else if namedDevice (tcpShaken call ports).device then
        Machine.startNetworkDevice call.kernel.backend
          ((tcpShaken call ports).openUdp call.kernel.backend call.ip)
      else (-3, (tcpShaken call ports).shutdownNetwork call.kernel.backend) :=
  rfl

/-- The return codes of both threads add up to zero when both have started. -/
theorem startNetworkUpdates_linux (kernel : Kernel) (machine : Machine Linux) :
    let updates := machine.startNetworkUpdates kernel.backend
    (updates.1 = 0 ↔ kernel.pthreadCreate .tcp = true ∧ kernel.pthreadCreate .udp = true) ∧
      updates.2.platform = machine.platform := by
  rw [Machine.startNetworkUpdates]
  cases htcp : kernel.pthreadCreate .tcp <;> cases hudp : kernel.pthreadCreate .udp <;>
    simp [Kernel.backend, Kernel.fsThreadStart, htcp, hudp]

/-- A device that can be told a port is told it once. -/
theorem fsNetworkSetHostUdpPort_ports {kernel : Kernel} {port : Int} {machine : Machine Linux}
    (htold : (machine.fsNetworkSetHostUdpPort kernel.backend port).1 = 0) :
    (machine.fsNetworkSetHostUdpPort kernel.backend port).2.platform =
      { machine.platform with announced := port :: machine.platform.announced } := by
  rw [Machine.fsNetworkSetHostUdpPort] at htold ⊢
  by_cases hrange : port < 1024 ∨ 65535 < port
  · simp [hrange] at htold
  · rw [if_neg hrange]
    dsimp only
    split <;> rfl

/-- A UDP driver that opens has told the device the port of the table and has
bound the port of the driver. -/
theorem openUdp_ports {kernel : Kernel} {machine : Machine Linux} {ip : List UInt8}
    (hopened : (machine.openUdp kernel.backend ip).1 = 0) :
    let opened := (machine.openUdp kernel.backend ip).2.platform
    opened.announced =
        (fsTrifectaPort + (machine.ports.assign ip).1) :: machine.platform.announced ∧
      opened.bound = fsTrifectaPort :: machine.platform.bound := by
  rw [Machine.openUdp] at hopened ⊢
  dsimp only at hopened ⊢
  split at hopened
  · next hfailed => exact absurd hopened hfailed
  · next htold =>
      rw [if_neg htold]
      have hsame := fsNetworkSetHostUdpPort_ports (not_not.1 htold)
      generalize Machine.fsNetworkSetHostUdpPort _ _ _ = told at *
      obtain ⟨hannounced, hbound⟩ := fsInitNetworkUdpDriver_ports hopened
      exact ⟨hannounced.trans (congrArg Linux.announced hsame),
        hbound.trans (congrArg (fun linux => fsTrifectaPort :: linux.bound) hsame)⟩

/-- A start succeeds exactly when the connection can be established. -/
theorem fsNetworkStart_code_iff :
    ((call.machine ports).fsNetworkStart call.kernel.backend call.answers call.ip).1 = 0 ↔
      Establishes call ports := by
  rw [fsNetworkStart_eq, Establishes]
  by_cases htcp : (tcpOpened call ports).1 = 0
  · rw [if_neg (not_not_intro htcp), and_iff_right htcp]
    by_cases hnamed : namedDevice (tcpShaken call ports).device = true
    · rw [if_pos hnamed, and_iff_right hnamed]
      generalize Machine.openUdp _ _ _ = udp
      rw [(Machine.startNetworkDevice_started call.kernel.backend udp).1,
        (startNetworkUpdates_linux call.kernel udp.2).1]
      refine and_congr_right fun _ => ⟨?_, ?_⟩
      · rintro ⟨htcp, hudp⟩ thread hthread
        cases thread with
        | serial => exact absurd rfl hthread
        | tcp => exact htcp
        | udp => exact hudp
      · intro hthreads
        exact ⟨hthreads .tcp (by decide), hthreads .udp (by decide)⟩
    · rw [if_neg hnamed]
      simp [hnamed]
  · rw [if_pos htcp]
    simp [htcp]

/-- A start that succeeds has told the device its port of the table and has
bound the port of the driver. -/
theorem fsNetworkStart_ports (hestablishes : Establishes call ports) :
    let started := ((call.machine ports).fsNetworkStart call.kernel.backend call.answers
      call.ip).2.platform
    started.announced = [fsTrifectaPort + (ports.assign call.ip).1] ∧
      started.bound = [fsTrifectaPort] := by
  have hcode := (fsNetworkStart_code_iff call ports).2 hestablishes
  obtain ⟨htcp, hnamed, hudp, _⟩ := hestablishes
  rw [fsNetworkStart_eq, if_neg (not_not_intro htcp), if_pos hnamed] at hcode ⊢
  obtain ⟨htold, hbound⟩ := openUdp_ports hudp
  have hquiet := fsInitNetworkTcpDriver_ports call.kernel
    (setNetworkAddress call.ip call.device).deviceParams .untouched
  rw [(Machine.startNetworkDevice_started call.kernel.backend _).2 hcode,
    (startNetworkUpdates_linux call.kernel _).2]
  exact ⟨htold.trans (congrArg (List.cons _) hquiet.1),
    hbound.trans (congrArg (List.cons _) hquiet.2)⟩

end Call

/-- A connection that can be established is with the address of the first index. -/
def HasFirstIndex (history : PortHistory) (call : NetworkCall) : Prop :=
  Establishes call history.ports → (history.ports.assign call.ip).1 = 0

/-- A call keeps the ports in agreement exactly when its address has the first
index or it does not succeed. -/
theorem networkCall_agrees_iff (history : PortHistory) (call : NetworkCall) :
    PortsAgree (networkCall history call) ↔ PortsAgree history ∧ HasFirstIndex history call := by
  rw [networkCall, PortsAgree, PortsAgree]
  dsimp only
  rw [List.forall_mem_cons, and_comm, HasFirstIndex]
  refine and_congr_right fun _ => ?_
  rw [PortReport.Agrees]
  dsimp only
  rw [fsNetworkStart_code_iff]
  refine imp_congr_right fun hestablishes => ?_
  obtain ⟨hannounced, hbound⟩ := fsNetworkStart_ports call history.ports hestablishes
  rw [hannounced, hbound]
  constructor
  · rintro ⟨port, htold, hlocal⟩
    obtain rfl := List.singleton_inj.1 hlocal
    have hsame := List.singleton_inj.1 htold
    omega
  · intro hfirst
    exact ⟨fsTrifectaPort, by rw [hfirst]; rfl, rfl⟩

/-- Every history tells the devices the port that is listened on exactly when
only addresses with the first index are connected. -/
theorem portsAgree_iff (calls : List NetworkCall) :
    PortsAgree (run networkCall .atStart calls) ↔
      Along networkCall HasFirstIndex .atStart calls := by
  have hstart : PortsAgree .atStart := fun report hreport => absurd hreport List.not_mem_nil
  have hany : Along networkCall (fun _ _ => True) .atStart calls :=
    along_of_forall (fun _ _ => trivial) PortHistory.atStart calls
  rw [@good_run_iff PortHistory NetworkCall networkCall HasFirstIndex (fun _ _ => True)
    (fun _ => True) PortsAgree (fun _ _ _ _ => trivial)
    (fun history call _ _ => networkCall_agrees_iff history call) .atStart calls trivial hany]
  exact and_iff_right hstart

/-- `10.0.0.2`. -/
def secondAddress : List UInt8 :=
  [49, 48, 46, 48, 46, 48, 46, 50]

/-- A start for a device that tells its name at once. -/
def quietCall (ip : List UInt8) : NetworkCall where
  device := fsDeviceInfoUninitialized
  ip
  answers := quietDrivers.answers 1
  kernel := smallKernel

/-- The second device is told a port of its own, and the host listens on the
first port again. -/
theorem not_portsAgree_second :
    ¬ ∀ calls : List NetworkCall, PortsAgree (run networkCall .atStart calls) := by
  intro hall
  have hagree := hall [quietCall firstAddress, quietCall secondAddress]
  have hreport : { code := 0, announced := [8889], bound := [8888] } ∈
      (run networkCall .atStart [quietCall firstAddress, quietCall secondAddress]).reports := by decide +kernel
  obtain ⟨port, hannounced, hbound⟩ := hagree _ hreport rfl
  have hsame : [(8889 : Int)] = [8888] := hannounced.trans hbound.symm
  exact absurd hsame (by decide)

end Trifecta
