/-
The two update threads of a network device and the caller that creates and stops
them, step by step over the handle that they share.  A call of a driver function,
of the command handler or of a decoder is one step.
-/
import Trifecta.LinuxDrivers
import Trifecta.PacketHandover

namespace Trifecta

open Transitions

/-- How far `fs_tcp_update_thread` is: before its store of the run status, at the
tests of the status for idle and for an error, at the reconnections, before the
store that follows them, at a receive, and at what it does with the answer. -/
inductive TcpUpdate
  | notCreated
  | started
  | idleTest
  | errorTest
  | reconnectTcp
  | reconnectUdp
  | reconnected
  | receive
  | handle (received : Received)
  | loadPing
  | storePing (ping : Int)
  | resetPing
  | returned

/-- How far `fs_udp_update_thread` is, or that it is in a decoder that does not
return. -/
inductive UdpUpdate
  | notCreated
  | started
  | idleTest
  | receive
  | parse (received : Received)
  | resetPing
  | decoding
  | returned

/-- What is left of a call of `fs_initialize_networked` or `fs_closedown`. -/
inductive CallerStep
  | start (thread : SocketKind)
  | testStarted
  | storeIdle
  | shutdown (socket : SocketKind)
  | testClosed
  | storeMode
  | erase
deriving DecidableEq

/-- The handle with the log of the drivers, both threads, the caller, and what has
happened so far. -/
structure NetworkSession where
  driver : Driver
  linux : Linux
  tcp : TcpUpdate
  udp : UdpUpdate
  /-- the `delay_time_millis` of the TCP thread -/
  delay : Int
  caller : List CallerStep
  /-- a function that the caller has called has failed -/
  failed : Bool
  /-- the caller has stored the idle status -/
  stopped : Bool
  /-- what the TCP thread has given to the command handler -/
  handled : List (List UInt8)
  /-- what the UDP thread has given to `fs_device_parse_packet` -/
  parsed : List (List UInt8)

/-- `fs_network_start` with its UDP driver open. -/
def networkOpened (driver : Driver) (linux : Linux) : NetworkSession where
  driver
  linux
  tcp := .notCreated
  udp := .notCreated
  delay := 0
  caller := [.start .tcp, .start .udp, .testStarted]
  failed := false
  stopped := false
  handled := []
  parsed := []

def SocketKind.thread : SocketKind → UpdateThread
  | .tcp => .tcp
  | .udp => .udp

namespace NetworkSession

def params (session : NetworkSession) : FsDeviceParams :=
  session.driver.device.deviceParams

def setParams (session : NetworkSession) (params : FsDeviceParams) : NetworkSession :=
  { session with driver := session.driver.setParams params }

def setStatus (session : NetworkSession) (status : FsRunStatus) : NetworkSession :=
  session.setParams { session.params with status }

def setPing (session : NetworkSession) (ping : Int) : NetworkSession :=
  session.setParams { session.params with ping }

/-- A call of a driver function. -/
def call (session : NetworkSession) (function : PlatformCall Linux) : Int × NetworkSession :=
  let answer := function session.params session.linux
  (answer.1, { session.setParams answer.2.1 with linux := answer.2.2 })

/-- What `fs_receive_networked_tcp` or `fs_receive_networked_udp` returns. -/
def receive (session : NetworkSession) (socket : SocketKind) (received : Received) : Int :=
  if session.params.communicationMode ≠ .tcpUdp then -1
  else if session.params.sock socket < 0 then -1
  else received.returned

/-- A thread has been created. -/
def created (session : NetworkSession) : SocketKind → NetworkSession
  | .tcp => { session with tcp := .started }
  | .udp => { session with udp := .started }

/-- `fs_closedown` on a handle with a network connection. -/
def closedown (session : NetworkSession) : NetworkSession :=
  if session.caller = [] ∧ session.params.communicationMode = .tcpUdp then
    { session with
      caller := [.storeIdle, .shutdown .tcp, .shutdown .udp, .testClosed]
      failed := false }
  else session

end NetworkSession

section Steps

variable (stack : Nat → FsPacketUnion) (kernel : Kernel) (received : Received)
  (session : NetworkSession)

/-- The next step of `fs_tcp_update_thread`. -/
def tcpStep : NetworkSession :=
  match session.tcp with
  | .notCreated | .returned => session
  | .started =>
      { session.setStatus .running with
        tcp := .idleTest
        delay := session.driver.device.driverConfig.taskWaitMs }
  | .idleTest =>
      { session with tcp := if session.params.status = .idle then .returned else .errorTest }
  | .errorTest =>
      { session with tcp := if session.params.status = .error then .reconnectTcp else .receive }
  | .reconnectTcp =>
      let connected := session.call kernel.fsInitNetworkTcpDriver
      { connected.2 with tcp := if connected.1 = 0 then .reconnectUdp else .idleTest }
  | .reconnectUdp =>
      let bound := session.call kernel.fsInitNetworkUdpDriver
      { bound.2 with tcp := if bound.1 = 0 then .reconnected else .idleTest }
  | .reconnected => { session.setStatus .running with tcp := .receive }
  | .receive =>
      let returned := session.receive .tcp received
      { session with
        tcp :=
          if 0 < returned then .handle received
          else if returned = 0 then .loadPing
          else .idleTest }
  | .handle received =>
      let device := (fsHandleReceivedCommands session.driver.device received.bytes).2
      { session with
        driver := { session.driver with device }
        tcp := .resetPing
        handled := session.handled ++ [received.bytes] }
  -- the ping is read and written back apart, in `ping += delay_time_millis`
  | .loadPing =>
      { session with tcp := .storePing (int32Sum session.params.ping session.delay) }
  | .storePing ping => { session.setPing ping with tcp := .idleTest }
  | .resetPing => { session.setPing 0 with tcp := .idleTest }

/-- The next step of `fs_udp_update_thread`. -/
def udpStep : NetworkSession :=
  match session.udp with
  | .notCreated | .decoding | .returned => session
  | .started => { session.setStatus .running with udp := .idleTest }
  | .idleTest =>
      { session with udp := if session.params.status = .idle then .returned else .receive }
  | .receive =>
      { session with
        udp := if 0 < session.receive .udp received then .parse received else .idleTest }
  | .parse received =>
      let parsed := session.parsed ++ [received.bytes]
      match fsDeviceParsePacket stack session.driver received.bytes
          session.params.communicationMode with
      | none => { session with udp := .decoding, parsed }
      | some result => { session with driver := result.2, udp := .resetPing, parsed }
  | .resetPing => { session.setPing 0 with udp := .idleTest }

/-- The next step of the caller. -/
def callerStep : NetworkSession :=
  match session.caller with
  | [] => session
  | .start thread :: later =>
      let started := session.call (kernel.fsThreadStart thread.thread)
      if started.1 = 0 then { started.2.created thread with caller := later }
      else { started.2 with caller := later, failed := true }
  | .testStarted :: later =>
      { session with
        caller :=
          if session.failed then .shutdown .udp :: .shutdown .tcp :: .storeMode :: later
          else later }
  | .storeIdle :: later => { session.setStatus .idle with caller := later, stopped := true }
  | .shutdown socket :: later =>
      let closed := session.call (kernel.shutdownSocket socket)
      { closed.2 with
        caller := later
        failed := session.failed || closed.1 ≠ 0
        stopped := session.stopped || decide (0 ≤ session.params.sock socket) }
  | .testClosed :: later =>
      { session with caller := if session.failed then later else .storeMode :: .erase :: later }
  | .storeMode :: later =>
      { session.setParams { session.params with communicationMode := .uninitialized } with
        caller := later }
  | .erase :: later =>
      { session with
        driver := { session.driver with device := zeroedDevice }
        caller := later }

end Steps

/-- A step of one of the threads, with what the drivers answer during it, or the
beginning of a closedown. -/
inductive NetworkAction
  | tcp (kernel : Kernel) (received : Received)
  | udp (received : Received)
  | caller (kernel : Kernel)
  | closedown

def networkStep (stack : Nat → FsPacketUnion) (session : NetworkSession) :
    NetworkAction → NetworkSession
  | .tcp kernel received => tcpStep kernel received session
  | .udp received => udpStep stack received session
  | .caller kernel => callerStep kernel session
  | .closedown => session.closedown

/-! What the threads share and leave alone. -/

/-- The parameters that no command of a device sets. -/
def Driver.shared (driver : Driver) : FsDeviceParams :=
  driver.device.unset.deviceParams

theorem link_of_shared {before after : Driver} (hshared : after.shared = before.shared) :
    after.device.deviceParams.link = before.device.deviceParams.link ∧
      after.device.deviceParams.ping = before.device.deviceParams.ping := by
  have hlink := congrArg FsDeviceParams.link hshared
  have hping := congrArg FsDeviceParams.ping hshared
  exact ⟨hlink, hping⟩

theorem shared_handled (driver : Driver) (cmdBuf : List UInt8) :
    Driver.shared { driver with device := (fsHandleReceivedCommands driver.device cmdBuf).2 } =
      driver.shared :=
  congrArg FsDeviceInfo.deviceParams (unset_fsHandleReceivedCommands driver.device cmdBuf)

section Receiving

variable {stack : Nat → FsPacketUnion} {driver : Driver}

theorem shared_of_onlyDelivers {after : Driver}
    (hdelivers : OnlyDelivers driver.device after.device) : after.shared = driver.shared := by
  simp only [Driver.shared, FsDeviceInfo.unset, hdelivers.deviceParams]

theorem shared_serialRound {outcome : SerialRound}
    (hround : serialRound stack driver = some outcome) : outcome.driver.shared = driver.shared := by
  have hpopped : ∀ (after : Driver) (length : Nat), (popData after length).shared = after.shared :=
    fun _ _ => rfl
  unfold serialRound at hround
  dsimp only at hround
  split_ifs at hround with hempty
  · obtain rfl := Option.some.inj hround
    rfl
  · split at hround
    · obtain rfl := Option.some.inj hround
      have hdelivers := onlyDelivers_segmentPackets stack driver
      exact (hpopped _ _).trans (shared_of_onlyDelivers (hdelivers _ _))
    · obtain ⟨decoded, hdecoded, rfl⟩ := Option.map_eq_some_iff.1 hround
      have hdelivers := onlyDelivers_base64ToPacket hdecoded
      exact (hpopped _ _).trans (shared_of_onlyDelivers hdelivers)
    · obtain rfl := Option.some.inj hround
      exact shared_handled driver _
    · obtain rfl := Option.some.inj hround
      rfl

theorem shared_processSerialLoop {fuel : Nat} {result : Int × Driver}
    (hloop : processSerialLoop stack fuel driver = some result) :
    result.2.shared = driver.shared := by
  induction fuel generalizing driver with
  | zero => cases hloop
  | succ fuel ih =>
      rw [processSerialLoop] at hloop
      cases hround : serialRound stack driver with
      | none =>
          rw [hround] at hloop
          cases hloop
      | some outcome =>
          have hkept := shared_serialRound hround
          rw [hround] at hloop
          cases outcome with
          | returned code after =>
              obtain rfl := Option.some.inj hloop
              exact hkept
          | again next => exact (ih hloop).trans hkept

theorem shared_fsDeviceParsePacket {rxBuf : List UInt8} {source : FsCommunicationMode}
    {result : Int × Driver} (hcall : fsDeviceParsePacket stack driver rxBuf source = some result) :
    result.2.shared = driver.shared := by
  unfold fsDeviceParsePacket at hcall
  split_ifs at hcall with hempty
  · obtain rfl := Option.some.inj hcall
    rfl
  · cases source with
    | tcpUdp | tcpUdpAp | i2c | spi =>
        dsimp only at hcall
        split_ifs at hcall <;>
          · obtain rfl := Option.some.inj hcall
            exact shared_of_onlyDelivers (onlyDelivers_segmentPackets stack driver _ _)
    | uart | usbCdc =>
        dsimp only at hcall
        split at hcall
        · cases hcall
        · next processed hprocessed =>
            have hkept : processed.2.shared = (driver.receive rxBuf).shared :=
              shared_processSerialLoop hprocessed
            split_ifs at hcall <;>
              · obtain rfl := Option.some.inj hcall
                exact hkept
    | uninitialized | can | espn | ble =>
        obtain rfl := Option.some.inj hcall
        rfl

end Receiving

namespace Kernel

variable (kernel : Kernel)

theorem fsThreadStart_nonpos (thread : UpdateThread) (params : FsDeviceParams) (linux : Linux) :
    (kernel.fsThreadStart thread params linux).1 ≤ 0 := by
  rw [fsThreadStart]
  split
  · exact Int.le_refl 0
  · exact (by decide : (-1 : Int) ≤ 0)

/-- Without an address no socket is opened. -/
theorem initSocket_of_noAddress {kind : SocketKind} {prepare : Linux → Bool × Linux}
    {params : FsDeviceParams} (haddress : params.ipAddr.bytes.headD 0 = 0) (linux : Linux) :
    kernel.initSocket kind prepare params linux = (-1, params, linux) := by
  rw [initSocket, if_pos haddress]

end Kernel

/-- The next step stores that the thread is running. -/
def TcpUpdate.restarts : TcpUpdate → Bool
  | .started | .reconnected => true
  | _ => false

/-- The next step stores that the thread is running. -/
def UdpUpdate.restarts : UdpUpdate → Bool
  | .started => true
  | _ => false

section Frames

variable (stack : Nat → FsPacketUnion) (kernel : Kernel) (received : Received)
  (session : NetworkSession)

/-- What the TCP thread leaves to the others. -/
theorem tcpStep_frame :
    (tcpStep kernel received session).udp = session.udp ∧
      (tcpStep kernel received session).caller = session.caller ∧
      (tcpStep kernel received session).failed = session.failed ∧
      (tcpStep kernel received session).stopped = session.stopped ∧
      (tcpStep kernel received session).parsed = session.parsed := by
  rw [tcpStep]
  cases session.tcp <;> exact ⟨rfl, rfl, rfl, rfl, rfl⟩

/-- What the UDP thread leaves to the others. -/
theorem udpStep_frame :
    (udpStep stack received session).tcp = session.tcp ∧
      (udpStep stack received session).delay = session.delay ∧
      (udpStep stack received session).caller = session.caller ∧
      (udpStep stack received session).failed = session.failed ∧
      (udpStep stack received session).stopped = session.stopped ∧
      (udpStep stack received session).handled = session.handled := by
  rw [udpStep]
  cases session.udp with
  | parse received =>
      dsimp only
      split <;> exact ⟨rfl, rfl, rfl, rfl, rfl, rfl⟩
  | _ => exact ⟨rfl, rfl, rfl, rfl, rfl, rfl⟩

/-- The TCP thread changes the shared parameters only where it says so. -/
theorem params_tcpStep :
    (tcpStep kernel received session).params.status =
        (if session.tcp.restarts then .running else session.params.status) ∧
      (tcpStep kernel received session).params.communicationMode =
        session.params.communicationMode ∧
      (tcpStep kernel received session).params.ping =
        match session.tcp with
        | .storePing ping => ping
        | .resetPing => 0
        | _ => session.params.ping := by
  rw [tcpStep]
  cases session.tcp with
  | reconnectTcp =>
      obtain ⟨sock, hsock⟩ := kernel.initSocket_params .tcp (fun linux => (kernel.connect, linux))
        session.params session.linux
      simp [TcpUpdate.restarts, NetworkSession.call, NetworkSession.setParams, Driver.setParams,
        NetworkSession.params, Kernel.fsInitNetworkTcpDriver] at hsock ⊢
      simp [hsock]
  | reconnectUdp =>
      obtain ⟨sock, hsock⟩ := kernel.initSocket_params .udp kernel.bindSocket session.params
        session.linux
      simp [TcpUpdate.restarts, NetworkSession.call, NetworkSession.setParams, Driver.setParams,
        NetworkSession.params, Kernel.fsInitNetworkUdpDriver] at hsock ⊢
      simp [hsock]
  | handle received =>
      obtain ⟨hlink, hping⟩ := link_of_shared (shared_handled session.driver received.bytes)
      exact ⟨congrArg Link.status hlink, congrArg Link.communicationMode hlink, hping⟩
  | _ => exact ⟨rfl, rfl, rfl⟩

/-- So does the UDP thread. -/
theorem params_udpStep :
    (udpStep stack received session).params.status =
        (if session.udp.restarts then .running else session.params.status) ∧
      (udpStep stack received session).params.communicationMode =
        session.params.communicationMode ∧
      (udpStep stack received session).params.ping =
        match session.udp with
        | .resetPing => 0
        | _ => session.params.ping := by
  rw [udpStep]
  cases session.udp with
  | parse received =>
      dsimp only
      split
      · exact ⟨rfl, rfl, rfl⟩
      · next result hresult =>
          obtain ⟨hlink, hping⟩ := link_of_shared (shared_fsDeviceParsePacket hresult)
          exact ⟨congrArg Link.status hlink, congrArg Link.communicationMode hlink, hping⟩
  | _ => exact ⟨rfl, rfl, rfl⟩

end Frames

/-! Left alone, the caller does what `fs_network_start` and `fs_closedown` do. -/

namespace NetworkSession

/-- The handle and the drivers. -/
def machine (ports : PortTable) (session : NetworkSession) : Machine Linux where
  device := session.driver.device
  ports
  platform := session.linux

end NetworkSession

/-- The handle and the drivers are those of a machine, and these steps of the caller
are left. -/
structure CallerAt (ports : PortTable) (session : NetworkSession) (machine : Machine Linux)
    (caller : List CallerStep) (failed : Bool) : Prop where
  machine : session.machine ports = machine
  caller : session.caller = caller
  failed : session.failed = failed

namespace CallerAt

variable (kernel : Kernel) {ports : PortTable} {session : NetworkSession}
  {machine : Machine Linux} {later : List CallerStep} {failed : Bool}

theorem start {thread : SocketKind}
    (hat : CallerAt ports session machine (.start thread :: later) failed) :
    let started := machine.call (kernel.fsThreadStart thread.thread)
    CallerAt ports (callerStep kernel session) started.2 later
      (failed || decide (started.1 ≠ 0)) := by
  obtain ⟨rfl, hcaller, rfl⟩ := hat
  rw [callerStep, hcaller]
  dsimp only
  split_ifs with hstarted
  · have hcode : ((session.machine ports).call (kernel.fsThreadStart thread.thread)).1 = 0 :=
      hstarted
    rw [hcode]
    cases thread <;> exact ⟨rfl, rfl, (Bool.or_false _).symm⟩
  · have hcode : ((session.machine ports).call (kernel.fsThreadStart thread.thread)).1 ≠ 0 :=
      hstarted
    rw [decide_eq_true hcode, Bool.or_true]
    exact ⟨rfl, rfl, rfl⟩

theorem testStarted (hat : CallerAt ports session machine (.testStarted :: later) failed) :
    CallerAt ports (callerStep kernel session) machine
      (if failed then .shutdown .udp :: .shutdown .tcp :: .storeMode :: later else later)
      failed := by
  obtain ⟨rfl, hcaller, rfl⟩ := hat
  rw [callerStep, hcaller]
  exact ⟨rfl, rfl, rfl⟩

theorem storeIdle (hat : CallerAt ports session machine (.storeIdle :: later) failed) :
    CallerAt ports (callerStep kernel session)
      (machine.onDevice fun device => { device with deviceParams.status := .idle }) later
      failed := by
  obtain ⟨rfl, hcaller, rfl⟩ := hat
  rw [callerStep, hcaller]
  exact ⟨rfl, rfl, rfl⟩

theorem shutdown {socket : SocketKind}
    (hat : CallerAt ports session machine (.shutdown socket :: later) failed) :
    let closed := machine.call (kernel.shutdownSocket socket)
    CallerAt ports (callerStep kernel session) closed.2 later
      (failed || decide (closed.1 ≠ 0)) := by
  obtain ⟨rfl, hcaller, rfl⟩ := hat
  rw [callerStep, hcaller]
  exact ⟨rfl, rfl, rfl⟩

theorem testClosed (hat : CallerAt ports session machine (.testClosed :: later) failed) :
    CallerAt ports (callerStep kernel session) machine
      (if failed then later else .storeMode :: .erase :: later) failed := by
  obtain ⟨rfl, hcaller, rfl⟩ := hat
  rw [callerStep, hcaller]
  exact ⟨rfl, rfl, rfl⟩

theorem storeMode (hat : CallerAt ports session machine (.storeMode :: later) failed) :
    CallerAt ports (callerStep kernel session) (machine.setMode .uninitialized) later failed := by
  obtain ⟨rfl, hcaller, rfl⟩ := hat
  rw [callerStep, hcaller]
  exact ⟨rfl, rfl, rfl⟩

theorem erase (hat : CallerAt ports session machine (.erase :: later) failed) :
    CallerAt ports (callerStep kernel session) (machine.onDevice fun _ => zeroedDevice) later
      failed := by
  obtain ⟨rfl, hcaller, rfl⟩ := hat
  rw [callerStep, hcaller]
  exact ⟨rfl, rfl, rfl⟩

theorem done (hat : CallerAt ports session machine [] failed) :
    CallerAt ports (callerStep kernel session) machine [] failed := by
  obtain ⟨rfl, hcaller, rfl⟩ := hat
  rw [callerStep, hcaller]
  exact ⟨rfl, hcaller, rfl⟩

end CallerAt

/-- The first three steps of a closedown are `fs_network_exit`. -/
theorem callerRun_fsNetworkExit (kernel : Kernel) (ports : PortTable) {session : NetworkSession}
    (hcaller : session.caller = []) (hmode : session.params.communicationMode = .tcpUdp) :
    let exited := (session.machine ports).fsNetworkExit kernel.backend
    CallerAt ports ((callerStep kernel)^[3] session.closedown) exited.2 [.testClosed]
      (decide (exited.1 ≠ 0)) := by
  have hbegun : CallerAt ports session.closedown (session.machine ports)
      [.storeIdle, .shutdown .tcp, .shutdown .udp, .testClosed] false := by
    rw [NetworkSession.closedown, if_pos ⟨hcaller, hmode⟩]
    exact ⟨rfl, rfl, rfl⟩
  have hshut := ((hbegun.storeIdle kernel).shutdown kernel).shutdown kernel
  obtain ⟨hmachine, hlater, hfailed⟩ := hshut
  refine ⟨hmachine, hlater, hfailed.trans ?_⟩
  rw [Bool.false_or, ← Bool.decide_or, decide_eq_decide, ← not_and_or, not_iff_not]
  exact (ite_eq_left_iff.trans ⟨fun h => by_contra fun hnot => absurd (h hnot) (by decide),
    fun h hnot => absurd h hnot⟩).symm

/-- All steps of a closedown are `fs_closedown`. -/
theorem callerRun_fsClosedown (kernel : Kernel) (ports : PortTable) {session : NetworkSession}
    (hcaller : session.caller = []) (hmode : session.params.communicationMode = .tcpUdp) :
    let closed := (session.machine ports).fsClosedown kernel.backend
    CallerAt ports ((callerStep kernel)^[6] session.closedown) closed.2 []
      (decide (closed.1 ≠ 0)) := by
  have hexit : Machine.driverExit kernel.backend (session.machine ports) =
      some (Machine.fsNetworkExit kernel.backend (session.machine ports)) := by
    have hmachine : (session.machine ports).device.deviceParams.communicationMode = .tcpUdp := hmode
    rw [Machine.driverExit, hmachine]
  have htested := (callerRun_fsNetworkExit kernel ports hcaller hmode).testClosed kernel
  rw [Machine.fsClosedown, hexit]
  dsimp only at htested ⊢
  by_cases hcode : (Machine.fsNetworkExit kernel.backend (session.machine ports)).1 = 0
  · rw [if_neg (by simpa using hcode)] at htested
    rw [if_neg (not_not_intro hcode)]
    have hended := (htested.storeMode kernel).erase kernel
    obtain ⟨hmachine, hlater, hfailed⟩ := hended
    exact ⟨hmachine, hlater, by simpa [hcode] using hfailed⟩
  · rw [if_pos (by simpa using hcode)] at htested
    rw [if_pos hcode]
    have hended := (htested.done kernel).done kernel
    obtain ⟨hmachine, hlater, hfailed⟩ := hended
    exact ⟨hmachine, hlater, by simpa [hcode] using hfailed⟩

/-- The first two steps of a start create both threads. -/
theorem callerRun_startNetworkUpdates (kernel : Kernel) (driver : Driver) (linux : Linux)
    (ports : PortTable) :
    let updates :=
      ((networkOpened driver linux).machine ports).startNetworkUpdates kernel.backend
    CallerAt ports ((callerStep kernel)^[2] (networkOpened driver linux)) updates.2 [.testStarted]
      (decide (updates.1 ≠ 0)) := by
  have hbegun : CallerAt ports (networkOpened driver linux)
      ((networkOpened driver linux).machine ports) [.start .tcp, .start .udp, .testStarted]
      false := ⟨rfl, rfl, rfl⟩
  obtain ⟨hmachine, hlater, hfailed⟩ := (hbegun.start kernel).start kernel
  refine ⟨hmachine, hlater, hfailed.trans ?_⟩
  rw [Bool.false_or, ← Bool.decide_or, decide_eq_decide]
  generalize (networkOpened driver linux).machine ports = opened
  have htcp : (opened.call (kernel.fsThreadStart .tcp)).1 ≤ 0 := kernel.fsThreadStart_nonpos _ _ _
  have hudp : ((opened.call (kernel.fsThreadStart .tcp)).2.call (kernel.fsThreadStart .udp)).1 ≤ 0 :=
    kernel.fsThreadStart_nonpos _ _ _
  change _ ↔ (opened.call (kernel.fsThreadStart .tcp)).1 +
    ((opened.call (kernel.fsThreadStart .tcp)).2.call (kernel.fsThreadStart .udp)).1 ≠ 0
  dsimp only [SocketKind.thread]
  omega

/-- All steps of a start are the end of `fs_network_start` and what
`fs_initialize_networked` does when it fails. -/
theorem callerRun_startNetworkDevice (kernel : Kernel) (driver : Driver) (linux : Linux)
    (ports : PortTable) :
    let opened := (networkOpened driver linux).machine ports
    let started := Machine.startNetworkDevice kernel.backend (0, opened)
    CallerAt ports ((callerStep kernel)^[6] (networkOpened driver linux))
      (if started.1 ≠ 0 then started.2.setMode .uninitialized else started.2) []
      (decide (started.1 ≠ 0)) := by
  have htested := (callerRun_startNetworkUpdates kernel driver linux ports).testStarted kernel
  generalize (networkOpened driver linux).machine ports = opened at htested ⊢
  have hstarted : Machine.startNetworkDevice kernel.backend (0, opened) =
      if (opened.startNetworkUpdates kernel.backend).1 ≠ 0 then
        (-4, (opened.startNetworkUpdates kernel.backend).2.shutdownNetwork kernel.backend)
      else (0, (opened.startNetworkUpdates kernel.backend).2) := if_neg (by simp)
  dsimp only at htested ⊢
  rw [hstarted]
  by_cases hcode : (opened.startNetworkUpdates kernel.backend).1 = 0
  · rw [if_neg (by simpa using hcode)] at htested
    rw [if_neg (not_not_intro hcode)]
    obtain ⟨hmachine, hlater, hfailed⟩ := ((htested.done kernel).done kernel).done kernel
    exact ⟨hmachine, hlater, by simpa [hcode] using hfailed⟩
  · rw [if_pos (by simpa using hcode)] at htested
    rw [if_pos hcode]
    have hended := ((htested.shutdown kernel).shutdown kernel).storeMode kernel
    obtain ⟨hmachine, hlater, hfailed⟩ := hended
    exact ⟨hmachine, hlater, hfailed.trans (by simp [hcode])⟩

end Trifecta
