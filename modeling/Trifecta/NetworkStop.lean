/-
Stopping a network device: whether the stop that the caller stores lasts, when both
threads have returned, and whether a cleared handle stays as it is.
-/
import Trifecta.NetworkThreads

namespace Trifecta

open Transitions

/-- The thread has not been created, or it has returned. -/
def TcpUpdate.ended : TcpUpdate → Bool
  | .notCreated | .returned => true
  | _ => false

/-- The thread has not been created, or it has returned. -/
def UdpUpdate.ended : UdpUpdate → Bool
  | .notCreated | .returned => true
  | _ => false

/-- Once the caller has stored the idle status it is the status. -/
def IdleKept (session : NetworkSession) : Prop :=
  session.stopped = true → session.params.status = .idle

/-- No thread stores after the stop that it is running. -/
def NoRestart (session : NetworkSession) : NetworkAction → Prop
  | .tcp _ _ => session.stopped = true → session.tcp.restarts = false
  | .udp _ => session.stopped = true → session.udp.restarts = false
  | .caller _ | .closedown => True

instance (session : NetworkSession) (action : NetworkAction) :
    Decidable (NoRestart session action) :=
  match action with
  | .tcp _ _ => inferInstanceAs (Decidable (session.stopped = true → session.tcp.restarts = false))
  | .udp _ => inferInstanceAs (Decidable (session.stopped = true → session.udp.restarts = false))
  | .caller _ | .closedown => isTrue trivial

/-- Threads are created before the stop. -/
def StartsFirst (session : NetworkSession) : Prop :=
  session.stopped = false ∧ session.caller <:+ [.start .tcp, .start .udp, .testStarted] ∨
    ∀ thread, .start thread ∉ session.caller

/-- A socket that is open is shut down with the idle status. -/
theorem Kernel.status_shutdownSocket (kernel : Kernel) (kind : SocketKind)
    (params : FsDeviceParams) (linux : Linux) :
    (kernel.shutdownSocket kind params linux).2.1.status =
      if 0 ≤ params.sock kind then .idle else params.status := by
  rw [shutdownSocket]
  split_ifs <;> first | omega | rfl

section Steps

variable (stack : Nat → FsPacketUnion) {session : NetworkSession}

/-- A thread that the caller does not start, it does not start later either. -/
theorem start_not_mem_callerStep (kernel : Kernel) {thread : SocketKind}
    (hnone : .start thread ∉ session.caller) :
    .start thread ∉ (callerStep kernel session).caller := by
  rw [callerStep]
  cases hcaller : session.caller with
  | nil => simp [hcaller]
  | cons step later =>
      rw [hcaller] at hnone
      have hlater : .start thread ∉ later := fun hmem => hnone (List.mem_cons_of_mem _ hmem)
      cases step with
      | start other =>
          dsimp only
          split_ifs
          · cases other <;> exact hlater
          · exact hlater
      | testStarted =>
          dsimp only
          split_ifs <;> simp [hlater]
      | testClosed =>
          dsimp only
          split_ifs <;> simp [hlater]
      | _ => exact hlater

theorem startsFirst_callerStep (kernel : Kernel) (hstarts : StartsFirst session) :
    StartsFirst (callerStep kernel session) := by
  rcases hstarts with ⟨hstopped, hsuffix⟩ | hnone
  · rw [List.suffix_cons_iff, List.suffix_cons_iff] at hsuffix
    have hstart : ∀ thread later, session.caller = .start thread :: later →
        later <:+ [.start .tcp, .start .udp, .testStarted] →
        StartsFirst (callerStep kernel session) := by
      intro thread later hcaller hlater
      refine Or.inl ?_
      rw [callerStep, hcaller]
      dsimp only
      split_ifs
      · cases thread <;> exact ⟨hstopped, hlater⟩
      · exact ⟨hstopped, hlater⟩
    rcases hsuffix with hcaller | hcaller | hlast
    · exact hstart .tcp _ hcaller (List.suffix_cons _ _)
    · exact hstart .udp _ hcaller (by decide)
    · have hnone : ∀ thread, .start thread ∉ session.caller := by
        intro thread hmem
        have hlater := hlast.subset hmem
        simp at hlater
      exact Or.inr fun thread => start_not_mem_callerStep kernel (hnone thread)
  · exact Or.inr fun thread => start_not_mem_callerStep kernel (hnone thread)

theorem startsFirst_networkStep (hstarts : StartsFirst session) (action : NetworkAction) :
    StartsFirst (networkStep stack session action) := by
  cases action with
  | tcp kernel received =>
      obtain ⟨_, hcaller, _, hstopped, _⟩ := tcpStep_frame kernel received session
      rw [StartsFirst, networkStep, hcaller, hstopped]
      exact hstarts
  | udp received =>
      obtain ⟨_, _, hcaller, _, hstopped, _⟩ := udpStep_frame stack received session
      rw [StartsFirst, networkStep, hcaller, hstopped]
      exact hstarts
  | caller kernel => exact startsFirst_callerStep kernel hstarts
  | closedown =>
      rw [networkStep, NetworkSession.closedown]
      split_ifs
      · exact Or.inr (by simp)
      · exact hstarts

theorem idleKept_callerStep (kernel : Kernel) (hstarts : StartsFirst session)
    (hkept : IdleKept session) : IdleKept (callerStep kernel session) := by
  rw [callerStep]
  cases hcaller : session.caller with
  | nil => exact hkept
  | cons step later =>
      cases step with
      | start thread =>
          -- threads are created before the stop
          have hrunning : session.stopped = false := by
            rcases hstarts with ⟨hstopped, _⟩ | hnone
            · exact hstopped
            · exact absurd (by simp [hcaller]) (hnone thread)
          have hnever : ∀ next : NetworkSession, next.stopped = session.stopped → IdleKept next :=
            fun next hsame hstop => absurd (hsame ▸ hstop) (by simp [hrunning])
          dsimp only
          split_ifs
          · exact hnever _ (by cases thread <;> rfl)
          · exact hnever _ rfl
      | shutdown socket =>
          intro hstop
          have hshut := kernel.status_shutdownSocket socket session.params session.linux
          change (kernel.shutdownSocket socket session.params session.linux).2.1.status = .idle
          rw [hshut]
          split_ifs with hopen
          · rfl
          · have hbefore : session.stopped = true := by simpa [hopen] using hstop
            exact hkept hbefore
      | storeIdle | erase => exact fun _ => rfl
      | testStarted | testClosed | storeMode => exact hkept

theorem idleKept_networkStep_iff (hstarts : StartsFirst session) (hkept : IdleKept session)
    (action : NetworkAction) :
    IdleKept (networkStep stack session action) ↔ NoRestart session action := by
  cases action with
  | tcp kernel received =>
      obtain ⟨_, _, _, hstopped, _⟩ := tcpStep_frame kernel received session
      obtain ⟨hstatus, _⟩ := params_tcpStep kernel received session
      rw [IdleKept, networkStep, hstopped, hstatus, NoRestart]
      refine imp_congr_right fun hstop => ?_
      simp [hkept hstop]
  | udp received =>
      obtain ⟨_, _, _, _, hstopped, _⟩ := udpStep_frame stack received session
      obtain ⟨hstatus, _⟩ := params_udpStep stack received session
      rw [IdleKept, networkStep, hstopped, hstatus, NoRestart]
      refine imp_congr_right fun hstop => ?_
      simp [hkept hstop]
  | caller kernel => exact iff_of_true (idleKept_callerStep kernel hstarts hkept) trivial
  | closedown =>
      refine iff_of_true ?_ trivial
      rw [networkStep, NetworkSession.closedown]
      split_ifs <;> exact hkept

end Steps

theorem startsFirst_networkOpened (driver : Driver) (linux : Linux) :
    StartsFirst (networkOpened driver linux) :=
  Or.inl ⟨rfl, List.suffix_refl _⟩

/-- The status is idle in every state of a run after the stop exactly when no thread
that has just been created, or has just reconnected, stores after it that it is
running. -/
theorem idleKept_along_iff (stack : Nat → FsPacketUnion) (driver : Driver) (linux : Linux)
    (actions : List NetworkAction) :
    (∀ front, front <+: actions →
        IdleKept (run (networkStep stack) (networkOpened driver linux) front)) ↔
      Along (networkStep stack) NoRestart (networkOpened driver linux) actions :=
  @forall_prefix_run_iff _ _ (networkStep stack) NoRestart StartsFirst IdleKept
    (fun _ action hstarts _ _ => startsFirst_networkStep stack hstarts action)
    (fun _ action hstarts hkept => idleKept_networkStep_iff stack hstarts hkept action)
    (networkOpened driver linux) actions (startsFirst_networkOpened driver linux)
    (fun hstop => absurd hstop Bool.false_ne_true)

/-! How many steps the threads still take after the stop. -/

/-- The own steps of the TCP thread before it returns, in a session with the idle
status.  A thread that stores that it is running counts as its next test. -/
def TcpUpdate.rank : TcpUpdate → Nat
  | .notCreated | .returned => 0
  | .idleTest | .started | .reconnected => 1
  | .storePing _ | .resetPing | .reconnectUdp => 2
  | .loadPing | .handle _ | .reconnectTcp => 3
  | .receive => 4
  | .errorTest => 5

/-- The own steps of the UDP thread before it returns or is in a decoder for good. -/
def UdpUpdate.rank : UdpUpdate → Nat
  | .notCreated | .decoding | .returned => 0
  | .idleTest | .started => 1
  | .resetPing => 2
  | .parse _ => 3
  | .receive => 4

/-- The stop has been stored and lasts, and no thread is created any more. -/
structure Stopping (session : NetworkSession) : Prop where
  stopped : session.stopped = true
  status : session.params.status = .idle
  starts : ∀ thread, .start thread ∉ session.caller

def NetworkAction.ofTcp : NetworkAction → Bool
  | .tcp _ _ => true
  | _ => false

def NetworkAction.ofUdp : NetworkAction → Bool
  | .udp _ => true
  | _ => false

/-- A thread that the caller does not start, it leaves alone. -/
theorem threads_callerStep (kernel : Kernel) (session : NetworkSession) :
    (.start .tcp ∉ session.caller → (callerStep kernel session).tcp = session.tcp) ∧
      (.start .udp ∉ session.caller → (callerStep kernel session).udp = session.udp) := by
  rw [callerStep]
  cases hcaller : session.caller with
  | nil => exact ⟨fun _ => rfl, fun _ => rfl⟩
  | cons step later =>
      cases step with
      | start thread =>
          dsimp only
          split_ifs
          · cases thread with
            | tcp => exact ⟨fun hnone => absurd List.mem_cons_self hnone, fun _ => rfl⟩
            | udp => exact ⟨fun _ => rfl, fun hnone => absurd List.mem_cons_self hnone⟩
          · exact ⟨fun _ => rfl, fun _ => rfl⟩
      | _ => exact ⟨fun _ => rfl, fun _ => rfl⟩

theorem stopped_networkStep (stack : Nat → FsPacketUnion) {session : NetworkSession}
    (hstopped : session.stopped = true) (action : NetworkAction) :
    (networkStep stack session action).stopped = true := by
  cases action with
  | tcp kernel received => exact (tcpStep_frame kernel received session).2.2.2.1.trans hstopped
  | udp received => exact (udpStep_frame stack received session).2.2.2.2.1.trans hstopped
  | caller kernel =>
      rw [networkStep, callerStep]
      cases session.caller with
      | nil => exact hstopped
      | cons step later =>
          cases step with
          | start thread =>
              dsimp only
              split_ifs
              · cases thread <;> exact hstopped
              · exact hstopped
          | shutdown socket => simp [hstopped]
          | storeIdle => rfl
          | _ => exact hstopped
  | closedown =>
      rw [networkStep, NetworkSession.closedown]
      split_ifs <;> exact hstopped

/-- After a stop that no thread overwrites a session is stopping. -/
theorem stopping_of_stopped {stack : Nat → FsPacketUnion} {driver : Driver} {linux : Linux}
    {actions : List NetworkAction}
    (hno : Along (networkStep stack) NoRestart (networkOpened driver linux) actions)
    (hstopped : (run (networkStep stack) (networkOpened driver linux) actions).stopped = true) :
    Stopping (run (networkStep stack) (networkOpened driver linux) actions) := by
  have hstep : ∀ session action, StartsFirst session ∧ IdleKept session →
      NoRestart session action →
      StartsFirst (networkStep stack session action) ∧
        IdleKept (networkStep stack session action) := by
    rintro session action ⟨hstarts, hkept⟩ hno
    exact ⟨startsFirst_networkStep stack hstarts action,
      (idleKept_networkStep_iff stack hstarts hkept action).2 hno⟩
  have hopened : IdleKept (networkOpened driver linux) :=
    fun hstop => absurd hstop Bool.false_ne_true
  obtain ⟨hstarts, hkept⟩ :=
    run_invariant hstep ⟨startsFirst_networkOpened driver linux, hopened⟩ hno
  refine ⟨hstopped, hkept hstopped, ?_⟩
  rcases hstarts with ⟨hrunning, _⟩ | hnone
  · exact absurd (hrunning.symm.trans hstopped) Bool.false_ne_true
  · exact hnone

section Ranks

variable (stack : Nat → FsPacketUnion) {session : NetworkSession} (hstopping : Stopping session)

include hstopping

theorem stopping_networkStep {action : NetworkAction} (hno : NoRestart session action) :
    Stopping (networkStep stack session action) := by
  have hstarts : StartsFirst session := Or.inr hstopping.starts
  have hkept : IdleKept session := fun _ => hstopping.status
  have hafter := (idleKept_networkStep_iff stack hstarts hkept action).2 hno
  have hstopped := stopped_networkStep stack hstopping.stopped action
  refine ⟨hstopped, hafter hstopped, ?_⟩
  rcases startsFirst_networkStep stack hstarts action with ⟨hrunning, _⟩ | hnone
  · exact absurd (hrunning.symm.trans hstopped) Bool.false_ne_true
  · exact hnone

theorem rank_tcpStep (kernel : Kernel) (received : Received)
    (hno : session.tcp.restarts = false) :
    (tcpStep kernel received session).tcp.rank ≤ session.tcp.rank - 1 := by
  have hidle := hstopping.status
  rw [tcpStep]
  cases htcp : session.tcp with
  | started | reconnected => exact absurd (htcp ▸ hno) (by decide)
  | idleTest => simp [hidle, TcpUpdate.rank]
  | errorTest => simp [hidle, TcpUpdate.rank]
  | reconnectTcp | reconnectUdp | receive =>
      dsimp only
      split_ifs <;> simp [TcpUpdate.rank]
  | _ => simp [TcpUpdate.rank, htcp]

theorem rank_udpStep (received : Received) (hno : session.udp.restarts = false) :
    (udpStep stack received session).udp.rank ≤ session.udp.rank - 1 := by
  have hidle := hstopping.status
  rw [udpStep]
  cases hudp : session.udp with
  | started => exact absurd (hudp ▸ hno) (by decide)
  | idleTest => simp [hidle, UdpUpdate.rank]
  | receive =>
      dsimp only
      split_ifs <;> simp [UdpUpdate.rank]
  | parse received =>
      dsimp only
      split <;> simp [UdpUpdate.rank]
  | _ => simp [UdpUpdate.rank, hudp]

theorem rank_networkStep {action : NetworkAction} (hno : NoRestart session action) :
    (networkStep stack session action).tcp.rank ≤
        session.tcp.rank - (if action.ofTcp then 1 else 0) ∧
      (networkStep stack session action).udp.rank ≤
        session.udp.rank - if action.ofUdp then 1 else 0 := by
  cases action with
  | tcp kernel received =>
      obtain ⟨hudp, _⟩ := tcpStep_frame kernel received session
      have htcp := rank_tcpStep hstopping kernel received (hno hstopping.stopped)
      rw [networkStep, hudp]
      exact ⟨htcp, Nat.le_refl _⟩
  | udp received =>
      obtain ⟨htcp, _⟩ := udpStep_frame stack received session
      have hudp := rank_udpStep stack hstopping received (hno hstopping.stopped)
      rw [networkStep, htcp]
      exact ⟨Nat.le_refl _, hudp⟩
  | caller kernel =>
      obtain ⟨htcp, hudp⟩ := threads_callerStep kernel session
      rw [networkStep, htcp (hstopping.starts .tcp), hudp (hstopping.starts .udp)]
      exact ⟨Nat.le_refl _, Nat.le_refl _⟩
  | closedown =>
      have hsame : session.closedown.tcp = session.tcp ∧ session.closedown.udp = session.udp := by
        rw [NetworkSession.closedown]
        split_ifs <;> exact ⟨rfl, rfl⟩
      rw [networkStep, hsame.1, hsame.2]
      exact ⟨Nat.le_refl _, Nat.le_refl _⟩

end Ranks

theorem TcpUpdate.rank_le (thread : TcpUpdate) : thread.rank ≤ 5 := by
  cases thread <;> simp [rank]

theorem UdpUpdate.rank_le (thread : UdpUpdate) : thread.rank ≤ 4 := by
  cases thread <;> simp [rank]

theorem TcpUpdate.ended_of_rank {thread : TcpUpdate} (hrank : thread.rank = 0) :
    thread.ended = true := by
  cases thread <;> first | rfl | simp [rank] at hrank

theorem UdpUpdate.ended_of_rank {thread : UdpUpdate} (hrank : thread.rank = 0) :
    thread.ended = true ∨ thread = .decoding := by
  cases thread <;> first | exact Or.inl rfl | exact Or.inr rfl | simp [rank] at hrank

/-- When no thread stores after the stop that it is running, five further steps of
the TCP thread and four of the UDP thread end them, whatever else happens, or leave
the UDP thread in a decoder that does not return. -/
theorem ended_of_steps (stack : Nat → FsPacketUnion) (driver : Driver) (linux : Linux)
    {before after : List NetworkAction}
    (hstopped : (run (networkStep stack) (networkOpened driver linux) before).stopped = true)
    (hno : Along (networkStep stack) NoRestart (networkOpened driver linux) (before ++ after)) :
    let session := run (networkStep stack) (networkOpened driver linux) (before ++ after)
    (5 ≤ after.countP NetworkAction.ofTcp → session.tcp.ended = true) ∧
      (4 ≤ after.countP NetworkAction.ofUdp →
        session.udp.ended = true ∨ session.udp = .decoding) := by
  obtain ⟨hbefore, hafter⟩ := along_append.1 hno
  have hstopping := stopping_of_stopped hbefore hstopped
  have hinv : ∀ session action, Stopping session → NoRestart session action →
      Stopping (networkStep stack session action) :=
    fun _ _ hstopping hno => stopping_networkStep stack hstopping hno
  have htcp := rank_run_le (fun session => session.tcp.rank) NetworkAction.ofTcp hinv
    (fun _ _ hstopping hno => (rank_networkStep stack hstopping hno).1) hstopping hafter
  have hudp := rank_run_le (fun session => session.udp.rank) NetworkAction.ofUdp hinv
    (fun _ _ hstopping hno => (rank_networkStep stack hstopping hno).2) hstopping hafter
  have hran : run (networkStep stack) (networkOpened driver linux) (before ++ after) =
      run (networkStep stack) (run (networkStep stack) (networkOpened driver linux) before) after :=
    List.foldl_append
  rw [hran]
  constructor
  · intro hcount
    have hrank := TcpUpdate.rank_le
      (run (networkStep stack) (networkOpened driver linux) before).tcp
    exact TcpUpdate.ended_of_rank (by omega)
  · intro hcount
    have hrank := UdpUpdate.rank_le
      (run (networkStep stack) (networkOpened driver linux) before).udp
    exact UdpUpdate.ended_of_rank (by omega)

theorem neg_le_natCast (count : Nat) : -2 ^ 63 ≤ (count : Int) := by
  omega

/-- A receive of so many bytes. -/
def receivedBytes (count : Nat) (hcount : count ≤ fsMaxDataLength)
    (rxBuffer : Block fsMaxDataLength) : Received where
  returned := count
  rxBuffer
  le_returned := neg_le_natCast count
  returned_le := Int.ofNat_le.2 hcount

/-- One received byte that is no packet. -/
def networkByte : Received :=
  receivedBytes 1 (Nat.le_of_ble_eq_true rfl) (.zero fsMaxDataLength)

/-- A receive that times out without data. -/
def nothingReceived : Received :=
  receivedBytes 0 (Nat.zero_le _) (.zero fsMaxDataLength)

/-- A device over a network. -/
def driverNetworked : Driver :=
  { driverUninitialized with
    device := { fsDeviceInfoUninitialized with
      deviceParams.communicationMode := .tcpUdp
      deviceParams.tcpSock := 5
      deviceParams.udpSock := 6 } }

/-- Both threads run, the device sends something, and the caller closes down. -/
def stoppedAtHandle : List NetworkAction :=
  [.caller smallKernel, .caller smallKernel, .caller smallKernel, .tcp smallKernel networkByte,
    .udp networkByte, .tcp smallKernel networkByte, .udp networkByte, .closedown,
    .caller smallKernel]

def stepsAfterStop : List NetworkAction :=
  [.tcp smallKernel networkByte, .udp networkByte, .tcp smallKernel networkByte,
    .udp networkByte, .tcp smallKernel networkByte, .udp networkByte,
    .tcp smallKernel networkByte, .udp networkByte, .tcp smallKernel networkByte]

theorem ended_of_steps_atHandle :
    (run (networkStep fun _ => .zero 185) (networkOpened driverNetworked .untouched)
      (stoppedAtHandle ++ stepsAfterStop)).tcp.ended = true := by
  have hstopped : (run (networkStep fun _ => .zero 185)
      (networkOpened driverNetworked .untouched) stoppedAtHandle).stopped = true := by
    decide +kernel
  have hno : Along (networkStep fun _ => .zero 185) NoRestart
      (networkOpened driverNetworked .untouched) (stoppedAtHandle ++ stepsAfterStop) := by
    decide +kernel
  exact (ended_of_steps (fun _ => .zero 185) driverNetworked .untouched hstopped hno).1
    (by decide)

/-! What the threads do to a handle that `fs_closedown` has cleared under them. -/

/-- What is left of the TCP thread's round leaves a cleared handle as it is. -/
def TcpQuiet (session : NetworkSession) : Prop :=
  match session.tcp with
  | .started | .reconnected => False
  | .handle received =>
      (fsHandleReceivedCommands zeroedDevice received.bytes).2 = zeroedDevice
  | .loadPing => int32Sum 0 session.delay = 0
  | .storePing ping => ping = 0
  | _ => True

/-- What is left of the UDP thread's round leaves a cleared handle as it is. -/
def UdpQuiet (stack : Nat → FsPacketUnion) (session : NetworkSession) : Prop :=
  match session.udp with
  | .started => False
  | .parse received =>
      ∀ result ∈ fsDeviceParsePacket stack session.driver received.bytes .usbCdc,
        result.2.device = zeroedDevice
  | _ => True

/-- The handle has been cleared, and the caller has returned. -/
structure HandleCleared (session : NetworkSession) : Prop where
  device : session.driver.device = zeroedDevice
  caller : session.caller = []

section HandleCleared

variable (stack : Nat → FsPacketUnion) (kernel : Kernel) (received : Received)
  {session : NetworkSession} (hcleared : HandleCleared session)

include hcleared

theorem params_of_cleared : session.params = zeroedDevice.deviceParams :=
  congrArg FsDeviceInfo.deviceParams hcleared.device

theorem setPing_of_cleared : session.setPing 0 = session := by
  obtain ⟨driver, linux, tcp, udp, delay, caller, failed, stopped, handled, parsed⟩ := session
  obtain ⟨device, decodeBuffer, enqueued⟩ := driver
  obtain ⟨rfl, rfl⟩ := hcleared
  rfl

theorem call_initSocket_of_cleared (kind : SocketKind) (prepare : Linux → Bool × Linux) :
    session.call (kernel.initSocket kind prepare) = (-1, session) := by
  have haddress : session.params.ipAddr.bytes.headD 0 = 0 := by
    rw [params_of_cleared hcleared]
    rfl
  rw [NetworkSession.call, kernel.initSocket_of_noAddress haddress]
  rfl

theorem receive_of_cleared (socket : SocketKind) : session.receive socket received = -1 := by
  rw [NetworkSession.receive, params_of_cleared hcleared]
  rfl

/-- A quiet step of the TCP thread changes nothing but how far it is. -/
theorem quiet_tcpStep (hquiet : TcpQuiet session) :
    (tcpStep kernel received session).driver = session.driver ∧
      TcpQuiet (tcpStep kernel received session) := by
  have hparams := params_of_cleared hcleared
  have hping := setPing_of_cleared hcleared
  rw [TcpQuiet] at hquiet
  rw [tcpStep]
  cases htcp : session.tcp with
  | started | reconnected =>
      rw [htcp] at hquiet
      exact hquiet.elim
  | idleTest =>
      have hidle : session.params.status = .idle := by rw [hparams]; rfl
      simp [hidle, TcpQuiet]
  | errorTest =>
      have hidle : session.params.status = .idle := by rw [hparams]; rfl
      simp [hidle, TcpQuiet]
  | reconnectTcp =>
      have hcall := call_initSocket_of_cleared kernel hcleared .tcp
      simp [Kernel.fsInitNetworkTcpDriver, hcall, TcpQuiet]
  | reconnectUdp =>
      have hcall := call_initSocket_of_cleared kernel hcleared .udp
      simp [Kernel.fsInitNetworkUdpDriver, hcall, TcpQuiet]
  | receive => simp [receive_of_cleared received hcleared, TcpQuiet]
  | handle received =>
      rw [htcp] at hquiet
      have hdevice := hcleared.device
      have hhandled : (fsHandleReceivedCommands session.driver.device received.bytes).2 =
          session.driver.device := by
        rw [hdevice]
        exact hquiet
      simp [hhandled, TcpQuiet]
  | loadPing =>
      rw [htcp] at hquiet
      have hzero : session.params.ping = 0 := by rw [hparams]; rfl
      simpa [TcpQuiet, hzero] using hquiet
  | storePing ping =>
      rw [htcp] at hquiet
      obtain rfl : ping = 0 := hquiet
      simp [hping, TcpQuiet]
  | resetPing => simp [hping, TcpQuiet]
  | notCreated | returned => simp [TcpQuiet, htcp]

/-- So does a quiet step of the UDP thread, or it leaves a cleared handle. -/
theorem quiet_udpStep (hquiet : UdpQuiet stack session) :
    (udpStep stack received session).driver.device = zeroedDevice ∧
      UdpQuiet stack (udpStep stack received session) := by
  have hparams := params_of_cleared hcleared
  have hdevice := hcleared.device
  rw [UdpQuiet] at hquiet
  rw [udpStep]
  cases hudp : session.udp with
  | started =>
      rw [hudp] at hquiet
      exact hquiet.elim
  | idleTest =>
      have hidle : session.params.status = .idle := by rw [hparams]; rfl
      simp [hidle, UdpQuiet, hdevice]
  | receive => simp [receive_of_cleared received hcleared, UdpQuiet, hdevice]
  | parse received =>
      rw [hudp] at hquiet
      have hmode : session.params.communicationMode = .usbCdc := by rw [hparams]; rfl
      rw [hmode]
      dsimp only at hquiet ⊢
      cases hparsed : fsDeviceParsePacket stack session.driver received.bytes .usbCdc with
      | none => exact ⟨hdevice, trivial⟩
      | some result => exact ⟨hquiet result hparsed, trivial⟩
  | resetPing => simp [setPing_of_cleared hcleared, UdpQuiet, hdevice]
  | notCreated | decoding | returned => simp [UdpQuiet, hudp, hdevice]

/-- A cleared handle stays so from one step to the next. -/
theorem quiet_networkStep (hquiet : TcpQuiet session ∧ UdpQuiet stack session)
    (action : NetworkAction) :
    HandleCleared (networkStep stack session action) ∧
      TcpQuiet (networkStep stack session action) ∧
      UdpQuiet stack (networkStep stack session action) := by
  have hcaller := hcleared.caller
  cases action with
  | tcp kernel received =>
      obtain ⟨hudp, hrest, _⟩ := tcpStep_frame kernel received session
      obtain ⟨hdriver, htcp⟩ := quiet_tcpStep kernel received hcleared hquiet.1
      refine ⟨⟨?_, hrest.trans hcaller⟩, htcp, ?_⟩
      · exact (congrArg Driver.device hdriver).trans hcleared.device
      · rw [UdpQuiet, networkStep, hudp, hdriver]
        exact hquiet.2
  | udp received =>
      obtain ⟨htcp, hdelay, hrest, _⟩ := udpStep_frame stack received session
      obtain ⟨hdevice, hudp⟩ := quiet_udpStep stack received hcleared hquiet.2
      refine ⟨⟨hdevice, hrest.trans hcaller⟩, ?_, hudp⟩
      rw [TcpQuiet, networkStep, htcp, hdelay]
      exact hquiet.1
  | caller kernel =>
      rw [networkStep, callerStep, hcaller]
      exact ⟨hcleared, hquiet⟩
  | closedown =>
      have hmode : session.params.communicationMode ≠ .tcpUdp := by
        rw [params_of_cleared hcleared]
        decide
      rw [networkStep, NetworkSession.closedown, if_neg fun h => hmode h.2]
      exact ⟨hcleared, hquiet⟩

/-- What a TCP thread that is not quiet changes, it changes in two steps. -/
theorem tcpQuiet_of_run
    (hall : ∀ actions, (run (networkStep stack) session actions).driver.device = zeroedDevice) :
    TcpQuiet session := by
  have hone := hall [.tcp smallKernel networkByte]
  have htwo := hall [.tcp smallKernel networkByte, .tcp smallKernel networkByte]
  change (tcpStep smallKernel networkByte session).driver.device = zeroedDevice at hone
  change (tcpStep smallKernel networkByte (tcpStep smallKernel networkByte session)).driver.device =
    zeroedDevice at htwo
  have hparams := params_of_cleared hcleared
  rw [TcpQuiet]
  cases htcp : session.tcp with
  | started | reconnected =>
      have hstatus := congrArg (fun device => device.deviceParams.status) hone
      simp only [tcpStep, htcp] at hstatus
      have hrunning : FsRunStatus.running = .idle := hstatus
      exact absurd hrunning (by decide)
  | handle received =>
      simp only [tcpStep, htcp] at hone
      rwa [hcleared.device] at hone
  | loadPing =>
      have hping := congrArg (fun device => device.deviceParams.ping) htwo
      have hzero : session.params.ping = 0 := by rw [hparams]; rfl
      simp only [tcpStep, htcp, hzero] at hping
      exact hping
  | storePing ping =>
      have hping := congrArg (fun device => device.deviceParams.ping) hone
      simp only [tcpStep, htcp] at hping
      exact hping
  | _ => trivial

theorem udpQuiet_of_run
    (hall : ∀ actions, (run (networkStep stack) session actions).driver.device = zeroedDevice) :
    UdpQuiet stack session := by
  have hone := hall [.udp networkByte]
  change (udpStep stack networkByte session).driver.device = zeroedDevice at hone
  have hmode : session.params.communicationMode = .usbCdc := by
    rw [params_of_cleared hcleared]
    rfl
  rw [UdpQuiet]
  cases hudp : session.udp with
  | started =>
      have hstatus := congrArg (fun device => device.deviceParams.status) hone
      simp only [udpStep, hudp] at hstatus
      have hrunning : FsRunStatus.running = .idle := hstatus
      exact absurd hrunning (by decide)
  | parse received =>
      intro result hresult
      simp only [udpStep, hudp, hmode, Option.mem_def.1 hresult] at hone
      exact hone
  | _ => trivial

end HandleCleared

/-- A handle that has been cleared is left as it is by every continuation exactly
when neither thread is about to store anything in it but what is there. -/
theorem device_run_cleared_iff (stack : Nat → FsPacketUnion) {session : NetworkSession}
    (hcleared : HandleCleared session) :
    (∀ actions, (run (networkStep stack) session actions).driver.device = zeroedDevice) ↔
      TcpQuiet session ∧ UdpQuiet stack session := by
  constructor
  · intro hall
    exact ⟨tcpQuiet_of_run stack hcleared hall, udpQuiet_of_run stack hcleared hall⟩
  · intro hquiet actions
    have hstep : ∀ current action,
        HandleCleared current ∧ TcpQuiet current ∧ UdpQuiet stack current → True →
        HandleCleared (networkStep stack current action) ∧ TcpQuiet (networkStep stack current action) ∧
          UdpQuiet stack (networkStep stack current action) :=
      fun _ action hinv _ => quiet_networkStep stack hinv.1 hinv.2 action
    have hkept := run_invariant hstep ⟨hcleared, hquiet⟩
      (along_of_forall (fun _ _ => trivial) session actions)
    exact hkept.1.device

/-- The TCP thread has received nothing and read the ping when the caller closes
down. -/
def closedAtPing : List NetworkAction :=
  stoppedAtHandle.take 7 ++ List.replicate 3 (.tcp smallKernel nothingReceived) ++
    .closedown :: List.replicate 6 (.caller smallKernel)

/-- Its store lands in the handle behind the closedown. -/
theorem device_run_cleared_atPing :
    ¬ ∀ actions, (run (networkStep fun _ => .zero 185)
      (run (networkStep fun _ => .zero 185) (networkOpened driverNetworked .untouched)
        closedAtPing) actions).driver.device = zeroedDevice := by
  have hcleared : HandleCleared (run (networkStep fun _ => .zero 185)
      (networkOpened driverNetworked .untouched) closedAtPing) := ⟨rfl, rfl⟩
  rw [device_run_cleared_iff (fun _ => .zero 185) hcleared]
  rintro ⟨hquiet, _⟩
  have hping : (3 : Int) = 0 := hquiet
  exact absurd hping (by decide)

end Trifecta
