/-
The ping of a network device.  The TCP thread reads it and writes it back larger in
two steps, and the UDP thread sets it to zero in between or not.
-/
import Trifecta.NetworkStop

namespace Trifecta

open Transitions

/-- A ping that was zero, after a number of additions. -/
def pingAfter (delay : Int) (additions : Nat) : Int :=
  (delay * additions).bmod (2 ^ 32)

@[simp] theorem pingAfter_zero (delay : Int) : pingAfter delay 0 = 0 := by
  simp [pingAfter]

theorem int32Sum_pingAfter (delay : Int) (additions : Nat) :
    int32Sum (pingAfter delay additions) delay = pingAfter delay (additions + 1) := by
  rw [int32Sum, pingAfter, pingAfter, Int.bmod_add_bmod]
  push_cast
  rw [Int.mul_add, Int.mul_one]

/-- A session with the additions to the ping since it was last set to zero, by
either thread or by the TCP thread. -/
structure PingSession where
  session : NetworkSession
  sinceData : Nat
  sinceTcpData : Nat

namespace PingSession

def opened (driver : Driver) (linux : Linux) : PingSession where
  session := networkOpened driver linux
  sinceData := 0
  sinceTcpData := 0

def ping (counted : PingSession) : Int :=
  counted.session.params.ping

/-- Additions behind a step of the TCP thread. -/
def added (additions : Nat) : TcpUpdate → Nat
  | .storePing _ => additions + 1
  | .resetPing => 0
  | _ => additions

/-- The action sets the ping to zero without the TCP thread. -/
def resetsBy (session : NetworkSession) : NetworkAction → Bool
  | .tcp _ _ | .closedown => false
  | .udp _ => match session.udp with
    | .resetPing => true
    | _ => false
  | .caller _ => match session.caller with
    | .erase :: _ => true
    | _ => false

def step (stack : Nat → FsPacketUnion) (counted : PingSession) (action : NetworkAction) :
    PingSession where
  session := networkStep stack counted.session action
  sinceData :=
    if action.ofTcp then added counted.sinceData counted.session.tcp
    else if resetsBy counted.session action then 0
    else counted.sinceData
  sinceTcpData :=
    if action.ofTcp then added counted.sinceTcpData counted.session.tcp
    else counted.sinceTcpData

/-- The TCP thread has begun and holds no ping. -/
def Elsewhere : TcpUpdate → Bool
  | .notCreated | .started | .storePing _ => false
  | _ => true

/-- What a step does to the ping, and whether it sets it to zero without the TCP
thread. -/
inductive PingStep (counted next : PingSession) : Bool → Prop
  | left (htcp : next.session.tcp = counted.session.tcp) (hping : next.ping = counted.ping)
      (hdelay : next.session.delay = counted.session.delay)
      (hdata : next.sinceData = counted.sinceData)
      (htcpData : next.sinceTcpData = counted.sinceTcpData) : PingStep counted next false
  | created (hat : counted.session.tcp = .notCreated) (htcp : next.session.tcp = .started)
      (hping : next.ping = counted.ping) (hdelay : next.session.delay = counted.session.delay)
      (hdata : next.sinceData = counted.sinceData)
      (htcpData : next.sinceTcpData = counted.sinceTcpData) : PingStep counted next false
  | begun (hat : counted.session.tcp = .started) (helse : Elsewhere next.session.tcp = true)
      (hping : next.ping = counted.ping) (hdata : next.sinceData = counted.sinceData)
      (htcpData : next.sinceTcpData = counted.sinceTcpData) : PingStep counted next false
  | read (hat : Elsewhere counted.session.tcp = true)
      (htcp : next.session.tcp = .storePing (int32Sum counted.ping counted.session.delay))
      (hping : next.ping = counted.ping) (hdelay : next.session.delay = counted.session.delay)
      (hdata : next.sinceData = counted.sinceData)
      (htcpData : next.sinceTcpData = counted.sinceTcpData) : PingStep counted next false
  | stored (ping : Int) (hat : counted.session.tcp = .storePing ping)
      (helse : Elsewhere next.session.tcp = true) (hping : next.ping = ping)
      (hdelay : next.session.delay = counted.session.delay)
      (hdata : next.sinceData = counted.sinceData + 1)
      (htcpData : next.sinceTcpData = counted.sinceTcpData + 1) : PingStep counted next false
  | cleared (helse : Elsewhere next.session.tcp = true) (hping : next.ping = 0)
      (hdata : next.sinceData = 0) (htcpData : next.sinceTcpData = 0) :
      PingStep counted next false
  | moved (hat : Elsewhere counted.session.tcp = true)
      (helse : Elsewhere next.session.tcp = true) (hping : next.ping = counted.ping)
      (hdelay : next.session.delay = counted.session.delay)
      (hdata : next.sinceData = counted.sinceData)
      (htcpData : next.sinceTcpData = counted.sinceTcpData) : PingStep counted next false
  | reset (htcp : next.session.tcp = counted.session.tcp) (hping : next.ping = 0)
      (hdelay : next.session.delay = counted.session.delay) (hdata : next.sinceData = 0)
      (htcpData : next.sinceTcpData = counted.sinceTcpData) : PingStep counted next true

/-- As long as the caller has the TCP thread to create, it has not been created. -/
def TcpToStart (session : NetworkSession) : Prop :=
  .start .tcp ∈ session.caller →
    session.tcp = .notCreated ∧ session.caller <:+ [.start .tcp, .start .udp, .testStarted]

section Steps

variable (stack : Nat → FsPacketUnion)

/-- The step that creates the TCP thread is the first one of the caller. -/
theorem tcpStarted_callerStep (kernel : Kernel) {session : NetworkSession}
    (hstart : TcpToStart session) (hmem : .start .tcp ∈ session.caller) :
    session.tcp = .notCreated ∧ resetsBy session (.caller kernel) = false ∧
      (callerStep kernel session).caller = [.start .udp, .testStarted] ∧
      ((callerStep kernel session).tcp = .started ∨
        (callerStep kernel session).tcp = .notCreated) := by
  obtain ⟨hnotCreated, hsuffix⟩ := hstart hmem
  have hcaller : session.caller = [.start .tcp, .start .udp, .testStarted] := by
    rcases List.suffix_cons_iff.1 hsuffix with hcaller | hlater
    · exact hcaller
    · exact absurd (hlater.subset hmem) (by simp)
  rw [resetsBy, callerStep, hcaller]
  refine ⟨hnotCreated, rfl, ?_⟩
  dsimp only
  split_ifs
  · exact ⟨rfl, Or.inl rfl⟩
  · exact ⟨rfl, Or.inr hnotCreated⟩

theorem tcpToStart_networkStep {session : NetworkSession} (hstart : TcpToStart session)
    (action : NetworkAction) : TcpToStart (networkStep stack session action) := by
  intro hmem
  cases action with
  | tcp kernel received =>
      have hcaller := (tcpStep_frame kernel received session).2.1
      rw [networkStep, hcaller] at hmem ⊢
      obtain ⟨hnotCreated, hsuffix⟩ := hstart hmem
      refine ⟨?_, hsuffix⟩
      rw [tcpStep, hnotCreated]
      exact hnotCreated
  | udp received =>
      obtain ⟨htcp, _, hcaller, _⟩ := udpStep_frame stack received session
      rw [networkStep, hcaller] at hmem
      rw [networkStep, htcp, hcaller]
      exact hstart hmem
  | caller kernel =>
      by_cases hbefore : .start .tcp ∈ session.caller
      · obtain ⟨_, _, hlater, _⟩ := tcpStarted_callerStep kernel hstart hbefore
        rw [networkStep, hlater] at hmem
        exact absurd hmem (by simp)
      · exact absurd hmem (start_not_mem_callerStep kernel hbefore)
  | closedown =>
      rw [networkStep, NetworkSession.closedown] at hmem ⊢
      split_ifs at hmem ⊢
      · exact absurd hmem (by simp)
      · exact hstart hmem

/-- What the caller leaves of the ping. -/
theorem ping_callerStep (kernel : Kernel) (session : NetworkSession) :
    (callerStep kernel session).params.ping =
        (if resetsBy session (.caller kernel) then 0 else session.params.ping) ∧
      (callerStep kernel session).delay = session.delay := by
  rw [callerStep, resetsBy]
  cases hcaller : session.caller with
  | nil => exact ⟨rfl, rfl⟩
  | cons step later =>
      cases step with
      | start thread =>
          have hkept : (kernel.fsThreadStart thread.thread session.params session.linux).2.1.ping =
              session.params.ping := by
            rw [Kernel.fsThreadStart]
            split_ifs <;> rfl
          dsimp only
          rw [if_neg Bool.false_ne_true]
          by_cases hcode : (session.call (kernel.fsThreadStart thread.thread)).1 = 0
          · rw [if_pos hcode]
            cases thread <;> exact ⟨hkept, rfl⟩
          · rw [if_neg hcode]
            exact ⟨hkept, rfl⟩
      | shutdown socket =>
          have hkept : (kernel.shutdownSocket socket session.params session.linux).2.1.ping =
              session.params.ping := by
            rw [Kernel.shutdownSocket]
            dsimp only
            split
            · rfl
            · exact ping_setSock session.params socket (-1)
          exact ⟨hkept, rfl⟩
      | _ => exact ⟨rfl, rfl⟩

theorem delay_tcpStep (kernel : Kernel) (received : Received) (session : NetworkSession) :
    (tcpStep kernel received session).delay =
      match session.tcp with
      | .started => session.driver.device.driverConfig.taskWaitMs
      | _ => session.delay := by
  rw [tcpStep]
  cases session.tcp <;> rfl

theorem pingStep_tcp (kernel : Kernel) (received : Received) (counted : PingSession) :
    PingStep counted (counted.step stack (.tcp kernel received)) false := by
  have hping := (params_tcpStep kernel received counted.session).2.2
  have hdelay := delay_tcpStep kernel received counted.session
  have hdata : (counted.step stack (.tcp kernel received)).sinceData =
      added counted.sinceData counted.session.tcp := by simp [step, NetworkAction.ofTcp]
  have htcpData : (counted.step stack (.tcp kernel received)).sinceTcpData =
      added counted.sinceTcpData counted.session.tcp := by simp [step, NetworkAction.ofTcp]
  have htcp : (counted.step stack (.tcp kernel received)).session.tcp =
      (tcpStep kernel received counted.session).tcp := rfl
  rw [tcpStep] at htcp
  cases hat : counted.session.tcp with
  | notCreated | returned =>
      rw [hat] at hping hdelay hdata htcpData htcp
      exact .left htcp hping hdelay hdata htcpData
  | started =>
      rw [hat] at hping hdata htcpData htcp
      exact .begun hat (by rw [htcp]; rfl) hping hdata htcpData
  | loadPing =>
      rw [hat] at hping hdelay hdata htcpData htcp
      exact .read (by rw [hat]; rfl) htcp hping hdelay hdata htcpData
  | storePing ping =>
      rw [hat] at hping hdelay hdata htcpData htcp
      exact .stored ping hat (by rw [htcp]; rfl) hping hdelay hdata htcpData
  | resetPing =>
      rw [hat] at hping hdata htcpData htcp
      exact .cleared (by rw [htcp]; rfl) hping hdata htcpData
  | idleTest | errorTest | reconnectTcp | reconnectUdp | receive =>
      rw [hat] at hping hdelay hdata htcpData htcp
      refine .moved (by rw [hat]; rfl) ?_ hping hdelay hdata htcpData
      rw [htcp]
      dsimp only
      split_ifs <;> rfl
  | reconnected | handle received =>
      rw [hat] at hping hdelay hdata htcpData htcp
      exact .moved (by rw [hat]; rfl) (by rw [htcp]; rfl) hping hdelay hdata htcpData

theorem pingStep_udp (received : Received) (counted : PingSession) :
    PingStep counted (counted.step stack (.udp received))
      (resetsBy counted.session (.udp received)) := by
  obtain ⟨htcp, hdelay, _⟩ := udpStep_frame stack received counted.session
  have hping := (params_udpStep stack received counted.session).2.2
  have hdata : (counted.step stack (.udp received)).sinceData =
      if resetsBy counted.session (.udp received) then 0 else counted.sinceData := by
    simp [step, NetworkAction.ofTcp]
  rw [resetsBy] at hdata ⊢
  cases hudp : counted.session.udp with
  | resetPing =>
      rw [hudp] at hping hdata
      exact .reset htcp hping hdelay hdata rfl
  | _ =>
      rw [hudp] at hping hdata
      exact .left htcp hping hdelay hdata rfl

theorem pingStep_caller (kernel : Kernel) {counted : PingSession}
    (hstart : TcpToStart counted.session) :
    PingStep counted (counted.step stack (.caller kernel))
      (resetsBy counted.session (.caller kernel)) := by
  obtain ⟨hping, hdelay⟩ := ping_callerStep kernel counted.session
  have hdata : (counted.step stack (.caller kernel)).sinceData =
      if resetsBy counted.session (.caller kernel) then 0 else counted.sinceData := by
    simp [step, NetworkAction.ofTcp]
  by_cases hmem : .start .tcp ∈ counted.session.caller
  · obtain ⟨hnotCreated, hresets, _, hcreated⟩ := tcpStarted_callerStep kernel hstart hmem
    rw [hresets] at hping hdata ⊢
    rcases hcreated with htcp | htcp
    · exact .created hnotCreated htcp hping hdelay hdata rfl
    · exact .left (htcp.trans hnotCreated.symm) hping hdelay hdata rfl
  · have htcp := (threads_callerStep kernel counted.session).1 hmem
    cases hresets : resetsBy counted.session (.caller kernel) with
    | true =>
        rw [hresets] at hping hdata
        exact .reset htcp hping hdelay hdata rfl
    | false =>
        rw [hresets] at hping hdata
        exact .left htcp hping hdelay hdata rfl

theorem pingStep (action : NetworkAction) {counted : PingSession}
    (hstart : TcpToStart counted.session) :
    PingStep counted (counted.step stack action) (resetsBy counted.session action) := by
  cases action with
  | tcp kernel received => exact pingStep_tcp stack kernel received counted
  | udp received => exact pingStep_udp stack received counted
  | caller kernel => exact pingStep_caller stack kernel hstart
  | closedown =>
      have hsame : counted.session.closedown.tcp = counted.session.tcp ∧
          counted.session.closedown.params.ping = counted.session.params.ping ∧
          counted.session.closedown.delay = counted.session.delay := by
        rw [NetworkSession.closedown]
        split_ifs <;> exact ⟨rfl, rfl, rfl⟩
      exact .left hsame.1 hsame.2.1 hsame.2.2 (by simp [step, NetworkAction.ofTcp, resetsBy]) rfl

end Steps

theorem not_storePing {thread : TcpUpdate} (helse : Elsewhere thread = true) (ping : Int) :
    thread ≠ .storePing ping := by
  rintro rfl
  exact absurd helse Bool.false_ne_true

theorem not_begun {thread : TcpUpdate} (helse : Elsewhere thread = true) :
    ¬ (thread = .notCreated ∨ thread = .started) := by
  rintro (rfl | rfl) <;> exact absurd helse Bool.false_ne_true

/-- A ping within the additions that have been counted. -/
def Within (counted : PingSession) (ping : Int) (later : Nat) : Prop :=
  ∃ additions, counted.sinceData ≤ additions ∧ additions ≤ counted.sinceTcpData ∧
    ping = pingAfter counted.session.delay (additions + later)

/-- The ping is within the additions, and so is what the TCP thread is about to
store.  The wait time is read before the first addition. -/
structure PingBounded (counted : PingSession) : Prop where
  ping : counted.Within counted.ping 0
  pending : ∀ ping, counted.session.tcp = .storePing ping → counted.Within ping 1
  begun : counted.session.tcp = .notCreated ∨ counted.session.tcp = .started →
    counted.sinceTcpData = 0

section Bounds

variable {counted next : PingSession}

/-- Before the TCP thread has begun, the ping has not been set. -/
theorem PingBounded.ping_of_begun (hbounded : PingBounded counted)
    (hbegun : counted.session.tcp = .notCreated ∨ counted.session.tcp = .started) :
    counted.sinceData = 0 ∧ counted.ping = 0 := by
  have hnone := hbounded.begun hbegun
  obtain ⟨additions, habove, hbelow, hping⟩ := hbounded.ping
  obtain rfl : additions = 0 := by omega
  exact ⟨by omega, by simpa using hping⟩

theorem Within.of_same {ping : Int} {later : Nat} (hwithin : counted.Within ping later)
    (hdelay : next.session.delay = counted.session.delay)
    (hdata : next.sinceData = counted.sinceData)
    (htcpData : next.sinceTcpData = counted.sinceTcpData) : next.Within ping later := by
  rw [Within, hdata, htcpData, hdelay]
  exact hwithin

theorem PingBounded.behind {resets : Bool} (hbounded : PingBounded counted)
    (hstep : PingStep counted next resets) : PingBounded next := by
  cases hstep with
  | left htcp hping hdelay hdata htcpData =>
      refine ⟨hping ▸ hbounded.ping.of_same hdelay hdata htcpData, fun ping hnext => ?_, ?_⟩
      · exact (hbounded.pending ping (htcp ▸ hnext)).of_same hdelay hdata htcpData
      · rw [htcp, htcpData]
        exact hbounded.begun
  | created hat htcp hping hdelay hdata htcpData =>
      refine ⟨hping ▸ hbounded.ping.of_same hdelay hdata htcpData, by simp [htcp], fun _ => ?_⟩
      exact htcpData.trans (hbounded.begun (Or.inl hat))
  | begun hat helse hping hdata htcpData =>
      obtain ⟨hnone, hzero⟩ := hbounded.ping_of_begun (Or.inr hat)
      refine ⟨⟨0, Nat.le_of_eq (hdata.trans hnone), Nat.zero_le _, ?_⟩, ?_, ?_⟩
      · rw [hping, hzero, pingAfter_zero]
      · exact fun ping hnext => absurd hnext (not_storePing helse ping)
      · exact fun hbegun => absurd hbegun (not_begun helse)
  | read hat htcp hping hdelay hdata htcpData =>
      refine ⟨hping ▸ hbounded.ping.of_same hdelay hdata htcpData, fun ping hnext => ?_,
        by simp [htcp]⟩
      obtain ⟨additions, habove, hbelow, hvalue⟩ := hbounded.ping
      rw [htcp] at hnext
      obtain rfl := TcpUpdate.storePing.inj hnext
      refine ⟨additions, hdata ▸ habove, htcpData ▸ hbelow, ?_⟩
      rw [hvalue, hdelay, Nat.add_zero, int32Sum_pingAfter]
  | stored ping hat helse hping hdelay hdata htcpData =>
      obtain ⟨additions, habove, hbelow, hvalue⟩ := hbounded.pending ping hat
      refine ⟨⟨additions + 1, by omega, by omega, ?_⟩, ?_, ?_⟩
      · rw [hping, hvalue, hdelay]
      · exact fun later hnext => absurd hnext (not_storePing helse later)
      · exact fun hbegun => absurd hbegun (not_begun helse)
  | cleared helse hping hdata htcpData =>
      refine ⟨⟨0, Nat.le_of_eq hdata, Nat.zero_le _, by rw [hping, pingAfter_zero]⟩, ?_, ?_⟩
      · exact fun later hnext => absurd hnext (not_storePing helse later)
      · exact fun hbegun => absurd hbegun (not_begun helse)
  | moved hat helse hping hdelay hdata htcpData =>
      refine ⟨hping ▸ hbounded.ping.of_same hdelay hdata htcpData, ?_, ?_⟩
      · exact fun ping hnext => absurd hnext (not_storePing helse ping)
      · exact fun hbegun => absurd hbegun (not_begun helse)
  | reset htcp hping hdelay hdata htcpData =>
      refine ⟨⟨0, Nat.le_of_eq hdata, Nat.zero_le _, by rw [hping, pingAfter_zero]⟩, ?_, ?_⟩
      · intro ping hnext
        obtain ⟨additions, _, hbelow, hvalue⟩ := hbounded.pending ping (htcp ▸ hnext)
        exact ⟨additions, by omega, by omega, hdelay ▸ hvalue⟩
      · rw [htcp, htcpData]
        exact hbounded.begun

end Bounds

theorem pingBounded_opened {driver : Driver} (hping : driver.device.deviceParams.ping = 0)
    (linux : Linux) : PingBounded (opened driver linux) := by
  refine ⟨⟨0, Nat.le_refl _, Nat.le_refl _, ?_⟩, fun _ hnext => ?_, fun _ => rfl⟩
  · exact hping.trans (pingAfter_zero _).symm
  · exact absurd hnext (by simp [opened, networkOpened])

theorem tcpToStart_opened (driver : Driver) (linux : Linux) :
    TcpToStart (opened driver linux).session :=
  fun _ => ⟨rfl, List.suffix_refl _⟩

/-- Both threads are created, the TCP thread misses data twice, and the UDP thread
receives some between its read of the ping and its store. -/
def resetBetween : List NetworkAction :=
  List.replicate 3 (.caller smallKernel) ++
    List.replicate 10 (.tcp smallKernel nothingReceived) ++
      List.replicate 5 (.udp networkByte) ++ [.tcp smallKernel nothingReceived]

/-- However the steps of both threads fall, the ping has been added to at least as
often as data has been missing since any was received, and at most as often as
since the TCP thread received some. -/
theorem ping_run_bounds (stack : Nat → FsPacketUnion) {driver : Driver}
    (hping : driver.device.deviceParams.ping = 0) (linux : Linux)
    (actions : List NetworkAction) :
    let counted := run (step stack) (opened driver linux) actions
    ∃ additions, counted.sinceData ≤ additions ∧ additions ≤ counted.sinceTcpData ∧
      counted.ping = pingAfter counted.session.delay additions := by
  have hstep : ∀ counted action, TcpToStart counted.session ∧ PingBounded counted → True →
      TcpToStart (counted.step stack action).session ∧
        PingBounded (counted.step stack action) :=
    fun counted action hinv _ => ⟨tcpToStart_networkStep stack hinv.1 action,
      hinv.2.behind (pingStep stack action hinv.1)⟩
  have hbounded := run_invariant hstep
    ⟨tcpToStart_opened driver linux, pingBounded_opened hping linux⟩
    (along_of_forall (fun _ _ => trivial) _ actions)
  exact hbounded.2.ping

/-- The ping has been added to twice, once before the reset that is lost. -/
theorem ping_run_bounds_resetBetween :
    ∃ additions, 1 ≤ additions ∧ additions ≤ 2 ∧ (6 : Int) = pingAfter 3 additions := by
  have hcounts : (fun counted : PingSession => (counted.sinceData, counted.sinceTcpData,
      counted.ping, counted.session.delay))
      (run (step fun _ => .zero 185) (opened driverNetworked .untouched) resetBetween) =
        (1, 2, 6, 3) := by
    decide +kernel
  obtain ⟨hdata, hcounts⟩ := Prod.mk.inj hcounts
  obtain ⟨htcpData, hcounts⟩ := Prod.mk.inj hcounts
  obtain ⟨hping, hdelay⟩ := Prod.mk.inj hcounts
  have hping0 : driverNetworked.device.deviceParams.ping = 0 := rfl
  have hbounds := ping_run_bounds (fun _ => .zero 185) hping0 .untouched resetBetween
  dsimp only at hbounds
  rwa [hdata, htcpData, hping, hdelay] at hbounds

/-- The ping has been added to once for each time that data has been missing since
any was received, and so has what the TCP thread is about to store. -/
structure PingExact (counted : PingSession) : Prop where
  ping : counted.ping = pingAfter counted.session.delay counted.sinceData
  pending : ∀ ping, counted.session.tcp = .storePing ping →
    ping = pingAfter counted.session.delay (counted.sinceData + 1)

/-- A ping that is set to zero without the TCP thread is not about to be stored
again as it was before. -/
def ResetKept (counted : PingSession) (action : NetworkAction) : Prop :=
  resetsBy counted.session action = true → ∀ ping, counted.session.tcp = .storePing ping →
    ping = pingAfter counted.session.delay 1

/-- The ping that the TCP thread is about to store. -/
def held : TcpUpdate → Option Int
  | .storePing ping => some ping
  | _ => none

theorem held_eq_some {thread : TcpUpdate} {ping : Int} :
    held thread = some ping ↔ thread = .storePing ping := by
  cases thread <;> simp [held]

instance (counted : PingSession) (action : NetworkAction) : Decidable (ResetKept counted action) :=
  decidable_of_iff (resetsBy counted.session action = true →
      ∀ ping ∈ held counted.session.tcp, ping = pingAfter counted.session.delay 1)
    (by simp only [Option.mem_def, held_eq_some, ResetKept])

section Exact

variable {counted next : PingSession}

theorem pingExact_iff {resets : Bool} (hbounded : PingBounded counted)
    (hexact : PingExact counted) (hstep : PingStep counted next resets) :
    PingExact next ↔ (resets = true → ∀ ping, counted.session.tcp = .storePing ping →
      ping = pingAfter counted.session.delay 1) := by
  have hnever : ∀ {goal : Prop}, false = true → goal := fun h => absurd h Bool.false_ne_true
  cases hstep with
  | left htcp hping hdelay hdata htcpData =>
      refine iff_of_true ⟨?_, fun ping hnext => ?_⟩ hnever
      · rw [hping, hdelay, hdata]
        exact hexact.ping
      · rw [hdelay, hdata]
        exact hexact.pending ping (htcp ▸ hnext)
  | created hat htcp hping hdelay hdata htcpData =>
      refine iff_of_true ⟨?_, by simp [htcp]⟩ hnever
      rw [hping, hdelay, hdata]
      exact hexact.ping
  | begun hat helse hping hdata htcpData =>
      obtain ⟨hnone, hzero⟩ := hbounded.ping_of_begun (Or.inr hat)
      refine iff_of_true ⟨?_, fun ping hnext => absurd hnext (not_storePing helse ping)⟩ hnever
      rw [hping, hzero, hdata, hnone, pingAfter_zero]
  | read hat htcp hping hdelay hdata htcpData =>
      refine iff_of_true ⟨?_, fun ping hnext => ?_⟩ hnever
      · rw [hping, hdelay, hdata]
        exact hexact.ping
      · rw [htcp] at hnext
        obtain rfl := TcpUpdate.storePing.inj hnext
        rw [hexact.ping, int32Sum_pingAfter, hdelay, hdata]
  | stored ping hat helse hping hdelay hdata htcpData =>
      refine iff_of_true ⟨?_, fun later hnext => absurd hnext (not_storePing helse later)⟩ hnever
      rw [hping, hexact.pending ping hat, hdelay, hdata]
  | cleared helse hping hdata htcpData =>
      refine iff_of_true ⟨?_, fun later hnext => absurd hnext (not_storePing helse later)⟩ hnever
      rw [hping, hdata, pingAfter_zero]
  | moved hat helse hping hdelay hdata htcpData =>
      refine iff_of_true ⟨?_, fun later hnext => absurd hnext (not_storePing helse later)⟩ hnever
      rw [hping, hdelay, hdata]
      exact hexact.ping
  | reset htcp hping hdelay hdata htcpData =>
      rw [imp_iff_right rfl]
      constructor
      · intro hafter ping hat
        have hvalue := hafter.pending ping (htcp.trans hat)
        rwa [hdelay, hdata] at hvalue
      · intro hkept
        refine ⟨by rw [hping, hdata, pingAfter_zero], fun ping hat => ?_⟩
        rw [hdelay, hdata]
        exact hkept ping (htcp ▸ hat)

end Exact

/-- The ping counts the times without data exactly, in every state of a run and in
what the TCP thread is about to store, exactly when no reset of the ping is lost
between a read and the store behind it. -/
theorem pingExact_along_iff (stack : Nat → FsPacketUnion) {driver : Driver}
    (hping : driver.device.deviceParams.ping = 0) (linux : Linux)
    (actions : List NetworkAction) :
    (∀ front, front <+: actions → PingExact (run (step stack) (opened driver linux) front)) ↔
      Along (step stack) ResetKept (opened driver linux) actions := by
  have hopened : PingExact (opened driver linux) := by
    refine ⟨hping.trans (pingAfter_zero _).symm, fun _ hnext => ?_⟩
    exact absurd hnext (by simp [opened, networkOpened])
  exact @forall_prefix_run_iff _ _ (step stack) ResetKept
    (fun counted => TcpToStart counted.session ∧ PingBounded counted) PingExact
    (fun _ action hinv _ _ => ⟨tcpToStart_networkStep stack hinv.1 action,
      hinv.2.behind (pingStep stack action hinv.1)⟩)
    (fun _ action hinv hexact => pingExact_iff hinv.2 hexact (pingStep stack action hinv.1))
    (opened driver linux) actions
    ⟨tcpToStart_opened driver linux, pingBounded_opened hping linux⟩ hopened

/-- The TCP thread stores the ping from before the reset. -/
theorem pingExact_along_resetBetween :
    ¬ ∀ front, front <+: resetBetween →
      PingExact (run (step fun _ => .zero 185) (opened driverNetworked .untouched) front) := by
  have hping : driverNetworked.device.deviceParams.ping = 0 := rfl
  rw [pingExact_along_iff (fun _ => .zero 185) hping .untouched resetBetween]
  decide +kernel

end PingSession

end Trifecta
