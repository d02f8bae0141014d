/-
What a failed initialization leaves behind: the drivers that are still open,
the run status and the communication mode, for every sequence of answers of the
platform and whatever the update threads do that it has created.
-/
import Trifecta.Startup
import Trifecta.Library.Usage

namespace Trifecta

open Usage

inductive DriverKind
  | serial
  | tcp
  | udp
deriving DecidableEq, Repr

/-- The drivers that were started and shut down, latest first. -/
abbrev DriverLog : Type := List (Event DriverKind)

/-- The answer of an init function of a driver, which leaves the run status to
its caller. -/
structure InitOutcome where
  answer : FsDeviceParams → Int × FsDeviceParams
  status_answer : ∀ params, (answer params).2.status = params.status

/-- The network drivers leave the communication mode to their caller too. -/
structure NetworkInitOutcome extends InitOutcome where
  mode_answer : ∀ params, (answer params).2.communicationMode = params.communicationMode

/-- A shutdown that succeeds.  Some platforms set the run status to idle. -/
structure ShutdownOutcome where
  idles : Bool
  write : FsDeviceParams → FsDeviceParams
  status_write : ∀ params, (write params).status = if idles then .idle else params.status

/-- A shutdown never lets a thread run. -/
theorem ShutdownOutcome.not_running (outcome : ShutdownOutcome) {params : FsDeviceParams}
    (hstatus : params.status ≠ .running) : (outcome.write params).status ≠ .running := by
  rw [outcome.status_write]
  split
  · decide
  · exact hstatus

/-- A reconnection by an update thread: whether the driver opens again, and what it
writes but the run status and the mode. -/
structure ReconnectOutcome where
  opens : Bool
  write : FsDeviceParams → FsDeviceParams
  status_write : ∀ params, (write params).status = params.status
  mode_write : ∀ params, (write params).communicationMode = params.communicationMode

/-- What an update thread does that its creator can see: it stores that it is running,
at its start and when it has reconnected, and it reconnects. -/
inductive UpdateStep
  | running (thread : UpdateThread)
  | reconnect (driver : DriverKind) (outcome : ReconnectOutcome)

/-- The thread that reconnects a driver. -/
def DriverKind.thread : DriverKind → UpdateThread
  | .serial => .serial
  | .tcp => .tcp
  | .udp => .tcp

def UpdateStep.thread : UpdateStep → UpdateThread
  | .running thread => thread
  | .reconnect driver _ => driver.thread

/-- The calls behind which threads that have been created can take steps, until the
next one or, behind the last one, for ever. -/
inductive UpdatePoint
  | threadStart (thread : UpdateThread)
  | shutdownUdp
  | shutdownTcp
deriving DecidableEq, Repr

/-- The points at which a thread can have started to run. -/
def UpdateThread.points : UpdateThread → List UpdatePoint
  | .serial => [.threadStart .serial]
  | .tcp => [.threadStart .tcp, .threadStart .udp, .shutdownUdp, .shutdownTcp]
  | .udp => [.threadStart .udp, .shutdownUdp, .shutdownTcp]

/-- What the platform answers during one call, and what the threads do behind which of
its functions.  No thread is joined, and none ends before its first store. -/
structure Outcomes where
  initSerial : InitOutcome
  shutdownSerial : ShutdownOutcome
  interruptsSupported : FsCommunicationMode → Bool
  initSerialInterrupts : Int
  initTcp : NetworkInitOutcome
  initUdp : NetworkInitOutcome
  shutdownTcp : ShutdownOutcome
  shutdownUdp : ShutdownOutcome
  threadStart : UpdateThread → Int
  transmittedPort : Int
  updates : UpdatePoint → List UpdateStep
  running_updates : ∀ thread, ∃ point ∈ UpdateThread.points thread,
    .running thread ∈ updates point

/-- The log of the drivers, and the update threads that have been created. -/
structure PlatformLog where
  drivers : DriverLog
  threads : List UpdateThread

def PlatformLog.empty : PlatformLog where
  drivers := []
  threads := []

def PlatformLog.log (platform : PlatformLog) (event : Event DriverKind) : PlatformLog :=
  { platform with drivers := event :: platform.drivers }

section Fields

variable (platform : PlatformLog) (event : Event DriverKind)

@[simp] theorem PlatformLog.drivers_log :
    (platform.log event).drivers = event :: platform.drivers :=
  rfl

@[simp] theorem PlatformLog.threads_log : (platform.log event).threads = platform.threads :=
  rfl

end Fields

/-- A step of a thread on the handle and the drivers. -/
def UpdateStep.taken (state : FsDeviceParams × PlatformLog) :
    UpdateStep → FsDeviceParams × PlatformLog
  | .running _ => ({ state.1 with status := .running }, state.2)
  | .reconnect driver outcome =>
      (outcome.write state.1, if outcome.opens then state.2.log (.acquired driver) else state.2)

/-- A thread that has not been created takes no step. -/
def UpdateStep.run (state : FsDeviceParams × PlatformLog) (step : UpdateStep) :
    FsDeviceParams × PlatformLog :=
  if step.thread ∈ state.2.threads then step.taken state else state

/-- A platform function, and the steps of the threads behind it. -/
def followedBy (function : PlatformCall PlatformLog) (steps : List UpdateStep) :
    PlatformCall PlatformLog :=
  fun params platform =>
    let answer := function params platform
    (answer.1, steps.foldl UpdateStep.run answer.2)

/-- A driver counts as started when its init function returns zero. -/
def InitOutcome.logged (outcome : InitOutcome) (driver : DriverKind) :
    PlatformCall PlatformLog :=
  fun params platform =>
    let answer := outcome.answer params
    (answer.1, answer.2, if answer.1 = 0 then platform.log (.acquired driver) else platform)

def ShutdownOutcome.logged (outcome : ShutdownOutcome) (driver : DriverKind) :
    PlatformCall PlatformLog :=
  fun params platform => (0, outcome.write params, platform.log (.released driver))

/-- `fs_thread_start` writes the run status, before the thread does. -/
def threadStarted (thread : UpdateThread) (code : Int) : PlatformCall PlatformLog :=
  fun params platform =>
    if code = 0 then
      (code, { params with status := .running },
        { platform with threads := thread :: platform.threads })
    else (code, { params with status := .error }, platform)

def Outcomes.backend (outcomes : Outcomes) : Backend PlatformLog where
  fsInitSerialDriver := outcomes.initSerial.logged .serial
  fsShutdownSerialDriver := outcomes.shutdownSerial.logged .serial
  interruptsSupported := outcomes.interruptsSupported
  fsInitSerialInterrupts params platform := (outcomes.initSerialInterrupts, params, platform)
  fsInitNetworkTcpDriver := outcomes.initTcp.logged .tcp
  fsInitNetworkUdpDriver := outcomes.initUdp.logged .udp
  fsShutdownNetworkTcpDriver :=
    followedBy (outcomes.shutdownTcp.logged .tcp) (outcomes.updates .shutdownTcp)
  fsShutdownNetworkUdpDriver :=
    followedBy (outcomes.shutdownUdp.logged .udp) (outcomes.updates .shutdownUdp)
  fsThreadStart thread :=
    followedBy (threadStarted thread (outcomes.threadStart thread))
      (outcomes.updates (.threadStart thread))
  transmitListeningPort _ params platform := (outcomes.transmittedPort, params, platform)

/-- Every driver that was started has been shut down since, no update thread can
run and no mode is set. -/
structure Released (machine : Machine PlatformLog) : Prop where
  drivers : held machine.platform.drivers = []
  status : machine.device.deviceParams.status ≠ .running
  mode : machine.device.deviceParams.communicationMode = .uninitialized

/-- A call that fails after a driver was started releases what it has started. -/
def FailureReleases (result : Int × Machine PlatformLog) : Prop :=
  result.1 ≠ 0 → (∃ driver, .acquired driver ∈ result.2.platform.drivers) → Released result.2

/-- One of the threads stores that it is running. -/
def StoresRunning (threads : List UpdateThread) (steps : List UpdateStep) : Prop :=
  ∃ thread ∈ threads, .running thread ∈ steps

/-- One of the threads opens the driver again. -/
def Reopens (threads : List UpdateThread) (steps : List UpdateStep) (driver : DriverKind) :
    Prop :=
  driver.thread ∈ threads ∧ ∃ outcome, .reconnect driver outcome ∈ steps ∧ outcome.opens = true

section Steps

variable (state : FsDeviceParams × PlatformLog) (step : UpdateStep) (steps : List UpdateStep)

/-- No thread creates another one or sets the mode. -/
theorem run_frame :
    (UpdateStep.run state step).2.threads = state.2.threads ∧
      (UpdateStep.run state step).1.communicationMode = state.1.communicationMode := by
  rw [UpdateStep.run]
  split_ifs
  · cases step with
    | running thread => exact ⟨rfl, rfl⟩
    | reconnect driver outcome =>
        refine ⟨?_, outcome.mode_write state.1⟩
        rw [UpdateStep.taken]
        dsimp only
        split <;> rfl
  · exact ⟨rfl, rfl⟩

theorem foldl_run_frame :
    (steps.foldl UpdateStep.run state).2.threads = state.2.threads ∧
      (steps.foldl UpdateStep.run state).1.communicationMode = state.1.communicationMode := by
  induction steps generalizing state with
  | nil => exact ⟨rfl, rfl⟩
  | cons step steps ih =>
      obtain ⟨hthreads, hmode⟩ := run_frame state step
      rw [List.foldl_cons, ← hthreads, ← hmode]
      exact ih _

/-- The status is that of the last store. -/
theorem status_run : (UpdateStep.run state step).1.status = .running ↔
    state.1.status = .running ∨ StoresRunning state.2.threads [step] := by
  rw [UpdateStep.run]
  split_ifs with hcreated
  · cases step with
    | running thread =>
        exact iff_of_true rfl (Or.inr ⟨thread, hcreated, List.mem_singleton.2 rfl⟩)
    | reconnect driver outcome =>
        rw [UpdateStep.taken, outcome.status_write]
        exact (or_iff_left fun hstores => by simp [StoresRunning] at hstores).symm
  · refine (or_iff_left ?_).symm
    rintro ⟨thread, hthread, hstep⟩
    obtain rfl := List.mem_singleton.1 hstep
    exact hcreated hthread

theorem status_foldl_run : (steps.foldl UpdateStep.run state).1.status = .running ↔
    state.1.status = .running ∨ StoresRunning state.2.threads steps := by
  induction steps generalizing state with
  | nil => simp [StoresRunning]
  | cons step steps ih =>
      rw [List.foldl_cons, ih, status_run, (run_frame state step).1, or_assoc]
      simp only [StoresRunning, List.mem_cons, List.not_mem_nil, or_false, and_or_left, exists_or]

/-- The driver that a step opens. -/
theorem held_run (driver : DriverKind) :
    driver ∈ held (UpdateStep.run state step).2.drivers ↔
      driver ∈ held state.2.drivers ∨ Reopens state.2.threads [step] driver := by
  rw [UpdateStep.run]
  split_ifs with hcreated
  · cases step with
    | running thread =>
        exact (or_iff_left fun hreopens => by simp [Reopens] at hreopens).symm
    | reconnect opened outcome =>
        cases hopens : outcome.opens with
        | false =>
            rw [UpdateStep.taken, if_neg (by simp [hopens])]
            refine (or_iff_left ?_).symm
            rintro ⟨_, other, hother, hopened⟩
            obtain ⟨rfl, rfl⟩ : driver = opened ∧ other = outcome := by simpa using hother
            rw [hopens] at hopened
            cases hopened
        | true =>
            have hreopens : Reopens state.2.threads [.reconnect opened outcome] driver ↔
                driver = opened := by
              constructor
              · rintro ⟨_, other, hother, _⟩
                exact (by simpa using hother : driver = opened ∧ other = outcome).1
              · rintro rfl
                exact ⟨hcreated, outcome, List.mem_singleton.2 rfl, hopens⟩
            rw [hreopens, or_comm, UpdateStep.taken, if_pos hopens]
            exact mem_held_acquired
  · refine (or_iff_left ?_).symm
    rintro ⟨hthread, outcome, hstep, _⟩
    obtain rfl := List.mem_singleton.1 hstep
    exact hcreated hthread

theorem held_foldl_run (driver : DriverKind) :
    driver ∈ held (steps.foldl UpdateStep.run state).2.drivers ↔
      driver ∈ held state.2.drivers ∨ Reopens state.2.threads steps driver := by
  induction steps generalizing state with
  | nil => simp [Reopens]
  | cons step steps ih =>
      rw [List.foldl_cons, ih, held_run, (run_frame state step).1, or_assoc]
      simp only [Reopens, List.mem_cons, List.not_mem_nil, or_false, or_and_right, exists_or,
        ← and_or_left]

theorem foldl_run_of_noThreads (hthreads : state.2.threads = []) :
    steps.foldl UpdateStep.run state = state := by
  induction steps with
  | nil => rfl
  | cons step steps ih =>
      have hstep : UpdateStep.run state step = state := by
        rw [UpdateStep.run, hthreads]
        exact if_neg List.not_mem_nil
      rw [List.foldl_cons, hstep]
      exact ih

/-- What has been started stays in the log. -/
theorem acquired_foldl_run {event : Event DriverKind} (hevent : event ∈ state.2.drivers) :
    event ∈ (steps.foldl UpdateStep.run state).2.drivers := by
  induction steps generalizing state with
  | nil => exact hevent
  | cons step steps ih =>
      apply ih
      rw [UpdateStep.run]
      split_ifs
      · cases step with
        | running thread => exact hevent
        | reconnect driver outcome =>
            rw [UpdateStep.taken]
            dsimp only
            split
            · exact List.mem_cons_of_mem _ hevent
            · exact hevent
      · exact hevent

end Steps

/-- What is owed by a call that resets the mode and fails. -/
theorem failureReleases_iff_of_failed {code : Int} (hcode : code ≠ 0)
    (machine : Machine PlatformLog) :
    FailureReleases (code, machine.setMode .uninitialized) ↔
      ((∃ driver, .acquired driver ∈ machine.platform.drivers) →
        held machine.platform.drivers = [] ∧
          machine.device.deviceParams.status ≠ .running) := by
  constructor
  · intro hreleases hdriver
    have hreleased := hreleases hcode hdriver
    exact ⟨hreleased.drivers, hreleased.status⟩
  · intro hreleases _ hdriver
    obtain ⟨hdrivers, hstatus⟩ := hreleases hdriver
    exact ⟨hdrivers, hstatus, rfl⟩

theorem failureReleases_of_succeeded (machine : Machine PlatformLog) :
    FailureReleases (0, machine) :=
  fun hfailed => absurd rfl hfailed

/-- A refused call has started nothing. -/
theorem failureReleases_of_unstarted {result : Int × Machine PlatformLog}
    (hnew : result.2.platform = .empty) : FailureReleases result := by
  rintro _ ⟨driver, hstarted⟩
  rw [hnew] at hstarted
  exact absurd hstarted List.not_mem_nil

/-- What stays so when a thread is started: the drivers that are open, and the mode. -/
structure StillStarted (params next : FsDeviceParams) (platform later : PlatformLog) : Prop where
  acquired : ∀ event ∈ platform.drivers, event ∈ later.drivers
  held : ∀ driver ∈ held platform.drivers, driver ∈ held later.drivers
  mode : next.communicationMode = params.communicationMode

theorem StillStarted.refl (params : FsDeviceParams) (platform : PlatformLog) :
    StillStarted params params platform platform :=
  ⟨fun _ hevent => hevent, fun _ hdriver => hdriver, rfl⟩

/-- Neither `fs_thread_start` nor a thread shuts a driver down; the thread that has been
created is one of those that can reconnect and store the run status. -/
theorem call_fsThreadStart_spec (outcomes : Outcomes) (thread : UpdateThread)
    (machine : Machine PlatformLog) :
    let started := machine.call (outcomes.backend.fsThreadStart thread)
    started.1 = outcomes.threadStart thread ∧
      StillStarted machine.device.deviceParams started.2.device.deviceParams machine.platform
        started.2.platform ∧
      started.2.platform.threads =
        (if outcomes.threadStart thread = 0 then thread :: machine.platform.threads
        else machine.platform.threads) ∧
      (∀ driver ∈ held started.2.platform.drivers, driver ∈ held machine.platform.drivers ∨
        driver.thread ∈ started.2.platform.threads) ∧
      (started.2.device.deviceParams.status = .running ↔ outcomes.threadStart thread = 0 ∨
        StoresRunning started.2.platform.threads (outcomes.updates (.threadStart thread))) := by
  obtain ⟨hcode, hdrivers, hmode, hthreads, hstatus⟩ :
      let answer := threadStarted thread (outcomes.threadStart thread) machine.device.deviceParams
        machine.platform
      answer.1 = outcomes.threadStart thread ∧ answer.2.2.drivers = machine.platform.drivers ∧
        answer.2.1.communicationMode = machine.device.deviceParams.communicationMode ∧
        answer.2.2.threads =
          (if outcomes.threadStart thread = 0 then thread :: machine.platform.threads
          else machine.platform.threads) ∧
        (answer.2.1.status = .running ↔ outcomes.threadStart thread = 0) := by
    rw [threadStarted]
    split_ifs with hcreated
    · exact ⟨rfl, rfl, rfl, rfl, iff_of_true rfl hcreated⟩
    · exact ⟨rfl, rfl, rfl, rfl, iff_of_false (fun herror => by cases herror) hcreated⟩
  have hframe := foldl_run_frame (threadStarted thread (outcomes.threadStart thread)
    machine.device.deviceParams machine.platform).2 (outcomes.updates (.threadStart thread))
  refine ⟨hcode, ⟨fun event hevent => ?_, fun driver hdriver => ?_, ?_⟩, ?_, fun driver hdriver => ?_,
    ?_⟩
  · exact acquired_foldl_run _ _ (hdrivers ▸ hevent)
  · exact (held_foldl_run _ _ driver).2 (Or.inl (hdrivers ▸ hdriver))
  · exact hframe.2.trans hmode
  · exact hframe.1.trans hthreads
  · refine ((held_foldl_run _ _ driver).1 hdriver).imp (fun hheld => hdrivers ▸ hheld) ?_
    rintro ⟨hcreated, _⟩
    exact hframe.1.symm ▸ hcreated
  · refine (status_foldl_run _ _).trans (or_congr hstatus ?_)
    rw [← hframe.1]
    exact Iff.rfl

/-- The interrupts, where they are used, and the serial update thread can be
started. -/
def UpdatesStart (outcomes : Outcomes) (device : FsDeviceInfo) : Prop :=
  (outcomes.interruptsSupported device.deviceParams.communicationMode = true →
      device.driverConfig.useSerialInterruptMode = true → outcomes.initSerialInterrupts = 0) ∧
    outcomes.threadStart .serial = 0

section Serial

variable (outcomes : Outcomes) (answers : Answers)

/-- The handshake of `fs_serial_start` on the handle that the driver has opened. -/
def serialShaken (device : FsDeviceInfo) : Handshake :=
  handshakeLoop .giveUp answers.stack
    { clearDeviceName device with
      deviceParams := (outcomes.initSerial.answer device.deviceParams).2 }
    (List.ofFn answers.attempts)

/-- The driver does not start, or no device answers; or else nothing fails and
the mode is a serial one. -/
def SerialReleases (device : FsDeviceInfo) : Prop :=
  (outcomes.initSerial.answer device.deviceParams).1 = 0 →
    let shaken := serialShaken outcomes answers device
    shaken.gaveUp = false ∧
      (namedDevice shaken.device = true → UpdatesStart outcomes shaken.device ∧
        shaken.device.deviceParams.communicationMode ∈
          [FsCommunicationMode.uart, .usbCdc, .i2c, .spi])

variable (machine : Machine PlatformLog)

/-- The handle with its driver opened, and what happens then. -/
theorem fsSerialStart_of_opened
    (hopened : (outcomes.initSerial.answer machine.device.deviceParams).1 = 0) :
    let shaken := serialShaken outcomes answers machine.device
    Machine.fsSerialStart outcomes.backend answers machine =
      let machine : Machine PlatformLog :=
        { machine with
          device := shaken.device
          platform := machine.platform.log (.acquired .serial) }
      if shaken.gaveUp then (-9, machine)
      else if namedDevice shaken.device then machine.startSerialUpdates outcomes.backend
      else (-6, (machine.fsSerialExit outcomes.backend).2) := by
  have hcode : ((machine.onDevice clearDeviceName).call
      outcomes.backend.fsInitSerialDriver).1 = 0 := hopened
  have hlog : ((machine.onDevice clearDeviceName).call
      outcomes.backend.fsInitSerialDriver).2.platform = machine.platform.log (.acquired .serial) :=
    if_pos hopened
  rw [Machine.fsSerialStart]
  dsimp only
  rw [if_neg (not_not_intro hcode), hlog]
  rfl

theorem fsSerialStart_of_unopened
    (hfailed : (outcomes.initSerial.answer machine.device.deviceParams).1 ≠ 0) :
    let started := machine.fsSerialStart outcomes.backend answers
    started.1 ≠ 0 ∧ started.2.platform = machine.platform := by
  have hcode : ((machine.onDevice clearDeviceName).call
      outcomes.backend.fsInitSerialDriver).1 ≠ 0 := hfailed
  rw [Machine.fsSerialStart]
  dsimp only
  rw [if_pos hcode]
  exact ⟨hcode, if_neg hfailed⟩

/-- Interrupts that cannot be enabled are the first exit, a thread that cannot be started
the second. -/
theorem startSerialUpdates_eq : machine.startSerialUpdates outcomes.backend =
    let started := machine.call (outcomes.backend.fsThreadStart .serial)
    if outcomes.interruptsSupported machine.device.deviceParams.communicationMode = true ∧
        machine.device.driverConfig.useSerialInterruptMode = true ∧
          outcomes.initSerialInterrupts ≠ 0 then (-5, machine)
    else if started.1 = 0 then (0, started.2)
    else (-5, started.2) := by
  have henabled : machine.call outcomes.backend.fsInitSerialInterrupts =
      (outcomes.initSerialInterrupts, machine) := rfl
  have hsupported : outcomes.backend.interruptsSupported = outcomes.interruptsSupported := rfl
  rw [Machine.startSerialUpdates, henabled, hsupported]
  by_cases hstarted : (outcomes.backend.fsThreadStart .serial machine.device.deviceParams
      machine.platform).1 = 0 <;> by_cases hfailed : outcomes.initSerialInterrupts = 0 <;>
    cases outcomes.interruptsSupported machine.device.deviceParams.communicationMode <;>
      cases machine.device.driverConfig.useSerialInterruptMode <;> simp [hstarted, hfailed]

theorem startSerialUpdates_spec :
    let started := machine.startSerialUpdates outcomes.backend
    (started.1 = 0 ↔ UpdatesStart outcomes machine.device) ∧
      StillStarted machine.device.deviceParams started.2.device.deviceParams machine.platform
        started.2.platform := by
  obtain ⟨hcode, hstill, _⟩ := call_fsThreadStart_spec outcomes .serial machine
  rw [startSerialUpdates_eq, UpdatesStart]
  dsimp only
  rw [hcode]
  split_ifs with hinterrupts hthread
  · obtain ⟨hsupported, hused, hfailed⟩ := hinterrupts
    have hcode : (-5 : Int) ≠ 0 := by decide
    refine ⟨iff_of_false hcode fun hstarts => ?_, .refl _ _⟩
    exact hfailed (hstarts.1 hsupported hused)
  · refine ⟨iff_of_true rfl ⟨fun hsupported hused => ?_, hthread⟩, hstill⟩
    by_contra hfailed
    exact hinterrupts ⟨hsupported, hused, hfailed⟩
  · have hcode : (-5 : Int) ≠ 0 := by decide
    exact ⟨iff_of_false hcode fun hstarts => hthread hstarts.2, hstill⟩

section Concluded

variable {outcomes answers machine} {context : Int}
  {serialMode : FsCommunicationMode} (hidle : machine.device.deviceParams.status ≠ .running)
  {started : Int × Machine PlatformLog}
  (hstart : machine.serialStarted outcomes.backend answers context serialMode = started)

include hidle hstart

theorem fsInitializeSerial_releases_iff_of_failed (hfailed : started.1 ≠ 0) :
    FailureReleases (machine.fsInitializeSerial outcomes.backend answers context serialMode) ↔
      ((∃ driver, .acquired driver ∈ started.2.platform.drivers) →
        held started.2.platform.drivers = [] ∧
          started.2.device.deviceParams.status ≠ .running) := by
  rw [Machine.fsInitializeSerial, if_neg hidle, hstart]
  dsimp only
  rw [if_pos hfailed]
  exact failureReleases_iff_of_failed hfailed started.2

/-- A start that succeeds is refused afterwards when the mode is no serial one,
and leaves its driver open. -/
theorem fsInitializeSerial_releases_iff_of_started (hcode : started.1 = 0)
    (hacquired : .acquired .serial ∈ started.2.platform.drivers)
    (hopen : .serial ∈ held started.2.platform.drivers) :
    FailureReleases (machine.fsInitializeSerial outcomes.backend answers context serialMode) ↔
      started.2.device.deviceParams.communicationMode ∈
        [FsCommunicationMode.uart, .usbCdc, .i2c, .spi] := by
  rw [Machine.fsInitializeSerial, if_neg hidle, hstart]
  dsimp only
  rw [if_neg (not_not_intro hcode)]
  split
  · next hmode => exact iff_of_true (failureReleases_of_succeeded _) (by simp [hmode])
  · next hmode => exact iff_of_true (failureReleases_of_succeeded _) (by simp [hmode])
  · next hmode => exact iff_of_true (failureReleases_of_succeeded _) (by simp [hmode])
  · next hmode => exact iff_of_true (failureReleases_of_succeeded _) (by simp [hmode])
  · next huart husb hi2c hspi =>
      refine iff_of_false (fun hreleases => ?_) ?_
      · have hreleased := hreleases (show (-1 : Int) ≠ 0 by decide) ⟨.serial, hacquired⟩
        exact absurd hreleased.drivers (List.ne_nil_of_mem hopen)
      · simp only [List.mem_cons, List.not_mem_nil, or_false, not_or]
        exact ⟨huart, husb, hi2c, hspi⟩

end Concluded

/-- The handle as `fs_initialize_serial` passes it on. -/
def serialRequested (device : FsDeviceInfo) (context : Int) (serialMode : FsCommunicationMode) :
    FsDeviceInfo :=
  let device := (configureDriver device).setMode serialMode
  { device with deviceParams.serialPort := context }

/-- What follows once the driver is open, by the exit that is taken. -/
theorem fsInitializeSerial_releases_iff_of_opened {machine : Machine PlatformLog}
    (hnew : machine.platform = .empty)
    (hidle : machine.device.deviceParams.status ≠ .running) (context : Int)
    (serialMode : FsCommunicationMode)
    (hopened : (outcomes.initSerial.answer
      (serialRequested machine.device context serialMode).deviceParams).1 = 0) :
    let shaken := serialShaken outcomes answers (serialRequested machine.device context serialMode)
    FailureReleases (machine.fsInitializeSerial outcomes.backend answers context serialMode) ↔
      shaken.gaveUp = false ∧
        (namedDevice shaken.device = true → UpdatesStart outcomes shaken.device ∧
          shaken.device.deviceParams.communicationMode ∈
            [FsCommunicationMode.uart, .usbCdc, .i2c, .spi]) := by
  have hstart : machine.serialStarted outcomes.backend answers context serialMode = _ :=
    fsSerialStart_of_opened outcomes answers
      { machine with device := serialRequested machine.device context serialMode } hopened
  dsimp only at hstart ⊢
  rw [hnew] at hstart
  generalize serialShaken outcomes answers _ = shaken at hstart ⊢
  have hacquired : .acquired .serial ∈ (PlatformLog.empty.log (.acquired .serial)).drivers :=
    List.mem_singleton.2 rfl
  have hopen : .serial ∈ held (PlatformLog.empty.log (.acquired .serial)).drivers :=
    List.mem_singleton.2 rfl
  by_cases hgaveUp : shaken.gaveUp = true
  · rw [if_pos hgaveUp] at hstart
    have hcode : (-9 : Int) ≠ 0 := by decide
    rw [fsInitializeSerial_releases_iff_of_failed hidle hstart hcode]
    refine iff_of_false (fun hreleases => ?_) (by simp [hgaveUp])
    exact List.ne_nil_of_mem hopen (hreleases ⟨.serial, hacquired⟩).1
  rw [if_neg hgaveUp] at hstart
  rw [and_iff_right (Bool.eq_false_iff.2 hgaveUp)]
  by_cases hnamed : namedDevice shaken.device = true
  · rw [if_pos hnamed] at hstart
    rw [imp_iff_right hnamed]
    obtain ⟨hcode, hstill⟩ := startSerialUpdates_spec outcomes
      ⟨shaken.device, machine.ports, PlatformLog.empty.log (.acquired .serial)⟩
    have hstarted := hstill.acquired _ hacquired
    have hheld := hstill.held _ hopen
    by_cases hupdates : UpdatesStart outcomes shaken.device
    · rw [and_iff_right hupdates, fsInitializeSerial_releases_iff_of_started hidle hstart
        (hcode.2 hupdates) hstarted hheld, hstill.mode]
    · have hfailed := hcode.not.2 hupdates
      rw [fsInitializeSerial_releases_iff_of_failed hidle hstart hfailed]
      refine iff_of_false (fun hreleases => ?_) (fun hall => hupdates hall.1)
      exact List.ne_nil_of_mem hheld (hreleases ⟨.serial, hstarted⟩).1
  · rw [if_neg hnamed] at hstart
    have hcode : (-6 : Int) ≠ 0 := by decide
    rw [fsInitializeSerial_releases_iff_of_failed hidle hstart hcode]
    have hclosed : held ([.released .serial, .acquired .serial] : DriverLog) = [] := by decide
    refine iff_of_true (fun _ => ⟨hclosed, ?_⟩) (fun hname => absurd hname hnamed)
    have hidle : FsRunStatus.idle ≠ .running := by decide
    exact outcomes.shutdownSerial.not_running hidle

/-- A failed `fs_initialize_serial` releases what it has started exactly when
the failure is none of transmission, interrupts, thread or mode. -/
theorem fsInitializeSerial_releases_iff {machine : Machine PlatformLog}
    (hnew : machine.platform = .empty) (context : Int) (serialMode : FsCommunicationMode) :
    FailureReleases (machine.fsInitializeSerial outcomes.backend answers context serialMode) ↔
      machine.device.deviceParams.status = .running ∨
        SerialReleases outcomes answers
          (serialRequested machine.device context serialMode) := by
  by_cases hrunning : machine.device.deviceParams.status = .running
  · rw [Machine.fsInitializeSerial, if_pos hrunning]
    exact iff_of_true (failureReleases_of_unstarted hnew) (Or.inl hrunning)
  rw [or_iff_right hrunning, SerialReleases]
  by_cases hopened : (outcomes.initSerial.answer
      (serialRequested machine.device context serialMode).deviceParams).1 = 0
  · rw [imp_iff_right hopened]
    exact fsInitializeSerial_releases_iff_of_opened outcomes answers hnew hrunning context
      serialMode hopened
  · obtain ⟨hfailed, hlog⟩ := fsSerialStart_of_unopened outcomes answers
      { machine with device := serialRequested machine.device context serialMode } hopened
    rw [fsInitializeSerial_releases_iff_of_failed hrunning rfl hfailed]
    refine iff_of_true ?_ (fun hzero => absurd hzero hopened)
    rintro ⟨driver, hstarted⟩
    have hempty : (machine.serialStarted outcomes.backend answers context serialMode).2.platform =
        .empty := hlog.trans hnew
    rw [hempty] at hstarted
    exact absurd hstarted List.not_mem_nil

end Serial

section Network

variable (outcomes : Outcomes) (answers : Answers)

/-- The handle as `fs_network_start` gives it to the driver. -/
def networkRequested (device : FsDeviceInfo) (ip : List UInt8) : FsDeviceInfo :=
  setNetworkAddress ip ((configureDriver device).setMode .tcpUdp)

@[simp] theorem status_networkRequested (device : FsDeviceInfo) (ip : List UInt8) :
    (networkRequested device ip).deviceParams.status = device.deviceParams.status := by
  change (configureDriver device).deviceParams.status = _
  rw [deviceParams_configureDriver]

@[simp] theorem mode_networkRequested (device : FsDeviceInfo) (ip : List UInt8) :
    (networkRequested device ip).deviceParams.communicationMode = .tcpUdp :=
  rfl

/-- The handshake of `fs_network_start` on the handle that the driver has opened. -/
def networkShaken (device : FsDeviceInfo) : Handshake :=
  handshakeLoop .tryAgain answers.stack
    { device with deviceParams := (outcomes.initTcp.answer device.deviceParams).2 }
    (List.ofFn answers.attempts)

/-- The port can be told to the device and the UDP driver starts. -/
def UdpOpens (device : FsDeviceInfo) (port : Int) : Prop :=
  fsNetworkSetHostUdpPort port outcomes.transmittedPort = 0 ∧
    (outcomes.initUdp.answer { device.deviceParams with udpPort := port }).1 = 0

/-- The update threads that can be created, the later one first. -/
def networkThreads : List UpdateThread :=
  [UpdateThread.udp, .tcp].filter fun thread => outcomes.threadStart thread = 0

/-- They are not the thread that reconnects the serial driver. -/
theorem ne_serial_of_mem_networkThreads {outcomes : Outcomes} {driver : DriverKind}
    (hthread : driver.thread ∈ networkThreads outcomes) : driver ≠ .serial := by
  rintro rfl
  simp [networkThreads, DriverKind.thread] at hthread

/-- The threads created open no driver behind its shutdown, and the last store of the
run status is not one of theirs. -/
structure UpdatesStopped : Prop where
  tcp : ¬ Reopens (networkThreads outcomes) (outcomes.updates .shutdownTcp) .tcp
  udp : ∀ point ∈ [UpdatePoint.shutdownUdp, .shutdownTcp],
    ¬ Reopens (networkThreads outcomes) (outcomes.updates point) .udp
  status : ¬ StoresRunning (networkThreads outcomes) (outcomes.updates .shutdownTcp) ∧
    (outcomes.shutdownTcp.idles = true ∨
      ¬ StoresRunning (networkThreads outcomes) (outcomes.updates .shutdownUdp) ∧
        (outcomes.shutdownUdp.idles = true ∨
          ¬ StoresRunning (networkThreads outcomes) (outcomes.updates (.threadStart .udp)) ∧
            outcomes.threadStart .udp ≠ 0))

/-- Where the update threads are reached and do not both start, the one that has started
is stopped. -/
def NetworkReleases (device : FsDeviceInfo) (port : Int) : Prop :=
  (outcomes.initTcp.answer device.deviceParams).1 = 0 →
    let shaken := networkShaken outcomes answers device
    namedDevice shaken.device = true → UdpOpens outcomes shaken.device port →
      outcomes.threadStart .tcp + outcomes.threadStart .udp ≠ 0 → UpdatesStopped outcomes

theorem openUdp_spec (machine : Machine PlatformLog) (ip : List UInt8) :
    let udp := machine.openUdp outcomes.backend ip
    (udp.1 = 0 ↔ UdpOpens outcomes machine.device (machine.ports.fsGetUdpPortForDevice ip).1) ∧
      udp.2.platform =
        (if udp.1 = 0 then machine.platform.log (.acquired .udp) else machine.platform) ∧
      udp.2.device.deviceParams.status = machine.device.deviceParams.status ∧
      udp.2.device.deviceParams.communicationMode =
        machine.device.deviceParams.communicationMode := by
  rcases hassigned : machine.ports.fsGetUdpPortForDevice ip with ⟨port, ports⟩
  simp only [Machine.openUdp, Machine.assignPort, hassigned, Machine.fsNetworkSetHostUdpPort,
    UdpOpens, fsNetworkSetHostUdpPort]
  by_cases hrange : port < 1024 ∨ 65535 < port
  · simp [hrange]
  · by_cases hsent : 0 < outcomes.transmittedPort
    · simp [hrange, hsent, Outcomes.backend, InitOutcome.logged, outcomes.initUdp.status_answer,
        outcomes.initUdp.mode_answer]
      rfl
    · simp [hrange, hsent, Outcomes.backend]

/-- What a driver's shutdown and the threads behind it leave. -/
theorem call_shutdown_spec (machine : Machine PlatformLog) (outcome : ShutdownOutcome)
    (driver : DriverKind) (steps : List UpdateStep) :
    let closed := (machine.call (followedBy (outcome.logged driver) steps)).2
    closed.platform.threads = machine.platform.threads ∧
      (∀ event ∈ machine.platform.drivers, event ∈ closed.platform.drivers) ∧
      (∀ other, other ∈ held closed.platform.drivers ↔
        other ∈ held machine.platform.drivers ∧ other ≠ driver ∨
          Reopens machine.platform.threads steps other) ∧
      (closed.device.deviceParams.status = .running ↔
        outcome.idles = false ∧ machine.device.deviceParams.status = .running ∨
          StoresRunning machine.platform.threads steps) := by
  refine ⟨(foldl_run_frame _ _).1, fun event hevent => ?_, fun other => ?_, ?_⟩
  · exact acquired_foldl_run _ _ (List.mem_cons_of_mem _ hevent)
  · exact (held_foldl_run _ _ other).trans (or_congr_left mem_held_released)
  · refine (status_foldl_run _ _).trans (or_congr_left ?_)
    change (outcome.write machine.device.deviceParams).status = .running ↔ _
    rw [outcome.status_write]
    cases outcome.idles <;> simp

/-- Both shutdowns, with the threads behind each. -/
theorem shutdownNetwork_spec (machine : Machine PlatformLog) :
    let closed := machine.shutdownNetwork outcomes.backend
    let threads := machine.platform.threads
    (∀ event ∈ machine.platform.drivers, event ∈ closed.platform.drivers) ∧
      (∀ driver, driver ∈ held closed.platform.drivers ↔
        (driver ∈ held machine.platform.drivers ∧ driver ≠ .udp ∨
            Reopens threads (outcomes.updates .shutdownUdp) driver) ∧ driver ≠ .tcp ∨
          Reopens threads (outcomes.updates .shutdownTcp) driver) ∧
      (closed.device.deviceParams.status = .running ↔
        outcomes.shutdownTcp.idles = false ∧
            (outcomes.shutdownUdp.idles = false ∧
                machine.device.deviceParams.status = .running ∨
              StoresRunning threads (outcomes.updates .shutdownUdp)) ∨
          StoresRunning threads (outcomes.updates .shutdownTcp)) := by
  have hclosed : machine.shutdownNetwork outcomes.backend =
      ((machine.call (followedBy (outcomes.shutdownUdp.logged .udp)
          (outcomes.updates .shutdownUdp))).2.call
        (followedBy (outcomes.shutdownTcp.logged .tcp) (outcomes.updates .shutdownTcp))).2 := rfl
  obtain ⟨hthreads, hkept, hheld, hstatus⟩ :=
    call_shutdown_spec machine outcomes.shutdownUdp .udp (outcomes.updates .shutdownUdp)
  rw [hclosed]
  generalize (machine.call (followedBy (outcomes.shutdownUdp.logged .udp)
    (outcomes.updates .shutdownUdp))).2 = udp at *
  obtain ⟨_, hkept', hheld', hstatus'⟩ :=
    call_shutdown_spec udp outcomes.shutdownTcp .tcp (outcomes.updates .shutdownTcp)
  refine ⟨fun event hevent => hkept' event (hkept event hevent), fun driver => ?_, ?_⟩
  · rw [hheld', hthreads, hheld]
  · rw [hstatus', hthreads, hstatus]

/-- Without a thread both drivers end shut down, and nothing runs that has not run
before. -/
theorem shutdownNetwork_of_noThreads {machine : Machine PlatformLog}
    (hthreads : machine.platform.threads = [])
    (hheld : ∀ driver ∈ held machine.platform.drivers, driver ≠ .serial) :
    held (machine.shutdownNetwork outcomes.backend).platform.drivers = [] ∧
      ((machine.shutdownNetwork outcomes.backend).device.deviceParams.status = .running →
        machine.device.deviceParams.status = .running) := by
  obtain ⟨_, hclosed, hstatus⟩ := shutdownNetwork_spec outcomes machine
  rw [hthreads] at hstatus
  constructor
  · apply List.eq_nil_iff_forall_not_mem.2
    intro driver hdriver
    rw [hclosed, hthreads] at hdriver
    simp only [Reopens, List.not_mem_nil, false_and, or_false] at hdriver
    obtain ⟨⟨hopen, hudp⟩, htcp⟩ := hdriver
    cases driver with
    | serial => exact hheld .serial hopen rfl
    | tcp => exact htcp rfl
    | udp => exact hudp rfl
  · intro hrunning
    simp only [StoresRunning, List.not_mem_nil, false_and, exists_false, or_false] at hstatus
    exact (hstatus.1 hrunning).2.2

/-- Which threads there are, and that the second one decides the run status unless one of
them stores it behind that. -/
theorem startNetworkUpdates_spec {machine : Machine PlatformLog}
    (hthreads : machine.platform.threads = []) :
    let updates := machine.startNetworkUpdates outcomes.backend
    updates.1 = outcomes.threadStart .tcp + outcomes.threadStart .udp ∧
      updates.2.platform.threads = networkThreads outcomes ∧
      (∀ event ∈ machine.platform.drivers, event ∈ updates.2.platform.drivers) ∧
      (∀ driver ∈ held updates.2.platform.drivers,
        driver ∈ held machine.platform.drivers ∨ driver ≠ .serial) ∧
      updates.2.device.deviceParams.communicationMode =
        machine.device.deviceParams.communicationMode ∧
      (updates.2.device.deviceParams.status = .running ↔ outcomes.threadStart .udp = 0 ∨
        StoresRunning (networkThreads outcomes) (outcomes.updates (.threadStart .udp))) := by
  obtain ⟨htcp, hstill, hcreated, hopened, _⟩ :=
    call_fsThreadStart_spec outcomes .tcp machine
  rw [Machine.startNetworkUpdates]
  generalize machine.call (outcomes.backend.fsThreadStart .tcp) = tcp at *
  obtain ⟨hudp, hstill', hcreated', hopened', hstatus'⟩ :=
    call_fsThreadStart_spec outcomes .udp tcp.2
  generalize tcp.2.call (outcomes.backend.fsThreadStart .udp) = udp at *
  rw [hthreads] at hcreated
  have hnetwork : udp.2.platform.threads = networkThreads outcomes := by
    rw [hcreated', hcreated, networkThreads]
    by_cases hfirst : outcomes.threadStart .tcp = 0 <;>
      by_cases hsecond : outcomes.threadStart .udp = 0 <;> simp [hfirst, hsecond]
  have hlater : tcp.2.platform.threads ⊆ udp.2.platform.threads := by
    rw [hcreated']
    split
    · exact List.subset_cons_self _ _
    · exact List.Subset.refl _
  refine ⟨by rw [htcp, hudp], hnetwork, fun event hevent => ?_, fun driver hdriver => ?_, ?_, ?_⟩
  · exact hstill'.acquired event (hstill.acquired event hevent)
  · rcases hopened' driver hdriver with hheld | hthread
    · refine (hopened driver hheld).imp_right fun hthread => ?_
      exact ne_serial_of_mem_networkThreads (hnetwork ▸ hlater hthread)
    · exact Or.inr (ne_serial_of_mem_networkThreads (hnetwork ▸ hthread))
  · exact hstill'.mode.trans hstill.mode
  · rw [hstatus', hnetwork]

/-- Both drivers end shut down unless a thread opens one of them behind that. -/
theorem shutdownNetwork_held_iff {machine : Machine PlatformLog}
    (hthreads : machine.platform.threads = networkThreads outcomes)
    (hheld : ∀ driver ∈ held machine.platform.drivers, driver ≠ .serial) :
    held (machine.shutdownNetwork outcomes.backend).platform.drivers = [] ↔
      ¬ Reopens (networkThreads outcomes) (outcomes.updates .shutdownTcp) .tcp ∧
        ∀ point ∈ [UpdatePoint.shutdownUdp, .shutdownTcp],
          ¬ Reopens (networkThreads outcomes) (outcomes.updates point) .udp := by
  obtain ⟨_, hclosed, _⟩ := shutdownNetwork_spec outcomes machine
  simp only [hthreads] at hclosed
  have hserial : ∀ point, ¬ Reopens (networkThreads outcomes) (outcomes.updates point) .serial :=
    fun point hreopens => ne_serial_of_mem_networkThreads hreopens.1 rfl
  rw [List.eq_nil_iff_forall_not_mem]
  constructor
  · intro hnone
    refine ⟨fun htcp => ?_, fun point hpoint hudp => ?_⟩
    · exact hnone .tcp ((hclosed .tcp).2 (Or.inr htcp))
    · have hother : DriverKind.udp ≠ .tcp := by decide
      rcases List.mem_pair.1 hpoint with rfl | rfl
      · exact hnone .udp ((hclosed .udp).2 (Or.inl ⟨Or.inr hudp, hother⟩))
      · exact hnone .udp ((hclosed .udp).2 (Or.inr hudp))
  · rintro ⟨htcp, hudp⟩ driver hdriver
    rcases (hclosed driver).1 hdriver with ⟨⟨hopen, hother⟩ | hreopens, hnext⟩ | hreopens
    · cases driver with
      | serial => exact hheld .serial hopen rfl
      | tcp => exact hnext rfl
      | udp => exact hother rfl
    · cases driver with
      | serial => exact hserial _ hreopens
      | tcp => exact hnext rfl
      | udp => exact hudp .shutdownUdp (by simp) hreopens
    · cases driver with
      | serial => exact hserial _ hreopens
      | tcp => exact htcp hreopens
      | udp => exact hudp .shutdownTcp (by simp) hreopens

/-- Nothing runs behind the shutdowns unless a store of the run status does not have one
behind it that sets it to idle. -/
theorem shutdownNetwork_status_iff {machine : Machine PlatformLog}
    (hthreads : machine.platform.threads = networkThreads outcomes)
    (hstatus : machine.device.deviceParams.status = .running ↔ outcomes.threadStart .udp = 0 ∨
      StoresRunning (networkThreads outcomes) (outcomes.updates (.threadStart .udp))) :
    (machine.shutdownNetwork outcomes.backend).device.deviceParams.status ≠ .running ↔
      ¬ StoresRunning (networkThreads outcomes) (outcomes.updates .shutdownTcp) ∧
        (outcomes.shutdownTcp.idles = true ∨
          ¬ StoresRunning (networkThreads outcomes) (outcomes.updates .shutdownUdp) ∧
            (outcomes.shutdownUdp.idles = true ∨
              ¬ StoresRunning (networkThreads outcomes) (outcomes.updates (.threadStart .udp)) ∧
                outcomes.threadStart .udp ≠ 0)) := by
  obtain ⟨_, _, hlast⟩ := shutdownNetwork_spec outcomes machine
  rw [hthreads] at hlast
  rw [ne_eq, hlast, hstatus]
  constructor
  · intro hidle
    refine ⟨fun hstores => hidle (Or.inr hstores), ?_⟩
    cases htcpIdles : outcomes.shutdownTcp.idles with
    | true => exact Or.inl rfl
    | false =>
        refine Or.inr ⟨fun hstores => hidle (Or.inl ⟨htcpIdles, Or.inr hstores⟩), ?_⟩
        cases hudpIdles : outcomes.shutdownUdp.idles with
        | true => exact Or.inl rfl
        | false =>
            rw [not_or, not_and, not_or, not_and, not_or] at hidle
            exact Or.inr ((hidle.1 htcpIdles).1 hudpIdles).symm
  · rintro ⟨hafter, hbetween⟩ (⟨htcpIdles, hrunning⟩ | hstores)
    · rw [htcpIdles] at hbetween
      obtain ⟨hquiet, hbefore⟩ := hbetween.resolve_left (by decide)
      rcases hrunning with ⟨hudpIdles, hrunning⟩ | hstores
      · rw [hudpIdles] at hbefore
        obtain ⟨hsilent, hfailed⟩ := hbefore.resolve_left (by decide)
        exact hrunning.elim hfailed hsilent
      · exact hquiet hstores
    · exact hafter hstores

/-- Both shutdowns behind the threads release everything when these have stopped. -/
theorem shutdownNetwork_releases_iff {machine : Machine PlatformLog}
    (hthreads : machine.platform.threads = networkThreads outcomes)
    (hheld : ∀ driver ∈ held machine.platform.drivers, driver ≠ .serial)
    (hstatus : machine.device.deviceParams.status = .running ↔ outcomes.threadStart .udp = 0 ∨
      StoresRunning (networkThreads outcomes) (outcomes.updates (.threadStart .udp))) :
    held (machine.shutdownNetwork outcomes.backend).platform.drivers = [] ∧
        (machine.shutdownNetwork outcomes.backend).device.deviceParams.status ≠ .running ↔
      UpdatesStopped outcomes := by
  rw [shutdownNetwork_held_iff outcomes hthreads hheld,
    shutdownNetwork_status_iff outcomes hthreads hstatus]
  constructor
  · rintro ⟨⟨htcp, hudp⟩, hidle⟩
    exact ⟨htcp, hudp, hidle⟩
  · intro hstopped
    exact ⟨⟨hstopped.tcp, hstopped.udp⟩, hstopped.status⟩

/-- The end of a start over an opened TCP driver, when it fails. -/
theorem startNetworkDevice_failed {udp : Int × Machine PlatformLog}
    (hlog : udp.2.platform =
      if udp.1 = 0 then (PlatformLog.empty.log (.acquired .tcp)).log (.acquired .udp)
      else PlatformLog.empty.log (.acquired .tcp))
    (hidle : udp.2.device.deviceParams.status ≠ .running)
    (hcode : (Machine.startNetworkDevice outcomes.backend udp).1 ≠ 0) :
    let started := Machine.startNetworkDevice outcomes.backend udp
    .acquired .tcp ∈ started.2.platform.drivers ∧
      (held started.2.platform.drivers = [] ∧
          started.2.device.deviceParams.status ≠ .running ↔
        (udp.1 = 0 → outcomes.threadStart .tcp + outcomes.threadStart .udp ≠ 0 →
          UpdatesStopped outcomes)) := by
  have hstarted := (Machine.startNetworkDevice_started outcomes.backend udp).1
  rw [Machine.startNetworkDevice] at hcode hstarted ⊢
  by_cases hopened : udp.1 = 0
  · rw [if_pos hopened] at hlog
    have hthreads : udp.2.platform.threads = [] := by rw [hlog]; rfl
    obtain ⟨hsum, hcreated, hkept, hheld, _, hrunning⟩ :=
      startNetworkUpdates_spec outcomes hthreads
    rw [if_neg (not_not_intro hopened)] at hcode hstarted ⊢
    have hfailed : outcomes.threadStart .tcp + outcomes.threadStart .udp ≠ 0 :=
      fun hzero => hcode (hstarted.2 ⟨hopened, hsum.trans hzero⟩)
    dsimp only at hcode ⊢
    rw [hsum, if_pos hfailed, imp_iff_right hopened, imp_iff_right hfailed]
    refine ⟨?_, shutdownNetwork_releases_iff outcomes hcreated (fun driver hdriver => ?_) hrunning⟩
    · refine (shutdownNetwork_spec outcomes _).1 _ (hkept _ ?_)
      rw [hlog]
      decide
    · rcases hheld driver hdriver with hopen | hnetwork
      · rintro rfl
        rw [hlog] at hopen
        exact absurd hopen (by decide)
      · exact hnetwork
  · rw [if_neg hopened] at hlog
    rw [if_pos hopened]
    have hthreads : (udp.2.setMode .uninitialized).platform.threads = [] := by
      rw [Machine.platform_setMode, hlog]
      rfl
    have hheld : ∀ driver ∈ held (udp.2.setMode .uninitialized).platform.drivers,
        driver ≠ .serial := by
      rw [Machine.platform_setMode, hlog]
      decide
    obtain ⟨hclosed, hstatus⟩ := shutdownNetwork_of_noThreads outcomes hthreads hheld
    refine ⟨?_, iff_of_true ⟨hclosed, fun hrunning => hidle (hstatus hrunning)⟩ ?_⟩
    · refine (shutdownNetwork_spec outcomes _).1 _ ?_
      rw [Machine.platform_setMode, hlog]
      decide
    · exact fun hzero => absurd hzero hopened

theorem fsNetworkStart_of_opened (machine : Machine PlatformLog) (ip : List UInt8)
    (hopened : (outcomes.initTcp.answer
      (setNetworkAddress ip machine.device).deviceParams).1 = 0) :
    let shaken := networkShaken outcomes answers (setNetworkAddress ip machine.device)
    machine.fsNetworkStart outcomes.backend answers ip =
      let machine : Machine PlatformLog :=
        { machine with
          device := shaken.device
          platform := machine.platform.log (.acquired .tcp) }
      if namedDevice shaken.device then
        Machine.startNetworkDevice outcomes.backend (machine.openUdp outcomes.backend ip)
      else (-3, machine.shutdownNetwork outcomes.backend) := by
  have hcode : ((machine.onDevice (setNetworkAddress ip)).call
      outcomes.backend.fsInitNetworkTcpDriver).1 = 0 := hopened
  have hlog : ((machine.onDevice (setNetworkAddress ip)).call
      outcomes.backend.fsInitNetworkTcpDriver).2.platform =
        machine.platform.log (.acquired .tcp) :=
    if_pos hopened
  rw [Machine.fsNetworkStart]
  dsimp only
  rw [if_neg (not_not_intro hcode), hlog]
  rfl

/-- A TCP driver that does not start is shut down all the same. -/
theorem fsNetworkStart_of_unopened (machine : Machine PlatformLog) (ip : List UInt8)
    (hnew : machine.platform = .empty)
    (hfailed : (outcomes.initTcp.answer
      (setNetworkAddress ip machine.device).deviceParams).1 ≠ 0) :
    let started := machine.fsNetworkStart outcomes.backend answers ip
    started.1 ≠ 0 ∧ ∀ driver, .acquired driver ∉ started.2.platform.drivers := by
  have hcode : ((machine.onDevice (setNetworkAddress ip)).call
      outcomes.backend.fsInitNetworkTcpDriver).1 ≠ 0 := hfailed
  have hlog : ((machine.onDevice (setNetworkAddress ip)).call
      outcomes.backend.fsInitNetworkTcpDriver).2.platform = .empty :=
    (if_neg hfailed).trans hnew
  rw [Machine.fsNetworkStart]
  dsimp only
  rw [if_pos hcode]
  refine ⟨show (-1 : Int) ≠ 0 by decide, fun driver hstarted => ?_⟩
  generalize (machine.onDevice (setNetworkAddress ip)).call
    outcomes.backend.fsInitNetworkTcpDriver = tcp at hlog hstarted
  have hshut : ((tcp.2.setMode .uninitialized).call
      outcomes.backend.fsShutdownNetworkTcpDriver).2.platform =
        PlatformLog.empty.log (.released .tcp) := by
    rw [← hlog]
    exact congrArg Prod.snd (foldl_run_of_noThreads _ _ (congrArg PlatformLog.threads hlog))
  rw [hshut] at hstarted
  exact absurd (List.mem_singleton.1 hstarted) (by simp)

/-- The opened handle has the status and the mode of the requested one. -/
theorem networkShaken_spec (device : FsDeviceInfo) :
    let params := (networkShaken outcomes answers device).device.deviceParams
    params.status = device.deviceParams.status ∧
      params.communicationMode = device.deviceParams.communicationMode := by
  have hlink := link_handshakeLoop .tryAgain answers.stack
    { device with deviceParams := (outcomes.initTcp.answer device.deviceParams).2 }
    (List.ofFn answers.attempts)
  constructor
  · exact (congrArg Link.status hlink).trans (outcomes.initTcp.status_answer _)
  · exact (congrArg Link.communicationMode hlink).trans (outcomes.initTcp.mode_answer _)

section Concluded

variable {outcomes answers} {machine : Machine PlatformLog} {ip : List UInt8}
  (hidle : machine.device.deviceParams.status ≠ .running)
  {started : Int × Machine PlatformLog}
  (hstart : machine.networkStarted outcomes.backend answers ip = started)

include hidle hstart

theorem fsInitializeNetworked_releases_iff_of_failed (hfailed : started.1 ≠ 0) :
    FailureReleases (machine.fsInitializeNetworked outcomes.backend answers ip) ↔
      ((∃ driver, .acquired driver ∈ started.2.platform.drivers) →
        held started.2.platform.drivers = [] ∧
          started.2.device.deviceParams.status ≠ .running) := by
  rw [Machine.fsInitializeNetworked, if_neg hidle, hstart]
  dsimp only
  rw [if_pos hfailed]
  exact failureReleases_iff_of_failed (by decide) started.2

theorem fsInitializeNetworked_releases_of_started (hcode : started.1 = 0)
    (hmode : started.2.device.deviceParams.communicationMode = .tcpUdp) :
    FailureReleases (machine.fsInitializeNetworked outcomes.backend answers ip) := by
  rw [Machine.fsInitializeNetworked, if_neg hidle, hstart]
  dsimp only
  rw [if_neg (not_not_intro hcode), if_pos hmode]
  exact failureReleases_of_succeeded started.2

end Concluded

/-- What follows the handshake of `fs_network_start`, by the exit that is taken. -/
theorem fsInitializeNetworked_releases_iff_of_shaken {machine shaken : Machine PlatformLog}
    {ip : List UInt8} (hidle : machine.device.deviceParams.status ≠ .running)
    (hstart : machine.networkStarted outcomes.backend answers ip =
      if namedDevice shaken.device then
        Machine.startNetworkDevice outcomes.backend (shaken.openUdp outcomes.backend ip)
      else (-3, shaken.shutdownNetwork outcomes.backend))
    (hlog : shaken.platform = PlatformLog.empty.log (.acquired .tcp))
    (hstatus : shaken.device.deviceParams.status ≠ .running)
    (hmode : shaken.device.deviceParams.communicationMode = .tcpUdp) :
    FailureReleases (machine.fsInitializeNetworked outcomes.backend answers ip) ↔
      (namedDevice shaken.device = true →
        UdpOpens outcomes shaken.device (shaken.ports.fsGetUdpPortForDevice ip).1 →
          outcomes.threadStart .tcp + outcomes.threadStart .udp ≠ 0 →
            UpdatesStopped outcomes) := by
  by_cases hnamed : namedDevice shaken.device = true
  · rw [if_pos hnamed] at hstart
    rw [imp_iff_right hnamed]
    obtain ⟨hopens, hudplog, hudpstatus, hudpmode⟩ := openUdp_spec outcomes shaken ip
    generalize shaken.openUdp outcomes.backend ip = udp at *
    have hthreads : udp.2.platform.threads = [] := by
      rw [hudplog, hlog]
      split <;> rfl
    obtain ⟨hcode, hkept⟩ := Machine.startNetworkDevice_started outcomes.backend udp
    obtain ⟨hsum, _, _, _, hupdatesmode, _⟩ := startNetworkUpdates_spec outcomes hthreads
    by_cases hstarted : (Machine.startNetworkDevice outcomes.backend udp).1 = 0
    · have hrunning := hupdatesmode.trans (hudpmode.trans hmode)
      rw [← hkept hstarted] at hrunning
      refine iff_of_true
        (fsInitializeNetworked_releases_of_started hidle hstart hstarted hrunning) ?_
      intro _ hfailed
      exact absurd (hsum.symm.trans (hcode.1 hstarted).2) hfailed
    · rw [hlog] at hudplog
      obtain ⟨hacquired, hreleases⟩ :=
        startNetworkDevice_failed outcomes hudplog (hudpstatus ▸ hstatus) hstarted
      rw [fsInitializeNetworked_releases_iff_of_failed hidle hstart hstarted, ← hopens,
        ← hreleases]
      exact imp_iff_right ⟨.tcp, hacquired⟩
  · rw [if_neg hnamed] at hstart
    have hthreads : shaken.platform.threads = [] := by rw [hlog]; rfl
    have hheld : ∀ driver ∈ held shaken.platform.drivers, driver ≠ .serial := by
      rw [hlog]
      decide
    obtain ⟨hclosed, hrunning⟩ := shutdownNetwork_of_noThreads outcomes hthreads hheld
    have hcode : (-3 : Int) ≠ 0 := by decide
    rw [fsInitializeNetworked_releases_iff_of_failed hidle hstart hcode]
    exact iff_of_true (fun _ => ⟨hclosed, fun h => hstatus (hrunning h)⟩)
      (fun hname => absurd hname hnamed)

/-- A failed `fs_initialize_networked` releases what it has started unless one of the
update threads is created and is not stopped by the shutdowns. -/
theorem fsInitializeNetworked_releases_iff {machine : Machine PlatformLog}
    (hnew : machine.platform = .empty) (ip : List UInt8) :
    FailureReleases (machine.fsInitializeNetworked outcomes.backend answers ip) ↔
      machine.device.deviceParams.status = .running ∨
        NetworkReleases outcomes answers (networkRequested machine.device ip)
          (machine.ports.fsGetUdpPortForDevice ip).1 := by
  by_cases hrunning : machine.device.deviceParams.status = .running
  · rw [Machine.fsInitializeNetworked, if_pos hrunning]
    exact iff_of_true (failureReleases_of_unstarted hnew) (Or.inl hrunning)
  rw [or_iff_right hrunning, NetworkReleases]
  by_cases hopened : (outcomes.initTcp.answer
      (networkRequested machine.device ip).deviceParams).1 = 0
  · rw [imp_iff_right hopened]
    obtain ⟨hstatus, hmode⟩ := networkShaken_spec outcomes answers
      (networkRequested machine.device ip)
    rw [status_networkRequested] at hstatus
    rw [mode_networkRequested] at hmode
    let configured := (machine.onDevice configureDriver).setMode .tcpUdp
    let shaken : Machine PlatformLog :=
      { device := (networkShaken outcomes answers (networkRequested machine.device ip)).device
        ports := machine.ports
        platform := machine.platform.log (.acquired .tcp) }
    have hstart : machine.networkStarted outcomes.backend answers ip =
        if namedDevice shaken.device then
          Machine.startNetworkDevice outcomes.backend (shaken.openUdp outcomes.backend ip)
        else (-3, shaken.shutdownNetwork outcomes.backend) :=
      fsNetworkStart_of_opened outcomes answers configured ip hopened
    have hlog : shaken.platform = PlatformLog.empty.log (.acquired .tcp) :=
      congrArg (fun platform => PlatformLog.log platform (.acquired .tcp)) hnew
    have hidle : shaken.device.deviceParams.status ≠ .running :=
      fun hshaken => hrunning (hstatus.symm.trans hshaken)
    have hreleases := fsInitializeNetworked_releases_iff_of_shaken outcomes answers hrunning hstart
      hlog hidle hmode
    exact hreleases
  · obtain ⟨hfailed, hnone⟩ := fsNetworkStart_of_unopened outcomes answers
      ((machine.onDevice configureDriver).setMode .tcpUdp) ip hnew hopened
    rw [fsInitializeNetworked_releases_iff_of_failed hrunning rfl hfailed]
    refine iff_of_true ?_ (fun hzero => absurd hzero hopened)
    rintro ⟨driver, hstarted⟩
    exact absurd hstarted (hnone driver)

end Network

/-- When the two initializations release what a failed call has started. -/
theorem failureReleases_iff (outcomes : Outcomes) (answers : Answers) (device : FsDeviceInfo)
    (ports : PortTable) :
    let machine : Machine PlatformLog := { device, ports, platform := .empty }
    (∀ context serialMode,
      FailureReleases (machine.fsInitializeSerial outcomes.backend answers context serialMode) ↔
        device.deviceParams.status = .running ∨
          SerialReleases outcomes answers (serialRequested device context serialMode)) ∧
      ∀ ip,
        FailureReleases (machine.fsInitializeNetworked outcomes.backend answers ip) ↔
          device.deviceParams.status = .running ∨
            NetworkReleases outcomes answers (networkRequested device ip)
              (ports.fsGetUdpPortForDevice ip).1 :=
  ⟨fsInitializeSerial_releases_iff outcomes answers rfl,
    fsInitializeNetworked_releases_iff outcomes answers rfl⟩

/-- Drivers, interrupts and threads that never fail. -/
def smoothOutcomes : Outcomes where
  initSerial := { answer := fun params => (0, params), status_answer := fun _ => rfl }
  shutdownSerial := { idles := false, write := id, status_write := fun _ => rfl }
  interruptsSupported _ := false
  initSerialInterrupts := 0
  initTcp :=
    { answer := fun params => (0, params)
      status_answer := fun _ => rfl
      mode_answer := fun _ => rfl }
  initUdp :=
    { answer := fun params => (0, params)
      status_answer := fun _ => rfl
      mode_answer := fun _ => rfl }
  shutdownTcp :=
    { idles := true
      write := fun params => { params with status := .idle }
      status_write := fun _ => rfl }
  shutdownUdp :=
    { idles := true
      write := fun params => { params with status := .idle }
      status_write := fun _ => rfl }
  threadStart _ := 0
  transmittedPort := 9
  updates
    | .threadStart thread => [.running thread]
    | .shutdownUdp | .shutdownTcp => []
  running_updates
    | .serial => ⟨.threadStart .serial, by decide, List.mem_singleton.2 rfl⟩
    | .tcp => ⟨.threadStart .tcp, by decide, List.mem_singleton.2 rfl⟩
    | .udp => ⟨.threadStart .udp, by decide, List.mem_singleton.2 rfl⟩

/-- A device to which nothing can be sent. -/
def deafAnswers : Answers where
  stack := []
  attempts _ :=
    { transmitted := 0
      received :=
        { returned := 0
          rxBuffer := .zero fsMaxDataLength
          le_returned := by decide
          returned_le := by decide } }
  transmittedCommand := 0

/-- When the identification command cannot be sent the serial driver stays
open. -/
theorem not_failureReleases_deaf :
    ¬ ∀ (outcomes : Outcomes) (answers : Answers) (device : FsDeviceInfo) (ports : PortTable)
        (context : Int) (serialMode : FsCommunicationMode),
      FailureReleases ((Machine.fsInitializeSerial outcomes.backend answers context serialMode)
        { device, ports, platform := .empty }) := by
  intro hall
  have hreleases := hall smoothOutcomes deafAnswers fsDeviceInfoUninitialized .zeroed 1 .uart
  have hreleased := hreleases (by decide +kernel) ⟨.serial, by decide +kernel⟩
  exact absurd hreleased.drivers (by decide +kernel)

end Trifecta
