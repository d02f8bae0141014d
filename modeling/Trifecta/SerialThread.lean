/-
The serial update thread and a caller of the serial exit, step by step over the
run status and the port that they share.
-/
import Trifecta.LinuxDrivers

namespace Trifecta

open Transitions

/-- How far `fs_serial_update_thread` is: before its store of the run status, at
the tests of the status for idle and for an error, at the reconnection, before
the store that follows it, at a receive, before the store after a failed one, or
returned. -/
inductive SerialUpdate
  | started
  | idleTest
  | errorTest
  | reconnect
  | reconnected
  | receive
  | failed
  | returned
deriving DecidableEq, Repr

/-- How far `fs_serial_exit` is: to send the stop command in between touches
neither the status nor the port. -/
inductive SerialExit
  | notCalled
  | stopped
  | shutDown
deriving DecidableEq, Repr

/-- What the drivers answer to the next step of the thread. -/
structure UpdateAnswers where
  /-- the value of `fs_receive_serial` on a port that is not shut down -/
  received : Int
  /-- whether `fs_attempt_reconnect_serial` returns zero -/
  reopened : Bool
  /-- whether it leaves a port in the handle when it fails -/
  portLeft : Bool

/-- The status, the port, both threads, and what has happened since the stop. -/
structure SerialSession where
  status : FsRunStatus
  /-- the handle has a port that the driver reads from -/
  port : Bool
  thread : SerialUpdate
  caller : SerialExit
  /-- the thread has stored a status since the stop -/
  overwritten : Bool
  /-- the thread has reopened the port since the stop -/
  reopened : Bool
deriving DecidableEq

/-- `fs_thread_start` has created the thread. -/
def threadCreated : SerialSession where
  status := .running
  port := true
  thread := .started
  caller := .notCalled
  overwritten := false
  reopened := false

namespace SerialSession

/-- The status and the port are those of the handle: `fs_receive_serial` reads
from descriptors above 2. -/
def Views (session : SerialSession) (params : FsDeviceParams) : Prop :=
  session.status = params.status ∧ session.port = decide (2 < params.serialPort)

def Stopped (session : SerialSession) : Prop :=
  session.caller ≠ .notCalled

instance (session : SerialSession) : Decidable session.Stopped :=
  inferInstanceAs (Decidable (_ ≠ _))

/-- The thread stores a status and goes on. -/
def store (session : SerialSession) (status : FsRunStatus) (thread : SerialUpdate) :
    SerialSession :=
  { session with
    status, thread, overwritten := session.overwritten || decide session.Stopped }

/-- The value that a receive returns: it fails once the port is shut down. -/
def received (session : SerialSession) (answers : UpdateAnswers) : Int :=
  if session.port then answers.received else -1

end SerialSession

/-- The next step of `fs_serial_update_thread`. -/
def updateStep (session : SerialSession) (answers : UpdateAnswers) : SerialSession :=
  match session.thread with
  | .started => session.store .running .idleTest
  | .idleTest =>
      { session with thread := if session.status = .idle then .returned else .errorTest }
  | .errorTest =>
      { session with thread := if session.status = .error then .reconnect else .receive }
  | .reconnect =>
      if answers.reopened then
        { session with
          port := true
          thread := .reconnected
          reopened := session.reopened || decide session.Stopped }
      else { session with port := answers.portLeft, thread := .idleTest }
  | .reconnected => session.store .running .receive
  | .receive =>
      -- the inner loop reads on without a look at the status
      { session with
        thread :=
          if 0 < session.received answers then .receive
          else if session.received answers = 0 then .idleTest
          else .failed }
  | .failed => session.store .error .idleTest
  | .returned => session

/-- The next step of `fs_serial_exit`. -/
def exitStep (session : SerialSession) : SerialSession :=
  match session.caller with
  | .notCalled => { session with status := .idle, caller := .stopped }
  | .stopped => { session with port := false, caller := .shutDown }
  | .shutDown => session

inductive SerialAction
  | update (answers : UpdateAnswers)
  | exit

def serialStep (session : SerialSession) : SerialAction → SerialSession
  | .update answers => updateStep session answers
  | .exit => exitStep session

section Linux

variable (kernel : Kernel)

/-- The thread that `fs_thread_start` creates on Linux finds the status stored
and the port as it was. -/
theorem threadCreated_views {params : FsDeviceParams} {linux : Linux} {thread : UpdateThread}
    (hport : 2 < params.serialPort) (hcreated : (kernel.fsThreadStart thread params linux).1 = 0) :
    threadCreated.Views (kernel.fsThreadStart thread params linux).2.1 := by
  rw [Kernel.fsThreadStart] at hcreated ⊢
  split at hcreated
  · next hthread =>
      rw [if_pos hthread]
      exact ⟨rfl, by simpa [threadCreated] using hport⟩
  · exact absurd hcreated (by simp)

/-- Both steps of the exit together are `fs_serial_exit` on Linux. -/
theorem exitStep_views (machine : Machine Linux) {session : SerialSession}
    (hcaller : session.caller = .notCalled) :
    (exitStep (exitStep session)).Views
      (machine.fsSerialExit kernel.backend).2.device.deviceParams := by
  have hexited : ∀ params : FsDeviceParams, params.status = .idle →
      (exitStep (exitStep session)).Views
        (kernel.fsShutdownSerialDriver params machine.platform).2.1 := by
    intro params hidle
    rw [Kernel.fsShutdownSerialDriver]
    split
    · next hclosed =>
        have hnone : ¬ 2 < params.serialPort := by omega
        simp [SerialSession.Views, exitStep, hcaller, hidle, hnone]
    · simp [SerialSession.Views, exitStep, hcaller, hidle]
  exact hexited { machine.device.deviceParams with status := .idle } rfl

/-- Whatever the Linux driver does at a reconnection, the thread can be answered
so. -/
theorem updateStep_views (linux : Linux) {session : SerialSession} {params : FsDeviceParams}
    (hviews : session.Views params) (hthread : session.thread = .reconnect) :
    ∃ answers, (updateStep session answers).Views
      (kernel.fsAttemptReconnectSerial params linux).2.1 := by
  have hspec : (kernel.fsAttemptReconnectSerial params linux).2.1.status = params.status ∧
      ((kernel.fsAttemptReconnectSerial params linux).1 = 0 →
        3 ≤ (kernel.fsAttemptReconnectSerial params linux).2.1.serialPort) :=
    kernel.openSerialPort_spec 3 params _
  generalize kernel.fsAttemptReconnectSerial params linux = reconnected at hspec ⊢
  obtain ⟨hstatus, hport⟩ := hspec
  refine ⟨⟨0, decide (reconnected.1 = 0), decide (2 < reconnected.2.1.serialPort)⟩, ?_⟩
  rw [updateStep, hthread]
  by_cases hcode : reconnected.1 = 0
  · have hopen : 2 < reconnected.2.1.serialPort := hport hcode
    simp [SerialSession.Views, hcode, hstatus, hviews.1, hopen]
  · simp [SerialSession.Views, hcode, hstatus, hviews.1]

end Linux

/-- The thread will store a status in its next step. -/
def Storing (thread : SerialUpdate) : Prop :=
  thread ∈ [SerialUpdate.started, .reconnected, .failed]

instance (thread : SerialUpdate) : Decidable (Storing thread) :=
  inferInstanceAs (Decidable (thread ∈ _))

/-- Since the stop the status has been idle, the thread has stored no other one,
and it has not reopened the port. -/
@[mk_iff] structure StopObeyed (session : SerialSession) : Prop where
  overwritten : session.overwritten = false
  reopened : session.reopened = false
  status : session.Stopped → session.status = .idle

/-- The stop is obeyed, and the thread is not about to store another status. -/
@[mk_iff] structure StopKept (session : SerialSession) : Prop extends StopObeyed session where
  thread : session.Stopped → ¬ Storing session.thread

/-- The stop is not stored when the thread is about to store a status, and after
it no receive fails and no reconnection succeeds. -/
def StopHeeded (session : SerialSession) : SerialAction → Prop
  | .exit => session.caller = .notCalled → ¬ Storing session.thread
  | .update answers => session.Stopped →
      (session.thread = .receive → 0 ≤ session.received answers) ∧
        (session.thread = .reconnect → answers.reopened = false)

section Steps

variable {session : SerialSession} (hkept : StopKept session)

include hkept

/-- A thread that sees the stop at its next test leaves its loop. -/
theorem StopKept.idleTest (hstopped : session.Stopped) (htest : session.thread = .idleTest)
    (answers : UpdateAnswers) : (updateStep session answers).thread = .returned := by
  simp [updateStep, htest, hkept.status hstopped]

/-- The store of the stop decides; shutting the port down changes nothing yet. -/
theorem stopKept_exitStep_iff :
    StopKept (exitStep session) ↔ StopHeeded session .exit := by
  rw [StopHeeded, exitStep]
  cases hcaller : session.caller with
  | notCalled =>
      constructor
      · intro hafter _
        exact hafter.thread (by simp [SerialSession.Stopped])
      · intro hheeded
        exact ⟨⟨hkept.overwritten, hkept.reopened, fun _ => rfl⟩, fun _ => hheeded rfl⟩
  | stopped =>
      have hstopped : session.Stopped := by simp [SerialSession.Stopped, hcaller]
      refine iff_of_true ?_ (by simp)
      exact ⟨⟨hkept.overwritten, hkept.reopened, fun _ => hkept.status hstopped⟩,
        fun _ => hkept.thread hstopped⟩
  | shutDown => exact iff_of_true hkept (by simp)

/-- Before the stop the thread may do what it likes. -/
theorem stopKept_updateStep_of_running (hrunning : ¬ session.Stopped) (answers : UpdateAnswers) :
    StopKept (updateStep session answers) := by
  have hcaller : (updateStep session answers).caller = session.caller := by
    rw [updateStep]
    split <;> first | rfl | (split <;> rfl)
  have hstill : ¬ (updateStep session answers).Stopped := by
    rw [SerialSession.Stopped, hcaller]
    exact hrunning
  refine ⟨⟨?_, ?_, fun hstopped => absurd hstopped hstill⟩, fun hstopped => absurd hstopped hstill⟩
  · rw [updateStep]
    split <;> try split
    all_goals simp [SerialSession.store, hrunning, hkept.overwritten]
  · rw [updateStep]
    split <;> try split
    all_goals simp [SerialSession.store, hrunning, hkept.reopened]

/-- What a step that stores nothing must keep after the stop. -/
theorem stopKept_moved_iff (hstopped : session.Stopped) (port : Bool) (thread : SerialUpdate)
    (reopened : Bool) :
    StopKept { session with port, thread, reopened } ↔ reopened = false ∧ ¬ Storing thread := by
  have hcaller : session.caller ≠ .notCalled := hstopped
  rw [stopKept_iff, stopObeyed_iff]
  simp [SerialSession.Stopped, hcaller, hkept.overwritten, hkept.status hstopped]

theorem stopKept_updateStep_iff (answers : UpdateAnswers) :
    StopKept (updateStep session answers) ↔ StopHeeded session (.update answers) := by
  rw [StopHeeded]
  by_cases hstopped : session.Stopped
  · have hstatus := hkept.status hstopped
    have hthread := hkept.thread hstopped
    have hreopened := hkept.reopened
    rw [imp_iff_right hstopped, updateStep]
    cases hat : session.thread with
    | started | reconnected | failed => exact absurd hthread (by simp [hat, Storing])
    | idleTest =>
        refine ((stopKept_moved_iff hkept hstopped session.port _ session.reopened).trans ?_)
        simp [hstatus, hreopened, Storing]
    | errorTest =>
        refine ((stopKept_moved_iff hkept hstopped session.port _ session.reopened).trans ?_)
        simp [hstatus, hreopened, Storing]
    | reconnect =>
        cases answers.reopened with
        | false =>
            refine ((stopKept_moved_iff hkept hstopped answers.portLeft .idleTest
              session.reopened).trans ?_)
            simp [hreopened, Storing]
        | true =>
            refine ((stopKept_moved_iff hkept hstopped true .reconnected _).trans ?_)
            simp [Storing]
    | receive =>
        refine ((stopKept_moved_iff hkept hstopped session.port _ session.reopened).trans ?_)
        rw [and_iff_right hreopened]
        rcases lt_trichotomy (session.received answers) 0 with hfailed | hnothing | hsome
        · have hneither : ¬ 0 < session.received answers ∧ session.received answers ≠ 0 := by omega
          simp [hneither, Storing, Int.not_le.2 hfailed]
        · simp [hnothing, Storing]
        · simp [hsome, Storing, Int.le_of_lt hsome]
    | returned => exact iff_of_true hkept (by simp)
  · exact iff_of_true (stopKept_updateStep_of_running hkept hstopped answers)
      (fun h => absurd h hstopped)

theorem stopKept_serialStep_iff (action : SerialAction) :
    StopKept (serialStep session action) ↔ StopHeeded session action := by
  cases action with
  | update answers => exact stopKept_updateStep_iff hkept answers
  | exit => exact stopKept_exitStep_iff hkept

end Steps

theorem stopKept_threadCreated : StopKept threadCreated :=
  ⟨⟨rfl, rfl, fun hstopped => absurd rfl hstopped⟩, fun hstopped => absurd rfl hstopped⟩

/-- The stop is kept in every state of a run exactly when every step heeds it. -/
theorem stopKept_along_iff (actions : List SerialAction) :
    (∀ front, front <+: actions → StopKept (run serialStep threadCreated front)) ↔
      Along serialStep StopHeeded threadCreated actions :=
  @forall_prefix_run_iff SerialSession SerialAction serialStep StopHeeded (fun _ => True)
    StopKept (fun _ _ _ _ _ => trivial)
    (fun _ action _ hkept => stopKept_serialStep_iff hkept action) threadCreated actions trivial
    stopKept_threadCreated

def silent : UpdateAnswers where
  received := 0
  reopened := true
  portLeft := true

/-- The caller stops the thread and shuts the port down while the thread is at
a receive. -/
def stoppedAtReceive : List SerialAction :=
  [.update silent, .update silent, .update silent, .exit, .exit, .update silent, .update silent,
    .update silent, .update silent, .update silent, .update silent]

/-- The receive fails, the error overwrites the stop, and the thread reopens the
port and runs on. -/
theorem not_stopObeyed_atReceive :
    ¬ ∀ actions : List SerialAction, StopObeyed (run serialStep threadCreated actions) := by
  intro hall
  have hobeyed := hall stoppedAtReceive
  have hrunning : (run serialStep threadCreated stoppedAtReceive).status = .running := by decide
  have hidle := hobeyed.status (by decide)
  rw [hrunning] at hidle
  exact absurd hidle (by decide)

end Trifecta
