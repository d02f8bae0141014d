/-
The serial update thread round by round, with the driver that it feeds, and the
counter of the time since data was last received.
-/
import Trifecta.Handshake
import Trifecta.SerialRounds
import Trifecta.Library.Transitions

namespace Trifecta

open Transitions

/-- What the platform answers in one round of the outer loop of
`fs_serial_update_thread`. -/
structure UpdateRound where
  /-- whether `fs_attempt_reconnect_serial` returns zero -/
  reconnected : Bool
  /-- the port that it leaves in the handle -/
  serialPort : Int
  /-- the receives with data, in order -/
  drained : List Received
  drained_pos : ∀ received ∈ drained, 0 < received.returned
  /-- the value of the receive that ends the inner loop -/
  last : Int
  last_le : last ≤ 0

/-- A sum stored in an `int32_t`. -/
def int32Sum (first second : Int) : Int :=
  (first + second).bmod (2 ^ 32)

def Driver.setParams (driver : Driver) (params : FsDeviceParams) : Driver :=
  { driver with device := { driver.device with deviceParams := params } }

/-- The inner loop, `none` when decoding a frame does not return. -/
def drainSerial (stack : Nat → FsPacketUnion) : List Received → Driver → Option Driver
  | [], driver => some driver
  | received :: later, driver =>
      match fsDeviceParsePacket stack driver received.bytes
          driver.device.deviceParams.communicationMode with
      | none => none
      | some parsed => drainSerial stack later parsed.2

/-- The three branches behind the inner loop. -/
def recordReceive (delay last : Int) (params : FsDeviceParams) : FsDeviceParams :=
  if last = 0 then { params with ping := int32Sum params.ping delay }
  else if last < 0 then { params with status := .error }
  else { params with ping := 0 }

namespace UpdateRound

/-- The receives of a round and what follows them. -/
def receive (stack : Nat → FsPacketUnion) (delay : Int) (round : UpdateRound)
    (driver : Driver) : Option Driver :=
  (drainSerial stack round.drained driver).map fun drained =>
    drained.setParams (recordReceive delay round.last drained.device.deviceParams)

/-- One round of the outer loop: whether it performs a receive, and the driver at
its end. -/
def perform (stack : Nat → FsPacketUnion) (delay : Int) (round : UpdateRound)
    (driver : Driver) : Option (Bool × Driver) :=
  let params := driver.device.deviceParams
  if params.status = .idle then some (false, driver)
  else if params.status = .error then
    let params := { params with serialPort := round.serialPort }
    if round.reconnected then
      (round.receive stack delay (driver.setParams { params with status := .running })).map
        (true, ·)
    else some (false, driver.setParams params)
  else (round.receive stack delay driver).map (true, ·)

/-- The thread has not left its loop, and a lost connection is opened again. -/
def Receives (round : UpdateRound) (driver : Driver) : Prop :=
  driver.device.deviceParams.status ≠ .idle ∧
    (driver.device.deviceParams.status = .error → round.reconnected = true)

end UpdateRound

/-- The thread at the end of a round, with the initial ping as long as no data has
been received, and the number of rounds since then whose first receive returned
nothing. -/
structure PingHistory where
  driver : Driver
  initialPing : Int
  silentRounds : Nat

namespace PingHistory

def ping (history : PingHistory) : Int :=
  history.driver.device.deviceParams.ping

/-- The thread before its first round. -/
def start (driver : Driver) : PingHistory where
  driver := driver.setParams { driver.device.deviceParams with status := .running }
  initialPing := driver.device.deviceParams.ping
  silentRounds := 0

/-- A round that has received: data ends the count, a first receive without data
is counted, a failed one is not. -/
def received (history : PingHistory) (round : UpdateRound) (driver : Driver) : PingHistory :=
  match round.drained with
  | [] =>
      { history with
        driver, silentRounds := history.silentRounds + if round.last = 0 then 1 else 0 }
  | _ :: _ => { driver, initialPing := 0, silentRounds := 0 }

/-- The history behind a round, by what `UpdateRound.perform` gives. -/
def behind (history : PingHistory) (round : UpdateRound) (ended : Bool × Driver) : PingHistory :=
  if ended.1 = true then history.received round ended.2 else { history with driver := ended.2 }

/-- A round of the thread, `none` once a decoder has not returned. -/
def step (stack : Nat → FsPacketUnion) (delay : Int) (thread : Option PingHistory)
    (round : UpdateRound) : Option PingHistory :=
  thread.bind fun history =>
    (round.perform stack delay history.driver).map (history.behind round)

/-- The time since data was last received, in rounds of the thread. -/
def silence (delay : Int) (history : PingHistory) : Int :=
  history.initialPing + delay * history.silentRounds

def FitsInt32 (value : Int) : Prop :=
  -2 ^ 31 ≤ value ∧ value < 2 ^ 31

/-- The ping is the time since data was last received, as long as it fits. -/
def Measures (delay : Int) (history : PingHistory) : Prop :=
  FitsInt32 (history.silence delay) → history.ping = history.silence delay

/-- In a round that receives data, the drain fails and the ping was zero, or the
drain ends and the wait time brings the ping to zero. -/
def Resets (delay : Int) (history : PingHistory) (round : UpdateRound) : Prop :=
  round.drained ≠ [] →
    round.last < 0 ∧ history.ping = 0 ∨
      round.last = 0 ∧ (2 ^ 32 : Int) ∣ history.ping + delay

/-- Every round that receives and ends meets the condition. -/
def RoundResets (stack : Nat → FsPacketUnion) (delay : Int) (thread : Option PingHistory)
    (round : UpdateRound) : Prop :=
  ∀ history ∈ thread, round.Receives history.driver →
    round.perform stack delay history.driver ≠ none → history.Resets delay round

end PingHistory

/-! Decoding leaves the ping alone. -/

/-- The driver at the end of a round of the framer. -/
def SerialRound.driver : SerialRound → Driver
  | .returned _ driver => driver
  | .again driver => driver

section Frame

variable {driver : Driver}

theorem ping_fsHandleReceivedCommands (device : FsDeviceInfo) (cmdBuf : List UInt8) :
    (fsHandleReceivedCommands device cmdBuf).2.deviceParams.ping = device.deviceParams.ping := by
  have hunset := unset_fsHandleReceivedCommands device cmdBuf
  have hkept := congrArg (fun device => device.deviceParams.ping) hunset
  exact hkept

theorem ping_serialRound {stack : Nat → FsPacketUnion} {outcome : SerialRound}
    (hround : serialRound stack driver = some outcome) :
    outcome.driver.device.deviceParams.ping = driver.device.deviceParams.ping := by
  unfold serialRound at hround
  dsimp only at hround
  split_ifs at hround with hempty
  · cases hround
    rfl
  · split at hround
    · cases hround
      have hdelivers := onlyDelivers_segmentPackets stack driver
      exact congrArg FsDeviceParams.ping (hdelivers _ _).deviceParams
    · obtain ⟨decoded, hdecoded, hnext⟩ := Option.map_eq_some_iff.1 hround
      cases hnext
      exact congrArg FsDeviceParams.ping (onlyDelivers_base64ToPacket hdecoded).deviceParams
    · cases hround
      exact ping_fsHandleReceivedCommands driver.device _
    · cases hround
      rfl

theorem ping_processSerialLoop {stack : Nat → FsPacketUnion} {fuel : Nat} {result : Int × Driver}
    (hloop : processSerialLoop stack fuel driver = some result) :
    result.2.device.deviceParams.ping = driver.device.deviceParams.ping := by
  induction fuel generalizing driver with
  | zero => cases hloop
  | succ fuel ih =>
      rw [processSerialLoop] at hloop
      cases hround : serialRound stack driver with
      | none =>
          rw [hround] at hloop
          cases hloop
      | some outcome =>
          have hkept := ping_serialRound hround
          rw [hround] at hloop
          cases outcome with
          | returned code after =>
              obtain rfl := Option.some.inj hloop
              exact hkept
          | again next => exact (ih hloop).trans hkept

theorem ping_fsDeviceParsePacket {stack : Nat → FsPacketUnion} {rxBuf : List UInt8}
    {source : FsCommunicationMode} {parsed : Int × Driver}
    (hparsed : fsDeviceParsePacket stack driver rxBuf source = some parsed) :
    parsed.2.device.deviceParams.ping = driver.device.deviceParams.ping := by
  have hsegmented : ∀ {result : Int × Driver},
      (if (segmentPackets stack driver rxBuf rxBuf.length).1 < 0 then
          some (-1, (segmentPackets stack driver rxBuf rxBuf.length).2)
        else some (0, (segmentPackets stack driver rxBuf rxBuf.length).2)) = some result →
      result.2.device.deviceParams.ping = driver.device.deviceParams.ping := by
    intro result hresult
    split_ifs at hresult
    all_goals
      obtain rfl := Option.some.inj hresult
      have hdelivers := onlyDelivers_segmentPackets stack driver rxBuf rxBuf.length
      exact congrArg FsDeviceParams.ping hdelivers.deviceParams
  have hserial : ∀ {result : Int × Driver},
      (match fsDeviceProcessPacketsSerial stack driver rxBuf with
        | none => none
        | some processed =>
            if processed.1 ≠ 0 then some (-1, processed.2) else some (0, processed.2)) =
        some result →
      result.2.device.deviceParams.ping = driver.device.deviceParams.ping := by
    intro result hresult
    cases hprocessed : fsDeviceProcessPacketsSerial stack driver rxBuf with
    | none =>
        rw [hprocessed] at hresult
        cases hresult
    | some processed =>
        have hkept := ping_processSerialLoop hprocessed
        rw [hprocessed] at hresult
        dsimp only at hresult
        split_ifs at hresult
        all_goals
          obtain rfl := Option.some.inj hresult
          exact hkept
  unfold fsDeviceParsePacket at hparsed
  by_cases hempty : rxBuf = []
  · rw [if_pos hempty] at hparsed
    obtain rfl := Option.some.inj hparsed
    rfl
  · rw [if_neg hempty] at hparsed
    cases source with
    | tcpUdp | tcpUdpAp | i2c | spi => exact hsegmented hparsed
    | uart | usbCdc => exact hserial hparsed
    | _ =>
        obtain rfl := Option.some.inj hparsed
        rfl

theorem ping_drainSerial {stack : Nat → FsPacketUnion} {drained : List Received} {after : Driver}
    (hdrained : drainSerial stack drained driver = some after) :
    after.device.deviceParams.ping = driver.device.deviceParams.ping := by
  induction drained generalizing driver with
  | nil =>
      obtain rfl := Option.some.inj hdrained
      rfl
  | cons received later ih =>
      rw [drainSerial] at hdrained
      split at hdrained
      · cases hdrained
      · next parsed hparsed => exact (ih hdrained).trans (ping_fsDeviceParsePacket hparsed)

end Frame

namespace UpdateRound

variable {stack : Nat → FsPacketUnion} {delay : Int} {round : UpdateRound} {driver : Driver}

/-- What a round that receives leaves of the ping: the branch that sets it to zero
is never taken. -/
theorem ping_receive {after : Driver} (hreceive : round.receive stack delay driver = some after) :
    after.device.deviceParams.ping =
      if round.last = 0 then int32Sum driver.device.deviceParams.ping delay
      else driver.device.deviceParams.ping := by
  obtain ⟨drained, hdrained, rfl⟩ := Option.map_eq_some_iff.1 hreceive
  have hkept := ping_drainSerial hdrained
  have hlast := round.last_le
  rw [← hkept, Driver.setParams, recordReceive]
  split_ifs with hnothing hfailed
  · rfl
  · rfl
  · omega

/-- A round ends without a receive or with one of a driver of the same ping. -/
theorem perform_cases {ended : Bool × Driver}
    (hperform : round.perform stack delay driver = some ended) :
    (¬ round.Receives driver ∧ ended.1 = false ∧
        ended.2.device.deviceParams.ping = driver.device.deviceParams.ping) ∨
      ∃ begun after, round.Receives driver ∧
        begun.device.deviceParams.ping = driver.device.deviceParams.ping ∧
        round.receive stack delay begun = some after ∧ ended = (true, after) := by
  rw [perform] at hperform
  dsimp only at hperform
  split_ifs at hperform with hidle herror hreconnected
  · obtain rfl := Option.some.inj hperform
    exact Or.inl ⟨fun hreceives => hreceives.1 hidle, rfl, rfl⟩
  · obtain ⟨after, hreceive, rfl⟩ := Option.map_eq_some_iff.1 hperform
    refine Or.inr ⟨_, after, ⟨hidle, fun _ => hreconnected⟩, ?_, hreceive, rfl⟩
    rfl
  · obtain rfl := Option.some.inj hperform
    exact Or.inl ⟨fun hreceives => hreconnected (hreceives.2 herror), rfl, rfl⟩
  · obtain ⟨after, hreceive, rfl⟩ := Option.map_eq_some_iff.1 hperform
    exact Or.inr ⟨driver, after, ⟨hidle, fun h => absurd h herror⟩, rfl, hreceive, rfl⟩

/-- What a round leaves of the ping, by whether it performs a receive. -/
theorem ping_perform {ended : Bool × Driver}
    (hperform : round.perform stack delay driver = some ended) :
    ended.2.device.deviceParams.ping =
      if ended.1 = true ∧ round.last = 0 then int32Sum driver.device.deviceParams.ping delay
      else driver.device.deviceParams.ping := by
  rcases perform_cases hperform with
    ⟨_, hnone, hsame⟩ | ⟨begun, after, _, hsame, hreceive, rfl⟩
  · rw [hsame, hnone]
    simp
  · rw [ping_receive hreceive, hsame]
    simp

theorem receives_perform {ended : Bool × Driver}
    (hperform : round.perform stack delay driver = some ended) :
    ended.1 = true ↔ round.Receives driver := by
  rcases perform_cases hperform with ⟨hreceives, hnone, _⟩ | ⟨_, after, hreceives, _, _, rfl⟩
  · rw [hnone]
    exact iff_of_false Bool.false_ne_true hreceives
  · exact iff_of_true rfl hreceives

end UpdateRound

namespace PingHistory

theorem fitsInt32_zero : FitsInt32 0 := ⟨by decide, by decide⟩

/-- The ping is the time modulo the size of its type. -/
def Congruent (delay : Int) (history : PingHistory) : Prop :=
  (2 ^ 32 : Int) ∣ history.ping - history.silence delay

theorem dvd_int32Sum_sub (first second : Int) :
    (2 ^ 32 : Int) ∣ int32Sum first second - (first + second) :=
  Int.dvd_bmod_sub_self

/-- A sum is what it should be when that fits and the summands are congruent to
what they should be. -/
theorem int32Sum_of_fits {first second value : Int} (hfits : FitsInt32 value)
    (hcongruent : (2 ^ 32 : Int) ∣ first + second - value) : int32Sum first second = value := by
  obtain ⟨hlow, hhigh⟩ := hfits
  have hvalue : value.bmod (2 ^ 32) = value := Int.bmod_eq_of_le (by omega) (by omega)
  have hsame : (first + second) % 2 ^ 32 = value % 2 ^ 32 :=
    Int.emod_eq_emod_iff_emod_sub_eq_zero.2 (Int.emod_eq_zero_of_dvd hcongruent)
  rw [int32Sum, ← hvalue, ← Int.emod_bmod, ← Int.emod_bmod value]
  exact congrArg (fun rest => Int.bmod rest (2 ^ 32)) hsame

section Round

variable {stack : Nat → FsPacketUnion} {delay : Int} {history : PingHistory} {round : UpdateRound}
  {ended : Bool × Driver}

theorem silence_behind_of_data (hdata : ended.1 = true ∧ round.drained ≠ []) :
    (history.behind round ended).silence delay = 0 := by
  rw [behind, if_pos hdata.1, received]
  split
  · next hnone => exact absurd hnone hdata.2
  · simp [silence]

theorem silence_behind_of_noData (hnoData : ¬ (ended.1 = true ∧ round.drained ≠ [])) :
    (history.behind round ended).silence delay =
      history.silence delay + if ended.1 = true ∧ round.last = 0 then delay else 0 := by
  rw [behind]
  by_cases hreceives : ended.1 = true
  · have hnone : round.drained = [] := not_not.1 (not_and.1 hnoData hreceives)
    rw [if_pos hreceives, received, hnone]
    by_cases hlast : round.last = 0
    · simp [silence, hreceives, hlast, Int.mul_add, Int.add_assoc]
    · simp [silence, hlast]
  · simp [silence, hreceives]

variable (hperform : round.perform stack delay history.driver = some ended)

include hperform

theorem ping_behind : (history.behind round ended).ping =
    if ended.1 = true ∧ round.last = 0 then int32Sum history.ping delay else history.ping := by
  have hping : (history.behind round ended).ping = ended.2.device.deviceParams.ping := by
    rw [behind]
    by_cases hreceives : ended.1 = true
    · rw [if_pos hreceives, received]
      split <;> rfl
    · rw [if_neg hreceives]
      rfl
  rw [hping]
  exact UpdateRound.ping_perform hperform

/-- A round that receives no data keeps the ping in step with the time. -/
theorem measures_behind_of_noData (hcongruent : history.Congruent delay)
    (hmeasures : history.Measures delay) (hnoData : ¬ (ended.1 = true ∧ round.drained ≠ [])) :
    (history.behind round ended).Congruent delay ∧
      (history.behind round ended).Measures delay := by
  rw [Congruent, Measures, ping_behind hperform, silence_behind_of_noData hnoData]
  rw [Congruent] at hcongruent
  split_ifs with hcounted
  · have hdvd := dvd_int32Sum_sub history.ping delay
    refine ⟨by omega, fun hfits => int32Sum_of_fits hfits (by omega)⟩
  · rw [Int.add_zero]
    exact ⟨hcongruent, hmeasures⟩

/-- A round with data must bring the ping to zero. -/
theorem measures_behind_iff_of_data (hdata : ended.1 = true ∧ round.drained ≠ []) :
    (history.behind round ended).Measures delay ↔
      round.last < 0 ∧ history.ping = 0 ∨
        round.last = 0 ∧ (2 ^ 32 : Int) ∣ history.ping + delay := by
  rw [Measures, silence_behind_of_data hdata, imp_iff_right fitsInt32_zero, ping_behind hperform]
  have hlast := round.last_le
  by_cases hnothing : round.last = 0
  · have hcounted : ended.1 = true ∧ round.last = 0 := ⟨hdata.1, hnothing⟩
    rw [if_pos hcounted, int32Sum, ← Int.dvd_iff_bmod_eq_zero]
    simp [hnothing]
  · have hfailed : round.last < 0 := by omega
    simp [hnothing, hfailed]

theorem congruent_behind (hcongruent : history.Congruent delay) (hmeasures : history.Measures delay)
    (hafter : (history.behind round ended).Measures delay) :
    (history.behind round ended).Congruent delay := by
  by_cases hdata : ended.1 = true ∧ round.drained ≠ []
  · rw [Measures, silence_behind_of_data hdata] at hafter
    rw [Congruent, silence_behind_of_data hdata, hafter fitsInt32_zero]
    exact Int.dvd_zero _
  · exact (measures_behind_of_noData hperform hcongruent hmeasures hdata).1

theorem measures_behind_iff (hcongruent : history.Congruent delay)
    (hmeasures : history.Measures delay) :
    (history.behind round ended).Measures delay ↔
      (round.Receives history.driver → history.Resets delay round) := by
  rw [← UpdateRound.receives_perform hperform]
  by_cases hdata : ended.1 = true ∧ round.drained ≠ []
  · rw [measures_behind_iff_of_data hperform hdata, imp_iff_right hdata.1, Resets,
      imp_iff_right hdata.2]
  · have hkept := (measures_behind_of_noData hperform hcongruent hmeasures hdata).2
    exact iff_of_true hkept fun hreceives hsome => absurd ⟨hreceives, hsome⟩ hdata

end Round

theorem start_spec (delay : Int) (driver : Driver) :
    (start driver).Congruent delay ∧ (start driver).Measures delay := by
  have hsilence : (start driver).silence delay = (start driver).ping := by
    simp [silence, start, ping, Driver.setParams]
  rw [Congruent, Measures, hsilence, Int.sub_self]
  exact ⟨dvd_zero _, fun _ => rfl⟩

section Thread

variable {stack : Nat → FsPacketUnion} {delay : Int} {thread : Option PingHistory}
  (hcongruent : ∀ history ∈ thread, history.Congruent delay)
  (hmeasures : ∀ history ∈ thread, history.Measures delay) (round : UpdateRound)

include hcongruent hmeasures

/-- A round keeps the ping in step exactly when it resets it where it should; one
that does not end keeps everything. -/
theorem measures_step_iff :
    (∀ history ∈ step stack delay thread round, history.Measures delay) ↔
      RoundResets stack delay thread round := by
  cases thread with
  | none => simp [step, RoundResets]
  | some history =>
      have hbefore := hcongruent history rfl
      have hmeasured := hmeasures history rfl
      cases hperform : round.perform stack delay history.driver with
      | none => simp [step, RoundResets, hperform]
      | some ended =>
          have hbehind := measures_behind_iff hperform hbefore hmeasured
          simpa [step, RoundResets, hperform] using hbehind

theorem congruent_step (hresets : RoundResets stack delay thread round) :
    ∀ history ∈ step stack delay thread round, history.Congruent delay := by
  have hafter := (measures_step_iff hcongruent hmeasures round).2 hresets
  cases thread with
  | none => exact fun _ hmem => absurd hmem (by simp [step])
  | some history =>
      intro later hlater
      obtain ⟨ended, hperform, rfl⟩ := Option.map_eq_some_iff.1 hlater
      exact congruent_behind hperform (hcongruent history rfl) (hmeasures history rfl)
        (hafter _ hlater)

end Thread

/-- The ping is the time since data was last received, at the end of every round of
a run, exactly when every round that receives data brings it to zero. -/
theorem measures_along_iff (stack : Nat → FsPacketUnion) (driver : Driver)
    (rounds : List UpdateRound) :
    (∀ front, front <+: rounds →
        ∀ history ∈ run (step stack driver.device.driverConfig.taskWaitMs)
          (some (start driver)) front,
        history.Measures driver.device.driverConfig.taskWaitMs) ↔
      Along (step stack driver.device.driverConfig.taskWaitMs)
        (RoundResets stack driver.device.driverConfig.taskWaitMs) (some (start driver)) rounds := by
  generalize driver.device.driverConfig.taskWaitMs = delay
  obtain ⟨hcongruent, hmeasures⟩ := start_spec delay driver
  exact @forall_prefix_run_iff _ _ (step stack delay) (RoundResets stack delay)
    (fun thread => ∀ history ∈ thread, history.Congruent delay)
    (fun thread => ∀ history ∈ thread, history.Measures delay)
    (fun _ round hbefore hmeasured => congruent_step hbefore hmeasured round)
    (fun _ round hbefore hmeasured => measures_step_iff hbefore hmeasured round)
    (some (start driver)) rounds
    (fun history hmem => Option.some.inj hmem ▸ hcongruent)
    (fun history hmem => Option.some.inj hmem ▸ hmeasures)

/-- A driver with the default configuration that has just been connected. -/
def connected : Driver :=
  ⟨{ fsDeviceInfoUninitialized with deviceParams.communicationMode := .uart },
    .zero fsMaxPacketLength, []⟩

/-- One received byte. -/
def oneByte : Received where
  returned := 1
  rxBuffer := .zero fsMaxDataLength
  le_returned := by decide
  returned_le := by decide

/-- A round that receives one byte and then nothing. -/
def oneByteRound : UpdateRound where
  reconnected := false
  serialPort := 3
  drained := [oneByte]
  drained_pos := by decide
  last := 0
  last_le := by decide

/-- Data arrives, and the ping grows. -/
theorem not_measures_oneByteRound :
    ¬ ∀ (stack : Nat → FsPacketUnion) (driver : Driver) (rounds : List UpdateRound),
      ∀ history ∈ run (step stack driver.device.driverConfig.taskWaitMs) (some (start driver))
        rounds, history.Measures driver.device.driverConfig.taskWaitMs := by
  intro hall
  have hthread := hall (fun _ => .zero 185) connected [oneByteRound]
  have hended : (run (step (fun _ => .zero 185) 3) (some (start connected)) [oneByteRound]).map
      (fun history => (history.ping, history.silence 3)) = some (3, 0) := by
    decide +kernel
  obtain ⟨history, hmem, hvalues⟩ := Option.map_eq_some_iff.1 hended
  obtain ⟨hping, hsilence⟩ := Prod.mk.inj hvalues
  have hmeasures := hthread history hmem
  rw [Measures, show connected.device.driverConfig.taskWaitMs = 3 from rfl, hsilence, hping,
    imp_iff_right fitsInt32_zero] at hmeasures
  exact absurd hmeasures (by decide)

end PingHistory

end Trifecta
