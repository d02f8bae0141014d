/-
What cutting a buffer into commands amounts to: the list of commands found,
whether a line break interrupts one of them, and how much of the list the
command queue takes.
-/
import Trifecta.Commands

namespace Trifecta

open CText Registers Segments

/-- The commands of a buffer in order, as an unbounded queue would receive
them, and whether a line break interrupts reading. -/
def scanCommands (cmd : FsCommandInfo) :
    SegmentState → List UInt8 → List FsCommandInfo × Bool
  | _, [] => ([], false)
  | state, inByte :: rest =>
      if inByte = cmdTerminator then
        let later := scanCommands .empty .waiting rest
        (cmd :: later.1, later.2)
      else if isLineBreak inByte then
        if state = .waiting then scanCommands .empty .waiting rest
        else ([], true)
      else if hroom : cmd.payload.length < fsMaxCmdLength - 1 then
        scanCommands (cmd.append inByte hroom) .reading rest
      else scanCommands .empty .reading rest

/-- The commands found in `buffer` by reading from its start. -/
def commandsIn (buffer : List UInt8) : List FsCommandInfo :=
  (scanCommands .empty .waiting buffer).1

/-- Whether a line break stands inside a command of `buffer`. -/
def interrupted (buffer : List UInt8) : Bool :=
  (scanCommands .empty .waiting buffer).2

/-- The commands of a buffer are those of its first segment, followed by those
of the rest unless reading is interrupted before. -/
theorem scanCommands_append_cons (cmd : FsCommandInfo) (state : SegmentState)
    {text : List UInt8} (htext : cmdTerminator ∉ text) (rest : List UInt8) :
    (scanCommands cmd state (text ++ cmdTerminator :: rest)).1 =
      (scanCommands cmd state (text ++ [cmdTerminator])).1 ++
        if (scanCommands cmd state (text ++ [cmdTerminator])).2 then [] else commandsIn rest := by
  induction text generalizing cmd state with
  | nil => simp [scanCommands, commandsIn]
  | cons inByte text ih =>
      rw [List.mem_cons, not_or] at htext
      rw [List.cons_append, List.cons_append, scanCommands, scanCommands,
        if_neg (Ne.symm htext.1), if_neg (Ne.symm htext.1)]
      by_cases hbreak : isLineBreak inByte
      · cases state with
        | waiting =>
            simp only [hbreak, ↓reduceIte]
            exact ih .empty .waiting htext.2
        | reading => simp [hbreak]
      · simp only [hbreak, Bool.false_eq_true, ↓reduceIte]
        split
        · exact ih _ .reading htext.2
        · exact ih .empty .reading htext.2

theorem commandsIn_of_not_mem {buffer : List UInt8} (hbuffer : cmdTerminator ∉ buffer) :
    commandsIn buffer = [] := by
  have hscan : ∀ (cmd : FsCommandInfo) (state : SegmentState),
      (scanCommands cmd state buffer).1 = [] := by
    induction buffer with
    | nil =>
        intro cmd state
        rfl
    | cons inByte rest ih =>
        rw [List.mem_cons, not_or] at hbuffer
        intro cmd state
        rw [scanCommands, if_neg (Ne.symm hbuffer.1)]
        split_ifs <;> first | rfl | exact ih hbuffer.2 _ _
  exact hscan .empty .waiting

/-- Every command of a buffer is the command of one of its segments. -/
theorem exists_segment_of_mem_commandsIn {buffer : List UInt8} {cmd : FsCommandInfo}
    (hcmd : cmd ∈ commandsIn buffer) :
    ∃ text ∈ terminated cmdTerminator buffer, cmd ∈ commandsIn (text ++ [cmdTerminator]) := by
  induction buffer using segment_induction cmdTerminator with
  | remainder buffer hbuffer =>
      rw [commandsIn_of_not_mem hbuffer] at hcmd
      exact absurd hcmd List.not_mem_nil
  | segment text rest htext ih =>
      rw [commandsIn, scanCommands_append_cons _ _ htext, List.mem_append] at hcmd
      rw [terminated_append_cons htext]
      rcases hcmd with hfirst | hlater
      · exact ⟨text, List.mem_cons_self, hfirst⟩
      · split at hlater
        · exact absurd hlater List.not_mem_nil
        · obtain ⟨other, hother, hmem⟩ := ih hlater
          exact ⟨other, List.mem_cons_of_mem text hother, hmem⟩

/-- When all commands fit, they are appended and the code tells whether
reading was interrupted. -/
theorem fsSegmentCommandsFrom_of_fit (queue : FsCommandRingbuffer) (cmd : FsCommandInfo)
    (state : SegmentState) (buffer : List UInt8)
    (hfit : queue.count + (scanCommands cmd state buffer).1.length ≤ fsMaxCmdQueueLength) :
    (fsSegmentCommandsFrom queue cmd state buffer).1 =
        (if (scanCommands cmd state buffer).2 then 3 else 0) ∧
      (fsSegmentCommandsFrom queue cmd state buffer).2.toList =
        queue.toList ++ (scanCommands cmd state buffer).1 := by
  induction buffer generalizing queue cmd state with
  | nil => simp [fsSegmentCommandsFrom, scanCommands]
  | cons inByte rest ih =>
      rw [scanCommands] at hfit ⊢
      rw [fsSegmentCommandsFrom]
      by_cases hterminator : inByte = cmdTerminator
      · simp only [hterminator, ↓reduceIte, List.length_cons] at hfit ⊢
        have hroom : queue.count < fsMaxCmdQueueLength := by omega
        obtain ⟨next, hpush, hnext⟩ := RingBuffer.exists_push cmd hroom
        have hcount : next.count = queue.count + 1 := by
          rw [← RingBuffer.length_toList, hnext]
          simp
        rw [fsEnqueueIntoCommandQueue, hpush]
        have := ih next .empty .waiting (by omega)
        simpa [hnext] using this
      · simp only [hterminator, ↓reduceIte] at hfit ⊢
        by_cases hbreak : isLineBreak inByte
        · simp only [hbreak, ↓reduceIte] at hfit ⊢
          cases state with
          | waiting => exact ih queue .empty .waiting hfit
          | reading => simp
        · simp only [hbreak, Bool.false_eq_true, ↓reduceIte] at hfit ⊢
          split
          · next hroom =>
              simp only [hroom, ↓reduceDIte] at hfit
              exact ih queue _ .reading hfit
          · next hroom =>
              simp only [hroom, ↓reduceDIte] at hfit
              exact ih queue .empty .reading hfit

/-- When they do not fit, the queue ends up full and the call fails. -/
theorem fsSegmentCommandsFrom_of_overflow (queue : FsCommandRingbuffer)
    (cmd : FsCommandInfo) (state : SegmentState) (buffer : List UInt8)
    (hoverflow : fsMaxCmdQueueLength <
      queue.count + (scanCommands cmd state buffer).1.length) :
    (fsSegmentCommandsFrom queue cmd state buffer).1 = -1 ∧
      (fsSegmentCommandsFrom queue cmd state buffer).2.count = fsMaxCmdQueueLength := by
  induction buffer generalizing queue cmd state with
  | nil =>
      have := queue.count_le
      simp only [scanCommands, List.length_nil] at hoverflow
      omega
  | cons inByte rest ih =>
      rw [scanCommands] at hoverflow
      rw [fsSegmentCommandsFrom]
      by_cases hterminator : inByte = cmdTerminator
      · simp only [hterminator, ↓reduceIte, List.length_cons] at hoverflow ⊢
        by_cases hroom : queue.count < fsMaxCmdQueueLength
        · obtain ⟨next, hpush, hnext⟩ := RingBuffer.exists_push cmd hroom
          have hcount : next.count = queue.count + 1 := by
            rw [← RingBuffer.length_toList, hnext]
            simp
          rw [fsEnqueueIntoCommandQueue, hpush]
          exact ih next .empty .waiting (by omega)
        · have hfull : queue.count = fsMaxCmdQueueLength :=
            Nat.le_antisymm queue.count_le (Nat.le_of_not_lt hroom)
          rw [fsEnqueueIntoCommandQueue, (RingBuffer.push_eq_none_iff queue cmd).2 hfull]
          exact ⟨rfl, hfull⟩
      · simp only [hterminator, ↓reduceIte] at hoverflow ⊢
        by_cases hbreak : isLineBreak inByte
        · simp only [hbreak, ↓reduceIte] at hoverflow ⊢
          cases state with
          | waiting => exact ih queue .empty .waiting hoverflow
          | reading =>
              have := queue.count_le
              simp only [reduceCtorEq, ↓reduceIte, List.length_nil] at hoverflow
              omega
        · simp only [hbreak, Bool.false_eq_true, ↓reduceIte] at hoverflow ⊢
          split
          · next hroom =>
              simp only [hroom, ↓reduceDIte] at hoverflow
              exact ih queue _ .reading hoverflow
          · next hroom =>
              simp only [hroom, ↓reduceDIte] at hoverflow
              exact ih queue .empty .reading hoverflow

/-- Carrying a command out neither reads nor changes the command queue. -/
theorem applyCommand_commandQueue (device : FsDeviceInfo) (queue : FsCommandRingbuffer)
    (cmd : FsCommandInfo) :
    applyCommand { device with commandQueue := queue } cmd =
      { applyCommand device cmd with commandQueue := queue } := by
  unfold applyCommand
  cases commandField (cmd.payload.headD 0) with
  | none => rfl
  | some field =>
      cases field <;> try rfl
      simp only [setField]
      split <;> rfl

theorem foldl_applyCommand_commandQueue (device : FsDeviceInfo)
    (queue : FsCommandRingbuffer) (cmds : List FsCommandInfo) :
    cmds.foldl applyCommand { device with commandQueue := queue } =
      { cmds.foldl applyCommand device with commandQueue := queue } := by
  induction cmds generalizing device with
  | nil => rfl
  | cons cmd rest ih => rw [List.foldl_cons, applyCommand_commandQueue, ih, List.foldl_cons]

/-- The dequeueing loop carries out every queued command, oldest first, and
empties the queue. -/
theorem drainCommands_spec (limit : Nat) (device : FsDeviceInfo)
    (hlimit : device.commandQueue.count ≤ limit) :
    ∃ queue : FsCommandRingbuffer, queue.toList = [] ∧
      drainCommands limit device =
        { device.commandQueue.toList.foldl applyCommand device with
          commandQueue := queue } := by
  induction limit generalizing device with
  | zero =>
      have hempty := (RingBuffer.toList_eq_nil_iff device.commandQueue).2 (by omega)
      exact ⟨device.commandQueue, hempty, by simp [drainCommands, hempty]⟩
  | succ limit ih =>
      rw [drainCommands]
      split
      · next hpop =>
          have hempty := (RingBuffer.pop_eq_none_iff _).mp hpop
          exact ⟨device.commandQueue, hempty, by simp [hempty]⟩
      · next cmd rest hpop =>
          have hcount := RingBuffer.count_pop hpop
          obtain ⟨queue, hempty, hdrain⟩ := ih
            (applyCommand { device with commandQueue := rest } cmd)
            (by rw [applyCommand_commandQueue]; simp only; omega)
          refine ⟨queue, hempty, ?_⟩
          rw [hdrain, RingBuffer.toList_pop hpop, applyCommand_commandQueue,
            foldl_applyCommand_commandQueue, List.foldl_cons]

/-- A buffer whose commands fit into the queue and are not interrupted is
carried out whole. -/
theorem fsHandleReceivedCommands_of_fit {device : FsDeviceInfo}
    (hempty : device.commandQueue.toList = []) {buffer : List UInt8}
    (hfit : (commandsIn buffer).length ≤ fsMaxCmdQueueLength)
    (hwhole : interrupted buffer = false) :
    ∃ queue : FsCommandRingbuffer, queue.toList = [] ∧
      fsHandleReceivedCommands device buffer =
        (0, { (commandsIn buffer).foldl applyCommand device with
          commandQueue := queue }) := by
  have hcount : device.commandQueue.count = 0 :=
    (RingBuffer.toList_eq_nil_iff _).mp hempty
  obtain ⟨hcode, hqueue⟩ := fsSegmentCommandsFrom_of_fit device.commandQueue .empty
    .waiting buffer (by rw [hcount, Nat.zero_add]; exact hfit)
  rw [interrupted] at hwhole
  rw [hwhole] at hcode
  rw [hempty, List.nil_append] at hqueue
  obtain ⟨queue, hdrained, hdrain⟩ := drainCommands_spec _
    { device with commandQueue := (fsSegmentCommands device.commandQueue buffer).2 }
    (Nat.le_refl _)
  refine ⟨queue, hdrained, ?_⟩
  have hsegment : (fsSegmentCommands device.commandQueue buffer).1 = 0 := hcode
  rw [fsHandleReceivedCommands, hsegment, if_neg (by decide), hdrain,
    foldl_applyCommand_commandQueue]
  simp only [fsSegmentCommands, hqueue, commandsIn]

/-- A line break inside the very first command makes the call fail with
nothing queued. -/
theorem fsHandleReceivedCommands_of_interrupted_first {device : FsDeviceInfo}
    (hempty : device.commandQueue.toList = []) {buffer : List UInt8}
    (hnone : commandsIn buffer = []) (hbreak : interrupted buffer = true) :
    ∃ queue : FsCommandRingbuffer, queue.toList = [] ∧
      fsHandleReceivedCommands device buffer =
        (-1, { device with commandQueue := queue }) := by
  have hcount : device.commandQueue.count = 0 :=
    (RingBuffer.toList_eq_nil_iff _).mp hempty
  rw [commandsIn] at hnone
  obtain ⟨hcode, hqueue⟩ := fsSegmentCommandsFrom_of_fit device.commandQueue .empty
    .waiting buffer (by rw [hcount, hnone]; decide)
  rw [interrupted] at hbreak
  rw [hbreak] at hcode
  rw [hnone, hempty] at hqueue
  refine ⟨_, hqueue, ?_⟩
  have hsegment : (fsSegmentCommands device.commandQueue buffer).1 = 3 := hcode
  rw [fsHandleReceivedCommands, hsegment, if_pos (by decide), fsSegmentCommands]

/-- A line break after a queued command leaves that command queued. -/
theorem fsHandleReceivedCommands_of_interrupted_later {device : FsDeviceInfo}
    (hempty : device.commandQueue.toList = []) {buffer : List UInt8}
    (hsome : commandsIn buffer ≠ [])
    (hfit : (commandsIn buffer).length ≤ fsMaxCmdQueueLength)
    (hbreak : interrupted buffer = true) :
    (fsHandleReceivedCommands device buffer).2.commandQueue.toList ≠ [] := by
  have hcount : device.commandQueue.count = 0 :=
    (RingBuffer.toList_eq_nil_iff _).mp hempty
  obtain ⟨hcode, hqueue⟩ := fsSegmentCommandsFrom_of_fit device.commandQueue .empty
    .waiting buffer (by rw [hcount, Nat.zero_add]; exact hfit)
  rw [interrupted] at hbreak
  rw [hbreak] at hcode
  have hsegment : (fsSegmentCommands device.commandQueue buffer).1 = 3 := hcode
  rw [fsHandleReceivedCommands, hsegment, if_pos (by decide)]
  change (fsSegmentCommandsFrom device.commandQueue .empty .waiting buffer).2.toList ≠ []
  rw [hqueue, hempty, List.nil_append]
  exact hsome

/-- More commands than the queue holds leave it full. -/
theorem fsHandleReceivedCommands_of_overflow (device : FsDeviceInfo)
    (buffer : List UInt8)
    (hoverflow : fsMaxCmdQueueLength <
      device.commandQueue.count + (commandsIn buffer).length) :
    (fsHandleReceivedCommands device buffer).1 = -1 ∧
      (fsHandleReceivedCommands device buffer).2.commandQueue.count =
        fsMaxCmdQueueLength := by
  obtain ⟨hcode, hfull⟩ := fsSegmentCommandsFrom_of_overflow device.commandQueue .empty
    .waiting buffer hoverflow
  have hsegment : (fsSegmentCommands device.commandQueue buffer).1 = -1 := hcode
  rw [fsHandleReceivedCommands, hsegment, if_pos (by decide)]
  exact ⟨rfl, hfull⟩

end Trifecta
