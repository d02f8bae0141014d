/-
When the command queue is empty after each call: the exact condition on the
received buffers, for one call and for whole runs of calls.
-/
import Trifecta.CommandSegments

namespace Trifecta

open CText Registers Segments

/-- Whether a command has begun, given that one had before `inByte`. -/
def insideStep (inside : Bool) (inByte : UInt8) : Bool :=
  if inByte = cmdTerminator then false
  else if isLineBreak inByte then inside
  else true

/-- A line break stands inside a command after the bytes `front`. -/
def BreaksAfter (inside : Bool) (buffer front : List UInt8) : Prop :=
  ∃ inByte rest, buffer = front ++ inByte :: rest ∧ isLineBreak inByte = true ∧
    front.foldl insideStep inside = true

theorem breaksAfter_nil_cons (inside : Bool) (inByte : UInt8) (rest : List UInt8) :
    BreaksAfter inside (inByte :: rest) [] ↔ isLineBreak inByte = true ∧ inside = true := by
  simp [BreaksAfter]

theorem breaksAfter_cons_cons (inside : Bool) (inByte first : UInt8)
    (rest front : List UInt8) :
    BreaksAfter inside (inByte :: rest) (first :: front) ↔
      first = inByte ∧ BreaksAfter (insideStep inside inByte) rest front := by
  constructor
  · rintro ⟨other, tail, hbuffer, hbreak, hinside⟩
    rw [List.cons_append, List.cons.injEq] at hbuffer
    obtain ⟨rfl, hrest⟩ := hbuffer
    exact ⟨rfl, other, tail, hrest, hbreak, hinside⟩
  · rintro ⟨rfl, other, tail, hrest, hbreak, hinside⟩
    exact ⟨other, tail, by rw [hrest, List.cons_append], hbreak, hinside⟩

theorem exists_breaksAfter_cons (inside : Bool) (inByte : UInt8) (rest : List UInt8)
    (motive : List UInt8 → Prop) :
    (∃ front, BreaksAfter inside (inByte :: rest) front ∧ motive front) ↔
      (isLineBreak inByte = true ∧ inside = true ∧ motive []) ∨
        ∃ front, BreaksAfter (insideStep inside inByte) rest front ∧
          motive (inByte :: front) := by
  constructor
  · rintro ⟨front, hbreaks, hmotive⟩
    cases front with
    | nil =>
        obtain ⟨hbreak, hinside⟩ := (breaksAfter_nil_cons inside inByte rest).1 hbreaks
        exact Or.inl ⟨hbreak, hinside, hmotive⟩
    | cons first front =>
        obtain ⟨rfl, hrest⟩ := (breaksAfter_cons_cons _ _ _ _ _).1 hbreaks
        exact Or.inr ⟨front, hrest, hmotive⟩
  · rintro (⟨hbreak, hinside, hmotive⟩ | ⟨front, hrest, hmotive⟩)
    · exact ⟨[], (breaksAfter_nil_cons inside inByte rest).2 ⟨hbreak, hinside⟩, hmotive⟩
    · exact ⟨inByte :: front, (breaksAfter_cons_cons _ _ _ _ _).2 ⟨rfl, hrest⟩, hmotive⟩

/-- Reading is interrupted exactly when a line break stands inside a command,
and then before the first queued command exactly when one does before any
terminator. -/
theorem scanCommands_interrupted_iff (cmd : FsCommandInfo) (state : SegmentState)
    (buffer : List UInt8) :
    ((scanCommands cmd state buffer).2 = true ↔
        ∃ front, BreaksAfter (state = .reading) buffer front ∧ True) ∧
      ((scanCommands cmd state buffer).2 = true ∧
          (scanCommands cmd state buffer).1 = [] ↔
        ∃ front, BreaksAfter (state = .reading) buffer front ∧ cmdTerminator ∉ front) := by
  induction buffer generalizing cmd state with
  | nil => simp [scanCommands, BreaksAfter]
  | cons inByte rest ih =>
      rw [scanCommands, exists_breaksAfter_cons, exists_breaksAfter_cons]
      by_cases hterminator : inByte = cmdTerminator
      · subst hterminator
        have hnot : isLineBreak cmdTerminator = false := by decide
        have := (ih .empty .waiting).1
        simpa [insideStep, hnot] using this
      · by_cases hbreak : isLineBreak inByte
        · cases state with
          | waiting =>
              have := ih .empty .waiting
              simpa [hterminator, hbreak, insideStep, Ne.symm hterminator] using this
          | reading => simp [hterminator, hbreak]
        · split
          · contradiction
          · split
            · next hroom =>
                have := ih (cmd.append inByte hroom) .reading
                simpa [hterminator, hbreak, insideStep, Ne.symm hterminator] using this
            · have := ih .empty .reading
              simpa [hterminator, hbreak, insideStep, Ne.symm hterminator] using this

theorem interrupted_iff (buffer : List UInt8) :
    interrupted buffer = true ↔ ∃ front, BreaksAfter false buffer front := by
  simpa [interrupted] using (scanCommands_interrupted_iff .empty .waiting buffer).1

theorem interrupted_first_iff (buffer : List UInt8) :
    interrupted buffer = true ∧ commandsIn buffer = [] ↔
      ∃ front, BreaksAfter false buffer front ∧ cmdTerminator ∉ front := by
  simpa [interrupted, commandsIn] using
    (scanCommands_interrupted_iff .empty .waiting buffer).2

/-- Without an interruption every terminator ends one command. -/
theorem length_scanCommands (cmd : FsCommandInfo) (state : SegmentState)
    (buffer : List UInt8) (hwhole : (scanCommands cmd state buffer).2 = false) :
    (scanCommands cmd state buffer).1.length = buffer.count cmdTerminator := by
  induction buffer generalizing cmd state with
  | nil => simp [scanCommands]
  | cons inByte rest ih =>
      rw [scanCommands] at hwhole ⊢
      by_cases hterminator : inByte = cmdTerminator
      · simp only [hterminator, ↓reduceIte] at hwhole ⊢
        simp [ih .empty .waiting hwhole]
      · rw [List.count_cons_of_ne hterminator]
        simp only [hterminator, ↓reduceIte] at hwhole ⊢
        by_cases hbreak : isLineBreak inByte
        · cases state with
          | waiting =>
              simp only [hbreak, ↓reduceIte] at hwhole ⊢
              exact ih .empty .waiting hwhole
          | reading => simp [hbreak] at hwhole
        · simp only [hbreak, Bool.false_eq_true, ↓reduceIte] at hwhole ⊢
          split
          · next hroom =>
              simp only [hroom, ↓reduceDIte] at hwhole
              exact ih _ .reading hwhole
          · next hroom =>
              simp only [hroom, ↓reduceDIte] at hwhole
              exact ih .empty .reading hwhole

/-- A buffer that leaves nothing queued: it has at most sixteen terminators and
no line break inside a command, or a line break stands inside its very first
command. -/
def CommandsDrain (buffer : List UInt8) : Prop :=
  (buffer.count cmdTerminator ≤ fsMaxCmdQueueLength ∧
      ∀ front, ¬ BreaksAfter false buffer front) ∨
    ∃ front, BreaksAfter false buffer front ∧ cmdTerminator ∉ front

theorem commandsDrain_iff (buffer : List UInt8) :
    CommandsDrain buffer ↔
      ((commandsIn buffer).length ≤ fsMaxCmdQueueLength ∧ interrupted buffer = false) ∨
        (interrupted buffer = true ∧ commandsIn buffer = []) := by
  rw [CommandsDrain, ← interrupted_first_iff, ← not_exists, ← interrupted_iff]
  cases hbreak : interrupted buffer with
  | true => simp
  | false =>
      rw [← length_scanCommands .empty .waiting buffer hbreak]
      simp [commandsIn]

/-- A call on an empty queue empties it again exactly when the buffer lets
it. -/
theorem commandQueue_empty_iff {device : FsDeviceInfo}
    (hempty : device.commandQueue.toList = []) (buffer : List UInt8) :
    (fsHandleReceivedCommands device buffer).2.commandQueue.toList = [] ↔
      CommandsDrain buffer := by
  have hcount : device.commandQueue.count = 0 :=
    (RingBuffer.toList_eq_nil_iff _).mp hempty
  rw [commandsDrain_iff]
  by_cases hfit : (commandsIn buffer).length ≤ fsMaxCmdQueueLength
  · cases hbreak : interrupted buffer with
    | false =>
        obtain ⟨queue, hqueue, hhandle⟩ := fsHandleReceivedCommands_of_fit hempty hfit hbreak
        simp [hhandle, hqueue, hfit]
    | true =>
        by_cases hnone : commandsIn buffer = []
        · obtain ⟨queue, hqueue, hhandle⟩ :=
            fsHandleReceivedCommands_of_interrupted_first hempty hnone hbreak
          simp [hhandle, hqueue, hnone]
        · have hleft := fsHandleReceivedCommands_of_interrupted_later hempty hnone hfit hbreak
          simp [hleft, hnone]
  · have hfull := (fsHandleReceivedCommands_of_overflow device buffer (by omega)).2
    have hne : commandsIn buffer ≠ [] := by
      intro hnil
      simp [hnil] at hfit
    rw [RingBuffer.toList_eq_nil_iff, hfull]
    simp [hfit, hne]

/-- Successive calls, each on its own buffer. -/
def handleCalls (device : FsDeviceInfo) (buffers : List (List UInt8)) : FsDeviceInfo :=
  buffers.foldl (fun current buffer => (fsHandleReceivedCommands current buffer).2) device

theorem handleCalls_concat (device : FsDeviceInfo) (buffers : List (List UInt8))
    (buffer : List UInt8) :
    handleCalls device (buffers ++ [buffer]) =
      (fsHandleReceivedCommands (handleCalls device buffers) buffer).2 := by
  simp [handleCalls]

/-- The bytes of one well-formed command, without its terminator. -/
def WellFormedCommand (text : List UInt8) : Prop :=
  text.length < fsMaxCmdLength ∧ ∀ inByte ∈ text, inByte ≠ cmdTerminator ∧
    isLineBreak inByte = false

/-- Reading plain bytes appends them to the command. -/
theorem scanCommands_plain (cmd : FsCommandInfo) (state : SegmentState)
    (text rest : List UInt8) (hlength : cmd.payload.length + text.length < fsMaxCmdLength)
    (hplain : ∀ inByte ∈ text, inByte ≠ cmdTerminator ∧ isLineBreak inByte = false) :
    scanCommands cmd state (text ++ cmdTerminator :: rest) =
      (⟨cmd.payload ++ text, by rw [List.length_append]; exact hlength⟩ ::
          (scanCommands .empty .waiting rest).1,
        (scanCommands .empty .waiting rest).2) := by
  induction text generalizing cmd state with
  | nil => simp [scanCommands]
  | cons inByte text ih =>
      obtain ⟨hterminator, hbreak⟩ := hplain inByte List.mem_cons_self
      rw [List.length_cons] at hlength
      have hroom : cmd.payload.length < fsMaxCmdLength - 1 := by omega
      rw [List.cons_append, scanCommands, if_neg hterminator, if_neg (by simp [hbreak]),
        dif_pos hroom, ih]
      · simp [FsCommandInfo.append]
      · simp only [FsCommandInfo.append, List.length_append, List.length_singleton]
        omega
      · exact fun other hother => hplain other (List.mem_cons_of_mem inByte hother)

/-- A well-formed command and its terminator are one command. -/
theorem commandsIn_wellFormed {text : List UInt8} (htext : WellFormedCommand text) :
    commandsIn (text ++ [cmdTerminator]) = [⟨text, htext.1⟩] ∧
      interrupted (text ++ [cmdTerminator]) = false := by
  have hscan := scanCommands_plain .empty .waiting text []
    (by simpa [FsCommandInfo.empty] using htext.1) htext.2
  rw [commandsIn, interrupted, hscan]
  exact ⟨rfl, rfl⟩

/-- The buffer of one well-formed command is accepted and carried out. -/
theorem fsHandleReceivedCommands_wellFormed {device : FsDeviceInfo}
    (hempty : device.commandQueue.toList = []) {text : List UInt8}
    (htext : WellFormedCommand text) :
    ∃ queue : FsCommandRingbuffer, queue.toList = [] ∧
      fsHandleReceivedCommands device (text ++ [cmdTerminator]) =
        (0, { applyCommand device ⟨text, htext.1⟩ with commandQueue := queue }) := by
  obtain ⟨hcommands, hwhole⟩ := commandsIn_wellFormed htext
  have hfit : (commandsIn (text ++ [cmdTerminator])).length ≤ fsMaxCmdQueueLength := by
    simp [hcommands, fsMaxCmdQueueLength]
  have hhandle := fsHandleReceivedCommands_of_fit hempty hfit hwhole
  rw [hcommands] at hhandle
  exact hhandle

/-- A call that drains carries out the commands of its own buffer. -/
theorem fsHandleReceivedCommands_of_drain {device : FsDeviceInfo}
    (hempty : device.commandQueue.toList = []) {buffer : List UInt8}
    (hdrain : CommandsDrain buffer) :
    ∃ queue : FsCommandRingbuffer, queue.toList = [] ∧
      (fsHandleReceivedCommands device buffer).2 =
        { (commandsIn buffer).foldl applyCommand device with commandQueue := queue } := by
  rcases (commandsDrain_iff buffer).1 hdrain with ⟨hfit, hwhole⟩ | ⟨hbreak, hnone⟩
  · obtain ⟨queue, hqueue, hhandle⟩ := fsHandleReceivedCommands_of_fit hempty hfit hwhole
    exact ⟨queue, hqueue, by rw [hhandle]⟩
  · obtain ⟨queue, hqueue, hhandle⟩ :=
      fsHandleReceivedCommands_of_interrupted_first hempty hnone hbreak
    exact ⟨queue, hqueue, by rw [hhandle, hnone, List.foldl_nil]⟩

/-- The queue is empty after each of `buffers`; each call has carried out
commands of its own buffer only; and after any of the calls a buffer with one
well-formed command is accepted and carried out. -/
structure NeverWedged (device : FsDeviceInfo) (buffers : List (List UInt8)) : Prop where
  emptied : ∀ front, front <+: buffers →
    (handleCalls device front).commandQueue.toList = []
  own : ∀ front buffer, front ++ [buffer] <+: buffers →
    ∃ (queue : FsCommandRingbuffer) (cmds : List FsCommandInfo),
      cmds <+: commandsIn buffer ∧
        handleCalls device (front ++ [buffer]) =
          { cmds.foldl applyCommand (handleCalls device front) with commandQueue := queue }
  accepts : ∀ front, front <+: buffers → ∀ text (htext : WellFormedCommand text),
    ∃ queue : FsCommandRingbuffer,
      fsHandleReceivedCommands (handleCalls device front) (text ++ [cmdTerminator]) =
        (0, { applyCommand (handleCalls device front) ⟨text, htext.1⟩ with
          commandQueue := queue })

/-- The queue is empty after every call exactly when every buffer drains. -/
theorem handleCalls_emptied_iff {device : FsDeviceInfo}
    (hempty : device.commandQueue.toList = []) (buffers : List (List UInt8)) :
    (∀ front, front <+: buffers → (handleCalls device front).commandQueue.toList = []) ↔
      ∀ buffer ∈ buffers, CommandsDrain buffer := by
  induction buffers using List.reverseRecOn with
  | nil => simpa [handleCalls] using hempty
  | append_singleton buffers buffer ih =>
      simp only [List.prefix_concat_iff, or_imp, forall_and, forall_eq,
        List.mem_append, List.mem_singleton, ih]
      rw [and_comm]
      apply and_congr_right
      intro hdrain
      have hbefore := (ih.2 hdrain) buffers List.prefix_rfl
      rw [handleCalls_concat, commandQueue_empty_iff hbefore]

/-- Runs that never wedge the queue are exactly those whose buffers all
drain. -/
theorem neverWedged_iff (device : FsDeviceInfo) (buffers : List (List UInt8))
    (hempty : device.commandQueue.toList = []) :
    NeverWedged device buffers ↔ ∀ buffer ∈ buffers, CommandsDrain buffer := by
  constructor
  · intro hnever
    exact (handleCalls_emptied_iff hempty buffers).1 hnever.emptied
  · intro hdrain
    have hemptied := (handleCalls_emptied_iff hempty buffers).2 hdrain
    refine ⟨hemptied, ?_, ?_⟩
    · intro front buffer hfront
      have hbefore := hemptied front ((List.prefix_append front [buffer]).trans hfront)
      have hbuffer : CommandsDrain buffer :=
        hdrain buffer (hfront.subset (List.mem_append_right front List.mem_cons_self))
      obtain ⟨queue, _, hhandle⟩ := fsHandleReceivedCommands_of_drain hbefore hbuffer
      exact ⟨queue, commandsIn buffer, List.prefix_rfl, by rw [handleCalls_concat, hhandle]⟩
    · intro front hfront text htext
      obtain ⟨queue, _, hhandle⟩ :=
        fsHandleReceivedCommands_wellFormed (hemptied front hfront) htext
      exact ⟨queue, hhandle⟩

/-- Two calls that each set the name never wedge the queue. -/
theorem neverWedged_two_names :
    NeverWedged fsDeviceInfoUninitialized [[73, 97, 59], [73, 98, 59]] := by
  apply (neverWedged_iff fsDeviceInfoUninitialized [[73, 97, 59], [73, 98, 59]] rfl).2
  intro buffer hbuffer
  rw [commandsDrain_iff]
  simp only [List.mem_cons, List.not_mem_nil, or_false] at hbuffer
  rcases hbuffer with rfl | rfl <;> decide

/-- Seventeen empty commands in one buffer fill the queue, and it stays
full. -/
theorem not_neverWedged_seventeen :
    ¬ NeverWedged fsDeviceInfoUninitialized [List.replicate 17 cmdTerminator] := by
  intro hnever
  have hfull := (fsHandleReceivedCommands_of_overflow fsDeviceInfoUninitialized
    (List.replicate 17 cmdTerminator) (by decide)).2
  have hcount := (RingBuffer.toList_eq_nil_iff _).1
    (hnever.emptied [List.replicate 17 cmdTerminator] List.prefix_rfl)
  have hcall : handleCalls fsDeviceInfoUninitialized [List.replicate 17 cmdTerminator] =
      (fsHandleReceivedCommands fsDeviceInfoUninitialized
        (List.replicate 17 cmdTerminator)).2 := rfl
  rw [hcall, hfull] at hcount
  exact absurd hcount (by decide)

end Trifecta
