/-
Commands received over a serial line.  The framer hands its whole buffer to the
command handler once for every terminator, so that each command is carried out
again with every command before it; what is left on the handle is what one call
on the same bytes leaves.
-/
import Trifecta.CommandChunks
import Trifecta.FramerProgress

namespace Trifecta

open CText Registers Segments

/-- Bytes that neither frame a packet nor interrupt a command. -/
def CommandText (content : List UInt8) : Prop :=
  ∀ byte ∈ content, byte ≠ packetHeader ∧ byte ≠ packetHeaderV2 ∧ byte ≠ packetFooter ∧
    isLineBreak byte = false

theorem noFrame_of_commandText {content : List UInt8} (htext : CommandText content) :
    NoFrame content := by
  rintro front rest rfl _
  exact absurd rfl (htext packetFooter (by simp)).2.2.1

theorem interrupted_of_commandText {content : List UInt8} (htext : CommandText content) :
    interrupted content = false := by
  rw [← Bool.not_eq_true, interrupted_iff]
  rintro ⟨front, inByte, rest, rfl, hbreak, _⟩
  have hplain := (htext inByte (by simp)).2.2.2
  rw [hbreak] at hplain
  exact absurd hplain (by decide)

theorem commandsDrain_of_commandText {content : List UInt8} (htext : CommandText content)
    (hcount : content.count cmdTerminator ≤ fsMaxCmdQueueLength) : CommandsDrain content := by
  rw [commandsDrain_iff, commandsIn, length_scanCommands _ _ _ (interrupted_of_commandText htext)]
  exact Or.inl ⟨hcount, interrupted_of_commandText htext⟩

/-- The first terminator ends one command, and the others are those of the
rest. -/
theorem commandsIn_append_cons {front post : List UInt8} (hfront : cmdTerminator ∉ front)
    (htext : CommandText (front ++ cmdTerminator :: post)) :
    ∃ cmd, commandsIn (front ++ cmdTerminator :: post) = cmd :: commandsIn post := by
  have hfirst : CommandText (front ++ [cmdTerminator]) := fun byte hbyte =>
    htext byte ((List.sublist_append_left [cmdTerminator] post).append_left front |>.subset hbyte)
  have hwhole := interrupted_of_commandText hfirst
  have hone := length_scanCommands .empty .waiting _ hwhole
  rw [List.count_append, List.count_eq_zero.2 hfront, List.count_singleton_self] at hone
  obtain ⟨cmd, hcmd⟩ := List.length_eq_one_iff.1 hone
  refine ⟨cmd, ?_⟩
  rw [interrupted] at hwhole
  rw [commandsIn, scanCommands_append_cons _ _ hfront, hcmd, hwhole]
  rfl

/-- Carrying a command out neither reads nor changes the data buffer. -/
theorem foldl_applyCommand_dataBuffer (device : FsDeviceInfo) (buffer : FsBytesRingbuffer)
    (cmds : List FsCommandInfo) :
    cmds.foldl applyCommand { device with dataBuffer := buffer } =
      { cmds.foldl applyCommand device with dataBuffer := buffer } := by
  induction cmds generalizing device with
  | nil => rfl
  | cons cmd rest ih =>
      have hcmd : applyCommand { device with dataBuffer := buffer } cmd =
          { applyCommand device cmd with dataBuffer := buffer } := by
        unfold applyCommand
        cases commandField (cmd.payload.headD 0) with
        | none => rfl
        | some field =>
            cases field <;> try rfl
            simp only [setField]
            split <;> rfl
      rw [List.foldl_cons, hcmd, ih, List.foldl_cons]

/-- The handle after the framer has carried out `cmds`: only the two buffers
may differ from the handle on which they are carried out directly. -/
def CarriedOut (cmds : List FsCommandInfo) (before after : FsDeviceInfo) : Prop :=
  ∃ queue buffer, after = { cmds.foldl applyCommand before with
    commandQueue := queue, dataBuffer := buffer }

theorem CarriedOut.append {first second : List FsCommandInfo}
    {before between after : FsDeviceInfo} (hfirst : CarriedOut first before between)
    (hsecond : CarriedOut second between after) :
    CarriedOut (first ++ second) before after := by
  obtain ⟨queue, buffer, rfl⟩ := hfirst
  obtain ⟨queue', buffer', rfl⟩ := hsecond
  have hbuffers := (foldl_applyCommand_dataBuffer
    { first.foldl applyCommand before with commandQueue := queue } buffer second).trans
    (by rw [foldl_applyCommand_commandQueue])
  exact ⟨queue', buffer', by rw [hbuffers, List.foldl_append]⟩

/-- A call of the handler on what waits carries it out and leaves no command
queued. -/
theorem carriedOut_of_handled {driver next : Driver} {length : Nat}
    (htext : CommandText driver.pending)
    (hcount : driver.pending.count cmdTerminator ≤ fsMaxCmdQueueLength)
    (hempty : driver.device.commandQueue.toList = [])
    (hnext : next = popData
      { driver with device := (fsHandleReceivedCommands driver.device driver.pending).2 } length) :
    next.device.commandQueue.toList = [] ∧
      CarriedOut (commandsIn driver.pending) driver.device next.device := by
  obtain ⟨queue, hqueue, hhandle⟩ :=
    fsHandleReceivedCommands_of_drain hempty (commandsDrain_of_commandText htext hcount)
  rw [hnext, hhandle]
  exact ⟨hqueue, queue, _, rfl⟩

/-- The loop carries out the waiting commands, then all but the first of them,
and so on. -/
theorem processSerialLoop_carriedOut (stack : Nat → FsPacketUnion) (fuel : Nat)
    (driver : Driver) (hfuel : driver.pending.length < fuel)
    (htext : CommandText driver.pending)
    (hcount : driver.pending.count cmdTerminator ≤ fsMaxCmdQueueLength)
    (hempty : driver.device.commandQueue.toList = []) :
    ∃ code after, processSerialLoop stack fuel driver = some (code, after) ∧
      CarriedOut (commandsIn driver.pending).tails.flatten driver.device after.device := by
  induction fuel generalizing driver with
  | zero => omega
  | succ fuel ih =>
      rcases serialRound_of_noFrame stack (noFrame_of_commandText htext) with
        ⟨hstopped, code, hround⟩ | ⟨front, post, next, hfront, hpending, hnext, hround, hpost⟩
      · refine ⟨code, driver, by rw [processSerialLoop, hround], ?_⟩
        rw [commandsIn_of_not_mem hstopped.1]
        exact ⟨_, _, rfl⟩
      · obtain ⟨hqueue, hcarried⟩ := carriedOut_of_handled htext hcount hempty hnext
        have hsuffix : next.pending <:+ driver.pending := by
          rw [hpost, hpending]
          exact suffix_of_frame _ _ _
        have hless := serialRound_progress stack driver next hround
        obtain ⟨code, after, hloop, hlater⟩ := ih next (by omega)
          (fun byte hbyte => htext byte (hsuffix.subset hbyte))
          ((hsuffix.sublist.count_le cmdTerminator).trans hcount) hqueue
        refine ⟨code, after, by rw [processSerialLoop, hround]; exact hloop, ?_⟩
        obtain ⟨cmd, hcommands⟩ := commandsIn_append_cons hfront (hpending ▸ htext)
        have htails : (commandsIn driver.pending).tails.flatten =
            commandsIn driver.pending ++ (commandsIn next.pending).tails.flatten := by
          rw [hpending, hcommands, hpost]
          rfl
        rw [htails]
        exact hcarried.append hlater

/-- Carrying out commands again from each of them on leaves the descriptor and
the parameters that carrying them out once leaves. -/
theorem CarriedOut.settings {cmds : List FsCommandInfo} {before after : FsDeviceInfo}
    (hcarried : CarriedOut cmds.tails.flatten before after) :
    after.deviceDescriptor = (cmds.foldl applyCommand before).deviceDescriptor ∧
      after.deviceParams = (cmds.foldl applyCommand before).deviceParams := by
  obtain ⟨queue, buffer, rfl⟩ := hcarried
  apply (settings_eq_iff ((unset_foldl_applyCommand before _).trans
    (unset_foldl_applyCommand before cmds).symm)).2
  rw [cell_foldl_applyCommand, cell_foldl_applyCommand]
  exact assignAll_tails commandWrites before.cell cmds

/-- Commands over a serial line leave the settings that one call of the handler
on the same bytes leaves. -/
theorem fsDeviceProcessPacketsSerial_settings (stack : Nat → FsPacketUnion) (driver : Driver)
    (bytes : List UInt8) (hpending : driver.device.dataBuffer.toList = [])
    (hempty : driver.device.commandQueue.toList = []) (hlength : bytes.length ≤ 512)
    (hcount : bytes.count 59 ≤ 16)
    (hplain : ∀ byte ∈ bytes, byte ∉ ([58, 64, 33, 13, 10, 0] : List UInt8)) :
    ∃ code after, fsDeviceProcessPacketsSerial stack driver bytes = some (code, after) ∧
      after.device.deviceDescriptor =
          (fsHandleReceivedCommands driver.device bytes).2.deviceDescriptor ∧
        after.device.deviceParams =
          (fsHandleReceivedCommands driver.device bytes).2.deviceParams := by
  have htext : CommandText bytes := by
    intro byte hbyte
    have hnot := hplain byte hbyte
    simp only [List.mem_cons, List.not_mem_nil, or_false, not_or] at hnot
    exact ⟨hnot.1, hnot.2.1, hnot.2.2.1, by simp [isLineBreak, hnot]⟩
  have hnone : driver.pending = [] := hpending
  have hreceived : (driver.receive bytes).pending = bytes := by
    rw [pending_receive_of_room (by rw [hnone]; simpa using hlength), hnone, List.nil_append]
  obtain ⟨code, after, hloop, hcarried⟩ := processSerialLoop_carriedOut stack
    ((driver.receive bytes).pending.length + 1) (driver.receive bytes) (Nat.lt_succ_self _)
    (hreceived.symm ▸ htext) (hreceived.symm ▸ hcount) hempty
  rw [hreceived] at hcarried
  obtain ⟨hdescriptor, hparams⟩ := hcarried.settings
  obtain ⟨queue, _, hhandle⟩ :=
    fsHandleReceivedCommands_of_drain hempty (commandsDrain_of_commandText htext hcount)
  refine ⟨code, after, ?_, ?_⟩
  · rw [fsDeviceProcessPacketsSerial_eq]
    exact hloop
  · rw [hdescriptor, hparams, hhandle]
    have hreceive := foldl_applyCommand_dataBuffer driver.device
      (fsCbPush driver.device.dataBuffer bytes) (commandsIn bytes)
    rw [Driver.receive, hreceive]
    exact ⟨rfl, rfl⟩

/-- Two names and an incomplete third, received on a blank handle. -/
theorem fsDeviceProcessPacketsSerial_settings_names :
    ∃ code after, fsDeviceProcessPacketsSerial (fun _ => .zero 185)
        ⟨fsDeviceInfoUninitialized, .zero _, []⟩ [73, 97, 59, 73, 98, 59, 73] =
          some (code, after) ∧
      after.device.deviceDescriptor = (fsHandleReceivedCommands fsDeviceInfoUninitialized
          [73, 97, 59, 73, 98, 59, 73]).2.deviceDescriptor ∧
        after.device.deviceParams = (fsHandleReceivedCommands fsDeviceInfoUninitialized
          [73, 97, 59, 73, 98, 59, 73]).2.deviceParams :=
  fsDeviceProcessPacketsSerial_settings (fun _ => .zero 185)
    ⟨fsDeviceInfoUninitialized, .zero _, []⟩ [73, 97, 59, 73, 98, 59, 73] rfl rfl
    (by decide) (by decide) (by simp)

end Trifecta
