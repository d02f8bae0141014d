/-
What a list of commands leaves on the device handle: each field that commands
can set as a register, the rest of the handle as a frame, and when every field
receives the whole value that was sent.
-/
import Trifecta.CommandDrain
import Mathlib.Data.List.TakeDrop

namespace Trifecta

open CText Registers Segments

/-- The contents of a field: the bytes of a character array or a number. -/
inductive FieldValue
  | text (bytes : List UInt8)
  | number (value : Int)
deriving DecidableEq

/-- Read the bytes of an array as a C string. -/
def FieldValue.asString : FieldValue → FieldValue
  | .text bytes => .text (cString bytes)
  | .number value => .number value

/-- The size of the character array that holds a field. -/
def CommandField.size : CommandField → Option Nat
  | .deviceName => some 32
  | .baudrate => none
  | .ssid => some 32
  | .ssidAp => some 32
  | .pwAp => some 64
  | .allEnabledInterfaces => none
  | .deviceSn => some 32
  | .deviceModel => some 32
  | .deviceFw => some 32
  | .deviceDesc => some 64

/-- The contents of a field, every byte of it. -/
def FsDeviceInfo.rawField (device : FsDeviceInfo) : CommandField → FieldValue
  | .deviceName => .text device.deviceDescriptor.deviceName.bytes
  | .baudrate => .number device.deviceParams.baudrate
  | .ssid => .text device.deviceParams.ssid.bytes
  | .ssidAp => .text device.deviceParams.ssidAp.bytes
  | .pwAp => .text device.deviceParams.pwAp.bytes
  | .allEnabledInterfaces => .number device.deviceParams.allEnabledInterfaces
  | .deviceSn => .text device.deviceDescriptor.deviceSn.bytes
  | .deviceModel => .text device.deviceDescriptor.deviceModel.bytes
  | .deviceFw => .text device.deviceDescriptor.deviceFw.bytes
  | .deviceDesc => .text device.deviceDescriptor.deviceDesc.bytes

/-- The contents of a field as its readers see it. -/
def FsDeviceInfo.field (device : FsDeviceInfo) (field : CommandField) : FieldValue :=
  (device.rawField field).asString

/-- The handle with its command queue and every field that commands can set
blanked out. -/
def FsDeviceInfo.unset (device : FsDeviceInfo) : FsDeviceInfo :=
  { device with
    commandQueue := fsDeviceInfoUninitialized.commandQueue
    deviceDescriptor := { fsDeviceDescriptorBlank with
      deviceId := device.deviceDescriptor.deviceId }
    deviceParams := { device.deviceParams with
      allEnabledInterfaces := 0, ssid := .zero 32, ssidAp := .zero 32, pwAp := .zero 64,
      baudrate := 0 } }

/-- The value that the code leaves in a field, unless it leaves the field
alone. -/
def fieldEffect (field : CommandField) (params : List UInt8) : Option FieldValue :=
  match field.size with
  | some size => some (.text ((cString params).take (size - 2)))
  | none =>
      if field = .baudrate ∧ atoi params ≤ 0 then none else some (.number (atoi params))

/-- The assignment that the code carries out for a command. -/
def commandEffect (cmd : FsCommandInfo) : Option (CommandField × FieldValue) :=
  match commandField (cmd.payload.headD 0) with
  | none => none
  | some field => (fieldEffect field cmd.payload.tail).map (Prod.mk field)

theorem text_copyParam {size : Nat} (array : Block size) (params : List UInt8)
    (hsize : 2 ≤ size) : (copyParam array params).text = (cString params).take (size - 2) := by
  have hcopied : ((cString params).take (size - 2)).length ≤ size - 2 :=
    List.length_take_le _ _
  have hplain : (0 : UInt8) ∉ (cString params).take (size - 2) := fun hmem =>
    zero_not_mem_cString params (List.mem_of_mem_take hmem)
  have hmaxlen : size - 1 - 1 = size - 2 := by omega
  change cString ((fsSafeStrncpy array.bytes params (size - 1)).set (size - 1) 0) = _
  rw [fsSafeStrncpy, if_neg (by omega), hmaxlen]
  obtain ⟨offset, hoffset⟩ : ∃ offset,
      size - 1 = ((cString params).take (size - 2)).length + (offset + 1) :=
    ⟨size - 1 - ((cString params).take (size - 2)).length - 1, by omega⟩
  rw [hoffset, List.set_append_right _ _ (by omega), Nat.add_sub_cancel_left,
    List.set_cons_succ]
  exact cString_append_zero hplain _

/-- One command's assignment touches its own field only. -/
theorem rawField_setField_of_ne (device : FsDeviceInfo) {field other : CommandField}
    (params : List UInt8) (hother : other ≠ field) :
    (setField device field params).rawField other = device.rawField other := by
  cases field <;> cases other <;> first | contradiction | rfl | skip
  all_goals
    simp only [setField]
    split <;> rfl

theorem field_setField_self (device : FsDeviceInfo) (field : CommandField)
    (params : List UInt8) :
    (setField device field params).field field =
      (fieldEffect field params).getD (device.field field) := by
  cases field with
  | baudrate =>
      by_cases hbaud : 0 < atoi params
      · simp [setField, hbaud, FsDeviceInfo.field, FsDeviceInfo.rawField,
          FieldValue.asString, fieldEffect, CommandField.size, Int.not_le.2 hbaud]
      · simp [setField, hbaud, fieldEffect, CommandField.size, Int.not_lt.1 hbaud]
  | allEnabledInterfaces => rfl
  | deviceName | deviceSn | deviceModel | deviceFw | deviceDesc =>
      exact congrArg FieldValue.text (text_copyParam _ params (by decide))
  | ssid | ssidAp | pwAp =>
      exact congrArg FieldValue.text (text_copyParam _ params (by decide))

theorem unset_setField (device : FsDeviceInfo) (field : CommandField)
    (params : List UInt8) : (setField device field params).unset = device.unset := by
  cases field <;> try rfl
  simp only [setField]
  split <;> rfl

theorem unset_applyCommand (device : FsDeviceInfo) (cmd : FsCommandInfo) :
    (applyCommand device cmd).unset = device.unset := by
  rw [applyCommand]
  cases commandField (cmd.payload.headD 0) with
  | none => rfl
  | some field => exact unset_setField device field cmd.payload.tail

theorem unset_drainCommands (limit : Nat) (device : FsDeviceInfo) :
    (drainCommands limit device).unset = device.unset := by
  induction limit generalizing device with
  | zero => rfl
  | succ limit ih =>
      rw [drainCommands]
      split
      · rfl
      · next cmd rest _ =>
          rw [ih]
          exact unset_applyCommand { device with commandQueue := rest } cmd

/-- Handling commands leaves the rest of the handle alone, whatever is received. -/
theorem unset_fsHandleReceivedCommands (device : FsDeviceInfo) (cmdBuf : List UInt8) :
    (fsHandleReceivedCommands device cmdBuf).2.unset = device.unset := by
  rw [fsHandleReceivedCommands]
  dsimp only
  split_ifs
  · rfl
  · exact unset_drainCommands _ _

theorem field_applyCommand (device : FsDeviceInfo) (cmd : FsCommandInfo) :
    (applyCommand device cmd).field =
      assignAll device.field (commandEffect cmd).toList := by
  rw [applyCommand, commandEffect]
  cases commandField (cmd.payload.headD 0) with
  | none => rfl
  | some field =>
      funext key
      by_cases hkey : key = field
      · subst hkey
        simp only [field_setField_self]
        cases fieldEffect key cmd.payload.tail <;> simp [assignAll]
      · have hraw := rawField_setField_of_ne device cmd.payload.tail hkey
        simp only [FsDeviceInfo.field, hraw]
        cases fieldEffect field cmd.payload.tail <;>
          simp [assignAll, Function.update_of_ne hkey, FsDeviceInfo.field]

/-- Carrying out commands is assigning their effects in order. -/
theorem field_foldl_applyCommand (device : FsDeviceInfo) (cmds : List FsCommandInfo) :
    (cmds.foldl applyCommand device).field =
      assignAll device.field (cmds.filterMap commandEffect) := by
  induction cmds generalizing device with
  | nil => rfl
  | cons cmd rest ih =>
      rw [List.foldl_cons, ih, field_applyCommand, ← assignAll_append, List.filterMap_cons]
      cases commandEffect cmd <;> rfl

theorem unset_foldl_applyCommand (device : FsDeviceInfo) (cmds : List FsCommandInfo) :
    (cmds.foldl applyCommand device).unset = device.unset := by
  induction cmds generalizing device with
  | nil => rfl
  | cons cmd rest ih => rw [List.foldl_cons, ih, unset_applyCommand]

/-- A field that no command names keeps every byte. -/
theorem rawField_foldl_applyCommand (device : FsDeviceInfo) (cmds : List FsCommandInfo)
    (key : CommandField)
    (hkey : ∀ cmd ∈ cmds, commandField (cmd.payload.headD 0) ≠ some key) :
    (cmds.foldl applyCommand device).rawField key = device.rawField key := by
  induction cmds generalizing device with
  | nil => rfl
  | cons cmd rest ih =>
      rw [List.foldl_cons, ih _ fun other hother => hkey other (List.mem_cons_of_mem cmd hother)]
      have hcmd := hkey cmd List.mem_cons_self
      rw [applyCommand]
      cases hfield : commandField (cmd.payload.headD 0) with
      | none => rfl
      | some field =>
          rw [hfield] at hcmd
          exact rawField_setField_of_ne device _ fun heq => hcmd (by rw [heq])

/-- The assignment that a command asks for: its whole value, as a string or as
a decimal number. -/
def namedEffect (cmd : FsCommandInfo) : Option (CommandField × FieldValue) :=
  match commandField (cmd.payload.headD 0) with
  | none => none
  | some field =>
      match field.size with
      | some _ => some (field, .text cmd.payload.tail)
      | none =>
          match decimalInt cmd.payload.tail with
          | none => none
          | some value =>
              if field = .baudrate ∧ value ≤ 0 then none
              else some (field, .number value)

/-- A value that its field has room for: one byte less than the array, or a
decimal number of 32 bits. -/
def FitsField (field : CommandField) (params : List UInt8) : Prop :=
  match field.size with
  | some size => params.length ≤ size - 1
  | none => ∃ value ∈ decimalInt params, -2 ^ 31 ≤ value ∧ value < 2 ^ 31

structure AdmissibleCommand (cmd : FsCommandInfo) : Prop where
  plain : ∀ inByte ∈ cmd.payload, inByte ≠ cmdTerminator ∧ isLineBreak inByte = false
  fits : ∀ field ∈ commandField (cmd.payload.headD 0), FitsField field cmd.payload.tail

/-- What the code keeps of a value. -/
def truncateValue (field : CommandField) : FieldValue → FieldValue
  | .text bytes => .text (bytes.take (field.size.getD 0 - 2))
  | .number value => .number value

/-- The bytes that carry a list of commands. -/
def commandStream (cmds : List FsCommandInfo) : List UInt8 :=
  join cmdTerminator (cmds.map (·.payload))

theorem scanCommands_commandStream (cmds : List FsCommandInfo)
    (hplain : ∀ cmd ∈ cmds, ∀ inByte ∈ cmd.payload,
      inByte ≠ cmdTerminator ∧ isLineBreak inByte = false) :
    scanCommands .empty .waiting (commandStream cmds) = (cmds, false) := by
  induction cmds with
  | nil => rfl
  | cons cmd rest ih =>
      have hstream : commandStream (cmd :: rest) =
          cmd.payload ++ cmdTerminator :: commandStream rest := by
        simp [commandStream, join]
      have hlength : FsCommandInfo.empty.payload.length + cmd.payload.length <
          fsMaxCmdLength := by
        simpa [FsCommandInfo.empty] using cmd.payload_lt
      rw [hstream, scanCommands_plain _ _ _ _ hlength (hplain cmd List.mem_cons_self),
        ih fun other hother => hplain other (List.mem_cons_of_mem cmd hother)]
      rfl

/-- A stream of at most sixteen plain commands is carried out in order. -/
theorem fsHandleReceivedCommands_commandStream {device : FsDeviceInfo}
    (hempty : device.commandQueue.toList = []) {cmds : List FsCommandInfo}
    (hcount : cmds.length ≤ fsMaxCmdQueueLength)
    (hplain : ∀ cmd ∈ cmds, ∀ inByte ∈ cmd.payload,
      inByte ≠ cmdTerminator ∧ isLineBreak inByte = false) :
    ∃ queue : FsCommandRingbuffer, queue.toList = [] ∧
      fsHandleReceivedCommands device (commandStream cmds) =
        (0, { cmds.foldl applyCommand device with commandQueue := queue }) := by
  have hscan := scanCommands_commandStream cmds hplain
  have hcommands : commandsIn (commandStream cmds) = cmds := by rw [commandsIn, hscan]
  have hwhole : interrupted (commandStream cmds) = false := by rw [interrupted, hscan]
  have hhandle := fsHandleReceivedCommands_of_fit hempty (by rw [hcommands]; exact hcount)
    hwhole
  rw [hcommands] at hhandle
  exact hhandle

theorem zero_not_mem_of_plain {params : List UInt8}
    (hplain : ∀ inByte ∈ params, isLineBreak inByte = false) : 0 ∉ params := by
  intro hmem
  exact absurd (hplain 0 hmem) (by decide)

/-- The code carries out what an admissible command asks for, less the end of
a value that is too long for it. -/
theorem commandEffect_eq_truncate {cmd : FsCommandInfo} (hcmd : AdmissibleCommand cmd) :
    commandEffect cmd =
      (namedEffect cmd).map fun effect => (effect.1, truncateValue effect.1 effect.2) := by
  have hfits := hcmd.fits
  rw [commandEffect, namedEffect]
  cases hfield : commandField (cmd.payload.headD 0) with
  | none => rfl
  | some field =>
      have hfit := hfits field hfield
      rw [FitsField] at hfit
      simp only [fieldEffect]
      cases hsize : field.size with
      | some size =>
          have hplain : (0 : UInt8) ∉ cmd.payload.tail := zero_not_mem_of_plain
            fun inByte hmem => (hcmd.plain inByte (List.mem_of_mem_tail hmem)).2
          simp [truncateValue, hsize, cString_of_not_mem hplain]
      | none =>
          simp only [hsize] at hfit
          obtain ⟨value, hvalue, hlow, hhigh⟩ := hfit
          rw [Option.mem_def] at hvalue
          simp only [hvalue, atoi_of_decimalInt hvalue hlow hhigh]
          split <;> simp [truncateValue]

theorem filterMap_commandEffect {cmds : List FsCommandInfo}
    (hcmds : ∀ cmd ∈ cmds, AdmissibleCommand cmd) :
    cmds.filterMap commandEffect = (cmds.filterMap namedEffect).map fun effect =>
      (effect.1, truncateValue effect.1 effect.2) := by
  rw [List.map_filterMap]
  apply List.filterMap_congr
  intro cmd hcmd
  exact commandEffect_eq_truncate (hcmds cmd hcmd)

/-- The call accepts the commands, every field holds the value that the last
command naming it carried, a field that none sets keeps every byte, and so
does the rest of the handle. -/
structure SetsNamedFields (device : FsDeviceInfo) (cmds : List FsCommandInfo)
    (result : Int × FsDeviceInfo) : Prop where
  accepted : result.1 = 0
  fields : result.2.field = assignAll device.field (cmds.filterMap namedEffect)
  untouched : ∀ field, lastWrite field (cmds.filterMap namedEffect) = none →
    result.2.rawField field = device.rawField field
  others : result.2.unset = device.unset

/-- A number field is its own reading. -/
theorem rawField_eq_field (device : FsDeviceInfo) {field : CommandField}
    (hsize : field.size = none) : device.rawField field = device.field field := by
  cases field <;> first | rfl | simp [CommandField.size] at hsize

theorem rawField_untouched (device : FsDeviceInfo) {cmds : List FsCommandInfo}
    (hcmds : ∀ cmd ∈ cmds, AdmissibleCommand cmd) (field : CommandField)
    (hnone : lastWrite field (cmds.filterMap namedEffect) = none) :
    (cmds.foldl applyCommand device).rawField field = device.rawField field := by
  cases hsize : field.size with
  | none =>
      have hcode : lastWrite field (cmds.filterMap commandEffect) = none := by
        rw [filterMap_commandEffect hcmds, lastWrite_map truncateValue, hnone, Option.map_none]
      rw [rawField_eq_field _ hsize, rawField_eq_field _ hsize, field_foldl_applyCommand,
        assignAll_apply, hcode, Option.getD_none]
  | some size =>
      apply rawField_foldl_applyCommand
      intro cmd hcmd hfield
      have heffect : namedEffect cmd = some (field, .text cmd.payload.tail) := by
        simp only [namedEffect, hfield, hsize]
      have hsome := (lastWrite_isSome_iff field (cmds.filterMap namedEffect)).2
        ⟨_, List.mem_filterMap.2 ⟨cmd, hcmd, heffect⟩, rfl⟩
      rw [hnone] at hsome
      exact absurd hsome (by decide)

/-- A value survives whole when it leaves two bytes of its array free. -/
theorem truncateValue_eq_iff (field : CommandField) (value : FieldValue) :
    truncateValue field value = value ↔
      ∀ bytes, value = .text bytes → bytes.length ≤ field.size.getD 0 - 2 := by
  cases value with
  | text bytes => simp [truncateValue, List.take_eq_self_iff]
  | number value => simp [truncateValue]

/-- Every field receives exactly what the commands say if and only if, of each
string field, the last value sent leaves two bytes of its array free. -/
theorem setsNamedFields_iff (device : FsDeviceInfo) (cmds : List FsCommandInfo)
    (hempty : device.commandQueue.toList = []) (hcount : cmds.length ≤ fsMaxCmdQueueLength)
    (hcmds : ∀ cmd ∈ cmds, AdmissibleCommand cmd) :
    SetsNamedFields device cmds (fsHandleReceivedCommands device (commandStream cmds)) ↔
      ∀ field bytes, lastWrite field (cmds.filterMap namedEffect) = some (.text bytes) →
        bytes.length ≤ field.size.getD 0 - 2 := by
  obtain ⟨queue, _, hhandle⟩ := fsHandleReceivedCommands_commandStream hempty hcount
    fun cmd hcmd => (hcmds cmd hcmd).plain
  have hfields : (cmds.foldl applyCommand device).field =
        assignAll device.field (cmds.filterMap namedEffect) ↔
      ∀ field bytes, lastWrite field (cmds.filterMap namedEffect) = some (.text bytes) →
        bytes.length ≤ field.size.getD 0 - 2 := by
    rw [field_foldl_applyCommand, filterMap_commandEffect hcmds, assignAll_map_eq_iff]
    apply forall_congr'
    intro field
    simp only [truncateValue_eq_iff, Option.mem_def]
    constructor
    · intro hshort bytes hlast
      exact hshort _ hlast bytes rfl
    · rintro hshort value hlast bytes rfl
      exact hshort bytes hlast
  rw [← hfields, hhandle]
  constructor
  · intro hsets
    exact hsets.fields
  · intro hall
    exact ⟨rfl, hall, rawField_untouched device hcmds, unset_foldl_applyCommand device cmds⟩

/-- A name of two characters and a baud rate. -/
theorem setsNamedFields_name_and_baud :
    let cmds : List FsCommandInfo :=
      [⟨[73, 97, 98], by decide⟩, ⟨[98, 57, 54, 48, 48], by decide⟩]
    SetsNamedFields fsDeviceInfoUninitialized cmds
      (fsHandleReceivedCommands fsDeviceInfoUninitialized (commandStream cmds)) := by
  intro cmds
  apply (setsNamedFields_iff fsDeviceInfoUninitialized cmds rfl (by decide) ?_).2
  · have heffects : cmds.filterMap namedEffect =
        [(.deviceName, .text [97, 98]), (.baudrate, .number 9600)] := by decide
    rw [heffects]
    intro field bytes hlast
    cases field <;> simp [lastWrite] at hlast
    simp [← hlast, CommandField.size]
  · intro cmd hcmd
    simp only [cmds, List.mem_cons, List.not_mem_nil, or_false] at hcmd
    rcases hcmd with rfl | rfl
    · refine ⟨by simp [isLineBreak, cmdTerminator], ?_⟩
      intro field hfield
      obtain rfl : CommandField.deviceName = field := Option.some.inj hfield
      simp [FitsField, CommandField.size]
    · refine ⟨by simp [isLineBreak, cmdTerminator], ?_⟩
      intro field hfield
      obtain rfl : CommandField.baudrate = field := Option.some.inj hfield
      exact ⟨9600, by decide, by decide, by decide⟩

/-- A name that fills its array up to the terminator loses its last
character. -/
theorem not_setsNamedFields_full_name :
    let cmds : List FsCommandInfo := [⟨73 :: List.replicate 31 97, by decide⟩]
    ¬ SetsNamedFields fsDeviceInfoUninitialized cmds
      (fsHandleReceivedCommands fsDeviceInfoUninitialized (commandStream cmds)) := by
  intro cmds hsets
  obtain ⟨queue, _, hhandle⟩ := @fsHandleReceivedCommands_commandStream
    fsDeviceInfoUninitialized rfl cmds (by decide) (by simp [cmds, isLineBreak, cmdTerminator])
  have hfields := hsets.fields
  rw [hhandle] at hfields
  have hname := congrFun hfields .deviceName
  have hcode : (cmds.foldl applyCommand fsDeviceInfoUninitialized).field .deviceName =
      .text (List.replicate 30 97) := by decide
  have hclaimed : assignAll fsDeviceInfoUninitialized.field (cmds.filterMap namedEffect)
      .deviceName = .text (List.replicate 31 97) := by decide
  rw [hclaimed] at hname
  exact absurd (hcode.symm.trans hname) (by decide)

end Trifecta
