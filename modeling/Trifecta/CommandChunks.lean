/-
Commands received over TCP, one chunk at a time.  Each chunk is cut into
commands by itself, so what the chunks leave on the handle is compared with the
whole stream byte by byte of the fields that commands set.
-/
import Trifecta.CommandFields

namespace Trifecta

open CText Registers Segments

/-- One byte of a character array, or the whole of a number. -/
abbrev FieldCell : Type := CommandField × Nat

/-- The bytes that `copyParam` puts at the front of an array. -/
def copiedBytes (size : Nat) (params : List UInt8) : List UInt8 :=
  (cString params).take (size - 2) ++ [0]

def byteCells (bytes : List UInt8) : List Int :=
  bytes.map fun (byte : UInt8) => (byte.toNat : Int)

def FieldValue.cell (value : FieldValue) (index : Nat) : Int :=
  match value with
  | .text bytes => ((bytes[index]?.getD 0).toNat : Int)
  | .number value => if index = 0 then value else 0

def FsDeviceInfo.cell (device : FsDeviceInfo) (cell : FieldCell) : Int :=
  (device.rawField cell.1).cell cell.2

/-- The cells that the code writes when it sets a field. -/
def fieldWrites (field : CommandField) (params : List UInt8) : List (FieldCell × Int) :=
  match field.size with
  | some size =>
      rowWrites (Prod.mk field) (byteCells (copiedBytes size params)) ++
        [((field, size - 1), 0)]
  | none =>
      if field = .baudrate ∧ atoi params ≤ 0 then [] else [((field, 0), atoi params)]

/-- The cells that the code writes for a command. -/
def commandWrites (cmd : FsCommandInfo) : List (FieldCell × Int) :=
  match commandField (cmd.payload.headD 0) with
  | none => []
  | some field => fieldWrites field cmd.payload.tail

theorem bytes_copyParam {size : Nat} (array : Block size) (params : List UInt8)
    (hsize : 2 ≤ size) :
    (copyParam array params).bytes =
      (copiedBytes size params ++ array.bytes.drop (copiedBytes size params).length).set
        (size - 1) 0 := by
  have hmaxlen : size - 1 - 1 = size - 2 := by omega
  change (fsSafeStrncpy array.bytes params (size - 1)).set (size - 1) 0 = _
  rw [fsSafeStrncpy, if_neg (by omega), hmaxlen, copiedBytes]
  simp only [List.append_assoc, List.singleton_append, List.length_append,
    List.length_singleton]

theorem cell_copyParam {size : Nat} (array : Block size) (params : List UInt8)
    (hsize : 2 ≤ size) (field : CommandField) (index : Nat) :
    FieldValue.cell (.text (copyParam array params).bytes) index =
      (lastWrite (field, index)
        (rowWrites (Prod.mk field) (byteCells (copiedBytes size params)) ++
          [((field, size - 1), 0)])).getD (FieldValue.cell (.text array.bytes) index) := by
  have hcopied : (copiedBytes size params).length < size := by
    have := List.length_take_le (size - 2) (cString params)
    simp only [copiedBytes, List.length_append, List.length_singleton]
    omega
  rw [bytes_copyParam array params hsize]
  generalize copiedBytes size params = copied at hcopied
  have hlength := array.length_bytes
  rw [lastWrite_append, lastWrite_rowWrites (Prod.mk_right_injective field)]
  simp only [FieldValue.cell, lastWrite, Prod.mk.injEq, true_and, Option.none_or, byteCells,
    List.getElem?_map]
  by_cases hlast : size - 1 = index
  · subst hlast
    rw [List.getElem?_set_self (by simp; omega)]
    simp
  · rw [List.getElem?_set_ne hlast, if_neg hlast, Option.none_or]
    by_cases hindex : index < copied.length
    · rw [List.getElem?_append_left hindex, List.getElem?_eq_getElem hindex]
      rfl
    · rw [List.getElem?_append_right (by omega), List.getElem?_drop,
        List.getElem?_eq_none_iff.2 (Nat.le_of_not_lt hindex)]
      have hback : copied.length + (index - copied.length) = index := by omega
      rw [hback]
      rfl

/-- A field's writes stay inside it. -/
theorem mem_fieldWrites {field : CommandField} {params : List UInt8}
    {write : FieldCell × Int} (hwrite : write ∈ fieldWrites field params) :
    write.1.1 = field ∧ write.1.2 < field.size.getD 1 := by
  rw [fieldWrites] at hwrite
  cases hsize : field.size with
  | some size =>
      have hpos : 2 ≤ size := by
        cases field <;> simp only [CommandField.size, Option.some.injEq, reduceCtorEq] at hsize <;>
          omega
      simp only [hsize, List.mem_append, List.mem_singleton] at hwrite
      rcases hwrite with hrow | rfl
      · simp only [rowWrites, List.mem_map, byteCells] at hrow
        obtain ⟨entry, hentry, rfl⟩ := hrow
        have hindex := List.snd_lt_of_mem_zipIdx hentry
        simp only [copiedBytes, List.length_map, List.length_append, List.length_take,
          List.length_singleton] at hindex
        exact ⟨rfl, by simp only [Option.getD_some]; omega⟩
      · exact ⟨rfl, by simp only [Option.getD_some]; omega⟩
  | none =>
      simp only [hsize] at hwrite
      split at hwrite
      · simp at hwrite
      · obtain rfl := List.mem_singleton.1 hwrite
        exact ⟨rfl, Nat.one_pos⟩

theorem cell_setField (device : FsDeviceInfo) (field : CommandField) (params : List UInt8) :
    (setField device field params).cell =
      assignAll device.cell (fieldWrites field params) := by
  funext ⟨key, index⟩
  rw [assignAll_apply]
  by_cases hkey : key = field
  · subst hkey
    cases key with
    | baudrate =>
        by_cases hbaud : 0 < atoi params
        · simp only [setField, hbaud, ↓reduceIte, fieldWrites, CommandField.size,
            Int.not_le.2 hbaud, and_false, lastWrite, Prod.mk.injEq, true_and, Option.none_or,
            FsDeviceInfo.cell, FsDeviceInfo.rawField, FieldValue.cell]
          by_cases hindex : index = 0 <;> simp [hindex, eq_comm]
        · simp [setField, hbaud, fieldWrites, CommandField.size, Int.not_lt.1 hbaud, lastWrite]
    | allEnabledInterfaces =>
        simp only [setField, fieldWrites, CommandField.size, reduceCtorEq, false_and,
          ↓reduceIte, lastWrite, Prod.mk.injEq, true_and, Option.none_or, FsDeviceInfo.cell,
          FsDeviceInfo.rawField, FieldValue.cell]
        by_cases hindex : index = 0 <;> simp [hindex, eq_comm]
    | deviceName | deviceSn | deviceModel | deviceFw | deviceDesc =>
        exact cell_copyParam _ params (by decide) _ index
    | ssid | ssidAp | pwAp => exact cell_copyParam _ params (by decide) _ index
  · have hnone : lastWrite (key, index) (fieldWrites field params) = none := by
      rw [← Option.not_isSome_iff_eq_none, lastWrite_isSome_iff]
      rintro ⟨write, hwrite, hfound⟩
      have := (mem_fieldWrites hwrite).1
      rw [hfound] at this
      exact hkey this
    rw [hnone, Option.getD_none, FsDeviceInfo.cell, FsDeviceInfo.cell]
    simp only [rawField_setField_of_ne device params hkey]

/-- Carrying out commands is writing their cells in order. -/
theorem cell_foldl_applyCommand (device : FsDeviceInfo) (cmds : List FsCommandInfo) :
    (cmds.foldl applyCommand device).cell =
      assignAll device.cell (cmds.flatMap commandWrites) := by
  induction cmds generalizing device with
  | nil => rfl
  | cons cmd rest ih =>
      rw [List.foldl_cons, ih, List.flatMap_cons, assignAll_append, applyCommand,
        commandWrites]
      cases commandField (cmd.payload.headD 0) with
      | none => rfl
      | some field =>
          simp only [cell_setField]

/-- A handle whose settable fields are filled with one byte. -/
def filledDevice (byte : UInt8) : FsDeviceInfo :=
  { fsDeviceInfoUninitialized with
    deviceDescriptor := { fsDeviceDescriptorBlank with
      deviceName := .fill 32 byte, deviceFw := .fill 32 byte, deviceDesc := .fill 64 byte,
      deviceSn := .fill 32 byte, deviceModel := .fill 32 byte }
    deviceParams := { fsDeviceParamsBlank with
      allEnabledInterfaces := byte.toNat, ssid := .fill 32 byte, ssidAp := .fill 32 byte,
      pwAp := .fill 64 byte, baudrate := byte.toNat } }

theorem cell_filledDevice (byte : UInt8) (cell : FieldCell)
    (hcell : cell.2 < cell.1.size.getD 1) : (filledDevice byte).cell cell = byte.toNat := by
  obtain ⟨field, index⟩ := cell
  cases field with
  | baudrate | allEnabledInterfaces =>
      obtain rfl : index = 0 := Nat.lt_one_iff.1 hcell
      rfl
  | deviceName | deviceSn | deviceModel | deviceFw | deviceDesc | ssid | ssidAp | pwAp =>
      have hindex := List.getElem?_replicate_of_lt (a := byte) hcell
      change (((List.replicate _ byte)[index]?.getD 0).toNat : Int) = byte.toNat
      exact congrArg (fun found : Option UInt8 => ((found.getD 0).toNat : Int)) hindex

theorem rawField_eq_iff (first second : FsDeviceInfo) (field : CommandField) :
    first.rawField field = second.rawField field ↔
      ∀ index, first.cell (field, index) = second.cell (field, index) := by
  constructor
  · intro hraw index
    rw [FsDeviceInfo.cell, FsDeviceInfo.cell, hraw]
  · intro hcell
    have harray : ∀ {size : Nat} (left right : Block size),
        (∀ index, FieldValue.cell (.text left.bytes) index =
          FieldValue.cell (.text right.bytes) index) → left.bytes = right.bytes := by
      intro size left right hbytes
      apply List.ext_getElem (by rw [left.length_bytes, right.length_bytes])
      intro index hleft hright
      have hindex := hbytes index
      simp only [FieldValue.cell, List.getElem?_eq_getElem hleft,
        List.getElem?_eq_getElem hright, Option.getD_some] at hindex
      exact UInt8.toNat_inj.1 (Int.ofNat_inj.1 hindex)
    cases field with
    | baudrate | allEnabledInterfaces => exact congrArg FieldValue.number (hcell 0)
    | deviceName | deviceSn | deviceModel | deviceFw | deviceDesc | ssid | ssidAp | pwAp =>
        exact congrArg FieldValue.text (harray _ _ hcell)

/-- Handles that agree outside the settable fields have the same descriptor and
parameters exactly when all their cells agree. -/
theorem settings_eq_iff {first second : FsDeviceInfo} (hunset : first.unset = second.unset) :
    (first.deviceDescriptor = second.deviceDescriptor ∧
        first.deviceParams = second.deviceParams) ↔ first.cell = second.cell := by
  constructor
  · rintro ⟨hdescriptor, hparams⟩
    funext ⟨field, index⟩
    apply (rawField_eq_iff first second field).1
    cases field <;> simp only [FsDeviceInfo.rawField, hdescriptor, hparams]
  · intro hcell
    have hraw : ∀ field, first.rawField field = second.rawField field := fun field =>
      (rawField_eq_iff first second field).2 fun index => congrFun hcell (field, index)
    have hdescriptor := congrArg FsDeviceInfo.deviceDescriptor hunset
    have hparams := congrArg FsDeviceInfo.deviceParams hunset
    simp only [FsDeviceInfo.unset, FsDeviceDescriptor.mk.injEq, and_true] at hdescriptor
    simp only [FsDeviceInfo.unset, FsDeviceParams.mk.injEq, true_and] at hparams
    have htext : ∀ {size : Nat} {left right : Block size},
        FieldValue.text left.bytes = .text right.bytes → left = right := fun heq =>
      Block.ext (FieldValue.text.inj heq)
    have hnumber : ∀ {left right : Int},
        FieldValue.number left = .number right → left = right := FieldValue.number.inj
    constructor
    · exact FsDeviceDescriptor.ext hdescriptor (htext (hraw .deviceName))
        (htext (hraw .deviceFw)) (htext (hraw .deviceDesc)) (htext (hraw .deviceSn))
        (htext (hraw .deviceModel))
    · apply FsDeviceParams.ext
      case allEnabledInterfaces => exact hnumber (hraw .allEnabledInterfaces)
      case baudrate => exact hnumber (hraw .baudrate)
      case ssid => exact htext (hraw .ssid)
      case ssidAp => exact htext (hraw .ssidAp)
      case pwAp => exact htext (hraw .pwAp)
      all_goals simp only [hparams]

/-- Chunks that are carried out whole are carried out like their commands in
one go. -/
theorem handleCalls_of_fit {device : FsDeviceInfo}
    (hempty : device.commandQueue.toList = []) (chunks : List (List UInt8))
    (hchunks : ∀ chunk ∈ chunks,
      (commandsIn chunk).length ≤ fsMaxCmdQueueLength ∧ interrupted chunk = false) :
    ∃ queue : FsCommandRingbuffer, queue.toList = [] ∧
      handleCalls device chunks =
        { (chunks.flatMap commandsIn).foldl applyCommand device with
          commandQueue := queue } := by
  induction chunks using List.reverseRecOn with
  | nil => exact ⟨device.commandQueue, hempty, rfl⟩
  | append_singleton chunks chunk ih =>
      obtain ⟨before, hbefore, hcalls⟩ :=
        ih fun other hother => hchunks other (List.mem_append_left _ hother)
      obtain ⟨hfit, hwhole⟩ := hchunks chunk (by simp)
      obtain ⟨queue, hqueue, hhandle⟩ := @fsHandleReceivedCommands_of_fit
        (handleCalls device chunks) (by rw [hcalls]; exact hbefore) chunk hfit hwhole
      refine ⟨queue, hqueue, ?_⟩
      rw [handleCalls_concat, hhandle, hcalls, foldl_applyCommand_commandQueue]
      simp

theorem isLineBreak_of_mem_commandStream {cmds : List FsCommandInfo}
    (hplain : ∀ cmd ∈ cmds, ∀ inByte ∈ cmd.payload,
      inByte ≠ cmdTerminator ∧ isLineBreak inByte = false) {inByte : UInt8}
    (hmem : inByte ∈ commandStream cmds) : isLineBreak inByte = false := by
  simp only [commandStream, join, List.mem_flatMap, List.mem_map, List.mem_append,
    List.mem_singleton] at hmem
  obtain ⟨_, ⟨cmd, hcmd, rfl⟩, hpayload | rfl⟩ := hmem
  · exact (hplain cmd hcmd inByte hpayload).2
  · decide

/-- Any chunk of a stream of at most sixteen plain commands is carried out
whole. -/
theorem fit_of_chunk {cmds : List FsCommandInfo} (hcount : cmds.length ≤ fsMaxCmdQueueLength)
    (hplain : ∀ cmd ∈ cmds, ∀ inByte ∈ cmd.payload,
      inByte ≠ cmdTerminator ∧ isLineBreak inByte = false) {chunk : List UInt8}
    (hchunk : chunk.Sublist (commandStream cmds)) :
    (commandsIn chunk).length ≤ fsMaxCmdQueueLength ∧ interrupted chunk = false := by
  have hwhole : interrupted chunk = false := by
    rw [← Bool.not_eq_true, interrupted_iff]
    rintro ⟨front, inByte, rest, rfl, hbreak, _⟩
    have hmem : inByte ∈ front ++ inByte :: rest := by simp
    rw [isLineBreak_of_mem_commandStream hplain (hchunk.subset hmem)] at hbreak
    exact absurd hbreak (by decide)
  refine ⟨?_, hwhole⟩
  have hscan := scanCommands_commandStream cmds hplain
  have hstream := length_scanCommands .empty .waiting (commandStream cmds) (by rw [hscan])
  have hlength := length_scanCommands .empty .waiting chunk hwhole
  rw [hscan] at hstream
  rw [commandsIn, hlength]
  exact (hchunk.count_le cmdTerminator).trans (hstream ▸ hcount)

/-- From every handle with an empty queue, calls on the chunks leave the same
descriptor and parameters as one call on their stream. -/
def SameSettings (chunks : List (List UInt8)) : Prop :=
  ∀ device : FsDeviceInfo, device.commandQueue.toList = [] →
    (handleCalls device chunks).deviceDescriptor =
        (fsHandleReceivedCommands device chunks.flatten).2.deviceDescriptor ∧
      (handleCalls device chunks).deviceParams =
        (fsHandleReceivedCommands device chunks.flatten).2.deviceParams

/-- Chunks leave what their stream leaves exactly when every byte of every
field is last written with the same value by the commands that lie inside the
chunks and by the commands of the stream. -/
theorem sameSettings_iff (cmds : List FsCommandInfo) (chunks : List (List UInt8))
    (hcount : cmds.length ≤ fsMaxCmdQueueLength)
    (hplain : ∀ cmd ∈ cmds, ∀ inByte ∈ cmd.payload,
      inByte ≠ cmdTerminator ∧ isLineBreak inByte = false)
    (hstream : chunks.flatten = commandStream cmds) :
    SameSettings chunks ↔ ∀ cell,
      lastWrite cell ((chunks.flatMap commandsIn).flatMap commandWrites) =
        lastWrite cell (cmds.flatMap commandWrites) := by
  have hchunks : ∀ chunk ∈ chunks,
      (commandsIn chunk).length ≤ fsMaxCmdQueueLength ∧ interrupted chunk = false :=
    fun chunk hchunk => fit_of_chunk hcount hplain
      (hstream ▸ List.sublist_flatten_of_mem hchunk)
  have hdevice : ∀ device : FsDeviceInfo, device.commandQueue.toList = [] →
      (((handleCalls device chunks).deviceDescriptor =
            (fsHandleReceivedCommands device chunks.flatten).2.deviceDescriptor ∧
          (handleCalls device chunks).deviceParams =
            (fsHandleReceivedCommands device chunks.flatten).2.deviceParams) ↔
        assignAll device.cell ((chunks.flatMap commandsIn).flatMap commandWrites) =
          assignAll device.cell (cmds.flatMap commandWrites)) := by
    intro device hempty
    obtain ⟨first, _, hcalls⟩ := handleCalls_of_fit hempty chunks hchunks
    obtain ⟨second, _, hwhole⟩ := fsHandleReceivedCommands_commandStream hempty hcount hplain
    rw [hcalls, hstream, hwhole, ← cell_foldl_applyCommand, ← cell_foldl_applyCommand]
    exact settings_eq_iff ((unset_foldl_applyCommand device _).trans
      (unset_foldl_applyCommand device cmds).symm)
  have hforall := forall_assignAll_eq_iff
    (fun device : { device : FsDeviceInfo // device.commandQueue.toList = [] } =>
      device.1.cell)
    ((chunks.flatMap commandsIn).flatMap commandWrites) (cmds.flatMap commandWrites) ?_
  · rw [← hforall]
    constructor
    · intro hsame device
      exact (hdevice device.1 device.2).1 (hsame device.1 device.2)
    · intro hsame device hempty
      exact (hdevice device hempty).2 (hsame ⟨device, hempty⟩)
  · intro write hwrite value
    obtain ⟨cmd, field, hfield⟩ : ∃ cmd field, write ∈ fieldWrites field cmd := by
      rw [← List.flatMap_append, List.mem_flatMap] at hwrite
      obtain ⟨cmd, _, hmem⟩ := hwrite
      rw [commandWrites] at hmem
      split at hmem
      · simp at hmem
      · exact ⟨_, _, hmem⟩
    have hinside := mem_fieldWrites hfield
    rw [← hinside.1] at hinside
    by_cases hvalue : value = 0
    · refine ⟨⟨filledDevice 1, rfl⟩, ?_⟩
      rw [cell_filledDevice 1 write.1 hinside.2, hvalue]
      decide
    · refine ⟨⟨filledDevice 0, rfl⟩, ?_⟩
      rw [cell_filledDevice 0 write.1 hinside.2]
      exact Ne.symm hvalue

/-- Chunks that each end where a command ends hold exactly the commands of
their stream. -/
theorem flatMap_commandsIn_of_boundary {groups : List (List FsCommandInfo)}
    (hplain : ∀ cmd ∈ groups.flatten, ∀ inByte ∈ cmd.payload,
      inByte ≠ cmdTerminator ∧ isLineBreak inByte = false) :
    (groups.map commandStream).flatMap commandsIn = groups.flatten := by
  rw [List.flatMap_map, List.flatten_eq_flatMap]
  apply List.flatMap_congr
  intro group hgroup
  rw [commandsIn, scanCommands_commandStream group fun cmd hcmd =>
    hplain cmd (List.mem_flatten_of_mem hgroup hcmd)]
  rfl

/-- Two names, each in a chunk of its own. -/
theorem sameSettings_two_names : SameSettings [[73, 97, 59], [73, 98, 59]] := by
  have hplain : ∀ cmd ∈ [[(⟨[73, 97], by decide⟩ : FsCommandInfo)],
      [⟨[73, 98], by decide⟩]].flatten, ∀ inByte ∈ cmd.payload,
        inByte ≠ cmdTerminator ∧ isLineBreak inByte = false := by
    simp [isLineBreak, cmdTerminator]
  apply (sameSettings_iff [⟨[73, 97], by decide⟩, ⟨[73, 98], by decide⟩]
    [[73, 97, 59], [73, 98, 59]] (by decide) hplain rfl).2
  intro cell
  have hcommands := flatMap_commandsIn_of_boundary hplain
  exact congrArg (fun cmds => lastWrite cell (List.flatMap commandWrites cmds)) hcommands

/-- A name cut after its letter is lost, and its rest sets the baud rate. -/
theorem not_sameSettings_cut_name :
    [[73], [98, 57, 59]].flatten = commandStream [⟨[73, 98, 57], by decide⟩] ∧
      ¬ SameSettings [[73], [98, 57, 59]] := by
  refine ⟨rfl, ?_⟩
  intro hsame
  have hbaud := congrArg FsDeviceParams.baudrate (hsame fsDeviceInfoUninitialized rfl).2
  have hchunks : (handleCalls fsDeviceInfoUninitialized
      [[73], [98, 57, 59]]).deviceParams.baudrate = 9 := by decide
  have hwhole : (fsHandleReceivedCommands fsDeviceInfoUninitialized
      [[73], [98, 57, 59]].flatten).2.deviceParams.baudrate = 0 := by decide
  rw [hchunks, hwhole] at hbaud
  exact absurd hbaud (by decide)

end Trifecta
