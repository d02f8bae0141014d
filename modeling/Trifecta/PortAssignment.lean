/-
The table of UDP ports over every sequence of addresses that ask for one.
-/
import Trifecta.Startup
import Trifecta.Library.RoundRobin

namespace Trifecta

open CText Transitions

/-- An address that fits the entries of the table, as a C string. -/
structure NetworkAddress where
  text : List UInt8
  zero_not_mem : 0 ∉ text
  text_ne_nil : text ≠ []
  length_text : text.length ≤ 38
deriving DecidableEq

namespace PortTable

/-- A call asks for the port of one address. -/
def askPort (table : PortTable) (address : NetworkAddress) : PortTable :=
  (table.fsGetUdpPortForDevice address.text).2

/-- The port that an address gets from a table. -/
def portOf (table : PortTable) (address : NetworkAddress) : Int :=
  (table.fsGetUdpPortForDevice address.text).1

/-- What a sequence of calls returns. -/
def portsGiven : PortTable → List NetworkAddress → List Int
  | _, [] => []
  | table, address :: later => table.portOf address :: portsGiven (table.askPort address) later

/-- The slot is taken by the address. -/
def Holds (table : PortTable) (slot : Fin fsMaxNumberDevices) (address : NetworkAddress) : Prop :=
  (table.devicePortMap slot).ipAddr.text = address.text

def Mapped (table : PortTable) (address : NetworkAddress) : Prop :=
  ∃ slot, table.Holds slot address

instance (table : PortTable) (address : NetworkAddress) : Decidable (table.Mapped address) :=
  inferInstanceAs (Decidable (∃ slot, (table.devicePortMap slot).ipAddr.text = address.text))

/-- How many of the addresses are assigned an index because they are not mapped. -/
def assignments : PortTable → List NetworkAddress → Nat
  | _, [] => 0
  | table, address :: later =>
      (if table.Mapped address then 0 else 1) + assignments (table.askPort address) later

/-- The entries are terminated, and an entry in use has the index of its slot. -/
structure Sound (table : PortTable) : Prop where
  terminated : ∀ slot, (table.devicePortMap slot).ipAddr.bytes.drop 38 = [0]
  assigned : ∀ slot, (table.devicePortMap slot).ipAddr.text ≠ [] →
    (table.devicePortMap slot).assignedIndex = slot

/-- The address of an entry, if it is in use. -/
def contents (entry : FsDevicePortMap) : Option (List UInt8) :=
  if entry.ipAddr.text = [] then none else some entry.ipAddr.text

/-- The table without the unused space of its arrays. -/
def slots (table : PortTable) : RoundRobin fsMaxNumberDevices (List UInt8) where
  key slot := contents (table.devicePortMap slot)
  entered := table.nextIndex

theorem sound_zeroed : zeroed.Sound where
  terminated _ := rfl
  assigned _ htext := absurd rfl htext

theorem slots_zeroed : zeroed.slots = .empty := rfl

theorem key_slots_iff {table : PortTable} {slot : Fin fsMaxNumberDevices}
    {address : NetworkAddress} :
    table.slots.key slot = some address.text ↔ table.Holds slot address := by
  rw [Holds]
  show contents (table.devicePortMap slot) = some address.text ↔ _
  rw [contents]
  split
  · next hempty =>
      rw [hempty]
      exact iff_of_false (by simp) address.text_ne_nil.symm
  · exact Option.some_inj

theorem mapped_slots_iff {table : PortTable} {address : NetworkAddress} :
    table.slots.Mapped address.text ↔ table.Mapped address :=
  exists_congr fun _ => key_slots_iff

/-- The comparison of the whole array finds the address that is stored. -/
theorem sameAddress_iff {table : PortTable} {slot : Fin fsMaxNumberDevices}
    {address : NetworkAddress} :
    sameAddress (table.devicePortMap slot) address.text = true ↔ table.Holds slot address := by
  have hlength := address.length_text
  rw [sameAddress, decide_eq_true_iff, cString_of_not_mem address.zero_not_mem,
    List.take_of_length_le (by omega)]
  exact Iff.rfl

/-- The copied address is terminated and is read back as a whole. -/
theorem copyAddress_text {array : Block 39} (hterminated : array.bytes.drop 38 = [0])
    (address : NetworkAddress) :
    (copyAddress array address.text).bytes.drop 38 = [0] ∧
      (copyAddress array address.text).text = address.text := by
  have hlength := address.length_text
  have hbytes : (copyAddress array address.text).bytes =
      (address.text ++ List.replicate (38 - address.text.length) 0) ++ [0] := by
    rw [copyAddress, cString_of_not_mem address.zero_not_mem,
      List.take_of_length_le address.length_text, Block.bytes_write (by simp; omega)]
    simp only [List.take_zero, List.nil_append, List.length_append, List.length_replicate,
      Nat.zero_add]
    rw [Nat.add_sub_cancel' hlength, hterminated]
  have hfront : (address.text ++ List.replicate (38 - address.text.length) (0 : UInt8)).length =
      38 := by
    simp
    omega
  constructor
  · rw [hbytes, List.drop_append_of_le_length (Nat.le_of_eq hfront.symm),
      List.drop_eq_nil_of_le (Nat.le_of_eq hfront), List.nil_append]
  · have hzeros : List.replicate (38 - address.text.length) (0 : UInt8) ++ [0] =
        0 :: List.replicate (38 - address.text.length) 0 := by
      rw [← List.replicate_succ', List.replicate_succ]
    rw [Block.text, hbytes, List.append_assoc, hzeros]
    exact cString_append_zero address.zero_not_mem _

/-- A call either finds the slot of the address, or fills the slot whose turn it is. -/
theorem fsGetUdpPortForDevice_cases (table : PortTable) (address : NetworkAddress) :
    (∃ slot, table.Holds slot address ∧
      table.fsGetUdpPortForDevice address.text =
        (fsTrifectaPort + (table.devicePortMap slot).assignedIndex, table)) ∨
    (¬ table.Mapped address ∧
      let turn := Fin.ofNat fsMaxNumberDevices table.nextIndex
      table.fsGetUdpPortForDevice address.text =
        (fsTrifectaPort + turn,
          { devicePortMap := Function.update table.devicePortMap turn
              { ipAddr := copyAddress (table.devicePortMap turn).ipAddr address.text
                assignedIndex := turn }
            nextIndex := table.nextIndex + 1 })) := by
  rw [fsGetUdpPortForDevice, assign]
  cases hfind : (List.finRange fsMaxNumberDevices).find?
      (fun slot => sameAddress (table.devicePortMap slot) address.text) with
  | some slot =>
      have hsame : sameAddress (table.devicePortMap slot) address.text = true :=
        @List.find?_some _ (fun slot => sameAddress (table.devicePortMap slot) address.text) _ _
          hfind
      exact .inl ⟨slot, sameAddress_iff.1 hsame, rfl⟩
  | none =>
      refine .inr ⟨?_, rfl⟩
      rintro ⟨slot, hslot⟩
      have hdiffers := List.find?_eq_none.1 hfind slot (List.mem_finRange slot)
      exact hdiffers (sameAddress_iff.2 hslot)

theorem sound_askPort {table : PortTable} (hsound : table.Sound) (address : NetworkAddress) :
    (table.askPort address).Sound := by
  rw [askPort]
  rcases table.fsGetUdpPortForDevice_cases address with ⟨slot, _, hcall⟩ | ⟨_, hcall⟩ <;>
    rw [hcall]
  · exact hsound
  · have hcopied := copyAddress_text (hsound.terminated
      (Fin.ofNat fsMaxNumberDevices table.nextIndex)) address
    constructor
    · intro slot
      dsimp only
      rw [Function.update_apply]
      split
      · exact hcopied.1
      · exact hsound.terminated slot
    · intro slot
      dsimp only
      rw [Function.update_apply]
      split
      · next hturn => exact fun _ => congrArg Fin.val hturn.symm
      · exact hsound.assigned slot

/-- A call is a request at the round robin table. -/
theorem slots_askPort {table : PortTable} (hsound : table.Sound) (address : NetworkAddress) :
    (table.askPort address).slots = table.slots.request address.text := by
  rw [askPort, RoundRobin.request]
  rcases table.fsGetUdpPortForDevice_cases address with ⟨slot, hslot, hcall⟩ | ⟨habsent, hcall⟩
  · rw [hcall, if_pos (mapped_slots_iff.2 ⟨slot, hslot⟩)]
  · rw [hcall, if_neg (mapped_slots_iff.not.2 habsent)]
    apply RoundRobin.ext
    · funext slot
      have hcopied := (copyAddress_text (hsound.terminated
        (Fin.ofNat fsMaxNumberDevices table.nextIndex)) address).2
      rw [RoundRobin.key_enter]
      by_cases hturn : slot = table.slots.turn
      · rw [if_pos hturn, hturn]
        show contents (Function.update table.devicePortMap table.slots.turn _ table.slots.turn) = _
        rw [Function.update_self, contents, if_neg (by rw [hcopied]; exact address.text_ne_nil),
          hcopied]
      · rw [if_neg hturn]
        exact congrArg contents (Function.update_of_ne hturn _ table.devicePortMap)
    · rfl

theorem sound_run {table : PortTable} (hsound : table.Sound) (addresses : List NetworkAddress) :
    (run askPort table addresses).Sound :=
  @run_invariant _ _ askPort (fun _ _ => True) Sound
    (fun _ address hsound _ => sound_askPort hsound address) table addresses hsound
    (along_of_forall (fun _ _ => trivial) table addresses)

theorem slots_run {table : PortTable} (hsound : table.Sound) (addresses : List NetworkAddress) :
    (run askPort table addresses).slots =
      run RoundRobin.request table.slots (addresses.map NetworkAddress.text) := by
  induction addresses generalizing table with
  | nil => rfl
  | cons address later ih =>
      have hlater := ih (sound_askPort hsound address)
      rw [slots_askPort hsound address] at hlater
      exact hlater

theorem misses_slots {table : PortTable} (hsound : table.Sound)
    (addresses : List NetworkAddress) :
    RoundRobin.misses table.slots (addresses.map NetworkAddress.text) =
      table.assignments addresses := by
  induction addresses generalizing table with
  | nil => rfl
  | cons address later ih =>
      have hlater := ih (sound_askPort hsound address)
      rw [List.map_cons, RoundRobin.misses, assignments, ← hlater, slots_askPort hsound address]
      simp only [mapped_slots_iff]

/-- The table after a sequence of calls from the start of the process. -/
abbrev tableAfter (calls : List NetworkAddress) : PortTable :=
  run askPort zeroed calls

theorem tableAfter_append (before calls : List NetworkAddress) :
    tableAfter (before ++ calls) = run askPort (tableAfter before) calls :=
  List.foldl_append

theorem sound_tableAfter (calls : List NetworkAddress) : (tableAfter calls).Sound :=
  sound_run sound_zeroed calls

theorem distinct_tableAfter (calls : List NetworkAddress) :
    (tableAfter calls).slots.Distinct := by
  rw [slots_run sound_zeroed, slots_zeroed]
  exact RoundRobin.distinct_run RoundRobin.distinct_empty _

/-- A call returns the port of the slot that the address has or is given. -/
theorem portOf_cases {table : PortTable} (hsound : table.Sound) (address : NetworkAddress) :
    (∃ slot, table.Holds slot address ∧ table.portOf address = fsTrifectaPort + slot) ∨
      (¬ table.Mapped address ∧ table.portOf address = fsTrifectaPort + table.slots.turn) := by
  rw [portOf]
  rcases table.fsGetUdpPortForDevice_cases address with ⟨slot, hslot, hcall⟩ | ⟨habsent, hcall⟩
  · refine .inl ⟨slot, hslot, ?_⟩
    have hused : (table.devicePortMap slot).ipAddr.text ≠ [] :=
      fun hempty => address.text_ne_nil (hslot.symm.trans hempty)
    rw [hcall]
    dsimp only
    rw [hsound.assigned slot hused]
  · exact .inr ⟨habsent, congrArg Prod.fst hcall⟩

/-- Every call returns a port of the range. -/
theorem portOf_mem_range {table : PortTable} (hsound : table.Sound) (address : NetworkAddress) :
    8888 ≤ table.portOf address ∧ table.portOf address ≤ 8903 := by
  have hrange : ∀ slot : Fin fsMaxNumberDevices,
      8888 ≤ (fsTrifectaPort + slot : Int) ∧ (fsTrifectaPort + slot : Int) ≤ 8903 := by
    intro slot
    have hslot : slot.val < 16 := slot.isLt
    rw [fsTrifectaPort]
    omega
  rcases portOf_cases hsound address with ⟨slot, _, hport⟩ | ⟨_, hport⟩ <;> rw [hport]
  · exact hrange slot
  · exact hrange table.slots.turn

/-- An address with a slot gets the port of this slot. -/
theorem portOf_of_holds {table : PortTable} (hsound : table.Sound)
    (hdistinct : table.slots.Distinct) {slot : Fin fsMaxNumberDevices} {address : NetworkAddress}
    (hslot : table.Holds slot address) : table.portOf address = fsTrifectaPort + slot := by
  rcases portOf_cases hsound address with ⟨found, hfound, hport⟩ | ⟨habsent, _⟩
  · have hsame : found = slot :=
      hdistinct found slot address.text (key_slots_iff.2 hfound) (key_slots_iff.2 hslot)
    rw [hport, hsame]
  · exact absurd ⟨slot, hslot⟩ habsent

theorem portsGiven_mem_range {table : PortTable} (hsound : table.Sound)
    (calls : List NetworkAddress) :
    ∀ port ∈ table.portsGiven calls, 8888 ≤ port ∧ port ≤ 8903 := by
  induction calls generalizing table with
  | nil => exact fun port hport => absurd hport List.not_mem_nil
  | cons address later ih =>
      rw [portsGiven, List.forall_mem_cons]
      exact ⟨portOf_mem_range hsound address, ih (sound_askPort hsound address)⟩

/-- An address that is not mapped is entered when it is asked for, and stays while
fewer than a round of others are assigned. -/
theorem keeps_tableAfter {before between : List NetworkAddress} {address : NetworkAddress}
    (habsent : ¬ (tableAfter before).Mapped address)
    (hround : (tableAfter (before ++ [address])).assignments between < fsMaxNumberDevices) :
    (tableAfter (before ++ address :: between)).slots.Keeps (tableAfter before).nextIndex
      address.text := by
  have hsound := sound_tableAfter before
  have hasked : tableAfter (before ++ [address]) = (tableAfter before).askPort address :=
    tableAfter_append before [address]
  have henter : ((tableAfter before).askPort address).slots =
      (tableAfter before).slots.enter address.text := by
    rw [slots_askPort hsound, RoundRobin.request, if_neg (mapped_slots_iff.not.2 habsent)]
  have hrun : tableAfter (before ++ address :: between) =
      run askPort ((tableAfter before).askPort address) between :=
    tableAfter_append before (address :: between)
  have hasksound := sound_askPort hsound address
  rw [hrun, slots_run hasksound, henter]
  rw [hasked, ← misses_slots hasksound, henter] at hround
  refine RoundRobin.keeps_run (RoundRobin.keeps_enter _ _) _ ?_
  have hentered : ((tableAfter before).slots.enter address.text).entered =
      (tableAfter before).slots.entered + 1 := rfl
  omega

theorem nextIndex_tableAfter_le (calls : List NetworkAddress) :
    (tableAfter calls).nextIndex ≤ calls.length := by
  have hentered := RoundRobin.entered_run zeroed.slots (calls.map NetworkAddress.text)
  have hle := RoundRobin.misses_le_length zeroed.slots (calls.map NetworkAddress.text)
  rw [← slots_run sound_zeroed, slots_zeroed] at hentered
  rw [slots_zeroed, List.length_map] at hle
  calc (tableAfter calls).nextIndex
      = 0 + RoundRobin.misses .empty (calls.map NetworkAddress.text) := hentered
    _ ≤ calls.length := by omega

/-- What the addresses that ask for a port can rely on. -/
structure PortsReliable (calls : List NetworkAddress) : Prop where
  /-- the `int` of the next index does not overflow -/
  counted : (tableAfter calls).nextIndex < 2 ^ 31
  ranged : ∀ port ∈ zeroed.portsGiven calls, 8888 ≤ port ∧ port ≤ 8903
  distinct : ∀ first second,
    ((tableAfter calls).devicePortMap first).ipAddr.text ≠ [] →
    ((tableAfter calls).devicePortMap first).ipAddr.text =
      ((tableAfter calls).devicePortMap second).ipAddr.text → first = second
  stable : ∀ before address between later,
    calls = before ++ address :: (between ++ address :: later) →
    ¬ (tableAfter before).Mapped address →
    (tableAfter (before ++ [address])).assignments between < 16 →
    (tableAfter (before ++ address :: between)).portOf address =
      (tableAfter before).portOf address
  released : ∀ before address between other, calls = before ++ address :: (between ++ [other]) →
    ¬ (tableAfter before).Mapped address →
    (tableAfter (before ++ [address])).assignments between = 15 →
    ¬ (tableAfter (before ++ address :: between)).Mapped other →
    ¬ (tableAfter calls).Mapped address
  injective : ∀ first second, (tableAfter calls).Mapped first → (tableAfter calls).Mapped second →
    first ≠ second → (tableAfter calls).portOf first ≠ (tableAfter calls).portOf second

/-- The port of an address stays for a round of assignments. -/
theorem portOf_tableAfter {before between : List NetworkAddress} {address : NetworkAddress}
    (habsent : ¬ (tableAfter before).Mapped address)
    (hround : (tableAfter (before ++ [address])).assignments between < fsMaxNumberDevices) :
    (tableAfter (before ++ address :: between)).portOf address =
      (tableAfter before).portOf address := by
  have hkeeps := keeps_tableAfter habsent hround
  have hlater := portOf_of_holds (sound_tableAfter _) (distinct_tableAfter _)
    (key_slots_iff.1 hkeeps.holds)
  rcases portOf_cases (sound_tableAfter before) address with ⟨slot, hslot, _⟩ | ⟨_, hport⟩
  · exact absurd ⟨slot, hslot⟩ habsent
  · exact hlater.trans hport.symm

/-- The sixteenth assignment after its own takes the slot of an address. -/
theorem not_mapped_tableAfter {before between : List NetworkAddress}
    {address other : NetworkAddress} (habsent : ¬ (tableAfter before).Mapped address)
    (hround : (tableAfter (before ++ [address])).assignments between = 15)
    (hother : ¬ (tableAfter (before ++ address :: between)).Mapped other) :
    ¬ (tableAfter (before ++ address :: (between ++ [other]))).Mapped address := by
  have hkeeps := keeps_tableAfter habsent (by rw [hround]; decide)
  have hasked : tableAfter (before ++ address :: (between ++ [other])) =
      (tableAfter (before ++ address :: between)).askPort other := by
    rw [← List.cons_append, ← List.append_assoc]
    exact tableAfter_append _ [other]
  rw [hasked, ← mapped_slots_iff, slots_askPort (sound_tableAfter _)]
  refine RoundRobin.not_mapped_request hkeeps (distinct_tableAfter _) ?_
    (mapped_slots_iff.not.2 hother)
  have hentered : (tableAfter (before ++ address :: between)).nextIndex =
      (tableAfter (before ++ [address])).nextIndex +
        (tableAfter (before ++ [address])).assignments between := by
    have hrun : tableAfter (before ++ address :: between) =
        run askPort (tableAfter (before ++ [address])) between := by
      rw [← List.singleton_append, ← List.append_assoc]
      exact tableAfter_append _ between
    have hsound := sound_tableAfter (before ++ [address])
    rw [← misses_slots hsound, hrun]
    exact (congrArg RoundRobin.entered (slots_run hsound between)).trans
      (RoundRobin.entered_run _ _)
  have hfirst :
      (tableAfter (before ++ [address])).nextIndex = (tableAfter before).nextIndex + 1 := by
    have hask : tableAfter (before ++ [address]) = (tableAfter before).askPort address :=
      tableAfter_append before [address]
    have hslots := slots_askPort (sound_tableAfter before) address
    rw [RoundRobin.request, if_neg (mapped_slots_iff.not.2 habsent)] at hslots
    rw [hask]
    exact congrArg RoundRobin.entered hslots
  have hslots : fsMaxNumberDevices = 16 := rfl
  show (tableAfter (before ++ address :: between)).nextIndex = _
  omega

theorem distinct_texts (calls : List NetworkAddress) (first second : Fin fsMaxNumberDevices)
    (hused : ((tableAfter calls).devicePortMap first).ipAddr.text ≠ [])
    (hsame : ((tableAfter calls).devicePortMap first).ipAddr.text =
      ((tableAfter calls).devicePortMap second).ipAddr.text) : first = second := by
  have hfirst : (tableAfter calls).slots.key first =
      some ((tableAfter calls).devicePortMap first).ipAddr.text := if_neg hused
  have hsecond : (tableAfter calls).slots.key second =
      some ((tableAfter calls).devicePortMap first).ipAddr.text := by
    show contents _ = _
    rw [contents, if_neg (hsame ▸ hused), hsame]
  exact distinct_tableAfter calls first second _ hfirst hsecond

/-- Two addresses of the table have different ports. -/
theorem portOf_ne {calls : List NetworkAddress} {first second : NetworkAddress}
    (hfirst : (tableAfter calls).Mapped first) (hsecond : (tableAfter calls).Mapped second)
    (hne : first ≠ second) :
    (tableAfter calls).portOf first ≠ (tableAfter calls).portOf second := by
  obtain ⟨slot, hslot⟩ := hfirst
  obtain ⟨other, hother⟩ := hsecond
  rw [portOf_of_holds (sound_tableAfter calls) (distinct_tableAfter calls) hslot,
    portOf_of_holds (sound_tableAfter calls) (distinct_tableAfter calls) hother]
  intro hport
  have hvalue : slot.val = other.val := by omega
  obtain rfl := Fin.ext hvalue
  refine hne ?_
  cases first
  cases second
  rw [Holds] at hslot hother
  simp only [NetworkAddress.mk.injEq]
  exact hslot.symm.trans hother

/-- Fewer than `2 ^ 31` calls give every address a port of its own, which it
keeps until sixteen others have been assigned one. -/
theorem portsReliable (calls : List NetworkAddress) (hcount : calls.length < 2 ^ 31) :
    PortsReliable calls where
  counted := Nat.lt_of_le_of_lt (nextIndex_tableAfter_le calls) hcount
  ranged := portsGiven_mem_range sound_zeroed calls
  distinct := distinct_texts calls
  stable _ _ _ _ _ habsent hround := portOf_tableAfter habsent hround
  released before address between other hcalls habsent hround hother := by
    rw [hcalls]
    exact not_mapped_tableAfter habsent hround hother
  injective _ _ hfirst hsecond hne := portOf_ne hfirst hsecond hne

/-- An address of one letter. -/
def letterAddress (letter : UInt8) (hletter : letter ≠ 0) : NetworkAddress where
  text := [letter]
  zero_not_mem := by simpa using hletter.symm
  text_ne_nil := by simp
  length_text := by simp

theorem portsReliable_two :
    PortsReliable [letterAddress 65 (by decide), letterAddress 66 (by decide),
      letterAddress 65 (by decide)] :=
  portsReliable _ (by decide)

end PortTable

end Trifecta
