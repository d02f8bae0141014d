/-
A saved capture and its replay: the exact condition on a packet for its row to
give the packet back, and on a sequence of packets for the file to do so.
-/
import Trifecta.SavedRows
import Trifecta.ReplayIndex
import Mathlib.Data.List.Forall2
import Mathlib.Tactic.IntervalCases

namespace Trifecta

open CText Lines

/-- The packet read back has the type, the time and the saved members of the
packet that was saved. -/
structure SameReading (packet read : FsPacketUnion) : Prop where
  type : read.type = packet.type
  members : ∀ field ∈ .time :: savedColumns,
    (packetLayout packet.type.toNat).get field read =
      (packetLayout packet.type.toNat).get field packet

/-- The packet has no such member, or it is zero. -/
def ZeroMember (packet : FsPacketUnion) (field : FsFieldId) : Prop :=
  ∀ bytes ∈ (packetLayout packet.type.toNat).get field packet,
    bytes = List.replicate bytes.length 0

/-- What of a packet a saved row keeps: all but the temperatures for the types
with a 32-bit time, only the low 32 bits of the time for those with a 64-bit time,
and nothing for the types that the reader refuses. -/
def KeptByReplay (packet : FsPacketUnion) : Prop :=
  let packetType := packet.type.toNat
  if packetType ≤ 2 ∨ 8 ≤ packetType ∧ packetType ≤ 10 then
    ∀ field ∈ [FsFieldId.temp0, .temp1, .temp2], ZeroMember packet field
  else if 100 ≤ packetType ∧ packetType ≤ 102 ∨ 108 ≤ packetType ∧ packetType ≤ 110 then
    (∀ bytes ∈ (packetLayout packetType).get .time packet,
        Block.ofLittleEndian bytes < 2 ^ 32) ∧
      ∀ field ∈ savedColumns, ZeroMember packet field
  else False

/-- The types that both tables know, and their structures. -/
theorem layouts_of_formatted {packetType : Nat}
    (htype : packetType ≤ 2 ∨ 8 ≤ packetType ∧ packetType ≤ 10) :
    replayLayout packetType = some (packetLayout packetType) ∧
      savedLayout packetType = some (packetLayout packetType) ∧
      ReplayedLayout (packetLayout packetType) 4 := by
  rcases htype with htype | ⟨hlow, hhigh⟩
  · interval_cases packetType <;> exact ⟨rfl, rfl, Or.inl rfl⟩
  · interval_cases packetType <;> exact ⟨rfl, rfl, Or.inr rfl⟩

/-- The types that only the reader knows, and their structures. -/
theorem layouts_of_unformatted {packetType : Nat}
    (htype : 100 ≤ packetType ∧ packetType ≤ 102 ∨ 108 ≤ packetType ∧ packetType ≤ 110) :
    replayLayout packetType = some (packetLayout packetType) ∧
      savedLayout packetType = none ∧ ReplayedLayout (packetLayout packetType) 8 := by
  rcases htype with ⟨hlow, hhigh⟩ | ⟨hlow, hhigh⟩
  · interval_cases packetType <;> exact ⟨rfl, rfl, Or.inl rfl⟩
  · interval_cases packetType <;> exact ⟨rfl, rfl, Or.inr rfl⟩

theorem replayLayout_eq_none {packetType : Nat}
    (hformatted : ¬ (packetType ≤ 2 ∨ 8 ≤ packetType ∧ packetType ≤ 10))
    (hunformatted :
      ¬ (100 ≤ packetType ∧ packetType ≤ 102 ∨ 108 ≤ packetType ∧ packetType ≤ 110)) :
    replayLayout packetType = none := by
  rw [replayLayout, if_neg (by omega), if_neg (by omega), if_neg (by omega), if_neg (by omega)]

theorem read_type (packet : FsPacketUnion) : packet.read 0 1 = [packet.type] := by
  have hlength := packet.length_bytes
  rw [Block.read, FsPacketUnion.type]
  cases hbytes : packet.bytes with
  | nil => simp [hbytes] at hlength
  | cons byte rest => simp

section OneRow

variable {floats : FloatText} {packet : FsPacketUnion}

theorem type_of_get {layout : Layout FsFieldId} (hmember : layout.member .type = some (0, 1))
    {read : FsPacketUnion}
    (hget : layout.get .type read =
      (layout.member .type).map fun place => Block.littleEndian place.2 packet.type.toNat) :
    read.type = packet.type := by
  rw [Layout.get, hmember, Option.map_some, Option.map_some, Option.some.injEq, read_type] at hget
  have hbyte := packet.type.toNat_lt
  have hstored : Block.littleEndian 1 packet.type.toNat = [packet.type] := by
    simp [Block.littleEndian, List.range_succ, Nat.mod_eq_of_lt hbyte]
  rw [hstored] at hget
  exact List.head_eq_of_cons_eq hget

/-- A member that reads back as zero is the same exactly when it was zero. -/
theorem get_eq_iff_zeroMember {timeSize : Nat}
    (hlayout : ReplayedLayout (packetLayout packet.type.toNat) timeSize)
    (htime : timeSize = 4 ∨ timeSize = 8) {field : FsFieldId} {read : FsPacketUnion}
    (hget : (packetLayout packet.type.toNat).get field read =
      ((packetLayout packet.type.toNat).member field).map fun place =>
        List.replicate place.2 0) :
    (packetLayout packet.type.toNat).get field read =
        (packetLayout packet.type.toNat).get field packet ↔ ZeroMember packet field := by
  have hsize := (replayedLayout_facts hlayout htime).1
  rw [hget, ZeroMember, Layout.get]
  cases hplace : (packetLayout packet.type.toNat).member field with
  | none => simp
  | some place =>
      have hrange := Layout.member_range hplace
      have hlength : (packet.read place.1 place.2).length = place.2 :=
        Block.length_read packet (by omega)
      simp only [Option.map_some, Option.some.injEq, Option.mem_def, forall_eq', hlength]
      exact eq_comm

theorem temperature_or_known {field : FsFieldId} (hcolumn : field ∈ savedColumns) :
    replayField field = field ∨ field = .temp0 ∨ field = .temp1 ∨ field = .temp2 := by
  cases field <;> first | exact Or.inl rfl | exact absurd hcolumn (by decide) | simp

/-- Every member of a packet without formatted cells reads back as zero. -/
theorem get_unformatted {layout : Layout FsFieldId} (hfloats : floats.Documented)
    (hsaved : savedLayout packet.type.toNat = none) (hsize : layout.totalSize ≤ 185)
    {field : FsFieldId} (hcolumn : field ∈ savedColumns) (packetType : Nat)
    (out : FsPacketUnion) :
    layout.get field ((savedCells floats packet).foldl (storeCell floats layout)
        (clearedPacket layout packetType out)) =
      (layout.member field).map fun place => List.replicate place.2 0 := by
  rcases temperature_or_known hcolumn with hknown | htemperature
  · obtain ⟨value, hvalue, hzero⟩ := read_empty hfloats hcolumn
    have hcell : columnCell floats packet field =
        if field = .devicemotion then [lineFeed] else [] := by
      simp only [columnCell, formatColumn, hsaved, List.nil_append]
    rw [get_savedCells hcolumn hknown (hcell ▸ hvalue) hsize]
    simp only [hzero]
  · exact get_temperature_savedCells hsize htemperature packetType out

/-- A formatted member that the reader has a name for reads back as itself. -/
theorem get_formatted (hexact : ExactPacket floats packet)
    (hsaved : savedLayout packet.type.toNat = some (packetLayout packet.type.toNat))
    {timeSize : Nat} (hlayout : ReplayedLayout (packetLayout packet.type.toNat) timeSize)
    (htime : timeSize = 4 ∨ timeSize = 8) {field : FsFieldId} (hcolumn : field ∈ savedColumns)
    (hknown : replayField field = field) (packetType : Nat) (out : FsPacketUnion) :
    (packetLayout packet.type.toNat).get field
        ((savedCells floats packet).foldl (storeCell floats (packetLayout packet.type.toNat))
          (clearedPacket (packetLayout packet.type.toNat) packetType out)) =
      (packetLayout packet.type.toNat).get field packet := by
  obtain ⟨hsize, _, _, hwidths⟩ := replayedLayout_facts hlayout htime
  cases hbytes : (packetLayout packet.type.toNat).get field packet with
  | none =>
      rw [Layout.get, Option.map_eq_none_iff] at hbytes
      rw [Layout.get, hbytes, Option.map_none]
  | some bytes =>
      obtain ⟨offset, hplace⟩ := Layout.length_get hsize hbytes
      have hwidth : bytes.length = memberWidth field := by
        rcases hwidths field hcolumn with hnone | hsome
        · simp [hplace] at hnone
        · simpa [hplace] using hsome
      have hprints := hexact _ hsaved field hcolumn bytes hbytes
      obtain ⟨value, hvalue, hsame⟩ := read_formatMember hcolumn hknown hprints hwidth
      have hsource : sourceLayout (packetLayout packet.type.toNat) field =
          packetLayout packet.type.toNat := by
        cases field <;> first | rfl | exact absurd hknown (by decide)
      have hcell : columnCell floats packet field =
          formatMember floats field bytes ++
            if field = .devicemotion then [lineFeed] else [] := by
        simp only [columnCell, formatColumn, hsaved, formatField, hsource, hbytes]
      rw [get_savedCells hcolumn hknown (hcell ▸ hvalue) hsize, hplace]
      exact congrArg some hsame

/-- A time of 32 bits reads back as itself. -/
theorem get_time_formatted
    (hlayout : ReplayedLayout (packetLayout packet.type.toNat) 4) (packetType : Nat)
    (out : FsPacketUnion) :
    (packetLayout packet.type.toNat).get .time
        ((savedCells floats packet).foldl (storeCell floats (packetLayout packet.type.toNat))
          (clearedPacket (packetLayout packet.type.toNat) packetType out)) =
      (packetLayout packet.type.toNat).get .time packet := by
  obtain ⟨hsize, _, htime, _⟩ := replayedLayout_facts hlayout (Or.inl rfl)
  have hlength : (packet.read 1 4).length = 4 := Block.length_read packet (by decide)
  have hrange := Block.ofLittleEndian_lt (packet.read 1 4)
  have hback := Block.littleEndian_ofLittleEndian (packet.read 1 4)
  rw [hlength] at hrange hback
  rw [get_time_savedCells hsize, Layout.get, htime, Option.map_some, Option.map_some,
    compositeTime, strtoul_decimal (by omega)]
  exact congrArg some hback

/-- The row of a formatted type gives back all but the temperatures. -/
theorem sameReading_iff_of_formatted (hexact : ExactPacket floats packet)
    (out : FsPacketUnion)
    (htype : packet.type.toNat ≤ 2 ∨ 8 ≤ packet.type.toNat ∧ packet.type.toNat ≤ 10) :
    SameReading packet
        ((savedCells floats packet).foldl (storeCell floats (packetLayout packet.type.toNat))
          (clearedPacket (packetLayout packet.type.toNat) packet.type.toNat out)) ↔
      ∀ field ∈ [FsFieldId.temp0, .temp1, .temp2], ZeroMember packet field := by
  obtain ⟨_, hsaved, hlayout⟩ := layouts_of_formatted htype
  obtain ⟨hsize, hmember, _, _⟩ := replayedLayout_facts hlayout (Or.inl rfl)
  have hzero : ∀ field ∈ [FsFieldId.temp0, .temp1, .temp2], _ := fun field hfield =>
    get_eq_iff_zeroMember hlayout (Or.inl rfl)
      (@get_temperature_savedCells floats _ packet hsize field (by simpa using hfield)
        packet.type.toNat out)
  constructor
  · intro hsame field hfield
    have hcolumn : field ∈ FsFieldId.time :: savedColumns := by
      simp only [List.mem_cons, List.not_mem_nil, or_false] at hfield
      rcases hfield with rfl | rfl | rfl <;> decide
    exact (hzero field hfield).mp (hsame.members field hcolumn)
  · intro htemperatures
    refine ⟨type_of_get hmember (get_type_savedCells hsize _ out), fun field hfield => ?_⟩
    rcases List.mem_cons.mp hfield with rfl | hcolumn
    · exact get_time_formatted hlayout _ out
    · rcases temperature_or_known hcolumn with hknown | htemperature
      · exact get_formatted hexact hsaved hlayout (Or.inl rfl) hcolumn hknown _ out
      · exact (hzero field (by simpa using htemperature)).mpr
          (htemperatures field (by simpa using htemperature))

/-- A time of 64 bits reads back as itself exactly when 32 bits hold it. -/
theorem get_time_unformatted
    (hlayout : ReplayedLayout (packetLayout packet.type.toNat) 8) (packetType : Nat)
    (out : FsPacketUnion) :
    (packetLayout packet.type.toNat).get .time
          ((savedCells floats packet).foldl (storeCell floats (packetLayout packet.type.toNat))
            (clearedPacket (packetLayout packet.type.toNat) packetType out)) =
        (packetLayout packet.type.toNat).get .time packet ↔
      ∀ bytes ∈ (packetLayout packet.type.toNat).get .time packet,
        Block.ofLittleEndian bytes < 2 ^ 32 := by
  obtain ⟨hsize, _, htime, _⟩ := replayedLayout_facts hlayout (Or.inr rfl)
  have hlength : (packet.read 1 8).length = 8 := Block.length_read packet (by decide)
  have hrange := Block.ofLittleEndian_lt (packet.read 1 8)
  have hback := Block.littleEndian_ofLittleEndian (packet.read 1 8)
  rw [hlength] at hrange hback
  have hlow : compositeTime packet = Block.ofLittleEndian (packet.read 1 8) % 2 ^ 32 := by
    have htake : packet.read 1 4 = (packet.read 1 8).take 4 := by
      simp [Block.read, List.take_take]
    rw [compositeTime, htake, Block.ofLittleEndian_take]
    rfl
  have hsaved : (packetLayout packet.type.toNat).get .time packet = some (packet.read 1 8) := by
    rw [Layout.get, htime, Option.map_some]
  rw [get_time_savedCells hsize, htime, Option.map_some, strtoul_decimal (by omega), hsaved]
  simp only [Option.some.injEq, Option.mem_def, forall_eq']
  constructor
  · intro hsame
    rw [← hsame, Block.ofLittleEndian_littleEndian]
    omega
  · intro hsmall
    rw [hlow, Nat.mod_eq_of_lt hsmall, hback]

/-- The row of an unformatted type gives back zeros and 32 bits of the time. -/
theorem sameReading_iff_of_unformatted (hfloats : floats.Documented) (out : FsPacketUnion)
    (htype : 100 ≤ packet.type.toNat ∧ packet.type.toNat ≤ 102 ∨
      108 ≤ packet.type.toNat ∧ packet.type.toNat ≤ 110) :
    SameReading packet
        ((savedCells floats packet).foldl (storeCell floats (packetLayout packet.type.toNat))
          (clearedPacket (packetLayout packet.type.toNat) packet.type.toNat out)) ↔
      (∀ bytes ∈ (packetLayout packet.type.toNat).get .time packet,
          Block.ofLittleEndian bytes < 2 ^ 32) ∧
        ∀ field ∈ savedColumns, ZeroMember packet field := by
  obtain ⟨_, hsaved, hlayout⟩ := layouts_of_unformatted htype
  obtain ⟨hsize, hmember, _, _⟩ := replayedLayout_facts hlayout (Or.inr rfl)
  have hzero : ∀ field ∈ savedColumns, _ := fun field hcolumn =>
    get_eq_iff_zeroMember hlayout (Or.inr rfl)
      (@get_unformatted floats packet _ hfloats hsaved hsize field hcolumn packet.type.toNat out)
  constructor
  · intro hsame
    refine ⟨(get_time_unformatted hlayout _ out).mp (hsame.members .time List.mem_cons_self),
      fun field hcolumn => ?_⟩
    exact (hzero field hcolumn).mp (hsame.members field (List.mem_cons_of_mem _ hcolumn))
  · rintro ⟨hsmall, hzeros⟩
    refine ⟨type_of_get hmember (get_type_savedCells hsize _ out), fun field hfield => ?_⟩
    rcases List.mem_cons.mp hfield with rfl | hcolumn
    · exact (get_time_unformatted hlayout _ out).mpr hsmall
    · exact (hzero field hcolumn).mpr (hzeros field hcolumn)

/-- The row of a packet gives the packet back exactly when it keeps it. -/
theorem readBack_iff (hfloats : floats.Documented) (hexact : ExactPacket floats packet)
    (hfits : FitsLine floats packet) (out : FsPacketUnion) :
    ((fsReplayParsePacket floats (fsReplayParseHeader headerLine) (formatPacket floats packet)
          out).1 = 0 ∧
        SameReading packet (fsReplayParsePacket floats (fsReplayParseHeader headerLine)
          (formatPacket floats packet) out).2) ↔ KeptByReplay packet := by
  rw [fsReplayParsePacket_formatPacket hfloats hfits, KeptByReplay]
  by_cases hformatted :
      packet.type.toNat ≤ 2 ∨ 8 ≤ packet.type.toNat ∧ packet.type.toNat ≤ 10
  · rw [(layouts_of_formatted hformatted).1, if_pos hformatted]
    simp only [true_and]
    exact sameReading_iff_of_formatted hexact out hformatted
  · rw [if_neg hformatted]
    by_cases hunformatted : 100 ≤ packet.type.toNat ∧ packet.type.toNat ≤ 102 ∨
        108 ≤ packet.type.toNat ∧ packet.type.toNat ≤ 110
    · rw [(layouts_of_unformatted hunformatted).1, if_pos hunformatted]
      simp only [true_and]
      exact sameReading_iff_of_unformatted hfloats out hunformatted
    · rw [replayLayout_eq_none hformatted hunformatted, if_neg hunformatted]
      simp

end OneRow

section Capture

variable {floats : FloatText} {packets : List FsPacketUnion}

/-- The header is one line of 212 bytes. -/
theorem headerLine_facts : headerLine = headerLine.dropLast ++ [lineFeed] ∧
    lineFeed ∉ headerLine.dropLast ∧ headerLine.length = 212 := by
  decide +kernel

/-- The lines of a saved file. -/
theorem splitLines_savedFile (hfloats : floats.Documented)
    (hfits : ∀ packet ∈ packets, FitsLine floats packet) :
    splitLines lineFeed (savedFile floats packets) =
      headerLine :: packets.map (formatPacket floats) := by
  have hrows : ∀ line ∈ headerLine :: packets.map (formatPacket floats),
      ∃ body, line = body ++ [lineFeed] ∧ lineFeed ∉ body := by
    intro line hline
    rw [List.mem_cons, List.mem_map] at hline
    rcases hline with hheader | ⟨packet, hpacket, rfl⟩
    · exact ⟨_, hheader.trans headerLine_facts.1, headerLine_facts.2.1⟩
    · exact ⟨_, formatPacket_eq (hfits packet hpacket), (not_mem_joined_rowCells hfloats).2⟩
  have hfile : savedFile floats packets =
      (headerLine :: packets.map (formatPacket floats)).flatten := rfl
  rw [hfile, splitLines_flatten hrows]

theorem replayContent_savedFile (hfloats : floats.Documented)
    (hfits : ∀ packet ∈ packets, FitsLine floats packet) :
    ReplayContent (savedFile floats packets) headerLine (packets.map (formatPacket floats)) := by
  refine ⟨splitLines_savedFile hfloats hfits, fun line hline => ?_⟩
  rw [List.mem_cons, List.mem_map] at hline
  rcases hline with hheader | ⟨packet, hpacket, rfl⟩
  · rw [hheader, headerLine_facts.2.2]
    decide
  · exact hfits packet hpacket

/-- A replay just opened stands before the first row, also when there is none. -/
theorem fsReplayOpen_stands {content header : List UInt8} {rows : List (List UInt8)}
    (hcontent : ReplayContent content header rows) {alloc : Nat → Bool} {step : Nat}
    {replay : FsReplay} (hopen : fsReplayOpen alloc (some content) step = .ok replay) :
    replay.file = atLine content header rows 1 ∧
      replay.fieldForColumn = fsReplayParseHeader header := by
  by_cases hrows : rows = []
  · subst hrows
    obtain ⟨_, _, state, file, hrun, rfl⟩ :=
      (fsReplayOpen_eq_ok_iff (fsSafeFgets_atLine hcontent 0)).mp hopen
    have hend := indexRows_end hcontent alloc step
      { offsets := [], cap := 4096, pos := (atLine content header [] 1).pos, line := 0 }
    rw [List.length_nil, Nat.zero_add] at hend
    obtain ⟨rfl, rfl⟩ := Prod.mk.inj (Except.ok.inj (hend.symm.trans hrun))
    exact ⟨rfl, rfl⟩
  · obtain ⟨_, hindexed, hfile⟩ := fsReplayOpen_indexed hcontent hrows hopen
    exact ⟨hfile, hindexed.fieldForColumn⟩

/-- Reading on and on gives the parse of every row, and then the end of the file. -/
theorem replayRun_readNext {content header : List UInt8} {rows : List (List UInt8)}
    (hcontent : ReplayContent content header rows) {replay : FsReplay} {next : Nat}
    (hfile : replay.file = atLine content header rows (next + 1)) {outs : List FsPacketUnion}
    (hlength : outs.length = (rows.drop next).length) (last : FsPacketUnion) :
    replayRun floats replay ((outs ++ [last]).map .readNext) =
      List.zipWith (fsReplayParsePacket floats replay.fieldForColumn) (rows.drop next) outs ++
        [(1, last)] := by
  induction outs generalizing next replay with
  | nil =>
      have hend : rows[next]? = none := by
        rw [List.getElem?_eq_none_iff, ← List.drop_eq_nil_iff]
        exact List.length_eq_zero_iff.mp hlength.symm
      rw [List.nil_append, List.map_singleton, replayRun, replayCall,
        fsReplayReadNext_at hcontent floats hfile, hend]
      simp [replayRun]
  | cons out outs ih =>
      have hnext : next < rows.length := by
        rw [List.length_cons, List.length_drop] at hlength
        omega
      have hread := fsReplayReadNext_at hcontent floats hfile out
      rw [List.getElem?_eq_getElem hnext] at hread
      rw [List.drop_eq_getElem_cons hnext] at hlength ⊢
      rw [List.cons_append, List.map_cons, replayRun, replayCall, hread, List.zipWith_cons_cons,
        List.cons_append]
      refine List.cons_eq_cons.mpr ⟨rfl, ?_⟩
      exact ih rfl (Nat.succ.inj hlength)

/-- Every saved packet is read back, in order and with the code 0, and then the
file ends.  `outs` and `last` are what the output packets hold before each call. -/
def ReplaysAsRecorded (floats : FloatText) (replay : FsReplay)
    (packets outs : List FsPacketUnion) (last : FsPacketUnion) : Prop :=
  ∃ reads : List FsPacketUnion,
    replayRun floats replay ((outs ++ [last]).map .readNext) =
        (reads.map fun read => (0, read)) ++ [(1, last)] ∧
      List.Forall₂ SameReading packets reads

/-- The same, row by row. -/
theorem exists_reads_iff (hfloats : floats.Documented)
    (hexact : ∀ packet ∈ packets, ExactPacket floats packet)
    (hfits : ∀ packet ∈ packets, FitsLine floats packet) {outs : List FsPacketUnion}
    (hlength : outs.length = packets.length) :
    (∃ reads : List FsPacketUnion,
        List.zipWith (fsReplayParsePacket floats (fsReplayParseHeader headerLine))
            (packets.map (formatPacket floats)) outs = reads.map (fun read => (0, read)) ∧
          List.Forall₂ SameReading packets reads) ↔
      ∀ packet ∈ packets, KeptByReplay packet := by
  induction packets generalizing outs with
  | nil => simp
  | cons packet packets ih =>
      cases outs with
      | nil => simp at hlength
      | cons out outs =>
          have hrow := readBack_iff hfloats (hexact packet List.mem_cons_self)
            (hfits packet List.mem_cons_self) out
          have hlater := @ih (fun other hother => hexact other (List.mem_cons_of_mem _ hother))
            (fun other hother => hfits other (List.mem_cons_of_mem _ hother)) outs
            (by simpa using hlength)
          rw [List.forall_mem_cons, ← hrow, ← hlater]
          constructor
          · rintro ⟨reads, hreads, hsame⟩
            obtain ⟨read, reads, hfirst, hrest, rfl⟩ := List.forall₂_cons_left_iff.mp hsame
            rw [List.map_cons, List.map_cons, List.zipWith_cons_cons, List.cons.injEq] at hreads
            obtain ⟨hparsed, hothers⟩ := hreads
            exact ⟨⟨by rw [hparsed], by rw [hparsed]; exact hfirst⟩, reads, hothers, hrest⟩
          · rintro ⟨⟨hcode, hfirst⟩, reads, hothers, hrest⟩
            refine ⟨_ :: reads, ?_, List.Forall₂.cons hfirst hrest⟩
            rw [List.map_cons, List.map_cons, List.zipWith_cons_cons, hothers, ← hcode]

/-- Reading a saved file on and on. -/
theorem replayRun_savedFile (hfloats : floats.Documented)
    (hfits : ∀ packet ∈ packets, FitsLine floats packet) {alloc : Nat → Bool} {step : Nat}
    {replay : FsReplay}
    (hopen : fsReplayOpen alloc (some (savedFile floats packets)) step = .ok replay)
    {outs : List FsPacketUnion} (hlength : outs.length = packets.length)
    (last : FsPacketUnion) :
    replayRun floats replay ((outs ++ [last]).map .readNext) =
      List.zipWith (fsReplayParsePacket floats (fsReplayParseHeader headerLine))
        (packets.map (formatPacket floats)) outs ++ [(1, last)] := by
  have hcontent := replayContent_savedFile hfloats hfits
  obtain ⟨hfile, hfields⟩ := fsReplayOpen_stands hcontent hopen
  have hrun := @replayRun_readNext floats _ _ _ hcontent replay 0 hfile outs
    (by simpa using hlength) last
  rw [List.drop_zero, hfields] at hrun
  exact hrun

/-- A saved capture replays as it was recorded exactly when every packet is one
that its row keeps. -/
theorem replaysAsRecorded_iff (hfloats : floats.Documented)
    (hexact : ∀ packet ∈ packets, ExactPacket floats packet)
    (hfits : ∀ packet ∈ packets, (formatPacket floats packet).length ≤ 511)
    {alloc : Nat → Bool} {step : Nat} {replay : FsReplay}
    (hopen : fsReplayOpen alloc (some (savedFile floats packets)) step = .ok replay)
    {outs : List FsPacketUnion} (hlength : outs.length = packets.length)
    (last : FsPacketUnion) :
    ReplaysAsRecorded floats replay packets outs last ↔
      ∀ packet ∈ packets, KeptByReplay packet := by
  rw [← exists_reads_iff hfloats hexact hfits hlength, ReplaysAsRecorded,
    replayRun_savedFile hfloats hfits hopen hlength]
  simp only [List.append_cancel_right_eq]

end Capture

instance (floats : FloatText) (field : FsFieldId) (bytes : List UInt8) :
    Decidable (PrintsExactly floats field bytes) := by
  unfold PrintsExactly
  split <;> infer_instance

instance (floats : FloatText) (packet : FsPacketUnion) :
    Decidable (ExactPacket floats packet) :=
  inferInstanceAs (Decidable (∀ layout ∈ savedLayout packet.type.toNat, ∀ field ∈ savedColumns,
    ∀ bytes ∈ layout.get field packet, PrintsExactly floats field bytes))

instance (packet : FsPacketUnion) (field : FsFieldId) : Decidable (ZeroMember packet field) :=
  inferInstanceAs (Decidable (∀ bytes ∈ (packetLayout packet.type.toNat).get field packet,
    bytes = List.replicate bytes.length 0))

instance (packet : FsPacketUnion) : Decidable (KeptByReplay packet) := by
  unfold KeptByReplay
  infer_instance

/-- Conversions that know the numbers zero and one. -/
def zeroOneFloats : FloatText where
  strtof text := if asciiText "1.000000" <+: text then 0x3F800000 else 0
  strtod text := if asciiText "1.000000" <+: text then 0x3FF0000000000000 else 0
  printFloat bits := asciiText (if bits = 0x3F800000 then "1.000000" else "0.000000")
  printDouble bits := asciiText (if bits = 0x3FF0000000000000 then "1.000000" else "0.000000")
  printInt16 value := asciiText (if value = 1 then "1.000000" else "0.000000")

theorem documented_zeroOneFloats : zeroOneFloats.Documented := by
  have hplain : ∀ number : Prop, ∀ [Decidable number], ∀ byte ∈
      asciiText (if number then "1.000000" else "0.000000"),
      byte ≠ 0 ∧ byte ≠ comma ∧ byte ≠ lineFeed := by
    intro number _
    split <;> simp [asciiText, comma, lineFeed]
  exact ⟨fun _ => hplain _, fun _ => hplain _, fun _ => hplain _, by decide, by decide⟩

/-- A packet of type 1 with the quaternion of a device that lies flat. -/
def levelPacket : FsPacketUnion :=
  ((Block.zero 185).write 0 [1]).write 77 [0, 0, 128, 63]

/-- The numbers of the packet, one quaternion member and zeros, are kept. -/
theorem replaysAsRecorded_level :
    ∃ replay, fsReplayOpen (fun _ => true) (some (savedFile zeroOneFloats [levelPacket])) 200 =
        .ok replay ∧
      ReplaysAsRecorded zeroOneFloats replay [levelPacket] [.zero 185] (.zero 185) := by
  have hfits : ∀ packet ∈ [levelPacket], (formatPacket zeroOneFloats packet).length ≤ 511 := by
    rw [List.forall_mem_singleton]
    decide +kernel
  have hexact : ∀ packet ∈ [levelPacket], ExactPacket zeroOneFloats packet := by
    rw [List.forall_mem_singleton]
    decide +kernel
  obtain ⟨replay, hopen⟩ := exists_fsReplayOpen
    (replayContent_savedFile documented_zeroOneFloats hfits) (fun _ => rfl) (by decide)
    (show 200 ≠ 0 by decide)
  have hlength : [Block.zero 185].length = [levelPacket].length := rfl
  refine ⟨replay, hopen, (replaysAsRecorded_iff documented_zeroOneFloats hexact hfits hopen
    hlength _).mpr ?_⟩
  rw [List.forall_mem_singleton]
  decide +kernel

/-- A packet of type 0 whose first temperature is not zero. -/
def warmPacket : FsPacketUnion :=
  (Block.zero 185).write 129 [1]

/-- The temperature of a saved packet is lost. -/
theorem not_replaysAsRecorded_warm :
    ∃ replay, fsReplayOpen (fun _ => true) (some (savedFile zeroOneFloats [warmPacket])) 200 =
        .ok replay ∧ zeroOneFloats.Documented ∧ ExactPacket zeroOneFloats warmPacket ∧
      ¬ ReplaysAsRecorded zeroOneFloats replay [warmPacket] [.zero 185] (.zero 185) := by
  have hfits : ∀ packet ∈ [warmPacket], FitsLine zeroOneFloats packet := by
    rw [List.forall_mem_singleton, FitsLine]
    decide +kernel
  have hexact : ∀ packet ∈ [warmPacket], ExactPacket zeroOneFloats packet := by
    rw [List.forall_mem_singleton]
    decide +kernel
  obtain ⟨replay, hopen⟩ := exists_fsReplayOpen
    (replayContent_savedFile documented_zeroOneFloats hfits) (fun _ => rfl) (by decide)
    (show 200 ≠ 0 by decide)
  refine ⟨replay, hopen, documented_zeroOneFloats, hexact _ List.mem_cons_self, ?_⟩
  have hlength : [Block.zero 185].length = [warmPacket].length := rfl
  rw [ReplaysAsRecorded, replayRun_savedFile documented_zeroOneFloats hfits hopen hlength]
  simp only [List.append_cancel_right_eq]
  rw [exists_reads_iff documented_zeroOneFloats hexact hfits hlength, List.forall_mem_singleton]
  decide +kernel

end Trifecta
