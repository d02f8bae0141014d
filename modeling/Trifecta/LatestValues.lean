/-
The accessors to the last received packet, and whether they look at bytes behind
the end of that packet.
-/
import Trifecta.ReplayPackets
import Trifecta.Packets

namespace Trifecta

/-- The arithmetic on `float` in the accessors, on bit patterns. -/
structure FloatScaling where
  /-- `* FS_ACCEL_SCALER_Gs / ((float)INT16_MAX)` -/
  scaleAccel : UInt32 → UInt32
  /-- `* FS_GYRO_SCALER_DPS / ((float)INT16_MAX)` -/
  scaleGyro : UInt32 → UInt32

structure FsQuaternion where
  w : UInt32
  x : UInt32
  y : UInt32
  z : UInt32
deriving DecidableEq

structure FsVector3 where
  x : UInt32
  y : UInt32
  z : UInt32
deriving DecidableEq

structure FsVector3D where
  x : UInt64
  y : UInt64
  z : UInt64
deriving DecidableEq

/-- The bytes of a member of a structure that overlays the packet. -/
def memberBytes (layout : Layout FsFieldId) (pkt : FsPacketUnion) (field : FsFieldId) :
    List UInt8 :=
  (layout.get field pkt).getD []

def floatMember (layout : Layout FsFieldId) (pkt : FsPacketUnion) (field : FsFieldId) : UInt32 :=
  (Block.ofLittleEndian (memberBytes layout pkt field)).toUInt32

def doubleMember (layout : Layout FsFieldId) (pkt : FsPacketUnion) (field : FsFieldId) : UInt64 :=
  (Block.ofLittleEndian (memberBytes layout pkt field)).toUInt64

/-- The structure through which most accessors read a packet type. -/
def latestLayout (packetType : Nat) : Option (Layout FsFieldId) :=
  if packetType ≤ 3 then some (compositeLayout 4)
  else if packetType ≤ 7 then some (regularLayout 4)
  else if packetType ≤ 11 then some (composite2Layout 4)
  else none

/-- An accessor that reads every known packet type through its own structure:
the return code, and what is written to the caller's buffer. -/
def latestValue {β : Type} (device : FsDeviceInfo)
    (read : Layout FsFieldId → FsPacketUnion → β) : Int × Option β :=
  let pkt := device.lastReceivedPacket
  match latestLayout pkt.type.toNat with
  | some layout => (0, some (read layout pkt))
  | none => (-1, none)

/-- The types `INS` and `RESERVED` of the three families. -/
def hasSolution (packetType : Nat) : Bool :=
  packetType ≤ 11 && 2 ≤ packetType % 4

/-- An accessor that reads all types with a navigation solution through the
extended composite structure. -/
def latestSolution {β : Type} (device : FsDeviceInfo)
    (read : Layout FsFieldId → FsPacketUnion → β) : Int × Option β :=
  let pkt := device.lastReceivedPacket
  if hasSolution pkt.type.toNat then (0, some (read (composite2Layout 4) pkt)) else (-1, none)

/-- `fs_get_orientation`. -/
def fsGetOrientation (device : FsDeviceInfo) : Int × Option FsQuaternion :=
  if device.packetBufQueue.count = 0 then (-1, none)
  else
    latestValue device fun layout pkt =>
      ⟨floatMember layout pkt .q0, floatMember layout pkt .q1, floatMember layout pkt .q2,
        floatMember layout pkt .q3⟩

/-- `fs_get_acceleration`. -/
def fsGetAcceleration (floats : FloatScaling) (device : FsDeviceInfo) : Int × Option FsVector3 :=
  latestValue device fun layout pkt =>
    ⟨floats.scaleAccel (floatMember layout pkt .accx),
      floats.scaleAccel (floatMember layout pkt .accy),
      floats.scaleAccel (floatMember layout pkt .accz)⟩

/-- `fs_get_angular_velocity`. -/
def fsGetAngularVelocity (floats : FloatScaling) (device : FsDeviceInfo) :
    Int × Option FsVector3 :=
  latestValue device fun layout pkt =>
    ⟨floats.scaleGyro (floatMember layout pkt .omegax0),
      floats.scaleGyro (floatMember layout pkt .omegy0),
      floats.scaleGyro (floatMember layout pkt .omegaz0)⟩

/-- `fs_get_magnetic_field`. -/
def fsGetMagneticField (device : FsDeviceInfo) : Int × Option FsVector3 :=
  latestValue device fun layout pkt =>
    ⟨floatMember layout pkt .magx, floatMember layout pkt .magy, floatMember layout pkt .magz⟩

/-- `fs_get_velocity`. -/
def fsGetVelocity (device : FsDeviceInfo) : Int × Option FsVector3 :=
  latestSolution device fun layout pkt =>
    ⟨floatMember layout pkt .vx, floatMember layout pkt .vy, floatMember layout pkt .vz⟩

/-- `fs_get_movement_state`. -/
def fsGetMovementState (device : FsDeviceInfo) : Int × Option FsRunStatus :=
  latestValue device fun layout pkt =>
    if memberBytes layout pkt .devicemotion = [1] then .idle else .running

/-- `fs_get_position`. -/
def fsGetPosition (device : FsDeviceInfo) : Int × Option FsVector3D :=
  latestSolution device fun layout pkt =>
    ⟨doubleMember layout pkt .rx, doubleMember layout pkt .ry, doubleMember layout pkt .rz⟩

/-- `fs_get_last_timestamp`. -/
def fsGetLastTimestamp (device : FsDeviceInfo) : Int × Option UInt32 :=
  (0, some (floatMember (compositeLayout 4) device.lastReceivedPacket .time))

/-- The accessors to the last received packet. -/
inductive LatestAccessor
  | orientation
  | acceleration
  | angularVelocity
  | magneticField
  | velocity
  | movementState
  | position
  | lastTimestamp
deriving DecidableEq, Repr

/-- The accessor gives the same return code and the same output on both
devices. -/
def LatestAccessor.Same (floats : FloatScaling) (first second : FsDeviceInfo) :
    LatestAccessor → Prop
  | .orientation => fsGetOrientation first = fsGetOrientation second
  | .acceleration => fsGetAcceleration floats first = fsGetAcceleration floats second
  | .angularVelocity => fsGetAngularVelocity floats first = fsGetAngularVelocity floats second
  | .magneticField => fsGetMagneticField first = fsGetMagneticField second
  | .velocity => fsGetVelocity first = fsGetVelocity second
  | .movementState => fsGetMovementState first = fsGetMovementState second
  | .position => fsGetPosition first = fsGetPosition second
  | .lastTimestamp => fsGetLastTimestamp first = fsGetLastTimestamp second

/-- The handle with another last received packet. -/
def withLatest (device : FsDeviceInfo) (packet : FsPacketUnion) : FsDeviceInfo :=
  { device with lastReceivedPacket := packet }

/-- The accessor cannot tell apart two packets of the type that agree on the
bytes that are sent of it. -/
def LatestAccessor.ReadsInside (floats : FloatScaling) (accessor : LatestAccessor)
    (packetType : UInt8) : Prop :=
  ∀ (device : FsDeviceInfo) (first second : FsPacketUnion), first.type = packetType →
    first.read 0 (obtainPacketLength packetType.toNat) =
      second.read 0 (obtainPacketLength packetType.toNat) →
    accessor.Same floats (withLatest device first) (withLatest device second)

/-- The packet types whose navigation solution is read behind their end: the
velocity of regular packets, and the position of regular and composite ones. -/
def LatestAccessor.ReadsBeyond (accessor : LatestAccessor) (packetType : UInt8) : Prop :=
  accessor = .velocity ∧ (packetType = 6 ∨ packetType = 7) ∨
    accessor = .position ∧
      (packetType = 2 ∨ packetType = 3 ∨ packetType = 6 ∨ packetType = 7)

section Agreement

variable {first second : FsPacketUnion} {length : Nat}

theorem read_of_agree (hagree : first.read 0 length = second.read 0 length) {offset width : Nat}
    (hinside : offset + width ≤ length) : first.read offset width = second.read offset width := by
  have hpart : ∀ block : FsPacketUnion,
      block.read offset width = ((block.read 0 length).drop offset).take width := by
    intro block
    rw [Block.read, Block.read, List.drop_zero, List.drop_take, List.take_take,
      Nat.min_eq_left (by omega)]
  rw [hpart, hpart, hagree]

theorem memberBytes_of_agree (hagree : first.read 0 length = second.read 0 length)
    {layout : Layout FsFieldId} {field : FsFieldId}
    (hinside : ∀ place, layout.member field = some place → place.1 + place.2 ≤ length) :
    memberBytes layout first field = memberBytes layout second field := by
  rw [memberBytes, memberBytes, Layout.get, Layout.get]
  cases hplace : layout.member field with
  | none => rfl
  | some place => rw [Option.map_some, Option.map_some, read_of_agree hagree (hinside place hplace)]

theorem type_of_agree (hagree : first.read 0 length = second.read 0 length)
    (hlength : 1 ≤ length) : first.type = second.type := by
  have hhead : ∀ block : FsPacketUnion, (block.read 0 1)[0]? = block.bytes[0]? := by
    intro block
    rw [Block.read, List.drop_zero, List.getElem?_take_of_lt Nat.one_pos]
  have hbyte := congrArg (fun bytes : List UInt8 => bytes[0]?)
    (read_of_agree hagree (show 0 + 1 ≤ length by omega))
  simp only [hhead] at hbyte
  rw [FsPacketUnion.type, FsPacketUnion.type, hbyte]

end Agreement

/-- The structure of a packet type is as long as the packet. -/
theorem totalSize_latestLayout {packetType : Nat} {layout : Layout FsFieldId}
    (hlayout : latestLayout packetType = some layout) :
    layout.totalSize = obtainPacketLength packetType := by
  unfold latestLayout at hlayout
  unfold obtainPacketLength
  split_ifs at hlayout ⊢
  · obtain rfl := Option.some.inj hlayout
    decide
  · obtain rfl := Option.some.inj hlayout
    decide
  · obtain rfl := Option.some.inj hlayout
    decide

section Inside

variable {first second : FsPacketUnion} (device : FsDeviceInfo)

/-- An accessor that reads a packet through its own structure stays inside. -/
theorem latestValue_of_agree {β : Type} {read : Layout FsFieldId → FsPacketUnion → β}
    (hread : ∀ layout : Layout FsFieldId, (∀ field,
      memberBytes layout first field = memberBytes layout second field) →
      read layout first = read layout second)
    (hknown : 1 ≤ obtainPacketLength first.type.toNat)
    (hagree : first.read 0 (obtainPacketLength first.type.toNat) =
      second.read 0 (obtainPacketLength first.type.toNat)) :
    latestValue (withLatest device first) read = latestValue (withLatest device second) read := by
  have htype := type_of_agree hagree hknown
  simp only [latestValue, withLatest, ← htype]
  cases hlayout : latestLayout first.type.toNat with
  | none => rfl
  | some layout =>
      have hsize := totalSize_latestLayout hlayout
      have hsame := hread layout fun field => memberBytes_of_agree hagree fun place hplace =>
        (Layout.member_range hplace).trans (Nat.le_of_eq hsize)
      simp only [hsame]

theorem latestSolution_of_agree {β : Type} {read : Layout FsFieldId → FsPacketUnion → β}
    (hread : hasSolution first.type.toNat = true →
      read (composite2Layout 4) first = read (composite2Layout 4) second)
    (hknown : 1 ≤ obtainPacketLength first.type.toNat)
    (hagree : first.read 0 (obtainPacketLength first.type.toNat) =
      second.read 0 (obtainPacketLength first.type.toNat)) :
    latestSolution (withLatest device first) read =
      latestSolution (withLatest device second) read := by
  have htype := type_of_agree hagree hknown
  change (if hasSolution first.type.toNat then (0, some (read (composite2Layout 4) first))
    else ((-1 : Int), none)) = if hasSolution second.type.toNat then
      (0, some (read (composite2Layout 4) second)) else (-1, none)
  rw [← htype]
  split_ifs with hsolution
  · rw [hread hsolution]
  · rfl

end Inside

theorem obtainPacketLength_of_hasSolution {packetType : Nat}
    (hsolution : hasSolution packetType = true) :
    packetType = 2 ∨ packetType = 3 ∨ packetType = 6 ∨ packetType = 7 ∨
      packetType = 10 ∨ packetType = 11 := by
  simp only [hasSolution, Bool.and_eq_true, decide_eq_true_eq] at hsolution
  omega

/-- The members that an accessor reads through the extended composite structure
lie inside a packet of each of these types. -/
theorem memberBytes_solution {first second : FsPacketUnion} {packetType : Nat}
    {fields : List FsFieldId} (hagree : first.read 0 (obtainPacketLength packetType) =
      second.read 0 (obtainPacketLength packetType))
    (hinside : ∀ field ∈ fields, ∀ place ∈ (composite2Layout 4).member field,
      place.1 + place.2 ≤ obtainPacketLength packetType) :
    ∀ field ∈ fields, memberBytes (composite2Layout 4) first field =
      memberBytes (composite2Layout 4) second field :=
  fun field hfield => memberBytes_of_agree hagree fun place hplace =>
    hinside field hfield place hplace

theorem uint8_eq_of_toNat {byte : UInt8} {value : UInt8} (hbyte : byte.toNat = value.toNat) :
    byte = value :=
  UInt8.toNat_inj.1 hbyte

theorem readsInside_of_not_readsBeyond (floats : FloatScaling) {accessor : LatestAccessor}
    {packetType : UInt8} (hknown : obtainPacketLength packetType.toNat ≠ 0)
    (hinside : ¬ accessor.ReadsBeyond packetType) : accessor.ReadsInside floats packetType := by
  rintro device first second rfl hagree
  have hpos := Nat.one_le_iff_ne_zero.2 hknown
  cases accessor with
  | orientation =>
      have hvalue := @latestValue_of_agree first second device _
        (fun layout pkt => FsQuaternion.mk (floatMember layout pkt .q0)
          (floatMember layout pkt .q1) (floatMember layout pkt .q2) (floatMember layout pkt .q3))
        (fun layout hsame => by simp only [floatMember, hsame]) hpos hagree
      simp only [LatestAccessor.Same, fsGetOrientation, hvalue]
      rfl
  | acceleration =>
      exact latestValue_of_agree device (fun layout hsame => by simp only [floatMember, hsame])
        hpos hagree
  | angularVelocity =>
      exact latestValue_of_agree device (fun layout hsame => by simp only [floatMember, hsame])
        hpos hagree
  | magneticField =>
      exact latestValue_of_agree device (fun layout hsame => by simp only [floatMember, hsame])
        hpos hagree
  | movementState =>
      exact latestValue_of_agree device (fun layout hsame => by simp only [hsame]) hpos hagree
  | lastTimestamp =>
      have hplace : (compositeLayout 4).member .time = some (1, 4) := by decide
      have htime := @memberBytes_of_agree first second _ hagree (compositeLayout 4) .time
        fun place hmember => by
          obtain rfl := Option.some.inj (hplace.symm.trans hmember)
          have : 5 ≤ obtainPacketLength first.type.toNat := by
            unfold obtainPacketLength at hknown ⊢
            split_ifs at hknown ⊢ <;> omega
          exact this
      simp only [LatestAccessor.Same, fsGetLastTimestamp, floatMember, withLatest, htime]
  | velocity =>
      refine latestSolution_of_agree device (fun hsolution => ?_) hpos hagree
      have hfields := @memberBytes_solution first second first.type.toNat [.vx, .vy, .vz] hagree ?_
      · simp only [floatMember, hfields _ (by simp : FsFieldId.vx ∈ _),
          hfields _ (by simp : FsFieldId.vy ∈ _), hfields _ (by simp : FsFieldId.vz ∈ _)]
      · rcases obtainPacketLength_of_hasSolution hsolution with h | h | h | h | h | h
        · rw [h]
          decide
        · rw [h]
          decide
        · exact absurd (Or.inl ⟨rfl, Or.inl (uint8_eq_of_toNat h)⟩) hinside
        · exact absurd (Or.inl ⟨rfl, Or.inr (uint8_eq_of_toNat h)⟩) hinside
        · rw [h]
          decide
        · rw [h]
          decide
  | position =>
      refine latestSolution_of_agree device (fun hsolution => ?_) hpos hagree
      have hfields := @memberBytes_solution first second first.type.toNat [.rx, .ry, .rz] hagree ?_
      · simp only [doubleMember, hfields _ (by simp : FsFieldId.rx ∈ _),
          hfields _ (by simp : FsFieldId.ry ∈ _), hfields _ (by simp : FsFieldId.rz ∈ _)]
      · rcases obtainPacketLength_of_hasSolution hsolution with h | h | h | h | h | h
        · exact absurd (Or.inr ⟨rfl, Or.inl (uint8_eq_of_toNat h)⟩) hinside
        · exact absurd (Or.inr ⟨rfl, Or.inr (Or.inl (uint8_eq_of_toNat h))⟩) hinside
        · exact absurd (Or.inr ⟨rfl, Or.inr (Or.inr (Or.inl (uint8_eq_of_toNat h)))⟩) hinside
        · exact absurd (Or.inr ⟨rfl, Or.inr (Or.inr (Or.inr (uint8_eq_of_toNat h)))⟩) hinside
        · rw [h]
          decide
        · rw [h]
          decide

/-- A packet of zero bytes with its type. -/
def blankPacket (packetType : UInt8) : FsPacketUnion :=
  (Block.zero 185).write 0 [packetType]

/-- The same packet with another byte at `offset`. -/
def touchedPacket (packetType : UInt8) (offset : Nat) : FsPacketUnion :=
  (blankPacket packetType).write offset [1]

theorem not_readsInside_of_readsBeyond (floats : FloatScaling) {accessor : LatestAccessor}
    {packetType : UInt8} (hbeyond : accessor.ReadsBeyond packetType) :
    ¬ accessor.ReadsInside floats packetType := by
  intro hinside
  rcases hbeyond with ⟨rfl, rfl | rfl⟩ | ⟨rfl, rfl | rfl | rfl | rfl⟩
  · have hsame := hinside fsDeviceInfoUninitialized (blankPacket 6) (touchedPacket 6 130)
      (by decide +kernel) (by decide +kernel)
    exact absurd hsame (by simp only [LatestAccessor.Same]; decide +kernel)
  · have hsame := hinside fsDeviceInfoUninitialized (blankPacket 7) (touchedPacket 7 130)
      (by decide +kernel) (by decide +kernel)
    exact absurd hsame (by simp only [LatestAccessor.Same]; decide +kernel)
  · have hsame := hinside fsDeviceInfoUninitialized (blankPacket 2) (touchedPacket 2 150)
      (by decide +kernel) (by decide +kernel)
    exact absurd hsame (by simp only [LatestAccessor.Same]; decide +kernel)
  · have hsame := hinside fsDeviceInfoUninitialized (blankPacket 3) (touchedPacket 3 150)
      (by decide +kernel) (by decide +kernel)
    exact absurd hsame (by simp only [LatestAccessor.Same]; decide +kernel)
  · have hsame := hinside fsDeviceInfoUninitialized (blankPacket 6) (touchedPacket 6 150)
      (by decide +kernel) (by decide +kernel)
    exact absurd hsame (by simp only [LatestAccessor.Same]; decide +kernel)
  · have hsame := hinside fsDeviceInfoUninitialized (blankPacket 7) (touchedPacket 7 150)
      (by decide +kernel) (by decide +kernel)
    exact absurd hsame (by simp only [LatestAccessor.Same]; decide +kernel)

/-- Every accessor reads every known packet type inside, but for the navigation
solution of packets that have none. -/
theorem readsInside_iff (floats : FloatScaling) (accessor : LatestAccessor) (packetType : UInt8)
    (hknown : obtainPacketLength packetType.toNat ≠ 0) :
    accessor.ReadsInside floats packetType ↔ ¬ accessor.ReadsBeyond packetType :=
  ⟨fun hinside hbeyond => not_readsInside_of_readsBeyond floats hbeyond hinside,
    readsInside_of_not_readsBeyond floats hknown⟩

theorem readsInside_iff_regular_velocity :
    LatestAccessor.velocity.ReadsInside ⟨id, id⟩ 6 ↔ ¬ LatestAccessor.velocity.ReadsBeyond 6 :=
  readsInside_iff ⟨id, id⟩ .velocity 6 (by decide)

/-- Two regular packets with the same 85 bytes have different velocities. -/
theorem regular_velocity_beyond :
    (blankPacket 6).type = 6 ∧ (touchedPacket 6 130).type = 6 ∧ obtainPacketLength 6 = 85 ∧
      (blankPacket 6).read 0 85 = (touchedPacket 6 130).read 0 85 ∧
      (fsGetVelocity (withLatest fsDeviceInfoUninitialized (blankPacket 6))).1 = 0 ∧
      fsGetVelocity (withLatest fsDeviceInfoUninitialized (blankPacket 6)) ≠
        fsGetVelocity (withLatest fsDeviceInfoUninitialized (touchedPacket 6 130)) := by
  decide +kernel

end Trifecta
