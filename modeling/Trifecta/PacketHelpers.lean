/-
The helpers that read a value from a packet beside the accessors that read it from
the last packet of a device, and the packets on which the two agree.
-/
import Trifecta.LatestValues

namespace Trifecta

/-- The arithmetic on `float` in the accessors and in the helpers, on bit patterns. -/
structure Conversions extends FloatScaling where
  /-- `fs_q_to_euler_angles` -/
  qToEulerAngles : UInt32 → UInt32 → UInt32 → UInt32 → Bool → FsVector3

/-- `fs_get_orientation_euler`. -/
def fsGetOrientationEuler (conversions : Conversions) (device : FsDeviceInfo) (degrees : Bool) :
    Int × Option FsVector3 :=
  let got := fsGetOrientation device
  if got.1 ≠ 0 then (-1, none)
  else (0, got.2.map fun quat => conversions.qToEulerAngles quat.w quat.x quat.y quat.z degrees)

/-- A helper that reads each packet type through a structure, if it has one. -/
def packetValue {β : Type} (layout : Option (Layout FsFieldId)) (packet : FsPacketUnion)
    (read : Layout FsFieldId → FsPacketUnion → β) : Int × Option β :=
  match layout with
  | some layout => (0, some (read layout packet))
  | none => (-1, none)

/-- The structure through which the acceleration is read: also packets of the
extended composite types are read as composite ones. -/
def accelerationLayout (packetType : Nat) : Option (Layout FsFieldId) :=
  if packetType ≤ 3 then some (compositeLayout 4)
  else if packetType ≤ 7 then some (regularLayout 4)
  else if packetType ≤ 11 then some (compositeLayout 4)
  else none

/-- The structure through which velocity and position are read. -/
def solutionLayout (packetType : Nat) : Option (Layout FsFieldId) :=
  if packetType ≤ 7 then none
  else if packetType ≤ 11 then some (composite2Layout 4)
  else none

/-- `fs_euler_angles_from_packet`: the third component of the quaternion is passed
twice. -/
def fsEulerAnglesFromPacket (conversions : Conversions) (packet : FsPacketUnion) :
    Int × Option FsVector3 :=
  packetValue (latestLayout packet.type.toNat) packet fun layout packet =>
    conversions.qToEulerAngles (floatMember layout packet .q0) (floatMember layout packet .q1)
      (floatMember layout packet .q2) (floatMember layout packet .q2) true

/-- `fs_lat_long_from_packet`. -/
def fsLatLongFromPacket (packet : FsPacketUnion) : Int × Option FsVector3D :=
  packetValue (solutionLayout packet.type.toNat) packet fun layout packet =>
    ⟨doubleMember layout packet .rx, doubleMember layout packet .ry,
      doubleMember layout packet .rz⟩

/-- `fs_angular_velocity_from_packet`. -/
def fsAngularVelocityFromPacket (packet : FsPacketUnion) : Int × Option FsVector3 :=
  packetValue (latestLayout packet.type.toNat) packet fun layout packet =>
    ⟨floatMember layout packet .omegax0, floatMember layout packet .omegy0,
      floatMember layout packet .omegaz0⟩

/-- `fs_acceleration_from_packet`. -/
def fsAccelerationFromPacket (floats : FloatScaling) (packet : FsPacketUnion) :
    Int × Option FsVector3 :=
  packetValue (accelerationLayout packet.type.toNat) packet fun layout packet =>
    ⟨floats.scaleAccel (floatMember layout packet .accx),
      floats.scaleAccel (floatMember layout packet .accy),
      floats.scaleAccel (floatMember layout packet .accz)⟩

/-- `fs_magnetic_field_from_packet`. -/
def fsMagneticFieldFromPacket (packet : FsPacketUnion) : Int × Option FsVector3 :=
  packetValue (latestLayout packet.type.toNat) packet fun layout packet =>
    ⟨floatMember layout packet .magx, floatMember layout packet .magy,
      floatMember layout packet .magz⟩

/-- `fs_velocity_from_packet`. -/
def fsVelocityFromPacket (packet : FsPacketUnion) : Int × Option FsVector3 :=
  packetValue (solutionLayout packet.type.toNat) packet fun layout packet =>
    ⟨floatMember layout packet .vx, floatMember layout packet .vy, floatMember layout packet .vz⟩

/-- Both calls return one code, and on success one output, which the fields of the
packet's own structure give. -/
def SameAnswer {β : Type} (accessor helper : Int × Option β) (packet : FsPacketUnion)
    (named : Layout FsFieldId → β) : Prop :=
  accessor.1 = helper.1 ∧ (accessor.1 = 0 → accessor.2 = helper.2 ∧
    ∃ layout ∈ latestLayout packet.type.toNat, accessor.2 = some (named layout))

/-- The values that an accessor and a helper read. -/
inductive PacketReading
  | eulerAngles
  | acceleration
  | angularVelocity
  | magneticField
  | velocity
  | position
deriving DecidableEq, Repr

/-- The accessor on the device and the helper on the packet have the same outcome. -/
def PacketReading.Agrees (conversions : Conversions) (device : FsDeviceInfo)
    (packet : FsPacketUnion) : PacketReading → Prop
  | .eulerAngles =>
      SameAnswer (fsGetOrientationEuler conversions device true)
        (fsEulerAnglesFromPacket conversions packet) packet fun layout =>
          conversions.qToEulerAngles (floatMember layout packet .q0)
            (floatMember layout packet .q1) (floatMember layout packet .q2)
            (floatMember layout packet .q3) true
  | .acceleration =>
      SameAnswer (fsGetAcceleration conversions.toFloatScaling device)
        (fsAccelerationFromPacket conversions.toFloatScaling packet) packet fun layout =>
          ⟨conversions.scaleAccel (floatMember layout packet .accx),
            conversions.scaleAccel (floatMember layout packet .accy),
            conversions.scaleAccel (floatMember layout packet .accz)⟩
  | .angularVelocity =>
      SameAnswer (fsGetAngularVelocity conversions.toFloatScaling device)
        (fsAngularVelocityFromPacket packet) packet fun layout =>
          ⟨conversions.scaleGyro (floatMember layout packet .omegax0),
            conversions.scaleGyro (floatMember layout packet .omegy0),
            conversions.scaleGyro (floatMember layout packet .omegaz0)⟩
  | .magneticField =>
      SameAnswer (fsGetMagneticField device) (fsMagneticFieldFromPacket packet) packet
        fun layout =>
          ⟨floatMember layout packet .magx, floatMember layout packet .magy,
            floatMember layout packet .magz⟩
  | .velocity =>
      SameAnswer (fsGetVelocity device) (fsVelocityFromPacket packet) packet fun layout =>
        ⟨floatMember layout packet .vx, floatMember layout packet .vy,
          floatMember layout packet .vz⟩
  | .position =>
      SameAnswer (fsGetPosition device) (fsLatLongFromPacket packet) packet fun layout =>
        ⟨doubleMember layout packet .rx, doubleMember layout packet .ry,
          doubleMember layout packet .rz⟩

/-- The packets of types with a time of 32 bits on which accessor and helper agree. -/
def PacketReading.Covers (packet : FsPacketUnion) : PacketReading → Prop
  | .eulerAngles =>
      ∃ layout ∈ latestLayout packet.type.toNat,
        floatMember layout packet .q2 = floatMember layout packet .q3
  | .acceleration =>
      packet.type.toNat ≤ 7 ∨
        floatMember (composite2Layout 4) packet .accx =
            floatMember (composite2Layout 4) packet .omegax0 ∧
          floatMember (composite2Layout 4) packet .accy =
            floatMember (composite2Layout 4) packet .omegy0 ∧
          floatMember (composite2Layout 4) packet .accz =
            floatMember (composite2Layout 4) packet .omegaz0
  | .angularVelocity => False
  | .magneticField => True
  | .velocity | .position => packet.type.toNat ∈ [0, 1, 4, 5, 10, 11]

section Answers

variable {β : Type} {packet : FsPacketUnion} {named : Layout FsFieldId → β}
  {read readHelper : Layout FsFieldId → FsPacketUnion → β}

theorem sameAnswer_of_none :
    SameAnswer (packetValue none packet read) (packetValue none packet readHelper) packet named :=
  ⟨rfl, fun hcode => absurd hcode (by decide : (-1 : Int) ≠ 0)⟩

theorem not_sameAnswer_some_none (layout : Layout FsFieldId) :
    ¬ SameAnswer (packetValue (some layout) packet read) (packetValue none packet readHelper)
      packet named :=
  fun hsame => absurd hsame.1 (by decide : (0 : Int) ≠ -1)

theorem not_sameAnswer_none_some (layout : Layout FsFieldId) :
    ¬ SameAnswer (packetValue none packet read) (packetValue (some layout) packet readHelper)
      packet named :=
  fun hsame => absurd hsame.1 (by decide : (-1 : Int) ≠ 0)

/-- On success the two have read the same, from the packet's own structure. -/
theorem sameAnswer_some_iff {layout helperLayout : Layout FsFieldId} :
    SameAnswer (packetValue (some layout) packet read)
        (packetValue (some helperLayout) packet readHelper) packet named ↔
      read layout packet = readHelper helperLayout packet ∧
        ∃ own ∈ latestLayout packet.type.toNat, read layout packet = named own := by
  rw [SameAnswer, packetValue, packetValue]
  simp

end Answers

section Accessors

variable {device : FsDeviceInfo} {packet : FsPacketUnion}
  (hlatest : device.lastReceivedPacket = packet)

include hlatest

/-- An accessor reads the last packet as a helper reads it. -/
theorem latestValue_eq {β : Type} (read : Layout FsFieldId → FsPacketUnion → β) :
    latestValue device read = packetValue (latestLayout packet.type.toNat) packet read := by
  rw [latestValue, hlatest]
  cases latestLayout packet.type.toNat <;> rfl

/-- The structure of a navigation solution, for the types that the accessors read
one of. -/
theorem latestSolution_eq {β : Type} (read : Layout FsFieldId → FsPacketUnion → β) :
    latestSolution device read =
      packetValue (if hasSolution packet.type.toNat then some (composite2Layout 4) else none)
        packet read := by
  rw [latestSolution, hlatest]
  cases hasSolution packet.type.toNat <;> rfl

theorem fsGetOrientationEuler_eq (conversions : Conversions)
    (hqueued : device.packetBufQueue.count ≠ 0) :
    fsGetOrientationEuler conversions device true =
      packetValue (latestLayout packet.type.toNat) packet fun layout packet =>
        conversions.qToEulerAngles (floatMember layout packet .q0)
          (floatMember layout packet .q1) (floatMember layout packet .q2)
          (floatMember layout packet .q3) true := by
  rw [fsGetOrientationEuler, fsGetOrientation, if_neg hqueued, latestValue_eq hlatest]
  cases latestLayout packet.type.toNat <;> rfl

end Accessors

/-- Accessor and helper read a packet through its own structure. -/
theorem sameAnswer_latest_iff {β : Type} {packet : FsPacketUnion}
    (read readHelper : Layout FsFieldId → FsPacketUnion → β) :
    SameAnswer (packetValue (latestLayout packet.type.toNat) packet read)
        (packetValue (latestLayout packet.type.toNat) packet readHelper) packet
        (fun layout => read layout packet) ↔
      ∀ layout ∈ latestLayout packet.type.toNat, read layout packet = readHelper layout packet := by
  cases hlayout : latestLayout packet.type.toNat with
  | none => exact iff_of_true sameAnswer_of_none fun layout hmem => absurd hmem (by simp)
  | some layout =>
      rw [sameAnswer_some_iff, hlayout]
      simp

/-- A known packet type is one of twelve with a time of 32 bits, or has no structure
in accessors and helpers. -/
theorem type_cases {packetType : Nat} (hknown : obtainPacketLength packetType ≠ 0) :
    packetType ≤ 11 ∨ 100 ≤ packetType := by
  rw [obtainPacketLength] at hknown
  split_ifs at hknown <;> omega

theorem layouts_of_long_time {packetType : Nat} (htype : 100 ≤ packetType) :
    latestLayout packetType = none ∧ accelerationLayout packetType = none ∧
      solutionLayout packetType = none ∧ hasSolution packetType = false := by
  have hno : ¬ packetType ≤ 3 ∧ ¬ packetType ≤ 7 ∧ ¬ packetType ≤ 11 := by omega
  simp [latestLayout, accelerationLayout, solutionLayout, hasSolution, hno]

theorem exists_latestLayout {packetType : Nat} (htype : packetType ≤ 11) :
    ∃ layout, latestLayout packetType = some layout := by
  rw [latestLayout]
  split_ifs <;> exact ⟨_, rfl⟩

/-- The types for which accessors and helpers take the same decision about a
navigation solution. -/
theorem sameAnswer_solution_iff {β : Type} {packet : FsPacketUnion}
    (hknown : obtainPacketLength packet.type.toNat ≠ 0)
    (read : Layout FsFieldId → FsPacketUnion → β) :
    SameAnswer
        (packetValue (if hasSolution packet.type.toNat then some (composite2Layout 4) else none)
          packet read)
        (packetValue (solutionLayout packet.type.toNat) packet read) packet
        (fun layout => read layout packet) ↔
      100 ≤ packet.type.toNat ∨ packet.type.toNat ∈ [0, 1, 4, 5, 10, 11] := by
  have hmem : packet.type.toNat ∈ [0, 1, 4, 5, 10, 11] ↔ packet.type.toNat ≤ 11 ∧
      (packet.type.toNat % 4 < 2 ↔ packet.type.toNat ≤ 7) := by
    simp only [List.mem_cons, List.not_mem_nil, or_false]
    omega
  rcases type_cases hknown with hshort | hlong
  · have hsolution : hasSolution packet.type.toNat = true ↔ 2 ≤ packet.type.toNat % 4 := by
      simp [hasSolution, hshort]
    have hlatest : ¬ packet.type.toNat ≤ 7 →
        latestLayout packet.type.toNat = some (composite2Layout 4) := by
      intro hextended
      rw [latestLayout, if_neg (by omega), if_neg hextended, if_pos hshort]
    rw [hmem, solutionLayout]
    by_cases hkind : 2 ≤ packet.type.toNat % 4
    · rw [if_pos (hsolution.2 hkind)]
      by_cases hplain : packet.type.toNat ≤ 7
      · rw [if_pos hplain]
        exact iff_of_false (not_sameAnswer_some_none _) (by omega)
      · rw [if_neg hplain, if_pos hshort, sameAnswer_some_iff, hlatest hplain]
        exact iff_of_true ⟨rfl, _, rfl, rfl⟩ (by omega)
    · rw [if_neg (mt hsolution.1 hkind)]
      by_cases hplain : packet.type.toNat ≤ 7
      · rw [if_pos hplain]
        exact iff_of_true sameAnswer_of_none (by omega)
      · rw [if_neg hplain, if_pos hshort]
        exact iff_of_false (not_sameAnswer_none_some _) (by omega)
  · obtain ⟨_, _, hsolution, hnone⟩ := layouts_of_long_time hlong
    rw [hsolution, hnone]
    exact iff_of_true sameAnswer_of_none (Or.inl hlong)

/-- A composite packet has its acceleration where an extended one has its angular
velocity. -/
theorem floatMember_overlay (packet : FsPacketUnion) :
    floatMember (compositeLayout 4) packet .accx =
        floatMember (composite2Layout 4) packet .omegax0 ∧
      floatMember (compositeLayout 4) packet .accy =
        floatMember (composite2Layout 4) packet .omegy0 ∧
      floatMember (compositeLayout 4) packet .accz =
        floatMember (composite2Layout 4) packet .omegaz0 :=
  ⟨rfl, rfl, rfl⟩

/-- Scalings that leave every value as it is. -/
def plainConversions : Conversions where
  scaleAccel := id
  scaleGyro := id
  qToEulerAngles _ _ _ z _ := ⟨z, z, z⟩

section Agreement

variable {device : FsDeviceInfo} {packet : FsPacketUnion}
  (hlatest : device.lastReceivedPacket = packet) (hqueued : device.packetBufQueue.count ≠ 0)
  (hknown : obtainPacketLength packet.type.toNat ≠ 0)

include hlatest hknown

include hqueued in
theorem eulerAngles_agrees_iff :
    (∀ conversions, PacketReading.eulerAngles.Agrees conversions device packet) ↔
      100 ≤ packet.type.toNat ∨ PacketReading.eulerAngles.Covers packet := by
  simp only [PacketReading.Agrees, PacketReading.Covers, fsGetOrientationEuler_eq hlatest _ hqueued,
    fsEulerAnglesFromPacket, sameAnswer_latest_iff]
  rcases type_cases hknown with hshort | hlong
  · obtain ⟨layout, hlayout⟩ := exists_latestLayout hshort
    rw [hlayout, or_iff_right (by omega)]
    constructor
    · intro hsame
      have hthird := congrArg FsVector3.x (hsame plainConversions layout rfl)
      exact ⟨layout, rfl, hthird.symm⟩
    · rintro ⟨own, hown, hthird⟩ conversions other hother
      obtain rfl := Option.some.inj (hown.symm.trans hother)
      rw [hthird]
  · rw [(layouts_of_long_time hlong).1]
    exact iff_of_true (fun _ _ hmem => absurd hmem (by simp)) (Or.inl hlong)

theorem acceleration_agrees_iff :
    (∀ conversions, PacketReading.acceleration.Agrees conversions device packet) ↔
      100 ≤ packet.type.toNat ∨ PacketReading.acceleration.Covers packet := by
  simp only [PacketReading.Agrees, PacketReading.Covers, fsGetAcceleration,
    fsAccelerationFromPacket, latestValue_eq hlatest]
  rcases type_cases hknown with hshort | hlong
  · rw [or_iff_right (by omega)]
    by_cases hplain : packet.type.toNat ≤ 7
    · have hsame : accelerationLayout packet.type.toNat = latestLayout packet.type.toNat := by
        rw [accelerationLayout, latestLayout]
        split_ifs <;> rfl
      rw [hsame]
      simp only [sameAnswer_latest_iff]
      exact iff_of_true (fun _ _ _ => trivial) (Or.inl hplain)
    · have hown : latestLayout packet.type.toNat = some (composite2Layout 4) := by
        rw [latestLayout, if_neg (by omega), if_neg hplain, if_pos hshort]
      have hread : accelerationLayout packet.type.toNat = some (compositeLayout 4) := by
        rw [accelerationLayout, if_neg (by omega), if_neg hplain, if_pos hshort]
      obtain ⟨hx, hy, hz⟩ := floatMember_overlay packet
      rw [or_iff_right hplain, hread, hown]
      simp only [sameAnswer_some_iff, hown, hx, hy, hz]
      constructor
      · intro hsame
        have hfields := (hsame plainConversions).1
        simpa [plainConversions] using hfields
      · rintro ⟨haccx, haccy, haccz⟩ conversions
        exact ⟨by rw [haccx, haccy, haccz], _, rfl, rfl⟩
  · obtain ⟨hown, hread, _⟩ := layouts_of_long_time hlong
    rw [hown, hread]
    exact iff_of_true (fun _ => sameAnswer_of_none) (Or.inl hlong)

theorem angularVelocity_agrees_iff :
    (∀ conversions, PacketReading.angularVelocity.Agrees conversions device packet) ↔
      100 ≤ packet.type.toNat ∨ PacketReading.angularVelocity.Covers packet := by
  simp only [PacketReading.Agrees, PacketReading.Covers, fsGetAngularVelocity,
    fsAngularVelocityFromPacket, latestValue_eq hlatest, sameAnswer_latest_iff]
  rcases type_cases hknown with hshort | hlong
  · obtain ⟨layout, hlayout⟩ := exists_latestLayout hshort
    rw [hlayout]
    refine iff_of_false (fun hsame => ?_) (not_or_intro (by omega) not_false)
    -- a scaling without fixed points
    have hscaled := hsame { plainConversions with scaleGyro := fun bits => bits + 1 } layout rfl
    have hfirst := congrArg FsVector3.x hscaled
    simp at hfirst
  · rw [(layouts_of_long_time hlong).1]
    exact iff_of_true (fun _ _ hmem => absurd hmem (by simp)) (Or.inl hlong)

omit hknown in
theorem magneticField_agrees (conversions : Conversions) :
    PacketReading.magneticField.Agrees conversions device packet := by
  simp only [PacketReading.Agrees, fsGetMagneticField, fsMagneticFieldFromPacket,
    latestValue_eq hlatest, sameAnswer_latest_iff]
  exact fun _ _ => trivial

theorem velocity_agrees_iff (conversions : Conversions) :
    PacketReading.velocity.Agrees conversions device packet ↔
      100 ≤ packet.type.toNat ∨ PacketReading.velocity.Covers packet := by
  simp only [PacketReading.Agrees, PacketReading.Covers, fsGetVelocity, fsVelocityFromPacket,
    latestSolution_eq hlatest]
  exact sameAnswer_solution_iff hknown _

theorem position_agrees_iff (conversions : Conversions) :
    PacketReading.position.Agrees conversions device packet ↔
      100 ≤ packet.type.toNat ∨ PacketReading.position.Covers packet := by
  simp only [PacketReading.Agrees, PacketReading.Covers, fsGetPosition, fsLatLongFromPacket,
    latestSolution_eq hlatest]
  exact sameAnswer_solution_iff hknown _

end Agreement

theorem count_enqueued_ne_zero (driver : Driver) (packet : FsPacketUnion) :
    (fsEnqueueIntoPacketQueue driver packet).2.device.packetBufQueue.count ≠ 0 := by
  intro hcount
  have hempty := (RingBuffer.toList_eq_nil_iff _).2 hcount
  have hqueue : (fsEnqueueIntoPacketQueue driver packet).2.device.packetBufQueue.toList =
      (driver.device.packetBufQueue.toList ++ [packet]).rtake fsMaxPacketQueueLength :=
    RingBuffer.toList_pushForce _ packet
  rw [hqueue] at hempty
  have hlength := congrArg List.length hempty
  have hpos : 0 < fsMaxPacketQueueLength := by decide
  simp only [List.rtake, List.length_drop, List.length_append, List.length_singleton,
    List.length_nil] at hlength
  omega

/-- Accessor and helper agree on the packet that was just received, whatever the
conversions of numbers are, exactly on the packets that are covered and on those
that neither of them knows. -/
theorem reading_agrees_iff (driver : Driver) {packet : FsPacketUnion}
    (hknown : obtainPacketLength packet.type.toNat ≠ 0) (reading : PacketReading) :
    (∀ conversions, reading.Agrees conversions
        (fsEnqueueIntoPacketQueue driver packet).2.device packet) ↔
      100 ≤ packet.type.toNat ∨ reading.Covers packet := by
  have hlatest : (fsEnqueueIntoPacketQueue driver packet).2.device.lastReceivedPacket = packet :=
    rfl
  cases reading with
  | eulerAngles =>
      exact eulerAngles_agrees_iff hlatest (count_enqueued_ne_zero driver packet) hknown
  | acceleration => exact acceleration_agrees_iff hlatest hknown
  | angularVelocity => exact angularVelocity_agrees_iff hlatest hknown
  | magneticField => exact iff_of_true (magneticField_agrees hlatest) (Or.inr trivial)
  | velocity =>
      have hsame := velocity_agrees_iff hlatest hknown
      exact ⟨fun hagree => (hsame plainConversions).1 (hagree plainConversions),
        fun hcovers conversions => (hsame conversions).2 hcovers⟩
  | position =>
      have hsame := position_agrees_iff hlatest hknown
      exact ⟨fun hagree => (hsame plainConversions).1 (hagree plainConversions),
        fun hcovers conversions => (hsame conversions).2 hcovers⟩

/-- A driver that has received nothing. -/
def idleDriver : Driver := ⟨fsDeviceInfoUninitialized, .zero fsMaxPacketLength, []⟩

theorem reading_agrees_iff_extended :
    (∀ conversions, PacketReading.velocity.Agrees conversions
        (fsEnqueueIntoPacketQueue idleDriver (blankPacket 10)).2.device (blankPacket 10)) ↔
      100 ≤ (blankPacket 10).type.toNat ∨ PacketReading.velocity.Covers (blankPacket 10) :=
  reading_agrees_iff idleDriver (by decide +kernel) .velocity

/-- The accessor reads the velocity of a composite INS packet, the helper refuses it. -/
theorem not_agrees_composite_velocity :
    ¬ ∀ (conversions : Conversions) (driver : Driver) (packet : FsPacketUnion)
      (reading : PacketReading), obtainPacketLength packet.type.toNat ≠ 0 →
      reading.Agrees conversions (fsEnqueueIntoPacketQueue driver packet).2.device packet := by
  intro hall
  obtain ⟨hcode, _⟩ := hall plainConversions idleDriver (blankPacket 2) .velocity
    (by decide +kernel)
  exact absurd hcode (by decide +kernel)

end Trifecta
