/-
Several devices on serial lines, each with a stream of its own, read in any order.  Their
handles share the buffer that frames are decoded into.
-/
import Trifecta.MixedStreams
import Trifecta.Library.SharedScratch

namespace Trifecta

open SharedScratch

/-- The handles with the packets each has been given, and the one decode buffer. -/
structure SerialDevices (D : Type*) where
  devices : D → FsDeviceInfo
  enqueued : D → List FsPacketUnion
  currentDecodeBuffer : Block fsMaxPacketLength

namespace SerialDevices

variable {D : Type*} [DecidableEq D]

/-- What a call on one handle works on. -/
def driver (state : SerialDevices D) (device : D) : Driver :=
  ⟨state.devices device, state.currentDecodeBuffer, state.enqueued device⟩

def put (state : SerialDevices D) (device : D) (after : Driver) : SerialDevices D where
  devices := Function.update state.devices device after.device
  enqueued := Function.update state.enqueued device after.enqueued
  currentDecodeBuffer := after.currentDecodeBuffer

/-- A read from one of the lines, parsed as it arrives. -/
def read (stack : Nat → FsPacketUnion) (state : SerialDevices D) (arrival : D × List UInt8) :
    Option (SerialDevices D) :=
  ((fsDeviceParsePacket stack (state.driver arrival.1) arrival.2 .uart).map Prod.snd).map
    (state.put arrival.1)

/-- Reads from all lines, in the order in which they arrive. -/
def readAll (stack : Nat → FsPacketUnion) (state : SerialDevices D)
    (arrivals : List (D × List UInt8)) : Option (SerialDevices D) :=
  arrivals.foldlM (read stack) state

/-- Every read finds room behind what waits on its handle. -/
def RoomThroughout (stack : Nat → FsPacketUnion) (state : SerialDevices D)
    (arrivals : List (D × List UInt8)) : Prop :=
  ∀ front arrival, front ++ [arrival] <+: arrivals → ∀ before,
    readAll stack state front = some before →
      (before.driver arrival.1).pending.length + arrival.2.length ≤ fsMaxDataLength

end SerialDevices

section Streams

variable {D : Type*} [DecidableEq D] {stack : Nat → FsPacketUnion} {state : SerialDevices D}

theorem readAll_concat (front : List (D × List UInt8)) (arrival : D × List UInt8) :
    SerialDevices.readAll stack state (front ++ [arrival]) =
      (SerialDevices.readAll stack state front).bind fun before =>
        before.read stack arrival := by
  simp [SerialDevices.readAll]

/-- The handle that is read has what the call leaves. -/
theorem driver_put_self (device : D) (after : Driver) :
    (state.put device after).driver device = after := by
  simp [SerialDevices.driver, SerialDevices.put]

/-- Another handle keeps everything; only the decode buffer beside it may change. -/
theorem Streamed.put_other {before : Driver} {messages : List DeviceMessage}
    {arrived : List UInt8} {device other : D} (hother : other ≠ device) {after : Driver}
    (hstreamed : Streamed before (state.driver other) messages arrived) :
    Streamed before ((state.put device after).driver other) messages arrived := by
  obtain ⟨delivered, done, rest, hmessages, harrived, hfooter, hterminator, hhands, hall⟩ :=
    hstreamed
  have hdevice : ((state.put device after).driver other).device = (state.driver other).device :=
    Function.update_of_ne hother _ _
  have hsinks : ((state.put device after).driver other).sinks = (state.driver other).sinks := by
    simp [Driver.sinks, SerialDevices.driver, SerialDevices.put, Function.update_of_ne hother]
  have hpending : ((state.put device after).driver other).pending =
      (state.driver other).pending := by
    rw [Driver.pending, hdevice]
    rfl
  have hkept := hhands.trans (handsOn_of_sinks_eq hsinks)
  rw [List.append_nil] at hkept
  exact ⟨delivered, done, rest, hmessages, hpending ▸ harrived, hpending ▸ hfooter,
    hpending ▸ hterminator, hkept, hall⟩

/-- After any reads, each handle has what its own line has brought. -/
theorem readAll_streamed (messages : D → List DeviceMessage)
    (hempty : ∀ device, (state.driver device).pending = []) (arrivals : List (D × List UInt8))
    (hstreams : ∀ device, (own device arrivals).flatten <+: messageStream (messages device))
    (hroom : state.RoomThroughout stack arrivals) :
    ∃ after, SerialDevices.readAll stack state arrivals = some after ∧
      ∀ device, Streamed (state.driver device) (after.driver device) (messages device)
        (own device arrivals).flatten := by
  induction arrivals using List.reverseRecOn with
  | nil => exact ⟨state, rfl, fun device => streamed_start _ (hempty device)⟩
  | append_singleton arrivals arrival ih =>
      obtain ⟨called, chunk⟩ := arrival
      have hearlier : ∀ device, (own device arrivals).flatten <+:
          (own device (arrivals ++ [(called, chunk)])).flatten := by
        intro device
        rw [own_append, List.flatten_append]
        exact List.prefix_append _ _
      obtain ⟨before, hbefore, hstreamed⟩ :=
        ih (fun device => (hearlier device).trans (hstreams device))
          fun front other hfront => hroom front other (hfront.trans (List.prefix_append _ _))
      have hcalled : (own called (arrivals ++ [(called, chunk)])).flatten =
          (own called arrivals).flatten ++ chunk := by
        rw [own_append, own_cons_self, own_nil, List.flatten_append, List.flatten_singleton]
      obtain ⟨after, hcall, hafter⟩ := (hstreamed called).chunk stack
        (hcalled ▸ hstreams called) (hroom arrivals (called, chunk) List.prefix_rfl before hbefore)
      refine ⟨before.put called after, ?_, fun device => ?_⟩
      · rw [readAll_concat, hbefore, Option.bind_some, SerialDevices.read, hcall]
        rfl
      · by_cases hdevice : called = device
        · subst hdevice
          rw [driver_put_self, hcalled]
          exact hafter
        · have hsame : own device (arrivals ++ [(called, chunk)]) = own device arrivals := by
            rw [own_append, own_cons_other hdevice, own_nil, List.append_nil]
          rw [hsame]
          exact (hstreamed device).put_other (Ne.symm hdevice)

/-- Any number of devices that each send packets and commands over a line of their own lose
no packet, in whatever order their lines are read and however their streams are cut: every
handle is given all packets of its own device, once each and in order. -/
theorem readAll_mixedStreams (stack : Nat → FsPacketUnion) (state : SerialDevices D)
    (messages : D → List DeviceMessage) (arrivals : List (D × List UInt8))
    (hempty : ∀ device, (state.driver device).pending = [])
    (hstreams : ∀ device, (own device arrivals).flatten = messageStream (messages device))
    (hroom : state.RoomThroughout stack arrivals) :
    ∃ after, SerialDevices.readAll stack state arrivals = some after ∧
      ∀ device, ∃ delivered,
        List.Forall₂ SamePacket (packetsOf (messages device)) delivered ∧
        HandsOn (state.driver device) (after.driver device) delivered ∧
        (after.driver device).pending = [] := by
  obtain ⟨after, hrun, hstreamed⟩ := readAll_streamed messages hempty arrivals
    (fun device => by rw [hstreams device]) hroom
  refine ⟨after, hrun, fun device => ?_⟩
  have hwhole := hstreamed device
  rw [hstreams device] at hwhole
  exact hwhole.whole

/-- Two devices that have just been connected. -/
def twoDevices : SerialDevices Bool where
  devices _ := fsDeviceInfoUninitialized
  enqueued _ := []
  currentDecodeBuffer := .zero fsMaxPacketLength

theorem readAll_mixedStreams_two :
    ∃ after, SerialDevices.readAll (fun _ => .zero 185) twoDevices
        [(true, messageStream packetBetweenNames), (false, messageStream packetBetweenNames)] =
          some after ∧
      ∀ device, ∃ delivered, List.Forall₂ SamePacket (packetsOf packetBetweenNames) delivered ∧
        HandsOn (twoDevices.driver device) (after.driver device) delivered ∧
        (after.driver device).pending = [] := by
  apply readAll_mixedStreams (fun _ => .zero 185) twoDevices (fun _ => packetBetweenNames)
  · exact fun _ => rfl
  · intro device
    cases device <;> simp [own]
  · intro front arrival hfront before hbefore
    have hpending : (before.driver arrival.1).pending = [] ∧
        arrival.2 = messageStream packetBetweenNames := by
      cases front with
      | nil =>
          obtain rfl := Option.some.inj hbefore
          obtain ⟨rfl, _⟩ := List.cons_prefix_cons.1 hfront
          exact ⟨rfl, rfl⟩
      | cons first front =>
          obtain ⟨rfl, hlater⟩ := List.cons_prefix_cons.1 hfront
          obtain ⟨rfl, rfl⟩ := Segments.concat_prefix_singleton hlater
          -- the first read was from the other line
          rw [SerialDevices.readAll, List.foldlM_cons] at hbefore
          obtain ⟨state, hread, hstate⟩ := Option.bind_eq_some_iff.1 hbefore
          rw [SerialDevices.read] at hread
          obtain ⟨after, _, rfl⟩ := Option.map_eq_some_iff.1 hread
          rw [List.foldlM_nil] at hstate
          obtain rfl := Option.some.inj hstate
          exact ⟨rfl, rfl⟩
    rw [hpending.1, hpending.2, length_packetBetweenNames]
    decide

end Streams

end Trifecta
