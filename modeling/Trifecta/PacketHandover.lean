/-
Whatever bytes arrive over whatever link: only packets of known types are
accepted, and each of them goes to the queue, to the last packet and to the saver
alike.
-/
import Trifecta.Datagrams
import Trifecta.PingCounter

namespace Trifecta

/-- The effect of handing packets on: they are delivered, a saver takes them too,
and all of them are of types that have a length. -/
structure HandsOn (before after : Driver) (received : List FsPacketUnion) : Prop
    extends Delivers before after received where
  saved : after.device.saveContext =
    before.device.saveContext.map fun saver => received.foldl fsSaveOnPacket saver
  known : ∀ packet ∈ received, obtainPacketLength (FsPacketUnion.type packet).toNat ≠ 0

/-- Some packets are handed on. -/
def HandsSomeOn (before after : Driver) : Prop :=
  ∃ received, HandsOn before after received

/-- The packet queue and the saver, and the packets that reach them. -/
structure PacketSinks where
  enqueued : List FsPacketUnion
  packetBufQueue : FsPacketRingbuffer
  lastReceivedPacket : FsPacketUnion
  saveContext : Option FsSaveDevice

def Driver.sinks (driver : Driver) : PacketSinks where
  enqueued := driver.enqueued
  packetBufQueue := driver.device.packetBufQueue
  lastReceivedPacket := driver.device.lastReceivedPacket
  saveContext := driver.device.saveContext

theorem handsOn_of_sinks_eq {before after : Driver} (hsinks : after.sinks = before.sinks) :
    HandsOn before after [] := by
  obtain ⟨henqueued, hqueue, hlast, hsaved⟩ := PacketSinks.mk.inj hsinks
  refine ⟨⟨by rw [henqueued, List.append_nil], hqueue, hlast⟩, ?_, by simp⟩
  rw [hsaved]
  exact Option.map_id'.symm

theorem HandsOn.refl (driver : Driver) : HandsOn driver driver [] :=
  handsOn_of_sinks_eq rfl

theorem HandsOn.trans {first second third : Driver} {early late : List FsPacketUnion}
    (hearly : HandsOn first second early) (hlate : HandsOn second third late) :
    HandsOn first third (early ++ late) := by
  refine ⟨hearly.toDelivers.trans hlate.toDelivers, ?_, ?_⟩
  · rw [hlate.saved, hearly.saved, Option.map_map]
    simp only [Function.comp_def, List.foldl_append]
  · intro packet hpacket
    rcases List.mem_append.1 hpacket with hfirst | hsecond
    · exact hearly.known packet hfirst
    · exact hlate.known packet hsecond

theorem HandsSomeOn.refl (driver : Driver) : HandsSomeOn driver driver :=
  ⟨[], .refl driver⟩

theorem HandsSomeOn.trans {first second third : Driver} (hearly : HandsSomeOn first second)
    (hlate : HandsSomeOn second third) : HandsSomeOn first third := by
  obtain ⟨early, hfirst⟩ := hearly
  obtain ⟨late, hsecond⟩ := hlate
  exact ⟨early ++ late, hfirst.trans hsecond⟩

theorem handsOn_fsEnqueueIntoPacketQueue (driver : Driver) {packet : FsPacketUnion}
    (hknown : obtainPacketLength (FsPacketUnion.type packet).toNat ≠ 0) :
    HandsOn driver (fsEnqueueIntoPacketQueue driver packet).2 [packet] :=
  ⟨⟨rfl, rfl, rfl⟩, rfl, by simpa using hknown⟩

/-! What each part of the receive path hands on. -/

section Receiving

variable (stack : Nat → FsPacketUnion) {driver : Driver}

theorem handsSomeOn_segmentPacketsFrom (driver : Driver) (buf : List UInt8)
    (rxLen fuel pos : Nat) (packetCount : Int) :
    HandsSomeOn driver (segmentPacketsFrom stack buf rxLen fuel pos packetCount driver).2 := by
  induction fuel generalizing pos packetCount driver with
  | zero => exact .refl driver
  | succ fuel ih =>
      unfold segmentPacketsFrom
      dsimp only
      split_ifs with hpos hnone hpartial htype
      · exact .refl driver
      · exact .refl driver
      · exact .refl driver
      · rw [not_not] at htype
        have hfirst := handsOn_fsEnqueueIntoPacketQueue driver (htype.symm ▸ hnone)
        exact HandsSomeOn.trans ⟨_, hfirst⟩ (ih _ _ _)
      · exact .refl driver

theorem handsSomeOn_segmentPackets (driver : Driver) (rxBuf : List UInt8) (rxLen : Nat) :
    HandsSomeOn driver (segmentPackets stack driver rxBuf rxLen).2 := by
  unfold segmentPackets
  split_ifs
  · exact .refl driver
  · exact handsSomeOn_segmentPacketsFrom stack driver rxBuf rxLen rxLen 0 0

theorem handsSomeOn_base64ToPacket {segment : List UInt8} {length : Nat}
    {result : Int × Driver} (hresult : base64ToPacket driver segment length = some result) :
    HandsSomeOn driver result.2 := by
  unfold base64ToPacket at hresult
  split at hresult
  · exact absurd hresult (by simp)
  · next decoding _ =>
      have hdecoded : HandsSomeOn driver { driver with
          currentDecodeBuffer := driver.currentDecodeBuffer.write 0 decoding.written } :=
        ⟨[], handsOn_of_sinks_eq rfl⟩
      dsimp only at hresult
      split_ifs at hresult with hcode hnone
      · obtain rfl := Option.some.inj hresult
        exact hdecoded
      · obtain rfl := Option.some.inj hresult
        exact hdecoded
      all_goals
        obtain rfl := Option.some.inj hresult
        exact hdecoded.trans ⟨_, handsOn_fsEnqueueIntoPacketQueue _ (mt Nat.le_of_eq hnone)⟩

theorem handsOn_fsHandleReceivedCommands (driver : Driver) (cmdBuf : List UInt8) :
    HandsOn driver
      { driver with device := (fsHandleReceivedCommands driver.device cmdBuf).2 } [] := by
  have hunset := unset_fsHandleReceivedCommands driver.device cmdBuf
  have hkept := congrArg (fun device => Driver.sinks { driver with device }) hunset
  exact handsOn_of_sinks_eq hkept

theorem handsSomeOn_serialRound {outcome : SerialRound}
    (hround : serialRound stack driver = some outcome) : HandsSomeOn driver outcome.driver := by
  have hpopped : ∀ (after : Driver) (length : Nat), HandsSomeOn after (popData after length) :=
    fun after length => ⟨[], handsOn_of_sinks_eq rfl⟩
  unfold serialRound at hround
  dsimp only at hround
  split_ifs at hround with hempty
  · obtain rfl := Option.some.inj hround
    exact .refl driver
  · split at hround
    · obtain rfl := Option.some.inj hround
      exact (handsSomeOn_segmentPackets stack driver _ _).trans (hpopped _ _)
    · obtain ⟨decoded, hdecoded, rfl⟩ := Option.map_eq_some_iff.1 hround
      exact (handsSomeOn_base64ToPacket hdecoded).trans (hpopped _ _)
    · obtain rfl := Option.some.inj hround
      exact HandsSomeOn.trans ⟨[], handsOn_fsHandleReceivedCommands driver _⟩ (hpopped _ _)
    · obtain rfl := Option.some.inj hround
      exact .refl driver

theorem handsSomeOn_processSerialLoop {fuel : Nat} {result : Int × Driver}
    (hloop : processSerialLoop stack fuel driver = some result) :
    HandsSomeOn driver result.2 := by
  induction fuel generalizing driver with
  | zero => cases hloop
  | succ fuel ih =>
      rw [processSerialLoop] at hloop
      cases hround : serialRound stack driver with
      | none =>
          rw [hround] at hloop
          cases hloop
      | some outcome =>
          have hfirst := handsSomeOn_serialRound stack hround
          rw [hround] at hloop
          cases outcome with
          | returned code after =>
              obtain rfl := Option.some.inj hloop
              exact hfirst
          | again next => exact hfirst.trans (ih hloop)

theorem handsSomeOn_fsDeviceProcessPacketsSerial {rxBuf : List UInt8} {result : Int × Driver}
    (hcall : fsDeviceProcessPacketsSerial stack driver rxBuf = some result) :
    HandsSomeOn driver result.2 := by
  have hreceived : HandsSomeOn driver (driver.receive rxBuf) := ⟨[], handsOn_of_sinks_eq rfl⟩
  exact hreceived.trans (handsSomeOn_processSerialLoop stack hcall)

theorem handsSomeOn_fsDeviceParsePacket {rxBuf : List UInt8} {source : FsCommunicationMode}
    {result : Int × Driver} (hcall : fsDeviceParsePacket stack driver rxBuf source = some result) :
    HandsSomeOn driver result.2 := by
  unfold fsDeviceParsePacket at hcall
  split_ifs at hcall with hempty
  · obtain rfl := Option.some.inj hcall
    exact .refl driver
  · cases source with
    | tcpUdp | tcpUdpAp | i2c | spi =>
        dsimp only at hcall
        split_ifs at hcall <;>
          · obtain rfl := Option.some.inj hcall
            exact handsSomeOn_segmentPackets stack driver _ _
    | uart | usbCdc =>
        dsimp only at hcall
        split at hcall
        · cases hcall
        · next processed hprocessed =>
            have hserial := handsSomeOn_fsDeviceProcessPacketsSerial stack hprocessed
            split_ifs at hcall <;>
              · obtain rfl := Option.some.inj hcall
                exact hserial
    | uninitialized | can | espn | ble =>
        obtain rfl := Option.some.inj hcall
        exact .refl driver

end Receiving

/-- Reads from links of any kind, passed to `fs_device_parse_packet` one after
another, `none` when decoding a frame does not return. -/
def receiveAll (stack : Nat → FsPacketUnion) (driver : Driver)
    (reads : List (List UInt8 × FsCommunicationMode)) : Option Driver :=
  reads.foldlM (fun current read =>
    (fsDeviceParsePacket stack current read.1 read.2).map Prod.snd) driver

theorem handsSomeOn_receiveAll (stack : Nat → FsPacketUnion)
    {reads : List (List UInt8 × FsCommunicationMode)} {driver after : Driver}
    (hrun : receiveAll stack driver reads = some after) : HandsSomeOn driver after := by
  induction reads generalizing driver with
  | nil =>
      obtain rfl := Option.some.inj hrun
      exact .refl driver
  | cons read later ih =>
      rw [receiveAll, List.foldlM_cons] at hrun
      obtain ⟨next, hcall, hlater⟩ := Option.bind_eq_some_iff.1 hrun
      obtain ⟨result, hresult, rfl⟩ := Option.map_eq_some_iff.1 hcall
      exact (handsSomeOn_fsDeviceParsePacket stack hresult).trans (ih hlater)

/-- Whatever is read from whatever links, the packets that are accepted are all
of known types, and the queue, the last packet and a running saver get the same
ones in the same order. -/
theorem receiveAll_handsOn (stack : Nat → FsPacketUnion) (driver : Driver)
    (reads : List (List UInt8 × FsCommunicationMode)) :
    ∀ after, receiveAll stack driver reads = some after →
      ∃ received : List FsPacketUnion,
        (∀ packet ∈ received, obtainPacketLength (FsPacketUnion.type packet).toNat ≠ 0) ∧
        after.enqueued = driver.enqueued ++ received ∧
        after.device.packetBufQueue.toList =
          (driver.device.packetBufQueue.toList ++ received).rtake fsMaxPacketQueueLength ∧
        after.device.lastReceivedPacket =
          received.getLast?.getD driver.device.lastReceivedPacket ∧
        ∀ saver, driver.device.saveContext = some saver → saver.running = .running →
          ∃ taken, after.device.saveContext = some taken ∧ taken.running = .running ∧
            taken.packetsToSave.toList =
              (saver.packetsToSave.toList ++ received).rtake fsMaxPacketQueueLength := by
  intro after hrun
  obtain ⟨received, hhands⟩ := handsSomeOn_receiveAll stack hrun
  refine ⟨received, hhands.known, hhands.enqueued, ?_, hhands.last, ?_⟩
  · rw [hhands.queue, RingBuffer.toList_pushAll]
  · intro saver hsaver hrunning
    refine ⟨{ saver with packetsToSave := saver.packetsToSave.pushAll received }, ?_, hrunning, ?_⟩
    · rw [hhands.saved, hsaver, Option.map_some, foldl_fsSaveOnPacket hrunning]
    · exact RingBuffer.toList_pushAll _ _

/-- A packet over a network and half a command over a serial line. -/
def packetThenText : List (List UInt8 × FsCommunicationMode) :=
  [((Block.zero 185).read 0 145, .tcpUdp), ([73, 97], .uart)]

theorem receiveAll_handsOn_packet :
    ∃ after received, receiveAll (fun _ => .zero 185) driverUninitialized packetThenText =
        some after ∧
      (∀ packet ∈ received, obtainPacketLength (FsPacketUnion.type packet).toNat ≠ 0) ∧
      after.enqueued = driverUninitialized.enqueued ++ received ∧ received ≠ [] := by
  have hreached : ((receiveAll (fun _ => .zero 185) driverUninitialized packetThenText).map
      fun after => after.enqueued.length) = some 1 := by decide +kernel
  obtain ⟨after, hrun, hlength⟩ := Option.map_eq_some_iff.1 hreached
  obtain ⟨received, hknown, henqueued, _⟩ := receiveAll_handsOn (fun _ => .zero 185)
    driverUninitialized packetThenText after hrun
  refine ⟨after, received, hrun, hknown, henqueued, ?_⟩
  rintro rfl
  rw [henqueued] at hlength
  exact absurd hlength (by decide)

end Trifecta
