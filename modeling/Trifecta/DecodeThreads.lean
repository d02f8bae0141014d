/-
The update threads of several devices on serial lines.  Each decodes its frames byte by
byte into the one static buffer of `base64_to_packet`, and copies the packets out of it.
-/
import Trifecta.FrameDelivery
import Trifecta.Library.SharedTable
import Trifecta.Library.Transitions

namespace Trifecta

open Transitions

/-- A payload on which `fs_base64_decode` returns, with what it stores and returns.  The
packet that the payload announces is there as a whole. -/
structure WholeFrame where
  payload : List UInt8
  decoding : Decoding
  returns : fsBase64Decode ((payload ++ [packetFooter]).set payload.length 0)
    fsMaxPacketLength 0 = some decoding
  holds : HoldsPacket payload

/-- Where a call of `base64_to_packet` is: in `fs_base64_decode`, behind its look at the
packet type, or behind the copy to the packet queue. -/
inductive DecodeStage
  | decoding
  | accepted
  | queued (packet : FsPacketUnion)

/-- A call on a frame, and how many bytes it has stored. -/
structure FrameCall where
  frame : WholeFrame
  stored : Nat
  stage : DecodeStage

/-- A call that has returned, with the packets that it copied to the queue and to
`last_received_packet`. -/
structure FrameResult where
  payload : List UInt8
  code : Int
  copies : List FsPacketUnion

/-- A handle with the call that its update thread is in, and the calls before. -/
structure DecodeThread where
  device : FsDeviceInfo
  call : Option FrameCall
  results : List FrameResult

structure Decoders (D : Type*) where
  currentDecodeBuffer : Nat → UInt8
  threads : D → DecodeThread

/-- A frame reaches a thread, or the thread goes on with its call. -/
inductive DecodeAction
  | frame (frame : WholeFrame)
  | step

/-- The packet at the front of the buffer. -/
def bufferPacket (buffer : Nat → UInt8) : FsPacketUnion :=
  ⟨SharedTable.readBack buffer 185, SharedTable.length_readBack buffer 185⟩

namespace DecodeThread

def inCall (thread : DecodeThread) (call : FrameCall) : DecodeThread :=
  ⟨thread.device, some call, thread.results⟩

def returned (thread : DecodeThread) (call : FrameCall) (code : Int)
    (copies : List FsPacketUnion) : DecodeThread :=
  ⟨thread.device, none, thread.results ++ [⟨call.frame.payload, code, copies⟩]⟩

/-- The packet is copied to the packet queue. -/
def queue (thread : DecodeThread) (packet : FsPacketUnion) : DecodeThread :=
  { thread with
    device := { thread.device with
      packetBufQueue := thread.device.packetBufQueue.pushForce packet } }

/-- The packet is copied to `last_received_packet`, and from there to a saver. -/
def receive (thread : DecodeThread) (packet : FsPacketUnion) : DecodeThread :=
  { thread with
    device := { thread.device with
      lastReceivedPacket := packet
      saveContext := thread.device.saveContext.map fun saver => fsSaveOnPacket saver packet } }

end DecodeThread

section Steps

variable {D : Type*} [DecidableEq D]

def Decoders.set (state : Decoders D) (device : D) (thread : DecodeThread) : Decoders D :=
  ⟨state.currentDecodeBuffer, Function.update state.threads device thread⟩

/-- The next step of a call: a byte is stored, the type is looked at, or the packet is
copied. -/
def Decoders.advance (state : Decoders D) (device : D) (call : FrameCall) : Decoders D :=
  let thread := state.threads device
  match call.stage with
  | .decoding =>
      match call.frame.decoding.written[call.stored]? with
      | some byte =>
          ⟨Function.update state.currentDecodeBuffer call.stored byte,
            Function.update state.threads device
              (thread.inCall ⟨call.frame, call.stored + 1, .decoding⟩)⟩
      | none =>
          if call.frame.decoding.code ≠ 0 then state.set device (thread.returned call (-1) [])
          else if obtainPacketLength (state.currentDecodeBuffer 0).toNat ≤ 0 then
            state.set device (thread.returned call (-1) [])
          else state.set device (thread.inCall ⟨call.frame, call.stored, .accepted⟩)
  | .accepted =>
      let packet := bufferPacket state.currentDecodeBuffer
      state.set device ((thread.queue packet).inCall ⟨call.frame, call.stored, .queued packet⟩)
  | .queued packet =>
      let last := bufferPacket state.currentDecodeBuffer
      state.set device ((thread.receive last).returned call 0 [packet, last])

/-- A step of one of the threads. -/
def decodeStep (state : Decoders D) : D × DecodeAction → Decoders D
  | (device, .frame frame) =>
      match (state.threads device).call with
      | none => state.set device ((state.threads device).inCall ⟨frame, 0, .decoding⟩)
      | some _ => state
  | (device, .step) =>
      match (state.threads device).call with
      | none => state
      | some call => state.advance device call

/-- No thread is in a call; the buffer holds anything. -/
def decodersIdle (buffer : Nat → UInt8) (devices : D → FsDeviceInfo) : Decoders D where
  currentDecodeBuffer := buffer
  threads device := ⟨devices device, none, []⟩

/-- What a thread is filling the buffer with. -/
def DecodeThread.filling (thread : DecodeThread) : SharedTable.Filling UInt8 :=
  match thread.call with
  | none => ⟨[], 0⟩
  | some call => ⟨call.frame.decoding.written, call.stored⟩

def Decoders.table (state : Decoders D) : SharedTable.Table D UInt8 :=
  SharedTable.view DecodeThread.filling state.currentDecodeBuffer state.threads

/-- What `base64_to_packet` does with a payload when no other thread is there. -/
def decodedAlone (payload : List UInt8) : Option (Int × Driver) :=
  base64ToPacket driverUninitialized (payload ++ [packetFooter]) payload.length

/-- The payload is accepted for this packet. -/
def AcceptedAlone (payload : List UInt8) (packet : FsPacketUnion) : Prop :=
  ∃ after, decodedAlone payload = some (0, after) ∧ after.enqueued = [packet]

/-- The call returned what its frame alone gives, and made both copies of that packet. -/
def OwnResult (result : FrameResult) : Prop :=
  ∃ after, decodedAlone result.payload = some (result.code, after) ∧
    List.Forall₂ SamePacket (after.enqueued.flatMap fun packet => [packet, packet]) result.copies

/-- So far, the call has done what its frame alone gives. -/
def OwnStage (call : FrameCall) : Prop :=
  match call.stage with
  | .decoding => True
  | .accepted => call.stored = call.frame.decoding.written.length ∧
      ∃ packet, AcceptedAlone call.frame.payload packet
  | .queued copy => call.stored = call.frame.decoding.written.length ∧
      ∃ packet, AcceptedAlone call.frame.payload packet ∧ SamePacket packet copy

/-- Every call has done what its frame alone gives, and no thread has lost a byte that it
has stored. -/
structure DecodersExact (state : Decoders D) : Prop where
  results : ∀ device, ∀ result ∈ (state.threads device).results, OwnResult result
  stages : ∀ device call, (state.threads device).call = some call → OwnStage call
  bytes : ∀ device, state.table.Kept device

/-- No byte is stored over one of another thread's that is different. -/
def SparesBytes (state : Decoders D) : D × DecodeAction → Prop
  | (device, .step) => state.table.Spares device
  | (_, .frame _) => True

end Steps

section Frames

variable {frame : WholeFrame}

/-- What the frame alone gives, by what decoding it stores and returns. -/
theorem decodedAlone_eq (frame : WholeFrame) :
    decodedAlone frame.payload =
      let buffer := driverUninitialized.currentDecodeBuffer.write 0 frame.decoding.written
      let packet := packetInBuffer buffer
      let driver : Driver := { driverUninitialized with currentDecodeBuffer := buffer }
      some (if frame.decoding.code ≠ 0 ∨ obtainPacketLength (FsPacketUnion.type packet).toNat = 0
        then (-1, driver) else (0, (fsEnqueueIntoPacketQueue driver packet).2)) := by
  have hreturns := frame.returns
  rw [fsBase64Decode_eq _ (Nat.le_refl _), decoderText_set] at hreturns
  rw [decodedAlone, base64ToPacket_eq, hreturns, Option.map_some]

/-- A frame that decodes holds the whole packet that its first byte announces. -/
theorem written_of_code (hcode : frame.decoding.code = 0) :
    ∃ type rest, frame.decoding.written = type :: rest ∧
      obtainPacketLength type.toNat ≤ frame.decoding.written.length ∧
      frame.decoding.written.length ≤ fsMaxPacketLength := by
  have hreturns := frame.returns
  rw [fsBase64Decode_eq _ (Nat.le_refl _), decoderText_set] at hreturns
  have hdecodable := decodable_of_decodeText hreturns hcode
  rw [decodeText_of_decodable hdecodable] at hreturns
  obtain ⟨type, rest, hbytes, hlength⟩ := frame.holds hdecodable
  have hwritten : frame.decoding.written = decodeQuads (payloadText frame.payload) :=
    congrArg Decoding.written (Option.some.inj hreturns).symm
  rw [hwritten]
  exact ⟨type, rest, hbytes, hlength, length_decodeQuads_le hdecodable⟩

/-- A result without a packet. -/
theorem ownResult_of_refused (hrefused : frame.decoding.code ≠ 0 ∨
      obtainPacketLength (FsPacketUnion.type (packetInBuffer
        (driverUninitialized.currentDecodeBuffer.write 0 frame.decoding.written))).toNat = 0) :
    OwnResult ⟨frame.payload, -1, []⟩ := by
  have halone := decodedAlone_eq frame
  simp only [if_pos hrefused] at halone
  exact ⟨_, halone, .nil⟩

variable {cells : Nat → UInt8}

/-- The type that a thread finds is that of the packet its frame alone gives, as long as it
finds what it has stored. -/
theorem type_of_kept (hkept : ∀ index < frame.decoding.written.length,
      frame.decoding.written[index]? = some (cells index))
    (hcode : frame.decoding.code = 0) :
    FsPacketUnion.type (packetInBuffer
      (driverUninitialized.currentDecodeBuffer.write 0 frame.decoding.written)) = cells 0 := by
  obtain ⟨type, rest, hwritten, _, hroom⟩ := written_of_code hcode
  have hfirst := hkept 0 (by rw [hwritten]; exact Nat.succ_pos _)
  rw [hwritten] at hroom hfirst ⊢
  rw [type_packetInBuffer hroom]
  exact Option.some.inj hfirst

theorem acceptedAlone_of_kept (hkept : ∀ index < frame.decoding.written.length,
      frame.decoding.written[index]? = some (cells index))
    (hcode : frame.decoding.code = 0) (hknown : obtainPacketLength (cells 0).toNat ≠ 0) :
    ∃ packet, AcceptedAlone frame.payload packet := by
  have htype := type_of_kept hkept hcode
  have halone := decodedAlone_eq frame
  simp only [htype, hcode, hknown, ne_eq, not_true_eq_false, false_or, ↓reduceIte] at halone
  exact ⟨_, _, halone, rfl⟩

/-- What is copied out of the buffer then is the packet that the frame alone gives. -/
theorem samePacket_of_kept (hkept : ∀ index < frame.decoding.written.length,
      frame.decoding.written[index]? = some (cells index)) {packet : FsPacketUnion}
    (haccepted : AcceptedAlone frame.payload packet) :
    SamePacket packet (bufferPacket cells) := by
  obtain ⟨after, halone, henqueued⟩ := haccepted
  rw [decodedAlone_eq] at halone
  simp only [Option.some_inj] at halone
  split_ifs at halone with hrefused
  · cases congrArg Prod.fst halone
  · obtain rfl := congrArg Prod.snd halone
    obtain rfl := List.singleton_inj.1 henqueued
    have hcode := not_not.1 (not_or.1 hrefused).1
    obtain ⟨type, rest, hwritten, hlength, hroom⟩ := written_of_code hcode
    have htype := type_of_kept hkept hcode
    have hfirst := hkept 0 (by rw [hwritten]; exact Nat.succ_pos _)
    rw [hwritten] at hfirst
    obtain rfl := Option.some.inj hfirst
    have hle := obtainPacketLength_le (cells 0).toNat
    have hread := @read_packetInBuffer_of_le driverUninitialized.currentDecodeBuffer _ hroom
      (obtainPacketLength (cells 0).toNat) hlength hle
    have hcopied : (SharedTable.readBack cells 185).take (obtainPacketLength (cells 0).toNat) =
        frame.decoding.written.take (obtainPacketLength (cells 0).toNat) := by
      rw [SharedTable.take_readBack cells hle]
      exact SharedTable.readBack_of_stored fun index hindex =>
        hkept index (Nat.lt_of_lt_of_le hindex hlength)
    rw [SamePacket, packetBytes, htype, hread]
    exact hcopied

end Frames

section Exact

variable {D : Type*} [DecidableEq D] {state : Decoders D} {device : D}

theorem decodersExact_update (hexact : DecodersExact state) {buffer : Nat → UInt8}
    {thread : DecodeThread} (hresults : ∀ result ∈ thread.results, OwnResult result)
    (hstages : ∀ call, thread.call = some call → OwnStage call)
    (hbytes : ∀ other, (SharedTable.view DecodeThread.filling buffer
      (Function.update state.threads device thread)).Kept other) :
    DecodersExact ⟨buffer, Function.update state.threads device thread⟩ := by
  have hthreads : ∀ other, Function.update state.threads device thread other =
      if other = device then thread else state.threads other := Function.update_apply _ _ _
  refine ⟨fun other => ?_, fun other => ?_, hbytes⟩
  · change ∀ result ∈ (Function.update state.threads device thread other).results, _
    rw [hthreads]
    split_ifs
    · exact hresults
    · exact hexact.results other
  · change ∀ call, (Function.update state.threads device thread other).call = some call → _
    rw [hthreads]
    split_ifs
    · exact hstages
    · exact hexact.stages other

/-- A call goes on without storing anything. -/
theorem decodersExact_inCall (hexact : DecodersExact state) {thread : DecodeThread}
    {call next : FrameCall} (hcall : (state.threads device).call = some call)
    (hresults : thread.results = (state.threads device).results)
    (hframe : next.frame = call.frame) (hstored : next.stored = call.stored)
    (hstage : OwnStage next) : DecodersExact (state.set device (thread.inCall next)) := by
  have hsame : (thread.inCall next).filling = (state.threads device).filling := by
    rw [DecodeThread.filling, DecodeThread.filling, hcall]
    simp only [DecodeThread.inCall, hframe, hstored]
  apply decodersExact_update hexact
  · intro result hresult
    exact hexact.results device result (hresults ▸ hresult)
  · intro other hother
    rw [← Option.some.inj hother]
    exact hstage
  · rw [SharedTable.view_update_same hsame]
    exact hexact.bytes

/-- A call begins. -/
theorem decodersExact_begin (hexact : DecodersExact state) (frame : WholeFrame) :
    DecodersExact (state.set device ((state.threads device).inCall ⟨frame, 0, .decoding⟩)) := by
  have hstart : ((state.threads device).inCall ⟨frame, 0, .decoding⟩).filling =
      ⟨frame.decoding.written, 0⟩ := rfl
  apply decodersExact_update hexact
  · exact hexact.results device
  · intro call hcall
    rw [← Option.some.inj hcall]
    trivial
  · rw [SharedTable.view_update_start hstart]
    exact SharedTable.kept_start hexact.bytes

/-- A call returns. -/
theorem decodersExact_returned (hexact : DecodersExact state) {thread : DecodeThread}
    {call : FrameCall} {code : Int} {copies : List FsPacketUnion}
    (hresults : thread.results = (state.threads device).results)
    (hown : OwnResult ⟨call.frame.payload, code, copies⟩) :
    DecodersExact (state.set device (thread.returned call code copies)) := by
  have hstart : (thread.returned call code copies).filling = ⟨[], 0⟩ := rfl
  apply decodersExact_update hexact
  · intro result hresult
    rcases List.mem_append.1 hresult with hearlier | hnew
    · exact hexact.results device result (hresults ▸ hearlier)
    · rw [List.mem_singleton.1 hnew]
      exact hown
  · intro other hother
    cases hother
  · rw [SharedTable.view_update_start hstart]
    exact SharedTable.kept_start hexact.bytes

omit [DecidableEq D] in
theorem fillings_of_call {call : FrameCall} (hcall : (state.threads device).call = some call) :
    state.table.fillings device = ⟨call.frame.decoding.written, call.stored⟩ := by
  simp only [Decoders.table, SharedTable.view, DecodeThread.filling, hcall]

omit [DecidableEq D] in
theorem kept_of_call {call : FrameCall} (hcall : (state.threads device).call = some call)
    (hexact : DecodersExact state) : ∀ index < call.stored,
      call.frame.decoding.written[index]? = some (state.currentDecodeBuffer index) := by
  have hkept := hexact.bytes device
  rw [SharedTable.Table.Kept, fillings_of_call hcall] at hkept
  exact hkept

omit [DecidableEq D] in
theorem stored_le (hexact : DecodersExact state) {call : FrameCall}
    (hcall : (state.threads device).call = some call) :
    call.stored ≤ call.frame.decoding.written.length := by
  by_contra hmore
  have hcell := kept_of_call hcall hexact _ (Nat.lt_of_not_le hmore)
  rw [List.getElem?_eq_none (Nat.le_refl _)] at hcell
  cases hcell

/-- A call that has stored all bytes takes its next step without disturbing anyone. -/
theorem advance_done_exact (hexact : DecodersExact state) {call : FrameCall}
    (hcall : (state.threads device).call = some call)
    (hdone : call.stored = call.frame.decoding.written.length) :
    DecodersExact (state.advance device call) := by
  have hkept := kept_of_call hcall hexact
  rw [hdone] at hkept
  have hstage := hexact.stages device call hcall
  have hnone : call.frame.decoding.written[call.stored]? = none :=
    List.getElem?_eq_none hdone.ge
  rw [OwnStage] at hstage
  cases hcase : call.stage with
  | decoding =>
      simp only [Decoders.advance, hcase, hnone]
      split_ifs with hcode hunknown
      · exact decodersExact_returned hexact rfl (ownResult_of_refused (Or.inl hcode))
      · refine decodersExact_returned hexact rfl (ownResult_of_refused (Or.inr ?_))
        rw [type_of_kept hkept (not_not.1 hcode)]
        exact Nat.le_zero.1 hunknown
      · exact decodersExact_inCall hexact hcall rfl rfl rfl
          ⟨hdone, acceptedAlone_of_kept hkept (not_not.1 hcode) (mt Nat.le_zero.2 hunknown)⟩
  | accepted =>
      simp only [hcase] at hstage
      obtain ⟨_, packet, haccepted⟩ := hstage
      simp only [Decoders.advance, hcase]
      exact decodersExact_inCall hexact hcall rfl rfl rfl
        ⟨hdone, packet, haccepted, samePacket_of_kept hkept haccepted⟩
  | queued copy =>
      simp only [hcase] at hstage
      obtain ⟨_, packet, haccepted, hsame⟩ := hstage
      have hlast := samePacket_of_kept hkept haccepted
      obtain ⟨after, halone, henqueued⟩ := haccepted
      simp only [Decoders.advance, hcase]
      refine decodersExact_returned hexact rfl ⟨after, halone, ?_⟩
      rw [henqueued]
      exact .cons hsame (.cons hlast .nil)

/-- A step of a call keeps everything exact exactly when it spares the bytes of the other
threads. -/
theorem advance_exact_iff (hexact : DecodersExact state) {call : FrameCall}
    (hcall : (state.threads device).call = some call) :
    DecodersExact (state.advance device call) ↔ state.table.Spares device := by
  rcases (stored_le hexact hcall).lt_or_eq with hmore | hdone
  · obtain ⟨byte, hbyte⟩ : ∃ byte, call.frame.decoding.written[call.stored]? = some byte :=
      ⟨_, List.getElem?_eq_getElem hmore⟩
    have hnext : (state.table.fillings device).next? = some byte := by
      rw [fillings_of_call hcall]
      exact hbyte
    have hstage := hexact.stages device call hcall
    rw [OwnStage] at hstage
    cases hcase : call.stage with
    | decoding =>
        have hfilling : (state.threads device).filling =
            ⟨call.frame.decoding.written, call.stored⟩ := fillings_of_call hcall
        have htable := @SharedTable.view_update_store D _ _ _ DecodeThread.filling
          state.currentDecodeBuffer state.threads device
          ((state.threads device).inCall ⟨call.frame, call.stored + 1, .decoding⟩) byte
          (by rw [hfilling]; rfl)
        rw [hfilling] at htable
        simp only [Decoders.advance, hcase, hbyte]
        rw [← SharedTable.kept_store_iff hnext hexact.bytes]
        constructor
        · intro hafter other
          have hkept := hafter.bytes other
          rw [Decoders.table, htable] at hkept
          exact hkept
        · intro hkept
          apply decodersExact_update hexact
          · exact hexact.results device
          · intro next hnext
            rw [← Option.some.inj hnext]
            trivial
          · rw [htable]
            exact hkept
    | accepted =>
        simp only [hcase] at hstage
        exact absurd hstage.1 hmore.ne
    | queued copy =>
        simp only [hcase] at hstage
        exact absurd hstage.1 hmore.ne
  · refine iff_of_true (advance_done_exact hexact hcall hdone) (SharedTable.spares_of_done ?_)
    rw [fillings_of_call hcall]
    exact List.getElem?_eq_none hdone.ge

theorem decodersExact_step_iff (hexact : DecodersExact state) (action : D × DecodeAction) :
    DecodersExact (decodeStep state action) ↔ SparesBytes state action := by
  obtain ⟨device, act⟩ := action
  cases hcall : (state.threads device).call with
  | none =>
      have hspares : state.table.Spares device := by
        apply SharedTable.spares_of_done
        simp only [Decoders.table, SharedTable.view, DecodeThread.filling, hcall]
        rfl
      cases act with
      | frame frame =>
          simp only [decodeStep, hcall]
          exact iff_of_true (decodersExact_begin hexact frame) trivial
      | step =>
          simp only [decodeStep, hcall]
          exact iff_of_true hexact hspares
  | some call =>
      cases act with
      | frame frame =>
          simp only [decodeStep, hcall]
          exact iff_of_true hexact trivial
      | step =>
          simp only [decodeStep, hcall]
          exact advance_exact_iff hexact hcall

omit [DecidableEq D] in
theorem decodersExact_idle (buffer : Nat → UInt8) (devices : D → FsDeviceInfo) :
    DecodersExact (decodersIdle buffer devices) := by
  refine ⟨fun device result hresult => ?_, fun device call hcall => ?_,
    fun device index hindex => absurd hindex (Nat.not_lt_zero _)⟩
  · exact absurd hresult List.not_mem_nil
  · cases hcall

/-- While the threads of any number of devices decode their frames, in any order of their
steps, each call has in every state done what its frame alone gives, and no thread has lost a
byte it has stored, exactly when no byte is stored over a different one of another thread. -/
theorem decoders_exact_along_iff (buffer : Nat → UInt8) (devices : D → FsDeviceInfo)
    (actions : List (D × DecodeAction)) :
    (∀ front, front <+: actions →
        DecodersExact (run decodeStep (decodersIdle buffer devices) front)) ↔
      Along decodeStep SparesBytes (decodersIdle buffer devices) actions :=
  @forall_prefix_run_iff _ _ decodeStep SparesBytes (fun _ => True) DecodersExact
    (fun _ _ _ _ _ => trivial) (fun _ action _ hexact => decodersExact_step_iff hexact action) _ _
    trivial (decodersExact_idle buffer devices)

/-- No other thread is in a call. -/
def CallsApart (state : Decoders D) (action : D × DecodeAction) : Prop :=
  ∀ other, other ≠ action.1 → (state.threads other).call = none

/-- Calls that do not overlap have every call do what its frame alone gives. -/
theorem decoders_apart (buffer : Nat → UInt8) (devices : D → FsDeviceInfo)
    {actions : List (D × DecodeAction)}
    (hapart : Along decodeStep CallsApart (decodersIdle buffer devices) actions) :
    DecodersExact (run decodeStep (decodersIdle buffer devices) actions) := by
  refine run_invariant ?_ (decodersExact_idle buffer devices) hapart
  rintro before ⟨device, act⟩ hbefore hothers
  rw [decodersExact_step_iff hbefore]
  cases act with
  | frame frame => trivial
  | step =>
      apply SharedTable.spares_of_apart
      intro other hother
      simp only [Decoders.table, SharedTable.view, DecodeThread.filling, hothers other hother]

end Exact

/-- A payload that does not decode. -/
def markFrame : WholeFrame where
  payload := [33]
  decoding := ⟨-1, [], 0⟩
  returns := by decide
  holds hdecodable := absurd (hdecodable.1 33 (by decide)) (by decide)

/-- The payload of a packet of zeros. -/
def zeroFrame : WholeFrame where
  payload := List.replicate 196 65
  decoding := ⟨0, List.replicate 147 0, 147⟩
  returns := by decide +kernel
  holds _ := ⟨0, List.replicate 146 0, by decide +kernel, by decide +kernel⟩

def oneAfterTheOther : List (Bool × DecodeAction) :=
  [(true, .frame markFrame), (true, .step), (false, .frame zeroFrame), (false, .step),
    (false, .step)]

theorem decoders_apart_frames :
    DecodersExact (run decodeStep (decodersIdle (fun _ => 0) fun _ : Bool =>
      fsDeviceInfoUninitialized) oneAfterTheOther) := by
  apply decoders_apart
  have hother : ∀ device other : Bool, other ≠ device → other = !device := by decide
  refine ⟨?_, ?_, ?_, ?_, ?_, trivial⟩ <;> intro other hne <;> rw [hother _ other hne] <;> rfl

end Trifecta
