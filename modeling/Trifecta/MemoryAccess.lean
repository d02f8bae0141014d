/-
The memory accesses of the serial receive path: which indices each function of
the framer reads and writes, and that all of them but the Base64 decoder's stay
inside their arrays.
-/
import Trifecta.FramerProgress

namespace Trifecta

open CText

/-- An access to one of the arrays of the receive path.  The decoder's reads are
also given with the index of the character that ends its string. -/
inductive MemoryAccess
  | readTemp (index : Nat)
  | writeTemp (index : Nat)
  | writePayload (index : Nat)
  | writeDecodeBuffer (index : Nat)
  | writeRing (index size : Nat)
  | readText (index terminator : Nat)
deriving DecidableEq, Repr

def MemoryAccess.InRange : MemoryAccess → Prop
  | .readTemp index | .writeTemp index => index < fsMaxDataLength
  | .writePayload index => index < fsMaxCmdLength
  | .writeDecodeBuffer index => index < fsMaxPacketLength
  | .writeRing index size => index < size
  | .readText index terminator => index ≤ terminator

def AllInRange (accesses : List MemoryAccess) : Prop :=
  ∀ access ∈ accesses, access.InRange

/-- `fs_cb_push`. -/
def cbPushAccesses (rb : FsBytesRingbuffer) : List UInt8 → List MemoryAccess
  | [] => []
  | byte :: rest => .writeRing rb.head fsMaxDataLength :: cbPushAccesses (rb.pushForce byte) rest

/-- `fs_cb_peek`. -/
def cbPeekAccesses (rb : FsBytesRingbuffer) (maxLen : Nat) : List MemoryAccess :=
  (List.range (min rb.count maxLen)).map .writeTemp

/-- The loop of `fs_scan_delimiters`. -/
def scanDelimitersAccesses (result : FsDelimiterIndices) (b64Candidate binCandidate : Option Nat)
    (i : Nat) : List UInt8 → List MemoryAccess
  | [] => []
  | byte :: rest =>
      let next := scanByte result b64Candidate binCandidate i byte
      .readTemp i ::
        if next.1.colonIndex.isSome ∧ next.1.binaryIndex.isSome ∧ next.1.exclamIndex.isSome ∧
            next.1.semicolonIndex.isSome then []
        else scanDelimitersAccesses next.1 next.2.1 next.2.2 (i + 1) rest

/-- `fs_enqueue_into_packet_queue`, with the ring of a saver that is running. -/
def enqueueAccesses (driver : Driver) : List MemoryAccess :=
  .writeRing driver.device.packetBufQueue.head fsMaxPacketQueueLength ::
    match driver.device.saveContext with
    | some saver =>
        if saver.running ≠ .running then []
        else [.writeRing saver.packetsToSave.head fsMaxPacketQueueLength]
    | none => []

/-- The loop of `segment_packets`, on the part of `temp` that begins at `start`. -/
def segmentPacketsFromAccesses (stack : Nat → FsPacketUnion) (start : Nat) (buf : List UInt8)
    (rxLen : Nat) : Nat → Nat → Driver → List MemoryAccess
  | 0, _, _ => []
  | fuel + 1, pos, driver =>
      if pos < rxLen then
        let packetType := buf[pos]?.getD 0
        let packetLength := obtainPacketLength packetType.toNat
        .readTemp (start + pos) ::
          if packetLength = 0 then []
          else if rxLen < pos + packetLength then []
          else
            let pkt := (stack driver.enqueued.length).write 0 ((buf.drop pos).take packetLength)
            (List.range packetLength).map (fun k => .readTemp (start + (pos + k))) ++
              if FsPacketUnion.type pkt ≠ packetType then []
              else
                enqueueAccesses driver ++
                  segmentPacketsFromAccesses stack start buf rxLen fuel (pos + packetLength)
                    (fsEnqueueIntoPacketQueue driver pkt).2
      else []

/-- `segment_packets`. -/
def segmentPacketsAccesses (stack : Nat → FsPacketUnion) (driver : Driver) (start : Nat)
    (rxBuf : List UInt8) (rxLen : Nat) : List MemoryAccess :=
  if rxLen = 0 ∨ fsMaxDataLength < rxLen then []
  else segmentPacketsFromAccesses stack start rxBuf rxLen rxLen 0 driver

/-- `input[i]` in the decoder, whose input begins at `start` in `temp`. -/
def readChar (start terminator i : Nat) : List MemoryAccess :=
  [.readTemp (start + i), .readText i terminator]

/-- The reads of `input[i] == '=' ? 0 : base64_char_to_value(input[i++])`. -/
def sextetAccesses (start terminator : Nat) (input : List UInt8) (i : Nat) :
    List MemoryAccess :=
  if input[i]?.getD 0 = padChar then readChar start terminator i
  else readChar start terminator i ++ readChar start terminator i

/-- The stores of a decoded triple, from index `j` on. -/
def storeAccesses (bufferSize j : Nat) : List MemoryAccess :=
  ((List.range 3).filter fun k => j + k < bufferSize).map fun k => .writeDecodeBuffer (j + k)

/-- The decoding loop.  A group with a wrong character is reported with the
character before the position reached. -/
def decodeLoopAccesses (start : Nat) (input : List UInt8) (inputLength bufferSize : Nat) :
    Nat → Nat → List UInt8 → List MemoryAccess
  | 0, _, _ => []
  | fuel + 1, i, written =>
      if i < inputLength then
        let a := nextSextet input i
        let b := nextSextet input a.2
        let c := nextSextet input b.2
        let d := nextSextet input c.2
        sextetAccesses start inputLength input i ++ sextetAccesses start inputLength input a.2 ++
          sextetAccesses start inputLength input b.2 ++
          sextetAccesses start inputLength input c.2 ++
          match a.1, b.1, c.1, d.1 with
          | some sextetA, some sextetB, some sextetC, some sextetD =>
              storeAccesses bufferSize written.length ++
                decodeLoopAccesses start input inputLength bufferSize fuel d.2
                  (storeBytes bufferSize written (tripleBytes sextetA sextetB sextetC sextetD))
          | _, _, _, _ => readChar start inputLength (d.2 - 1)
      else []

/-- `fs_base64_decode`: the search for the end of the string, the look at its last
two characters, and the loop. -/
def base64DecodeAccesses (start : Nat) (input : List UInt8) (bufferSize : Nat) :
    List MemoryAccess :=
  let inputLength := fsSafeStrnlen input fsMaxDataLength
  let padding := countPadding input inputLength
  (List.range (min (inputLength + 1) fsMaxDataLength)).flatMap (readChar start inputLength) ++
    (if 1 ≤ inputLength then readChar start inputLength (inputLength - 1) else []) ++
    (if 2 ≤ inputLength then readChar start inputLength (inputLength - 2) else []) ++
    if bufferSize < sizeSub (3 * (inputLength / 4)) padding then []
    else decodeLoopAccesses start input inputLength bufferSize (inputLength + 1) 0 []

/-- `base64_to_packet`. -/
def base64ToPacketAccesses (driver : Driver) (start : Nat) (segment : List UInt8)
    (length : Nat) : List MemoryAccess :=
  let input := segment.set length 0
  .writeTemp (start + length) :: base64DecodeAccesses start input fsMaxPacketLength ++
    match fsBase64Decode input fsMaxPacketLength 0 with
    | none => []
    | some decoding =>
        let driver := { driver with
          currentDecodeBuffer := driver.currentDecodeBuffer.write 0 decoding.written }
        if decoding.code ≠ 0 then []
        else if obtainPacketLength
            (FsPacketUnion.type (packetInBuffer driver.currentDecodeBuffer)).toNat ≤ 0 then []
        else enqueueAccesses driver

/-- The loop of `fs_segment_commands`. -/
def segmentCommandsFromAccesses (queue : FsCommandRingbuffer) (cmd : FsCommandInfo) (i : Nat) :
    SegmentState → List UInt8 → List MemoryAccess
  | _, [] => []
  | state, inByte :: rest =>
      .readTemp i ::
        if inByte = cmdTerminator then
          .writePayload cmd.payload.length ::
            match fsEnqueueIntoCommandQueue queue cmd with
            | none => []
            | some next =>
                .writeRing queue.head fsMaxCmdQueueLength ::
                  segmentCommandsFromAccesses next .empty (i + 1) .waiting rest
        else if isLineBreak inByte then
          if state = .waiting then segmentCommandsFromAccesses queue .empty (i + 1) .waiting rest
          else [.writePayload cmd.payload.length]
        else if hroom : cmd.payload.length < fsMaxCmdLength - 1 then
          .writePayload cmd.payload.length ::
            segmentCommandsFromAccesses queue (cmd.append inByte hroom) (i + 1) .reading rest
        else segmentCommandsFromAccesses queue .empty (i + 1) .reading rest

/-- One round of `fs_device_process_packets_serial`. -/
def serialRoundAccesses (stack : Nat → FsPacketUnion) (driver : Driver) : List MemoryAccess :=
  let temp := fsCbPeek driver.device.dataBuffer fsMaxDataLength
  cbPeekAccesses driver.device.dataBuffer fsMaxDataLength ++
    if temp = [] then []
    else
      scanDelimitersAccesses ⟨none, none, none, none⟩ none none 0 temp ++
        match findSegment (fsScanDelimiters temp) with
        | .binary header exclam =>
            let packetStart := header + 1
            let packetLen := sizeSub (sizeSub exclam packetStart) 1
            segmentPacketsAccesses stack driver packetStart (temp.drop packetStart) packetLen
        | .base64 header exclam =>
            let payloadStart := header + 1
            let payloadLen := sizeSub exclam payloadStart
            base64ToPacketAccesses driver payloadStart (temp.drop payloadStart) payloadLen
        | .command _ =>
            segmentCommandsFromAccesses driver.device.commandQueue .empty 0 .waiting temp
        | .incomplete => []

/-- The loop of `fs_device_process_packets_serial`. -/
def serialLoopAccesses (stack : Nat → FsPacketUnion) : Nat → Driver → List MemoryAccess
  | 0, _ => []
  | fuel + 1, driver =>
      serialRoundAccesses stack driver ++
        match serialRound stack driver with
        | some (.again next) => serialLoopAccesses stack fuel next
        | _ => []

/-- `fs_device_parse_packet` on a chunk from a UART. -/
def parsePacketAccesses (stack : Nat → FsPacketUnion) (driver : Driver) (rxBuf : List UInt8) :
    List MemoryAccess :=
  if rxBuf = [] then []
  else
    cbPushAccesses driver.device.dataBuffer rxBuf ++
      serialLoopAccesses stack ((driver.receive rxBuf).device.dataBuffer.count + 1)
        (driver.receive rxBuf)

/-- Chunks one after another, as far as the calls return. -/
def receiveAccesses (stack : Nat → FsPacketUnion) : Driver → List (List UInt8) → List MemoryAccess
  | _, [] => []
  | driver, chunk :: later =>
      parsePacketAccesses stack driver chunk ++
        match fsDeviceParsePacket stack driver chunk .uart with
        | some (_, after) => receiveAccesses stack after later
        | none => []

/-! Ranges. -/

theorem allInRange_append {first second : List MemoryAccess} :
    AllInRange (first ++ second) ↔ AllInRange first ∧ AllInRange second :=
  List.forall_mem_append

theorem allInRange_cons {access : MemoryAccess} {accesses : List MemoryAccess} :
    AllInRange (access :: accesses) ↔ access.InRange ∧ AllInRange accesses :=
  List.forall_mem_cons

theorem allInRange_nil : AllInRange [] :=
  List.forall_mem_nil _

theorem allInRange_map {β : Type} {access : β → MemoryAccess} {indices : List β}
    (hinside : ∀ index ∈ indices, (access index).InRange) : AllInRange (indices.map access) := by
  intro other hother
  obtain ⟨index, hindex, rfl⟩ := List.mem_map.1 hother
  exact hinside index hindex

theorem cbPushAccesses_inRange (data : List UInt8) (rb : FsBytesRingbuffer) :
    AllInRange (cbPushAccesses rb data) := by
  induction data generalizing rb with
  | nil => exact allInRange_nil
  | cons byte rest ih => exact allInRange_cons.2 ⟨rb.head.isLt, ih (rb.pushForce byte)⟩

theorem cbPeekAccesses_inRange (rb : FsBytesRingbuffer) :
    AllInRange (cbPeekAccesses rb fsMaxDataLength) := by
  apply allInRange_map
  intro index hindex
  exact lt_of_lt_of_le (List.mem_range.1 hindex) (Nat.min_le_right _ _)

theorem scanDelimitersAccesses_inRange (content : List UInt8) (result : FsDelimiterIndices)
    (b64Candidate binCandidate : Option Nat) {i : Nat}
    (hroom : i + content.length ≤ fsMaxDataLength) :
    AllInRange (scanDelimitersAccesses result b64Candidate binCandidate i content) := by
  induction content generalizing result b64Candidate binCandidate i with
  | nil => exact allInRange_nil
  | cons byte rest ih =>
      rw [List.length_cons] at hroom
      refine allInRange_cons.2 ⟨show i < fsMaxDataLength by omega, ?_⟩
      split_ifs
      · exact allInRange_nil
      · exact ih _ _ _ (by omega)

theorem enqueueAccesses_inRange (driver : Driver) : AllInRange (enqueueAccesses driver) := by
  refine allInRange_cons.2 ⟨driver.device.packetBufQueue.head.isLt, ?_⟩
  split
  · next saver _ =>
      split_ifs
      · exact allInRange_nil
      · exact allInRange_cons.2 ⟨saver.packetsToSave.head.isLt, allInRange_nil⟩
  · exact allInRange_nil

theorem segmentPacketsFromAccesses_inRange (stack : Nat → FsPacketUnion) {start : Nat}
    (buf : List UInt8) {rxLen : Nat} (hroom : start + rxLen ≤ fsMaxDataLength) (fuel pos : Nat)
    (driver : Driver) :
    AllInRange (segmentPacketsFromAccesses stack start buf rxLen fuel pos driver) := by
  induction fuel generalizing pos driver with
  | zero => exact allInRange_nil
  | succ fuel ih =>
      rw [segmentPacketsFromAccesses]
      by_cases hpos : pos < rxLen
      · rw [if_pos hpos]
        refine allInRange_cons.2 ⟨show start + pos < fsMaxDataLength by omega, ?_⟩
        split_ifs with _ hlong
        · exact allInRange_nil
        · exact allInRange_nil
        · refine allInRange_append.2 ⟨allInRange_map fun index hindex => ?_, ?_⟩
          · have := List.mem_range.1 hindex
            exact show start + (pos + index) < fsMaxDataLength by omega
          · split_ifs
            · exact allInRange_nil
            · exact allInRange_append.2 ⟨enqueueAccesses_inRange driver, ih _ _⟩
      · rw [if_neg hpos]
        exact allInRange_nil

/-- A binary frame that lies inside `temp` is cut up inside `temp`. -/
theorem segmentPacketsAccesses_inRange (stack : Nat → FsPacketUnion) (driver : Driver)
    {start : Nat} {payload : List UInt8} (hroom : start + payload.length ≤ fsMaxDataLength)
    (buf : List UInt8) :
    AllInRange (segmentPacketsAccesses stack driver start buf (sizeSub payload.length 1)) := by
  unfold segmentPacketsAccesses
  split_ifs with hrefused
  · exact allInRange_nil
  · apply segmentPacketsFromAccesses_inRange
    unfold sizeSub fsMaxDataLength at hrefused
    unfold sizeSub
    split_ifs at hrefused ⊢ <;> omega

theorem segmentCommandsFromAccesses_inRange (content : List UInt8) (queue : FsCommandRingbuffer)
    (cmd : FsCommandInfo) (state : SegmentState) {i : Nat}
    (hroom : i + content.length ≤ fsMaxDataLength) :
    AllInRange (segmentCommandsFromAccesses queue cmd i state content) := by
  induction content generalizing queue cmd state i with
  | nil => exact allInRange_nil
  | cons inByte rest ih =>
      rw [List.length_cons] at hroom
      have hpayload : (MemoryAccess.writePayload cmd.payload.length).InRange := cmd.payload_lt
      rw [segmentCommandsFromAccesses]
      refine allInRange_cons.2 ⟨show i < fsMaxDataLength by omega, ?_⟩
      split_ifs
      · refine allInRange_cons.2 ⟨hpayload, ?_⟩
        split
        · exact allInRange_nil
        · exact allInRange_cons.2 ⟨queue.head.isLt, ih _ _ _ (by omega)⟩
      · exact ih _ _ _ (by omega)
      · exact allInRange_cons.2 ⟨hpayload, allInRange_nil⟩
      · exact allInRange_cons.2 ⟨hpayload, ih _ _ _ (by omega)⟩
      · exact ih _ _ _ (by omega)

end Trifecta
