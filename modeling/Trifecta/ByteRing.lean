/-
The ring of received bytes as it lies in memory, the loops over it, and the list
of the newest bytes that it stands for.
-/
import Trifecta.SerialFramer
import Trifecta.Library.Transitions

namespace Trifecta

open RingBuffer Transitions

/-- `fs_bytes_ringbuffer_t`.  Nothing keeps its three counters consistent. -/
@[ext] structure BytesMemory where
  buffer : Fin fsMaxDataLength → UInt8
  head : Nat
  tail : Nat
  count : Nat

namespace BytesMemory

/-- The cell of the array at an index, which is below the size of the array as
long as the counters are remainders. -/
def cell (index : Nat) : Fin fsMaxDataLength :=
  Fin.ofNat fsMaxDataLength index

/-- The loop of `fs_cb_push`. -/
def fsCbPush (rb : BytesMemory) : List UInt8 → BytesMemory
  | [] => rb
  | byte :: data =>
      let written : BytesMemory :=
        { rb with
          buffer := Function.update rb.buffer (cell rb.head) byte
          head := (rb.head + 1) % fsMaxDataLength }
      if rb.count < fsMaxDataLength then fsCbPush { written with count := rb.count + 1 } data
      else fsCbPush { written with tail := (rb.tail + 1) % fsMaxDataLength } data

/-- `fs_cb_peek`: the number of bytes, and what is copied to the caller. -/
def fsCbPeek (rb : BytesMemory) (maxLen : Nat) : Nat × List UInt8 :=
  let toCopy := if rb.count < maxLen then rb.count else maxLen
  (toCopy, (List.range toCopy).map fun i => rb.buffer (cell ((rb.tail + i) % fsMaxDataLength)))

/-- The loop of `fs_cb_pop`. -/
def popLoop : Nat → BytesMemory → List UInt8 × BytesMemory
  | 0, rb => ([], rb)
  | toPop + 1, rb =>
      let rest := popLoop toPop
        { rb with tail := (rb.tail + 1) % fsMaxDataLength, count := rb.count - 1 }
      (rb.buffer (cell rb.tail) :: rest.1, rest.2)

/-- `fs_cb_pop`, with or without a buffer of the caller. -/
def fsCbPop (rb : BytesMemory) (outBuf : Bool) (len : Nat) : (Nat × List UInt8) × BytesMemory :=
  let toPop := if rb.count < len then rb.count else len
  let popped := popLoop toPop rb
  ((toPop, if outBuf then popped.1 else []), popped.2)

/-- The bytes read from the tail on. -/
def content (rb : BytesMemory) : List UInt8 :=
  (List.range rb.count).map fun i => rb.buffer (cell ((rb.tail + i) % fsMaxDataLength))

/-- A ring with some array and its counters at zero. -/
def zeroed (buffer : Fin fsMaxDataLength → UInt8) : BytesMemory :=
  ⟨buffer, 0, 0, 0⟩

end BytesMemory

inductive ByteRingCall
  | push (data : List UInt8)
  | peek (maxLen : Nat)
  | pop (outBuf : Bool) (len : Nat)

/-- The result of a call, with the bytes copied to the caller, and the ring. -/
def byteRingCall (rb : BytesMemory) : ByteRingCall → (Nat × List UInt8) × BytesMemory
  | .push data => ((0, []), rb.fsCbPush data)
  | .peek maxLen => (rb.fsCbPeek maxLen, rb)
  | .pop outBuf len => rb.fsCbPop outBuf len

def byteRingStep (rb : BytesMemory) (call : ByteRingCall) : BytesMemory :=
  (byteRingCall rb call).2

/-- What a queue that keeps the newest bytes answers and leaves. -/
def KeepsNewest (before : BytesMemory) (result : (Nat × List UInt8) × BytesMemory) :
    ByteRingCall → Prop
  | .push data => result.2.content = (before.content ++ data).rtake fsMaxDataLength
  | .peek maxLen =>
      result.1 = (min maxLen before.count, before.content.take (min maxLen before.count)) ∧
        result.2 = before
  | .pop outBuf len =>
      result.1 = (min len before.count,
          if outBuf then before.content.take (min len before.count) else []) ∧
        result.2.content = before.content.drop (min len before.count)

namespace BytesMemory

/-- How a consistent ring lies in memory. -/
def layout (rb : FsBytesRingbuffer) : BytesMemory :=
  ⟨rb.buffer, rb.head, rb.tail, rb.count⟩

section Layout

variable (rb : FsBytesRingbuffer)

theorem cell_val (slot : Fin fsMaxDataLength) : cell slot.val = slot :=
  Fin.ofNat_val_eq_self slot

theorem cell_slotFrom (start : Fin fsMaxDataLength) (offset : Nat) :
    cell ((start.val + offset) % fsMaxDataLength) = slotFrom start offset :=
  cell_val (slotFrom start offset)

theorem content_layout : (layout rb).content = rb.toList := by
  apply List.map_congr_left
  intro i _
  exact congrArg rb.buffer (cell_slotFrom rb.tail i)

theorem copied_eq (count len : Nat) : (if count < len then count else len) = min len count := by
  split_ifs <;> omega

theorem fsCbPeek_layout (maxLen : Nat) :
    (layout rb).fsCbPeek maxLen = (min maxLen rb.count, Trifecta.fsCbPeek rb maxLen) := by
  have hbytes : (List.range (min maxLen rb.count)).map
      (fun i => rb.buffer (cell ((rb.tail.val + i) % fsMaxDataLength))) =
      (List.range (min maxLen rb.count)).map rb.get :=
    List.map_congr_left fun i _ => congrArg rb.buffer (cell_slotFrom rb.tail i)
  rw [Trifecta.fsCbPeek, peek, Nat.min_comm rb.count, ← hbytes, fsCbPeek, copied_eq]
  rfl

/-- The loops over the memory do to a consistent ring what the operations on it do. -/
theorem fsCbPush_layout (data : List UInt8) :
    (layout rb).fsCbPush data = layout (Trifecta.fsCbPush rb data) := by
  induction data generalizing rb with
  | nil => rfl
  | cons byte data ih =>
      rw [fsCbPush]
      by_cases hroom : rb.count < fsMaxDataLength
      · have hstore := ih (rb.store byte hroom)
        have hpush : rb.pushForce byte = rb.store byte hroom := dif_pos hroom
        have hall : Trifecta.fsCbPush rb (byte :: data) =
            Trifecta.fsCbPush (rb.store byte hroom) data := by
          rw [← hpush]
          rfl
        rw [hall, ← hstore]
        simp only [layout, if_pos hroom, cell_val]
        rfl
      · have hoverwrite := ih (rb.overwrite byte hroom)
        have hpush : rb.pushForce byte = rb.overwrite byte hroom := dif_neg hroom
        have hall : Trifecta.fsCbPush rb (byte :: data) =
            Trifecta.fsCbPush (rb.overwrite byte hroom) data := by
          rw [← hpush]
          rfl
        rw [hall, ← hoverwrite]
        simp only [layout, if_neg hroom, cell_val]
        rfl

theorem popLoop_layout {toPop : Nat} (hcount : toPop ≤ rb.count) :
    popLoop toPop (layout rb) = (rb.toList.take toPop, layout (rb.discard toPop)) := by
  induction toPop generalizing rb with
  | zero => rfl
  | succ toPop ih =>
      obtain ⟨value, rest, hpop⟩ := exists_pop rb (by omega)
      have hrest := count_pop hpop
      have hlist := toList_pop hpop
      have hnext := ih rest (by omega)
      have hdiscard : rb.discard (toPop + 1) = rest.discard toPop := by
        rw [RingBuffer.discard, hpop]
      have hpos : 0 < rb.count := by omega
      rw [pop, dif_pos hpos] at hpop
      obtain ⟨hvalue, hlater⟩ := Prod.mk.inj (Option.some.inj hpop)
      have hlayout : layout rest = ⟨rb.buffer, rb.head, (rb.tail + 1) % fsMaxDataLength,
          rb.count - 1⟩ := by
        rw [← hlater]
        rfl
      rw [popLoop, hdiscard, hlist, List.take_succ_cons]
      dsimp only [layout]
      rw [← hlayout, hnext, cell_val, hvalue]
      rfl

theorem fsCbPop_layout (outBuf : Bool) (len : Nat) :
    (layout rb).fsCbPop outBuf len =
      ((min len rb.count, if outBuf then rb.toList.take (min len rb.count) else []),
        layout (rb.discard (min len rb.count))) := by
  have hloop := popLoop_layout rb (Nat.min_le_right len rb.count)
  rw [fsCbPop, copied_eq, show (layout rb).count = rb.count from rfl, hloop]

/-- Every call keeps a consistent ring consistent. -/
theorem exists_byteRingStep_layout (call : ByteRingCall) :
    ∃ next, byteRingStep (layout rb) call = layout next := by
  cases call with
  | push data => exact ⟨_, fsCbPush_layout rb data⟩
  | peek maxLen => exact ⟨rb, rfl⟩
  | pop outBuf len => exact ⟨_, congrArg Prod.snd (fsCbPop_layout rb outBuf len)⟩

theorem keepsNewest_layout (call : ByteRingCall) :
    KeepsNewest (layout rb) (byteRingCall (layout rb) call) call := by
  have hcontent := content_layout rb
  cases call with
  | push data =>
      rw [KeepsNewest, hcontent, byteRingCall, fsCbPush_layout, content_layout]
      exact toList_pushAll rb data
  | peek maxLen =>
      refine ⟨?_, rfl⟩
      rw [byteRingCall, fsCbPeek_layout, hcontent, Trifecta.fsCbPeek, peek_eq_take]
      have htake : rb.toList.take maxLen = rb.toList.take (min maxLen rb.count) := by
        rw [← length_toList, List.take_eq_take_min]
      rw [htake]
      rfl
  | pop outBuf len =>
      rw [KeepsNewest, hcontent, byteRingCall, fsCbPop_layout, content_layout]
      exact ⟨rfl, toList_discard rb _⟩

end Layout

/-- A ring with its counters at zero is an empty ring. -/
theorem zeroed_eq_layout (buffer : Fin fsMaxDataLength → UInt8) :
    zeroed buffer = layout (.init buffer (by decide)) :=
  rfl

theorem exists_run_layout (rb : FsBytesRingbuffer) (calls : List ByteRingCall) :
    ∃ reached, run byteRingStep (layout rb) calls = layout reached := by
  induction calls generalizing rb with
  | nil => exact ⟨rb, rfl⟩
  | cons call calls ih =>
      obtain ⟨next, hnext⟩ := exists_byteRingStep_layout rb call
      obtain ⟨reached, hreached⟩ := ih next
      refine ⟨reached, ?_⟩
      rw [← hreached, ← hnext]
      rfl

/-- After any calls on a ring whose counters were zero the counters are
consistent, and the next call answers as a queue that keeps the newest bytes. -/
theorem byteRing_keeps_newest (buffer : Fin fsMaxDataLength → UInt8)
    (calls : List ByteRingCall) :
    let rb := run byteRingStep (zeroed buffer) calls
    rb.count ≤ fsMaxDataLength ∧ rb.head = (rb.tail + rb.count) % fsMaxDataLength ∧
      ∀ call, KeepsNewest rb (byteRingCall rb call) call := by
  obtain ⟨reached, hreached⟩ := exists_run_layout (.init buffer (by decide)) calls
  rw [zeroed_eq_layout, hreached]
  exact ⟨reached.count_le, reached.head_eq, keepsNewest_layout reached⟩

end BytesMemory

end Trifecta
