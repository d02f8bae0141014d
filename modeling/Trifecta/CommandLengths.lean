/-
Segments of any length as commands: a segment that is too long for the payload
does not vanish, it leaves the end of itself behind as a command.
-/
import Trifecta.CommandDrain

namespace Trifecta

open CText Segments

/-- The bytes that the payload holds after plain bytes have been read one after
another: every 256th byte empties it. -/
def keptPayload (text : List UInt8) : List UInt8 :=
  text.drop (fsMaxCmdLength * (text.length / fsMaxCmdLength))

theorem keptPayload_of_lt {text : List UInt8} (hlength : text.length < fsMaxCmdLength) :
    keptPayload text = text := by
  rw [keptPayload, Nat.div_eq_of_lt hlength, Nat.mul_zero, List.drop_zero]

/-- Reading goes on the same when 256 bytes have been read. -/
theorem keptPayload_append {block : List UInt8} (hblock : block.length = fsMaxCmdLength)
    (text : List UInt8) : keptPayload (block ++ text) = keptPayload text := by
  have hpos : 0 < fsMaxCmdLength := by decide
  rw [keptPayload, List.length_append, hblock, Nat.add_div_left _ hpos, Nat.mul_succ,
    Nat.add_comm, ← List.drop_drop, ← hblock, List.drop_left, hblock, keptPayload]

/-- The terminator behind plain bytes ends one command. -/
theorem scanCommands_kept (cmd : FsCommandInfo) (state : SegmentState) (text rest : List UInt8)
    (hplain : ∀ inByte ∈ text, inByte ≠ cmdTerminator ∧ isLineBreak inByte = false) :
    ∃ first : FsCommandInfo, first.payload = keptPayload (cmd.payload ++ text) ∧
      scanCommands cmd state (text ++ cmdTerminator :: rest) =
        (first :: commandsIn rest, interrupted rest) := by
  induction text generalizing cmd state with
  | nil =>
      refine ⟨cmd, ?_, by simp [scanCommands, commandsIn, interrupted]⟩
      rw [List.append_nil, keptPayload_of_lt cmd.payload_lt]
  | cons inByte text ih =>
      obtain ⟨hterminator, hbreak⟩ := hplain inByte List.mem_cons_self
      have hlater := fun other hother => hplain other (List.mem_cons_of_mem inByte hother)
      rw [List.cons_append, scanCommands, if_neg hterminator, if_neg (by simp [hbreak])]
      by_cases hroom : cmd.payload.length < fsMaxCmdLength - 1
      · obtain ⟨first, hfirst, hscan⟩ := ih (cmd.append inByte hroom) .reading hlater
        refine ⟨first, ?_, by rw [dif_pos hroom, hscan]⟩
        rw [hfirst, FsCommandInfo.append, List.append_assoc, List.singleton_append]
      · -- the 256th byte empties the payload and is lost itself
        obtain ⟨first, hfirst, hscan⟩ := ih .empty .reading hlater
        refine ⟨first, ?_, by rw [dif_neg hroom, hscan]⟩
        have hfull : (cmd.payload ++ [inByte]).length = fsMaxCmdLength := by
          have hlt := cmd.payload_lt
          rw [List.length_append, List.length_singleton]
          omega
        rw [hfirst, ← List.singleton_append, ← List.append_assoc, keptPayload_append hfull]
        rfl

/-- Every segment of a buffer without line breaks becomes one command. -/
theorem commandsIn_kept {buffer : List UInt8}
    (hplain : ∀ inByte ∈ buffer, isLineBreak inByte = false) :
    (commandsIn buffer).map FsCommandInfo.payload =
        (terminated cmdTerminator buffer).map keptPayload ∧
      interrupted buffer = false := by
  induction buffer using segment_induction cmdTerminator with
  | remainder buffer hbuffer =>
      refine ⟨by rw [commandsIn_of_not_mem hbuffer, terminated_of_not_mem hbuffer]; rfl, ?_⟩
      rw [← Bool.not_eq_true, interrupted_iff]
      rintro ⟨front, inByte, rest, rfl, hbreak, _⟩
      rw [hplain inByte (by simp)] at hbreak
      exact absurd hbreak (by decide)
  | segment text rest htext ih =>
      have hsegment : ∀ inByte ∈ text, inByte ≠ cmdTerminator ∧ isLineBreak inByte = false := by
        intro inByte hmem
        exact ⟨fun heq => htext (heq ▸ hmem), hplain inByte (List.mem_append_left _ hmem)⟩
      obtain ⟨hlater, hwhole⟩ := ih fun inByte hmem =>
        hplain inByte (List.mem_append_right text (List.mem_cons_of_mem cmdTerminator hmem))
      obtain ⟨first, hfirst, hscan⟩ := scanCommands_kept .empty .waiting text rest hsegment
      have hpayload : first.payload = keptPayload text := by
        simpa [FsCommandInfo.empty] using hfirst
      rw [terminated_append_cons htext, commandsIn, interrupted, hscan, List.map_cons, hlater,
        hpayload]
      exact ⟨rfl, hwhole⟩

/-- The call returns 0 and the queue then holds one command for each segment
that fits, with the segment as its payload. -/
def SegmentsExactly (queue : FsCommandRingbuffer) (buffer : List UInt8) : Prop :=
  (fsSegmentCommands queue buffer).1 = 0 ∧
    (fsSegmentCommands queue buffer).2.toList.map FsCommandInfo.payload =
      (terminated cmdTerminator buffer).filter fun segment => segment.length ≤ 255

/-- Segments come out as they should exactly when all of them fit. -/
theorem segmentsExactly_iff {queue : FsCommandRingbuffer} (hempty : queue.toList = [])
    {buffer : List UInt8} (hplain : ∀ byte ∈ buffer, byte ∉ ([10, 13, 0] : List UInt8))
    (hcount : buffer.count 59 ≤ 16) :
    SegmentsExactly queue buffer ↔
      ∀ segment ∈ terminated cmdTerminator buffer, segment.length ≤ 255 := by
  have hbreaks : ∀ inByte ∈ buffer, isLineBreak inByte = false := by
    intro inByte hmem
    simpa [isLineBreak, and_assoc] using hplain inByte hmem
  obtain ⟨hcommands, hwhole⟩ := commandsIn_kept hbreaks
  have hfit : queue.count + (commandsIn buffer).length ≤ fsMaxCmdQueueLength := by
    rw [(RingBuffer.toList_eq_nil_iff _).1 hempty, Nat.zero_add, commandsIn,
      length_scanCommands _ _ _ hwhole]
    exact hcount
  obtain ⟨hcode, hqueue⟩ := fsSegmentCommandsFrom_of_fit queue .empty .waiting buffer hfit
  rw [hempty, List.nil_append] at hqueue
  rw [interrupted] at hwhole
  rw [SegmentsExactly, fsSegmentCommands, hcode, hqueue, hwhole, ← commandsIn, hcommands,
    and_iff_right (by simp)]
  constructor
  · intro hsame
    have hlength := congrArg List.length hsame
    rw [List.length_map, eq_comm, List.length_filter_eq_length_iff] at hlength
    simpa using hlength
  · intro hshort
    rw [List.filter_eq_self.2 (by simpa using hshort)]
    refine (List.map_congr_left fun segment hmem => ?_).trans (List.map_id _)
    exact keptPayload_of_lt (Nat.lt_succ_of_le (hshort segment hmem))

theorem segmentsExactly_iff_name :
    SegmentsExactly fsDeviceInfoUninitialized.commandQueue [73, 97, 59] ↔
      ∀ segment ∈ terminated cmdTerminator [73, 97, 59], segment.length ≤ 255 :=
  segmentsExactly_iff (by decide) (by simp) (by decide)

/-- Of a segment of 258 bytes the last two are taken for a command. -/
theorem not_segmentsExactly_overlong :
    (fsSegmentCommands fsDeviceInfoUninitialized.commandQueue
        (List.replicate 256 65 ++ [73, 97, 59])).2.toList.map FsCommandInfo.payload = [[73, 97]] ∧
      ¬ SegmentsExactly fsDeviceInfoUninitialized.commandQueue
        (List.replicate 256 65 ++ [73, 97, 59]) := by
  have hqueue : (fsSegmentCommands fsDeviceInfoUninitialized.commandQueue
      (List.replicate 256 65 ++ [73, 97, 59])).2.toList.map FsCommandInfo.payload =
        [[73, 97]] := by decide +kernel
  have hnone : (terminated cmdTerminator (List.replicate 256 65 ++ [73, 97, 59])).filter
      (fun segment => segment.length ≤ 255) = [] := by decide +kernel
  refine ⟨hqueue, ?_⟩
  rintro ⟨_, hsame⟩
  rw [hqueue, hnone] at hsame
  exact absurd hsame (by simp)

end Trifecta
