/-
A serial stream as a sequence of frames and commands, each taken as soon as its
last byte is there, and when reads that show more of the stream at once take the
same ones.
-/
import Trifecta.FrameDelivery

namespace Trifecta

open CText Registers Segments

theorem header_ne_terminator (kind : FrameKind) : kind.header ≠ cmdTerminator := by
  cases kind <;> decide

theorem FrameAt.not_noFrame {kind : FrameKind} {front payload : List UInt8}
    (hframe : FrameAt kind front payload) (post : List UInt8) :
    ¬ NoFrame (front ++ kind.header :: payload ++ packetFooter :: post) := by
  intro hnoFrame
  have hnot := not_isHeader_of_noFrame hnoFrame hframe.not_mem kind.header (by simp)
  rw [isHeader_header] at hnot
  exact absurd hnot (by decide)

/-- The same bytes hold the same first frame. -/
theorem FrameAt.unique {kind kind' : FrameKind}
    {front payload post front' payload' post' : List UInt8} (hframe : FrameAt kind front payload)
    (hframe' : FrameAt kind' front' payload')
    (heq : front ++ kind.header :: payload ++ packetFooter :: post =
      front' ++ kind'.header :: payload' ++ packetFooter :: post') :
    kind = kind' ∧ front = front' ∧ payload = payload' ∧ post = post' := by
  obtain ⟨hpre, rfl⟩ := append_cons_unique hframe.not_mem hframe'.not_mem heq
  have hkind : kind = kind' := by
    cases kind with
    | binary => exact (hframe'.preferred (by rw [← hpre]; simp [FrameKind.header])).symm
    | base64 =>
        cases kind' with
        | binary => exact hframe.preferred (by rw [hpre]; simp [FrameKind.header])
        | base64 => rfl
  subst hkind
  obtain ⟨rfl, rfl⟩ := append_cons_unique_last hframe.last hframe'.last hpre
  exact ⟨rfl, rfl, rfl, rfl⟩

theorem noFrame_of_append {content more : List UInt8} (hnoFrame : NoFrame (content ++ more)) :
    NoFrame content := by
  rintro pre post rfl hpre
  exact hnoFrame pre (post ++ more) (by simp) hpre

theorem noFrame_of_not_mem {content : List UInt8} (hcontent : packetFooter ∉ content) :
    NoFrame content := by
  rintro pre post rfl _
  simp at hcontent

/-- A segment of a stream: a frame, or a command without its terminator. -/
inductive StreamSegment
  | frame (kind : FrameKind) (payload : List UInt8)
  | command (text : List UInt8)

/-- What one command assigns, by itself. -/
def segmentWrites (text : List UInt8) : List (CommandField × FieldValue) :=
  (commandsIn (text ++ [cmdTerminator])).filterMap commandEffect

def StreamSegment.writes : StreamSegment → List (CommandField × FieldValue)
  | .frame _ _ => []
  | .command text => segmentWrites text

/-- The segments behind the next frame. -/
def behindFrame : List StreamSegment → List StreamSegment
  | [] => []
  | .frame _ _ :: later => later
  | .command _ :: later => behindFrame later

theorem behindFrame_commands (texts : List (List UInt8)) (kind : FrameKind)
    (payload : List UInt8) (later : List StreamSegment) :
    behindFrame (texts.map .command ++ .frame kind payload :: later) = later := by
  induction texts with
  | nil => rfl
  | cons text texts ih => exact ih

/-- Every field that `early` assigns is assigned again by the segments. -/
def WrittenAgain (early : List (CommandField × FieldValue))
    (segments : List StreamSegment) : Prop :=
  ∀ write ∈ early, ∃ later ∈ segments.flatMap StreamSegment.writes, later.1 = write.1

/-- Neither a header nor a footer stands in a command. -/
def PlainText (text : List UInt8) : Prop :=
  packetFooter ∉ text ∧ ∀ kind : FrameKind, kind.header ∉ text

/-- Handling the commands of a buffer empties the queue again, and whatever
assigns a field there is a command and no frame with bytes around it. -/
structure HandledApart (content : List UInt8) : Prop where
  drains : CommandsDrain content
  commands : ∀ text ∈ terminated cmdTerminator content, segmentWrites text ≠ [] → NoFrame text

theorem handledApart_of_plain {content : List UInt8} (hfooter : packetFooter ∉ content)
    (hplain : ∀ inByte ∈ content, isLineBreak inByte = false)
    (hcount : content.count cmdTerminator ≤ fsMaxCmdQueueLength) : HandledApart content := by
  constructor
  · refine Or.inl ⟨hcount, ?_⟩
    rintro front ⟨inByte, rest, rfl, hbreak, _⟩
    rw [hplain inByte (by simp)] at hbreak
    exact absurd hbreak (by decide)
  · intro text htext _
    exact noFrame_of_not_mem fun hmem => hfooter (subset_of_mem_terminated htext hmem)

/-- A stream that is read as the same segments in whatever reads it arrives.  A
command either never shares the buffer with a frame behind it, or is plain and
may get lost with the frame because its fields are assigned again behind it. -/
inductive ReadAs : List UInt8 → List StreamSegment → Prop
  | rest (content : List UInt8) (hnone : cmdTerminator ∉ content)
      (hnoFrame : NoFrame content) : ReadAs content []
  | frame (kind : FrameKind) (front payload post : List UInt8)
      (segments : List StreamSegment) (hframe : FrameAt kind front payload)
      (hfront : cmdTerminator ∉ front) (hpayload : cmdTerminator ∉ payload)
      (hpost : ReadAs post segments) :
      ReadAs (front ++ kind.header :: payload ++ packetFooter :: post)
        (.frame kind payload :: segments)
  | command (text post : List UInt8) (segments : List StreamSegment)
      (htext : cmdTerminator ∉ text)
      (hframe : NoFrame (text ++ cmdTerminator :: post) ∨
        PlainText text ∧ WrittenAgain (segmentWrites text) (behindFrame segments))
      (happart : ∀ content, content <+: text ++ cmdTerminator :: post →
        cmdTerminator ∈ content → NoFrame content → HandledApart content)
      (hpost : ReadAs post segments) :
      ReadAs (text ++ cmdTerminator :: post) (.command text :: segments)

/-- The first frame of a stream that begins with a plain command lies behind the
command. -/
theorem exists_frame_behind {text rest : List UInt8} (htext : PlainText text)
    {kind : FrameKind} {front payload post : List UInt8} (hframe : FrameAt kind front payload)
    (heq : text ++ cmdTerminator :: rest =
      front ++ kind.header :: payload ++ packetFooter :: post) :
    ∃ front', FrameAt kind front' payload ∧
      rest = front' ++ kind.header :: payload ++ packetFooter :: post := by
  have hnot : ∀ byte ≠ cmdTerminator, byte ∉ text → ∀ back more : List UInt8,
      text ++ [cmdTerminator] ≠ back ++ byte :: more := by
    intro byte hbyte hmem back more hsplit
    have hboth : byte ∈ text ++ [cmdTerminator] := by
      rw [hsplit]
      simp
    rw [List.mem_append, List.mem_singleton] at hboth
    exact hboth.elim hmem hbyte
  rw [List.append_cons] at heq
  rcases append_eq_append_cons heq with ⟨back, hback, _⟩ | ⟨more, hmore, hrest⟩
  · exact absurd hback (hnot packetFooter (by decide) htext.1 _ _)
  rcases append_eq_append_cons hmore.symm with ⟨back, hback, _⟩ | ⟨front', hfront, hpre⟩
  · exact absurd hback (hnot kind.header (header_ne_terminator kind) (htext.2 kind) _ _)
  refine ⟨front', ⟨fun hmem => hframe.frontPlain ?_, hframe.payloadPlain, hframe.last,
    fun hmem => hframe.preferred ?_⟩, by rw [hrest, hpre]⟩
  · rw [hfront]
    exact List.mem_append_right _ hmem
  · rw [hfront, List.append_assoc]
    exact List.mem_append_right _ hmem

/-- Where a stream shows a frame, its next frame is that one, and the commands
in front of it can be spared. -/
theorem ReadAs.of_frame {stream : List UInt8} {segments : List StreamSegment}
    (hread : ReadAs stream segments) {kind : FrameKind} {front payload post : List UInt8}
    (hframe : FrameAt kind front payload)
    (hstream : stream = front ++ kind.header :: payload ++ packetFooter :: post) :
    ∃ (texts : List (List UInt8)) (later : List StreamSegment),
      segments = texts.map .command ++ .frame kind payload :: later ∧
      (∀ text ∈ texts, WrittenAgain (segmentWrites text) later) ∧ ReadAs post later := by
  induction hread generalizing front with
  | rest content hnone hnoFrame =>
      rw [hstream] at hnoFrame
      exact absurd hnoFrame (hframe.not_noFrame post)
  | frame kind' front' payload' post' segments hframe' hfront hpayload hpost ih =>
      obtain ⟨rfl, rfl, rfl, rfl⟩ := hframe.unique hframe' hstream.symm
      exact ⟨[], segments, rfl, fun _ htext => absurd htext List.not_mem_nil, hpost⟩
  | command text post' segments htext hspared happart hpost ih =>
      rcases hspared with hnoFrame | ⟨hplain, hagain⟩
      · rw [hstream] at hnoFrame
        exact absurd hnoFrame (hframe.not_noFrame post)
      · obtain ⟨front', hinner, hpost'⟩ := exists_frame_behind hplain hframe hstream
        obtain ⟨texts, later, rfl, hall, hlater⟩ := ih hinner hpost'
        rw [behindFrame_commands] at hagain
        refine ⟨text :: texts, later, rfl, ?_, hlater⟩
        intro other hother
        rcases List.mem_cons.1 hother with rfl | hrest
        · exact hagain
        · exact hall other hrest

/-- A command that a read shows without a frame is the next segment. -/
theorem ReadAs.of_command {stream : List UInt8} {segments : List StreamSegment}
    (hread : ReadAs stream segments) {text post : List UInt8} (htext : cmdTerminator ∉ text)
    (hnoFrame : NoFrame text) (hstream : stream = text ++ cmdTerminator :: post) :
    ∃ later, segments = .command text :: later ∧ ReadAs post later ∧
      ∀ content, content <+: stream → cmdTerminator ∈ content → NoFrame content →
        HandledApart content := by
  cases hread with
  | rest _ hnone _ =>
      rw [hstream] at hnone
      simp at hnone
  | frame kind front payload post' segments hframe hfront hpayload hpost =>
      have hpre : cmdTerminator ∉ front ++ kind.header :: payload := by
        rw [List.mem_append, List.mem_cons, not_or, not_or]
        exact ⟨hfront, Ne.symm (header_ne_terminator kind), hpayload⟩
      rcases append_eq_append_cons hstream.symm with ⟨back, rfl, _⟩ | ⟨back, hback, hrest⟩
      · exact absurd hnoFrame (hframe.not_noFrame back)
      · -- the terminator would stand inside the frame
        cases back with
        | nil => exact absurd (List.cons.inj hrest).1 (by decide)
        | cons first back =>
            obtain ⟨rfl, _⟩ := List.cons.inj hrest
            rw [hback] at hpre
            simp at hpre
  | command text' post' segments htext' hspared happart hpost =>
      obtain ⟨rfl, rfl⟩ := append_cons_unique htext' htext hstream
      exact ⟨segments, rfl, hpost, happart⟩

/-- A text between two terminators that is no frame is a command of the
stream. -/
theorem ReadAs.mem_command {stream : List UInt8} {segments : List StreamSegment}
    (hread : ReadAs stream segments) {text : List UInt8}
    (hmem : text ∈ terminated cmdTerminator stream) (hnoFrame : NoFrame text) :
    .command text ∈ segments := by
  induction hread with
  | rest content hnone _ =>
      rw [terminated_of_not_mem hnone] at hmem
      exact absurd hmem List.not_mem_nil
  | frame kind front payload post segments hframe hfront hpayload hpost ih =>
      have hpre : cmdTerminator ∉ front ++ kind.header :: payload ++ [packetFooter] := by
        simp only [List.mem_append, List.mem_cons, List.not_mem_nil, or_false, not_or]
        exact ⟨⟨hfront, Ne.symm (header_ne_terminator kind), hpayload⟩, by decide⟩
      rw [List.append_cons] at hmem
      rcases mem_terminated_of_append hpre hmem with ⟨back, rfl⟩ | hlater
      · rw [List.append_assoc _ [packetFooter]] at hnoFrame
        exact absurd hnoFrame (hframe.not_noFrame back)
      · exact List.mem_cons_of_mem _ (ih hlater)
  | command other post segments hother _ _ hpost ih =>
      rw [terminated_append_cons hother] at hmem
      rcases List.mem_cons.1 hmem with rfl | hlater
      · exact List.mem_cons_self
      · exact List.mem_cons_of_mem _ (ih hlater)

/-- Nothing is left to read where the framer can do nothing. -/
theorem ReadAs.of_stopped {content : List UInt8} {segments : List StreamSegment}
    (hread : ReadAs content segments) (hnone : cmdTerminator ∉ content)
    (hnoFrame : NoFrame content) : segments = [] := by
  cases hread with
  | rest => rfl
  | frame kind front payload post segments hframe =>
      exact absurd hnoFrame (hframe.not_noFrame post)
  | command text post segments => simp at hnone

end Trifecta
