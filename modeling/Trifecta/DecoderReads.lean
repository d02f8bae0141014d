/-
The Base64 decoder fetches four characters at a time: which payloads make it read
behind the end of its string, and when a whole run stays inside its arrays.
-/
import Trifecta.MemoryAccess
import Trifecta.StreamSegments

namespace Trifecta

open CText Segments

/-- No group that the decoder fetches ends behind the terminator of the string:
the last group is whole or lacks one character, or the decoder gives up
before it. -/
def FetchedWhole (text : List UInt8) : Prop :=
  text.length % 4 = 0 ∨ text.length % 4 = 3 ∨ fsMaxPacketLength < 3 * (text.length / 4) ∨
    ∃ c ∈ text.take (4 * (text.length / 4)), isBase64 c = false

section Decoder

variable {start inputLength bufferSize : Nat} {input : List UInt8}

theorem readChar_inRange_iff (hroom : start + inputLength < fsMaxDataLength) (i : Nat) :
    AllInRange (readChar start inputLength i) ↔ i ≤ inputLength := by
  rw [readChar, allInRange_cons, allInRange_cons]
  constructor
  · intro hinside
    exact hinside.2.1
  · intro hle
    exact ⟨show start + i < fsMaxDataLength by omega, hle, allInRange_nil⟩

theorem sextetAccesses_inRange_iff (hroom : start + inputLength < fsMaxDataLength) (i : Nat) :
    AllInRange (sextetAccesses start inputLength input i) ↔ i ≤ inputLength := by
  unfold sextetAccesses
  split_ifs
  · exact readChar_inRange_iff hroom i
  · rw [allInRange_append, readChar_inRange_iff hroom, and_self]

theorem storeAccesses_inRange (hsize : bufferSize ≤ fsMaxPacketLength) (j : Nat) :
    AllInRange (storeAccesses bufferSize j) := by
  apply allInRange_map
  intro k hk
  exact lt_of_lt_of_le (by simpa using (List.mem_filter.1 hk).2) hsize

theorem getD_ne_padChar (hpad : padChar ∉ input) (i : Nat) : input[i]?.getD 0 ≠ padChar := by
  intro heq
  cases hget : input[i]? with
  | none =>
      rw [hget] at heq
      exact absurd heq (by decide)
  | some c =>
      rw [hget, Option.getD_some] at heq
      exact hpad (heq ▸ List.mem_of_getElem? hget)

theorem nextSextet_eq {i : Nat} (hpad : padChar ∉ input) :
    nextSextet input i = (base64CharToValue (input[i]?.getD 0), i + 1) := by
  rw [nextSextet, if_neg (getD_ne_padChar hpad i)]

theorem countPadding_of_not_mem (hpad : padChar ∉ input) (length : Nat) :
    countPadding input length = 0 := by
  simp [countPadding, getD_ne_padChar hpad]

/-- A round on four characters of the alphabet. -/
theorem decodeLoopAccesses_quad (hpad : padChar ∉ input)
    (hroom : start + inputLength < fsMaxDataLength) (hsize : bufferSize ≤ fsMaxPacketLength)
    (fuel : Nat) {i : Nat} (written : List UInt8) (hi : i < inputLength)
    (hgroup : ∀ k < 4, isBase64 (input[i + k]?.getD 0) = true) :
    ∃ stored, AllInRange (decodeLoopAccesses start input inputLength bufferSize (fuel + 1) i
        written) ↔
      i + 3 ≤ inputLength ∧
        AllInRange (decodeLoopAccesses start input inputLength bufferSize fuel (i + 4) stored) := by
  obtain ⟨a, ha⟩ := Option.isSome_iff_exists.1 (hgroup 0 (by decide))
  obtain ⟨b, hb⟩ := Option.isSome_iff_exists.1 (hgroup 1 (by decide))
  obtain ⟨c, hc⟩ := Option.isSome_iff_exists.1 (hgroup 2 (by decide))
  obtain ⟨d, hd⟩ := Option.isSome_iff_exists.1 (hgroup 3 (by decide))
  rw [Nat.add_zero] at ha
  refine ⟨storeBytes bufferSize written (tripleBytes a b c d), ?_⟩
  rw [decodeLoopAccesses, if_pos hi]
  simp only [nextSextet_eq hpad, Nat.add_assoc, Nat.reduceAdd, ha, hb, hc, hd, allInRange_append,
    sextetAccesses_inRange_iff hroom]
  constructor
  · rintro ⟨⟨_, hthird⟩, _, hrest⟩
    exact ⟨hthird, hrest⟩
  · rintro ⟨hthird, hrest⟩
    exact ⟨⟨⟨⟨by omega, by omega⟩, by omega⟩, hthird⟩, storeAccesses_inRange hsize _, hrest⟩

/-- A round with a wrong character is the last one. -/
theorem decodeLoopAccesses_wrong (hpad : padChar ∉ input)
    (hroom : start + inputLength < fsMaxDataLength) (fuel : Nat) {i : Nat} (written : List UInt8)
    (hi : i < inputLength) {k : Nat} (hk : k < 4)
    (hwrong : isBase64 (input[i + k]?.getD 0) = false) :
    AllInRange (decodeLoopAccesses start input inputLength bufferSize (fuel + 1) i written) ↔
      i + 3 ≤ inputLength := by
  rw [decodeLoopAccesses, if_pos hi]
  simp only [nextSextet_eq hpad, Nat.add_assoc, Nat.reduceAdd]
  split
  · next ha hb hc hd =>
      have hnone : base64CharToValue (input[i + k]?.getD 0) = none :=
        Option.not_isSome_iff_eq_none.1 (by rw [← isBase64, hwrong]; decide)
      rcases (by omega : k = 0 ∨ k = 1 ∨ k = 2 ∨ k = 3) with rfl | rfl | rfl | rfl
      · exact absurd (ha.symm.trans hnone) (by simp)
      · exact absurd (hb.symm.trans hnone) (by simp)
      · exact absurd (hc.symm.trans hnone) (by simp)
      · exact absurd (hd.symm.trans hnone) (by simp)
  · simp only [allInRange_append, sextetAccesses_inRange_iff hroom, readChar_inRange_iff hroom]
    omega

/-- The loop from `i` on stays inside if and only if the characters left form
groups of four, lack only one, or have a wrong one in a whole group. -/
theorem decodeLoopAccesses_inRange_iff (hpad : padChar ∉ input)
    (hend : input[inputLength]?.getD 0 = 0) (hroom : start + inputLength < fsMaxDataLength)
    (hsize : bufferSize ≤ fsMaxPacketLength) (fuel : Nat) {i : Nat} (written : List UInt8)
    (hfuel : inputLength - i < fuel) :
    AllInRange (decodeLoopAccesses start input inputLength bufferSize fuel i written) ↔
      (inputLength - i) % 4 = 0 ∨ (inputLength - i) % 4 = 3 ∨
        ∃ k < 4 * ((inputLength - i) / 4), isBase64 (input[i + k]?.getD 0) = false := by
  induction fuel generalizing i written with
  | zero => exact absurd hfuel (Nat.not_lt_zero _)
  | succ fuel ih =>
      by_cases hi : i < inputLength
      · by_cases hgroup : ∀ k < 4, isBase64 (input[i + k]?.getD 0) = true
        · -- a whole group of the alphabet ends in front of the terminator
          have hinside : i + 4 ≤ inputLength := by
            apply Classical.byContradiction
            intro hshort
            have hnul := hgroup (inputLength - i) (by omega)
            rw [Nat.add_sub_cancel' (Nat.le_of_lt hi), hend] at hnul
            exact absurd hnul (by decide)
          obtain ⟨stored, hround⟩ :=
            decodeLoopAccesses_quad hpad hroom hsize fuel written hi hgroup
          rw [hround, ih stored (show inputLength - (i + 4) < fuel by omega)]
          constructor
          · rintro ⟨_, hzero | hthree | ⟨k, hk, hwrong⟩⟩
            · exact Or.inl (by omega)
            · exact Or.inr (Or.inl (by omega))
            · refine Or.inr (Or.inr ⟨4 + k, by omega, ?_⟩)
              rwa [← Nat.add_assoc]
          · rintro (hzero | hthree | ⟨k, hk, hwrong⟩)
            · exact ⟨by omega, Or.inl (by omega)⟩
            · exact ⟨by omega, Or.inr (Or.inl (by omega))⟩
            · have hlater : 4 ≤ k := by
                apply Classical.byContradiction
                intro hfirst
                rw [hgroup k (by omega)] at hwrong
                exact absurd hwrong (by decide)
              refine ⟨by omega, Or.inr (Or.inr ⟨k - 4, by omega, ?_⟩)⟩
              rwa [show i + 4 + (k - 4) = i + k by omega]
        · obtain ⟨k, hk⟩ := Classical.not_forall.1 hgroup
          obtain ⟨hk, hwrong⟩ := Classical.not_imp.1 hk
          rw [Bool.not_eq_true] at hwrong
          rw [decodeLoopAccesses_wrong hpad hroom fuel written hi hk hwrong]
          constructor
          · intro hinside
            by_cases hlong : i + 4 ≤ inputLength
            · exact Or.inr (Or.inr ⟨k, by omega, hwrong⟩)
            · exact Or.inr (Or.inl (by omega))
          · rintro (hzero | hthree | ⟨j, hj, _⟩) <;> omega
      · rw [decodeLoopAccesses, if_neg hi]
        exact iff_of_true allInRange_nil (Or.inl (by omega))

/-- Decoding a string of `temp` stays inside `temp` and the string if and only if
no group is fetched beyond its end. -/
theorem base64DecodeAccesses_inRange_iff (hpad : padChar ∉ input)
    (hroom : start + (decoderText input).length < fsMaxDataLength) :
    AllInRange (base64DecodeAccesses start input fsMaxPacketLength) ↔
      FetchedWhole (decoderText input) := by
  have hlength : fsSafeStrnlen input fsMaxDataLength = (decoderText input).length := rfl
  have hend : input[(decoderText input).length]?.getD 0 = 0 := by
    rw [decoderText_of_short (by omega)]
    exact getElem?_length_cString input
  have hsearch : AllInRange ((List.range (min ((decoderText input).length + 1)
      fsMaxDataLength)).flatMap (readChar start (decoderText input).length)) := by
    intro access haccess
    obtain ⟨index, hindex, hmem⟩ := List.mem_flatMap.1 haccess
    have hle := List.mem_range.1 hindex
    exact (readChar_inRange_iff hroom index).2 (by omega) access hmem
  have hlook : ∀ back : Nat, AllInRange (if back ≤ (decoderText input).length then
      readChar start (decoderText input).length ((decoderText input).length - back) else []) := by
    intro back
    split_ifs
    · exact (readChar_inRange_iff hroom _).2 (Nat.sub_le _ _)
    · exact allInRange_nil
  have hmem : (∃ k < 4 * ((decoderText input).length / 4),
      isBase64 (input[k]?.getD 0) = false) ↔
      ∃ c ∈ (decoderText input).take (4 * ((decoderText input).length / 4)),
        isBase64 c = false := by
    constructor
    · rintro ⟨k, hk, hwrong⟩
      have hget := @getElem?_decoderText input k (by omega)
      refine ⟨input[k]?.getD 0, ?_, hwrong⟩
      rw [← hget, List.getElem?_eq_getElem (show k < (decoderText input).length by omega),
        Option.getD_some]
      exact List.mem_take_iff_getElem.2 ⟨k, by omega, rfl⟩
    · rintro ⟨c, hc, hwrong⟩
      obtain ⟨k, hk, rfl⟩ := List.mem_take_iff_getElem.1 hc
      refine ⟨k, by omega, ?_⟩
      rw [← @getElem?_decoderText input k (by omega),
        List.getElem?_eq_getElem (show k < (decoderText input).length by omega), Option.getD_some]
      exact hwrong
  simp only [base64DecodeAccesses, hlength, countPadding_of_not_mem hpad, sizeSub_zero,
    allInRange_append]
  rw [FetchedWhole, ← hmem]
  by_cases hlong : fsMaxPacketLength < 3 * ((decoderText input).length / 4)
  · rw [if_pos hlong]
    exact iff_of_true ⟨⟨⟨hsearch, hlook 1⟩, hlook 2⟩, allInRange_nil⟩
      (Or.inr (Or.inr (Or.inl hlong)))
  · have hloop := @decodeLoopAccesses_inRange_iff start _ fsMaxPacketLength input hpad hend hroom
      (Nat.le_refl _) ((decoderText input).length + 1) 0 [] (Nat.lt_succ_self _)
    simp only [Nat.sub_zero, Nat.zero_add] at hloop
    rw [if_neg hlong, hloop]
    simp only [hlong, false_or, and_iff_right_iff_imp]
    intro _
    exact ⟨⟨hsearch, hlook 1⟩, hlook 2⟩

end Decoder

theorem base64ToPacketAccesses_inRange_iff {driver : Driver} {start : Nat}
    {payload beyond : List UInt8} (hpad : padChar ∉ payload ++ packetFooter :: beyond)
    (hroom : start + payload.length < fsMaxDataLength) :
    AllInRange (base64ToPacketAccesses driver start (payload ++ packetFooter :: beyond)
        payload.length) ↔ FetchedWhole (payloadText payload) := by
  have htext := decoderText_set payload beyond packetFooter
  have hshort : (payloadText payload).length ≤ payload.length :=
    (length_cString_le _).trans (List.length_take_le' _ _)
  have hplain : padChar ∉ (payload ++ packetFooter :: beyond).set payload.length 0 := by
    intro hmem
    rcases List.mem_or_eq_of_mem_set hmem with hold | hnew
    · exact hpad hold
    · exact absurd hnew (by decide)
  have hdecode := @base64DecodeAccesses_inRange_iff start _ hplain (by rw [htext]; omega)
  rw [htext] at hdecode
  rw [base64ToPacketAccesses, List.cons_append, allInRange_cons, allInRange_append, hdecode]
  constructor
  · intro hinside
    exact hinside.2.1
  · intro hfetched
    refine ⟨show start + payload.length < fsMaxDataLength from hroom, hfetched, ?_⟩
    split
    · exact allInRange_nil
    · simp only
      split_ifs
      · exact allInRange_nil
      · exact allInRange_nil
      · exact enqueueAccesses_inRange _

/-- If the framer takes a Base64 frame next, then no group of its payload is
fetched beyond the end. -/
def FetchesWhole (driver : Driver) : Prop :=
  ∀ front payload post, FrameAt .base64 front payload →
    driver.pending = front ++ packetHeader :: payload ++ packetFooter :: post →
    FetchedWhole (payloadText payload)

section Rounds

variable (stack : Nat → FsPacketUnion) {driver : Driver}

theorem length_pending_le (driver : Driver) : driver.pending.length ≤ fsMaxDataLength := by
  rw [Driver.pending, RingBuffer.length_toList]
  exact driver.device.dataBuffer.count_le

theorem fetchesWhole_of_noFrame (hnoFrame : NoFrame driver.pending) : FetchesWhole driver := by
  intro front payload post hframe hpending
  rw [hpending] at hnoFrame
  exact absurd hnoFrame (hframe.not_noFrame post)

theorem fetchesWhole_of_binary {front payload post : List UInt8}
    (hframe : FrameAt .binary front payload)
    (hpending : driver.pending = front ++ packetHeaderV2 :: payload ++ packetFooter :: post) :
    FetchesWhole driver := by
  intro front' payload' post' hframe' hpending'
  obtain ⟨hkind, _⟩ := hframe.unique hframe' (hpending.symm.trans hpending')
  exact absurd hkind (by decide)

theorem fetchesWhole_of_base64 {front payload post : List UInt8}
    (hframe : FrameAt .base64 front payload)
    (hpending : driver.pending = front ++ packetHeader :: payload ++ packetFooter :: post) :
    FetchesWhole driver ↔ FetchedWhole (payloadText payload) := by
  constructor
  · intro hfetches
    exact hfetches front payload post hframe hpending
  · intro hfetched front' payload' post' hframe' hpending'
    obtain ⟨_, _, rfl, _⟩ := hframe.unique hframe' (hpending.symm.trans hpending')
    exact hfetched

/-- A round stays inside the arrays if and only if the Base64 frame that it takes,
if any, is fetched inside its string. -/
theorem serialRoundAccesses_inRange_iff (hpad : padChar ∉ driver.pending) :
    AllInRange (serialRoundAccesses stack driver) ↔ FetchesWhole driver := by
  have hlength := length_pending_le driver
  have hscan := scanDelimitersAccesses_inRange driver.pending ⟨none, none, none, none⟩ none none
    (show 0 + driver.pending.length ≤ fsMaxDataLength by omega)
  rw [serialRoundAccesses, peek_eq_pending, allInRange_append,
    and_iff_right (cbPeekAccesses_inRange driver.device.dataBuffer)]
  rcases noFrame_or_frame driver.pending with
    hnoFrame | ⟨kind, front, payload, post, hframe, hpending⟩
  · refine iff_of_true ?_ (fetchesWhole_of_noFrame hnoFrame)
    split_ifs
    · exact allInRange_nil
    · rw [allInRange_append, findSegment_of_noFrame hnoFrame]
      refine ⟨hscan, ?_⟩
      cases firstIndexFrom cmdTerminator 0 driver.pending with
      | none => exact allInRange_nil
      | some index => exact segmentCommandsFromAccesses_inRange _ _ _ _ (by omega)
  · have hne : driver.pending ≠ [] := by simp [hpending]
    rw [if_neg hne, allInRange_append, and_iff_right hscan]
    have hsize := congrArg List.length hpending
    simp only [List.length_append, List.length_cons] at hsize
    cases kind with
    | binary =>
        have hcontent : driver.pending =
            front ++ packetHeaderV2 :: payload ++ packetFooter :: post := hpending
        refine iff_of_true ?_ (fetchesWhole_of_binary hframe hcontent)
        rw [hcontent, findSegment_binary hframe.frontPlain hframe.payloadPlain hframe.last]
        simp only [sizeSub_payload]
        exact segmentPacketsAccesses_inRange stack driver (by omega) _
    | base64 =>
        have hbinary : packetHeaderV2 ∉ front ++ packetHeader :: payload := fun hmem =>
          absurd (hframe.preferred hmem) (by decide)
        have hcontent : driver.pending =
            front ++ packetHeader :: payload ++ packetFooter :: post := hpending
        rw [fetchesWhole_of_base64 hframe hcontent]
        rw [hcontent] at hpad ⊢
        rw [findSegment_base64 hframe.frontPlain hframe.payloadPlain hframe.last hbinary]
        simp only [sizeSub_payload, drop_frame]
        apply base64ToPacketAccesses_inRange_iff
        · intro hmem
          exact hpad (by
            rw [List.append_assoc]
            exact List.mem_append_right _ (List.mem_cons_of_mem _ hmem))
        · omega

/-- Every round of the loop starts where the next Base64 frame is fetched inside
its string. -/
def RoundsFetchWhole (stack : Nat → FsPacketUnion) : Nat → Driver → Prop
  | 0, _ => True
  | fuel + 1, driver =>
      FetchesWhole driver ∧
        match serialRound stack driver with
        | some (.again next) => RoundsFetchWhole stack fuel next
        | _ => True

theorem serialLoopAccesses_inRange_iff (fuel : Nat) (hpad : padChar ∉ driver.pending) :
    AllInRange (serialLoopAccesses stack fuel driver) ↔ RoundsFetchWhole stack fuel driver := by
  induction fuel generalizing driver with
  | zero => exact iff_of_true allInRange_nil trivial
  | succ fuel ih =>
      rw [serialLoopAccesses, RoundsFetchWhole, allInRange_append,
        serialRoundAccesses_inRange_iff stack hpad]
      apply and_congr_right
      intro _
      have hkept : ∀ next, serialRound stack driver = some (.again next) →
          padChar ∉ next.pending := by
        intro next hnext hmem
        have hsuffix : next.pending <:+ driver.pending := by
          cases roundCase stack hpad with
          | stopped code _ hround => exact absurd (hround.symm.trans hnext) (by simp)
          | command text post after _ _ hpending _ hround hpost =>
              obtain rfl := SerialRound.again.inj (Option.some.inj (hround.symm.trans hnext))
              rw [hpost, hpending]
              exact suffix_of_frame text post cmdTerminator
          | frame kind front payload post handled after _ hpending _ _ hround hpost =>
              obtain rfl := SerialRound.again.inj (Option.some.inj (hround.symm.trans hnext))
              rw [hpost, hpending]
              exact suffix_of_frame _ post packetFooter
        exact hpad (hsuffix.subset hmem)
      cases hround : serialRound stack driver with
      | none => exact iff_of_true allInRange_nil trivial
      | some outcome =>
          cases outcome with
          | returned code after => exact iff_of_true allInRange_nil trivial
          | again next => exact ih (hkept next hround)

end Rounds

/-- Every round of every call starts where the next Base64 frame is fetched inside
its string. -/
def ReceivesFetchWhole (stack : Nat → FsPacketUnion) : Driver → List (List UInt8) → Prop
  | _, [] => True
  | driver, chunk :: later =>
      (chunk ≠ [] → RoundsFetchWhole stack ((driver.receive chunk).device.dataBuffer.count + 1)
        (driver.receive chunk)) ∧
        match fsDeviceParsePacket stack driver chunk .uart with
        | some (_, after) => ReceivesFetchWhole stack after later
        | none => True

/-- Receiving chunks without padding characters stays inside the arrays, and the
decoder inside its strings, if and only if no Base64 frame that is taken makes
the decoder fetch a group beyond the end of its string. -/
theorem receiveAccesses_inRange_iff (stack : Nat → FsPacketUnion) (chunks : List (List UInt8))
    (driver : Driver) (hpending : padChar ∉ driver.pending)
    (hchunks : ∀ chunk ∈ chunks, padChar ∉ chunk) :
    AllInRange (receiveAccesses stack driver chunks) ↔ ReceivesFetchWhole stack driver chunks := by
  induction chunks generalizing driver with
  | nil => exact iff_of_true allInRange_nil trivial
  | cons chunk later ih =>
      have hplain : padChar ∉ driver.pending ++ chunk := by
        rw [List.mem_append, not_or]
        exact ⟨hpending, hchunks chunk List.mem_cons_self⟩
      rw [receiveAccesses, ReceivesFetchWhole, allInRange_append]
      apply and_congr
      · unfold parsePacketAccesses
        by_cases hempty : chunk = []
        · rw [if_pos hempty]
          exact iff_of_true allInRange_nil fun hne => absurd hempty hne
        · rw [if_neg hempty, allInRange_append, and_iff_right (cbPushAccesses_inRange chunk _),
            serialLoopAccesses_inRange_iff stack, forall_prop_of_true hempty]
          rw [pending_receive]
          exact fun hmem => hplain ((framerContent_suffix driver chunk).subset hmem)
      · cases hcall : fsDeviceParsePacket stack driver chunk .uart with
        | none => exact iff_of_true allInRange_nil trivial
        | some result =>
            refine ih result.2 ?_ fun other hother =>
              hchunks other (List.mem_cons_of_mem chunk hother)
            by_cases hempty : chunk = []
            · rw [hempty, fsDeviceParsePacket_nil] at hcall
              obtain rfl := Option.some.inj hcall
              exact hpending
            · obtain ⟨code, after, hserial, hsuffix, _⟩ :=
                fsDeviceProcessPacketsSerial_spec stack driver chunk hplain
              have hsame := fsDeviceParsePacket_uart stack driver hempty
              rw [hcall, hserial] at hsame
              obtain hafter : result.2 = after := Option.some.inj hsame
              rw [hafter]
              exact fun hmem => hplain (hsuffix.subset hmem)

/-- A frame of four characters. -/
theorem receiveAccesses_inRange_iff_quad :
    AllInRange (receiveAccesses (fun _ => .zero 185) driverUninitialized
        [[58, 65, 65, 65, 65, 33]]) ↔
      ReceivesFetchWhole (fun _ => .zero 185) driverUninitialized [[58, 65, 65, 65, 65, 33]] :=
  receiveAccesses_inRange_iff (fun _ => .zero 185) [[58, 65, 65, 65, 65, 33]] driverUninitialized
    (by decide) (by decide)

/-- 512 bytes that end in a frame of one character. -/
def fullChunk : List UInt8 :=
  List.replicate 509 65 ++ [packetHeader, 65, packetFooter]

/-- The footer of the frame is the last byte of a full buffer, and the decoder
reads the two bytes behind it. -/
theorem fullChunk_read_beyond :
    fullChunk.length ≤ fsMaxDataLength ∧ padChar ∉ fullChunk ∧
      .readTemp 513 ∈ receiveAccesses (fun _ => .zero 185) driverUninitialized [fullChunk] ∧
      ¬ AllInRange (receiveAccesses (fun _ => .zero 185) driverUninitialized [fullChunk]) := by
  have hlength : fullChunk.length = fsMaxDataLength := by decide +kernel
  have hpending : (driverUninitialized.receive fullChunk).pending = fullChunk := by
    have hempty : driverUninitialized.pending = [] := rfl
    rw [pending_receive_of_room (by rw [hempty, hlength]; decide), hempty, List.nil_append]
  have hne : fullChunk ≠ [] := by decide +kernel
  have hread : .readTemp 513 ∈
      receiveAccesses (fun _ => .zero 185) driverUninitialized [fullChunk] := by
    rw [receiveAccesses, parsePacketAccesses, if_neg hne, serialLoopAccesses, serialRoundAccesses,
      peek_eq_pending, hpending, if_neg hne]
    refine List.mem_append_left _ (List.mem_append_right _ (List.mem_append_left _
      (List.mem_append_right _ (List.mem_append_right _ ?_))))
    decide +kernel
  refine ⟨Nat.le_of_eq hlength, by decide +kernel, hread, fun hinside => ?_⟩
  exact absurd (hinside _ hread) (show ¬ 513 < fsMaxDataLength by decide)

end Trifecta
