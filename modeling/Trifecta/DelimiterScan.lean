/-
The scan for delimiters: which positions it finds, and that its early exit
changes none of them.
-/
import Trifecta.SerialSegments

namespace Trifecta

open Segments

/-- The loop of `fs_scan_delimiters` without its exit. -/
def scanToEnd (result : FsDelimiterIndices) (b64Candidate binCandidate : Option Nat) (i : Nat) :
    List UInt8 → FsDelimiterIndices
  | [] => result
  | byte :: rest =>
      let next := scanByte result b64Candidate binCandidate i byte
      scanToEnd next.1 next.2.1 next.2.2 (i + 1) rest

/-- The position of the first delimiter, if there is one. -/
def FirstAt (delimiter : UInt8) (buffer : List UInt8) : Option Nat → Prop
  | none => delimiter ∉ buffer
  | some index => buffer[index]? = some delimiter ∧ delimiter ∉ buffer.take index

/-- No footer has a header before it. -/
def NoHeaderYet (header : UInt8) (buffer : List UInt8) : Prop :=
  ∀ footer, buffer[footer]? = some packetFooter → header ∉ buffer.take footer

/-- The position of the last header before the first footer that has a header
before it, if there is such a footer. -/
def HeaderAt (header : UInt8) (buffer : List UInt8) : Option Nat → Prop
  | none => NoHeaderYet header buffer
  | some index =>
      ∃ footer, buffer[footer]? = some packetFooter ∧
        (∀ earlier < footer, buffer[earlier]? = some packetFooter →
          header ∉ buffer.take earlier) ∧
        index < footer ∧ buffer[index]? = some header ∧
        header ∉ (buffer.take footer).drop (index + 1)

/-- The bytes strictly between a header and a footer behind it hold neither of
the two. -/
def PlainBetween (header : UInt8) (buffer : List UInt8) (headerIndex exclamIndex : Option Nat) :
    Prop :=
  ∀ index ∈ headerIndex, ∀ exclam ∈ exclamIndex, index < exclam →
    header ∉ (buffer.take exclam).drop (index + 1) ∧
      packetFooter ∉ (buffer.take exclam).drop (index + 1)

structure ExactScan (buffer : List UInt8) (indices : FsDelimiterIndices) : Prop where
  exclam : FirstAt packetFooter buffer indices.exclamIndex
  semicolon : FirstAt cmdTerminator buffer indices.semicolonIndex
  colon : HeaderAt packetHeader buffer indices.colonIndex
  binary : HeaderAt packetHeaderV2 buffer indices.binaryIndex
  base64Frame : PlainBetween packetHeader buffer indices.colonIndex indices.exclamIndex
  binaryFrame : PlainBetween packetHeaderV2 buffer indices.binaryIndex indices.exclamIndex

/-! The early exit. -/

/-- Nothing more is found when all four are. -/
theorem scanToEnd_of_complete {result : FsDelimiterIndices}
    (hcolon : result.colonIndex.isSome) (hbinary : result.binaryIndex.isSome)
    (hexclam : result.exclamIndex.isSome) (hsemicolon : result.semicolonIndex.isSome)
    (b64Candidate binCandidate : Option Nat) (i : Nat) (buffer : List UInt8) :
    scanToEnd result b64Candidate binCandidate i buffer = result := by
  induction buffer generalizing b64Candidate binCandidate i with
  | nil => rfl
  | cons byte rest ih =>
      have hbyte : (scanByte result b64Candidate binCandidate i byte).1 = result := by
        obtain ⟨colon, binary, exclam, semicolon⟩ := result
        obtain ⟨_, rfl⟩ := Option.isSome_iff_exists.1 hcolon
        obtain ⟨_, rfl⟩ := Option.isSome_iff_exists.1 hbinary
        obtain ⟨_, rfl⟩ := Option.isSome_iff_exists.1 hexclam
        obtain ⟨_, rfl⟩ := Option.isSome_iff_exists.1 hsemicolon
        rw [scanByte]
        split_ifs with _ _ _ hterminator
        · rfl
        · rfl
        · rfl
        · exact absurd hterminator.2 (by simp)
        · rfl
      rw [scanToEnd, hbyte]
      exact ih _ _ _

theorem scanDelimitersFrom_eq_scanToEnd (result : FsDelimiterIndices)
    (b64Candidate binCandidate : Option Nat) (i : Nat) (buffer : List UInt8) :
    scanDelimitersFrom result b64Candidate binCandidate i buffer =
      scanToEnd result b64Candidate binCandidate i buffer := by
  induction buffer generalizing result b64Candidate binCandidate i with
  | nil => rfl
  | cons byte rest ih =>
      rw [scanDelimitersFrom, scanToEnd]
      split_ifs with hcomplete
      · obtain ⟨hcolon, hbinary, hexclam, hsemicolon⟩ := hcomplete
        exact (scanToEnd_of_complete hcolon hbinary hexclam hsemicolon _ _ _ rest).symm
      · exact ih _ _ _ _

/-! The positions found. -/

theorem firstAt_firstIndexFrom (delimiter : UInt8) (buffer : List UInt8) :
    FirstAt delimiter buffer (firstIndexFrom delimiter 0 buffer) := by
  by_cases hmem : delimiter ∈ buffer
  · obtain ⟨front, rest, rfl, hfront⟩ := List.eq_append_cons_of_mem hmem
    rw [firstIndexFrom_append hfront, Nat.zero_add, FirstAt, List.take_left]
    exact ⟨by simp, hfront⟩
  · rw [firstIndexFrom_of_not_mem hmem]
    exact hmem

/-- The last header of a list, by what is in front of it and behind it. -/
theorem lastIndexFrom_cases (header : UInt8) (front : List UInt8) :
    header ∉ front ∧ lastIndexFrom header 0 front = none ∨
      ∃ index, lastIndexFrom header 0 front = some index ∧ index < front.length ∧
        front[index]? = some header ∧ header ∉ front.drop (index + 1) := by
  by_cases hmem : header ∈ front
  · obtain ⟨before, behind, rfl, hbehind⟩ := exists_last_split hmem
    refine Or.inr ⟨before.length, ?_, ?_, ?_, ?_⟩
    · rw [lastIndexFrom_append before hbehind, Nat.zero_add]
    · simp
    · simp
    · rw [List.drop_append, List.drop_eq_nil_of_le (Nat.le_succ _), List.nil_append,
        Nat.add_sub_cancel_left]
      exact hbehind
  · exact Or.inl ⟨hmem, lastIndexFrom_of_not_mem hmem 0⟩

theorem lastIndexFrom_concat (header : UInt8) (i : Nat) (front : List UInt8) (byte : UInt8) :
    lastIndexFrom header i (front ++ [byte]) =
      if byte = header then some (i + front.length) else lastIndexFrom header i front := by
  by_cases hbyte : byte = header
  · rw [if_pos hbyte, hbyte]
    exact lastIndexFrom_append front List.not_mem_nil i
  · rw [if_neg hbyte]
    induction front generalizing i with
    | nil => simp [lastIndexFrom, hbyte]
    | cons first front ih => rw [List.cons_append, lastIndexFrom, lastIndexFrom, ih]

theorem noHeaderYet_concat {header : UInt8} {front : List UInt8}
    (hfront : NoHeaderYet header front) {byte : UInt8}
    (hbyte : byte = packetFooter → header ∉ front) :
    NoHeaderYet header (front ++ [byte]) := by
  intro footer hfooter
  rcases Nat.lt_trichotomy footer front.length with hinside | rfl | hbehind
  · rw [List.getElem?_append_left hinside] at hfooter
    rw [List.take_append_of_le_length hinside.le]
    exact hfront footer hfooter
  · rw [List.take_left]
    apply hbyte
    simpa using hfooter
  · rw [List.getElem?_eq_none (by simp; omega)] at hfooter
    exact absurd hfooter (by simp)

/-- The scan for one kind of header, when the front of the buffer has been read
without a result. -/
theorem headerAt_headerScan {header : UInt8} (hheader : header ≠ packetFooter)
    {front : List UInt8} (hfront : NoHeaderYet header front) (rest : List UInt8) :
    HeaderAt header (front ++ rest)
      (headerScan header none (lastIndexFrom header 0 front) front.length rest) := by
  induction rest generalizing front with
  | nil =>
      rw [List.append_nil]
      exact hfront
  | cons byte rest ih =>
      have hlast := lastIndexFrom_concat header 0 front byte
      have hlength : (front ++ [byte]).length = front.length + 1 := by
        rw [List.length_append, List.length_singleton]
      have hbuffer : front ++ byte :: rest = front ++ [byte] ++ rest := by
        rw [List.append_assoc, List.singleton_append]
      rw [headerScan]
      split_ifs with hbyte hfooter
      · -- a new candidate
        have hnext := ih (noHeaderYet_concat hfront fun heq =>
          absurd (hbyte.symm.trans heq) hheader)
        rw [hlast, if_pos hbyte, Nat.zero_add, hlength] at hnext
        rw [hbuffer]
        exact hnext
      · rcases lastIndexFrom_cases header front with
          ⟨hmem, hnone⟩ | ⟨index, hindex, hbefore, hat, hbehind⟩
        · -- a footer without a header before it
          have hnext := ih (noHeaderYet_concat hfront fun _ : byte = packetFooter => hmem)
          rw [hlast, if_neg hbyte, hnone, hlength] at hnext
          rw [hnone, Option.none_or, hbuffer]
          exact hnext
        · -- the first footer with a header before it
          rw [hindex, Option.none_or, headerScan_some, hfooter]
          refine ⟨front.length, by simp, ?_, hbefore, ?_, ?_⟩
          · intro earlier hearlier hat
            rw [List.getElem?_append_left hearlier] at hat
            rw [List.take_append_of_le_length hearlier.le]
            exact hfront earlier hat
          · rw [List.getElem?_append_left hbefore]
            exact hat
          · rw [List.take_left]
            exact hbehind
      · have hnext := ih (noHeaderYet_concat hfront fun heq => absurd heq hfooter)
        rw [hlast, if_neg hbyte, hlength] at hnext
        rw [hbuffer]
        exact hnext

theorem mem_take_of_getElem? {buffer : List UInt8} {byte : UInt8} {index length : Nat}
    (hless : index < length) (hat : buffer[index]? = some byte) : byte ∈ buffer.take length := by
  apply List.mem_of_getElem? (i := index)
  rw [List.getElem?_take_of_lt hless]
  exact hat

/-- A header found before the first footer was found at that footer. -/
theorem plainBetween_of_headerAt {header : UInt8} {buffer : List UInt8}
    {headerIndex exclamIndex : Option Nat} (hheaderAt : HeaderAt header buffer headerIndex)
    (hexclamAt : FirstAt packetFooter buffer exclamIndex) :
    PlainBetween header buffer headerIndex exclamIndex := by
  rintro index rfl exclam rfl hless
  obtain ⟨footer, hfooter, hearlier, hbefore, hat, hbehind⟩ := hheaderAt
  obtain ⟨hexclam, hfirst⟩ := hexclamAt
  have hsame : footer = exclam := by
    rcases Nat.lt_trichotomy footer exclam with hlt | heq | hgt
    · exact absurd (mem_take_of_getElem? hlt hfooter) hfirst
    · exact heq
    · exact absurd (mem_take_of_getElem? hless hat) (hearlier exclam hgt hexclam)
  subst hsame
  exact ⟨hbehind, fun hmem => hfirst (List.mem_of_mem_drop hmem)⟩

/-- The scan is exact, and its exit changes nothing. -/
theorem fsScanDelimiters_exact (buffer : List UInt8) :
    fsScanDelimiters buffer = scanToEnd ⟨none, none, none, none⟩ none none 0 buffer ∧
      ExactScan buffer (fsScanDelimiters buffer) := by
  refine ⟨scanDelimitersFrom_eq_scanToEnd _ _ _ _ buffer, ?_⟩
  have hempty : ∀ header : UInt8, NoHeaderYet header [] := fun header footer hfooter =>
    absurd hfooter (by simp)
  have hexclam := firstAt_firstIndexFrom packetFooter buffer
  have hcolon := headerAt_headerScan (by decide) (hempty packetHeader) buffer
  have hbinary := headerAt_headerScan (by decide) (hempty packetHeaderV2) buffer
  rw [fsScanDelimiters_eq]
  exact
    { exclam := hexclam
      semicolon := firstAt_firstIndexFrom cmdTerminator buffer
      colon := hcolon
      binary := hbinary
      base64Frame := plainBetween_of_headerAt hcolon hexclam
      binaryFrame := plainBetween_of_headerAt hbinary hexclam }

end Trifecta
