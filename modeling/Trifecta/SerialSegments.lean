/-
Which segment the serial framer finds at the front of its buffer: a frame when
a header stands before the first footer, else a command when a terminator
stands anywhere, else nothing.
-/
import Trifecta.SerialFramer
import Mathlib.Tactic.ByContra

namespace Trifecta

open CText Segments

def firstIndexFrom (delimiter : UInt8) (i : Nat) : List UInt8 → Option Nat
  | [] => none
  | byte :: rest => if byte = delimiter then some i else firstIndexFrom delimiter (i + 1) rest

def lastIndexFrom (delimiter : UInt8) (i : Nat) : List UInt8 → Option Nat
  | [] => none
  | byte :: rest =>
      (lastIndexFrom delimiter (i + 1) rest).or (if byte = delimiter then some i else none)

/-- What the scan does about one kind of header: at each footer the candidate
is taken, unless one was taken before. -/
def headerScan (header : UInt8) (found candidate : Option Nat) (i : Nat) :
    List UInt8 → Option Nat
  | [] => found
  | byte :: rest =>
      if byte = header then headerScan header found (some i) (i + 1) rest
      else if byte = packetFooter then
        headerScan header (found.or candidate) candidate (i + 1) rest
      else headerScan header found candidate (i + 1) rest

theorem headerScan_some (header : UInt8) (index : Nat) (candidate : Option Nat) (i : Nat)
    (buffer : List UInt8) : headerScan header (some index) candidate i buffer = some index := by
  induction buffer generalizing candidate i with
  | nil => rfl
  | cons byte rest ih =>
      rw [headerScan]
      split
      · exact ih _ _
      · split
        · exact ih _ _
        · exact ih _ _

theorem headerScan_append {header : UInt8} (found candidate : Option Nat) (i : Nat)
    {front : List UInt8} (hfront : packetFooter ∉ front) (rest : List UInt8) :
    headerScan header found candidate i (front ++ rest) =
      headerScan header found ((lastIndexFrom header i front).or candidate)
        (i + front.length) rest := by
  induction front generalizing candidate i with
  | nil => simp [lastIndexFrom]
  | cons byte front ih =>
      rw [List.mem_cons, not_or] at hfront
      have hindex : i + 1 + front.length = i + (byte :: front).length := by
        rw [List.length_cons]
        omega
      rw [List.cons_append, headerScan, lastIndexFrom, Option.or_assoc]
      by_cases hheader : byte = header
      · rw [if_pos hheader, if_pos hheader, ih _ _ hfront.2, hindex, Option.some_or]
      · rw [if_neg hheader, if_neg hheader, if_neg (Ne.symm hfront.1), ih _ _ hfront.2, hindex,
          Option.none_or]

/-- A header found at a later footer stands behind index `i`. -/
theorem le_of_headerScan {header : UInt8} {candidate : Option Nat} {i bound index : Nat}
    (hi : bound ≤ i) (hcandidate : ∀ early ∈ candidate, bound ≤ early) {buffer : List UInt8}
    (hscan : headerScan header none candidate i buffer = some index) : bound ≤ index := by
  induction buffer generalizing candidate i with
  | nil => exact absurd hscan (by simp [headerScan])
  | cons byte rest ih =>
      rw [headerScan] at hscan
      split at hscan
      · exact ih (Nat.le_succ_of_le hi) (by simpa using hi) hscan
      · split at hscan
        · cases candidate with
          | none => exact ih (Nat.le_succ_of_le hi) hcandidate hscan
          | some early =>
              rw [Option.none_or, headerScan_some] at hscan
              exact hcandidate index hscan
        · exact ih (Nat.le_succ_of_le hi) hcandidate hscan

theorem delimiter_cases (byte : UInt8) :
    byte = packetHeader ∨ byte = packetHeaderV2 ∨ byte = packetFooter ∨
      byte ≠ packetHeader ∧ byte ≠ packetHeaderV2 ∧ byte ≠ packetFooter := by
  by_cases hheader : byte = packetHeader
  · exact Or.inl hheader
  · by_cases hheaderV2 : byte = packetHeaderV2
    · exact Or.inr (Or.inl hheaderV2)
    · by_cases hfooter : byte = packetFooter
      · exact Or.inr (Or.inr (Or.inl hfooter))
      · exact Or.inr (Or.inr (Or.inr ⟨hheader, hheaderV2, hfooter⟩))

section Scan

variable (result : FsDelimiterIndices) (b64Candidate binCandidate : Option Nat) (i : Nat)
  (buffer : List UInt8)

theorem exclamIndex_scanDelimitersFrom :
    (scanDelimitersFrom result b64Candidate binCandidate i buffer).exclamIndex =
      result.exclamIndex.or (firstIndexFrom packetFooter i buffer) := by
  induction buffer generalizing result b64Candidate binCandidate i with
  | nil => simp [scanDelimitersFrom, firstIndexFrom]
  | cons byte rest ih =>
      have hnext : (scanByte result b64Candidate binCandidate i byte).1.exclamIndex =
          result.exclamIndex.or (if byte = packetFooter then some i else none) := by
        by_cases hfooter : byte = packetFooter
        · subst hfooter
          rfl
        · rw [if_neg hfooter, Option.or_none]
          unfold scanByte
          split_ifs <;> rfl
      rw [scanDelimitersFrom, firstIndexFrom]
      split
      · next hall =>
          rw [hnext]
          rw [hnext] at hall
          by_cases hfooter : byte = packetFooter
          · rw [if_pos hfooter, if_pos hfooter]
          · rw [if_neg hfooter, Option.or_none] at hall ⊢
            obtain ⟨index, hindex⟩ := Option.isSome_iff_exists.1 hall.2.2.1
            rw [hindex, Option.some_or]
      · rw [ih, hnext, Option.or_assoc]
        by_cases hfooter : byte = packetFooter <;> simp [hfooter]

theorem semicolonIndex_scanDelimitersFrom :
    (scanDelimitersFrom result b64Candidate binCandidate i buffer).semicolonIndex =
      result.semicolonIndex.or (firstIndexFrom cmdTerminator i buffer) := by
  induction buffer generalizing result b64Candidate binCandidate i with
  | nil => simp [scanDelimitersFrom, firstIndexFrom]
  | cons byte rest ih =>
      have hnext : (scanByte result b64Candidate binCandidate i byte).1.semicolonIndex =
          result.semicolonIndex.or (if byte = cmdTerminator then some i else none) := by
        by_cases hterminator : byte = cmdTerminator
        · subst hterminator
          rw [scanByte, if_neg (by decide), if_neg (by decide), if_neg (by decide)]
          cases hsemicolon : result.semicolonIndex <;> simp [hsemicolon]
        · rw [if_neg hterminator, Option.or_none]
          have hnot : ¬ (byte = cmdTerminator ∧ result.semicolonIndex = none) := fun hboth =>
            hterminator hboth.1
          unfold scanByte
          rw [if_neg hnot]
          split_ifs <;> rfl
      rw [scanDelimitersFrom, firstIndexFrom]
      split
      · next hall =>
          rw [hnext]
          rw [hnext] at hall
          by_cases hterminator : byte = cmdTerminator
          · rw [if_pos hterminator, if_pos hterminator]
          · rw [if_neg hterminator, Option.or_none] at hall ⊢
            obtain ⟨index, hindex⟩ := Option.isSome_iff_exists.1 hall.2.2.2
            rw [hindex, Option.some_or]
      · rw [ih, hnext, Option.or_assoc]
        by_cases hterminator : byte = cmdTerminator <;> simp [hterminator]

theorem colonIndex_scanDelimitersFrom :
    (scanDelimitersFrom result b64Candidate binCandidate i buffer).colonIndex =
      headerScan packetHeader result.colonIndex b64Candidate i buffer := by
  induction buffer generalizing result b64Candidate binCandidate i with
  | nil => rfl
  | cons byte rest ih =>
      have hstep : headerScan packetHeader result.colonIndex b64Candidate i (byte :: rest) =
          headerScan packetHeader
            (scanByte result b64Candidate binCandidate i byte).1.colonIndex
            (scanByte result b64Candidate binCandidate i byte).2.1 (i + 1) rest := by
        rcases delimiter_cases byte with rfl | rfl | rfl | ⟨hheader, hheaderV2, hfooter⟩
        · rfl
        · rfl
        · rfl
        · rw [headerScan, scanByte, if_neg (by assumption), if_neg hfooter, if_neg hheader,
            if_neg hheaderV2, if_neg hfooter]
          split <;> rfl
      rw [scanDelimitersFrom, hstep]
      split
      · next hall =>
          obtain ⟨index, hindex⟩ := Option.isSome_iff_exists.1 hall.1
          rw [hindex, headerScan_some]
      · exact ih _ _ _ _

theorem binaryIndex_scanDelimitersFrom :
    (scanDelimitersFrom result b64Candidate binCandidate i buffer).binaryIndex =
      headerScan packetHeaderV2 result.binaryIndex binCandidate i buffer := by
  induction buffer generalizing result b64Candidate binCandidate i with
  | nil => rfl
  | cons byte rest ih =>
      have hstep : headerScan packetHeaderV2 result.binaryIndex binCandidate i (byte :: rest) =
          headerScan packetHeaderV2
            (scanByte result b64Candidate binCandidate i byte).1.binaryIndex
            (scanByte result b64Candidate binCandidate i byte).2.2 (i + 1) rest := by
        rcases delimiter_cases byte with rfl | rfl | rfl | ⟨hheader, hheaderV2, hfooter⟩
        · rfl
        · rfl
        · rfl
        · rw [headerScan, scanByte, if_neg (by assumption), if_neg hfooter, if_neg hheader,
            if_neg hheaderV2, if_neg hfooter]
          split <;> rfl
      rw [scanDelimitersFrom, hstep]
      split
      · next hall =>
          obtain ⟨index, hindex⟩ := Option.isSome_iff_exists.1 hall.2.1
          rw [hindex, headerScan_some]
      · exact ih _ _ _ _

end Scan

theorem firstIndexFrom_append {delimiter : UInt8} {front : List UInt8}
    (hfront : delimiter ∉ front) (i : Nat) (rest : List UInt8) :
    firstIndexFrom delimiter i (front ++ delimiter :: rest) = some (i + front.length) := by
  induction front generalizing i with
  | nil => simp [firstIndexFrom]
  | cons byte front ih =>
      rw [List.mem_cons, not_or] at hfront
      rw [List.cons_append, firstIndexFrom, if_neg (Ne.symm hfront.1), ih hfront.2,
        List.length_cons, Nat.add_assoc, Nat.add_comm 1]

theorem firstIndexFrom_of_not_mem {delimiter : UInt8} {buffer : List UInt8}
    (hbuffer : delimiter ∉ buffer) (i : Nat) : firstIndexFrom delimiter i buffer = none := by
  induction buffer generalizing i with
  | nil => rfl
  | cons byte rest ih =>
      rw [List.mem_cons, not_or] at hbuffer
      rw [firstIndexFrom, if_neg (Ne.symm hbuffer.1), ih hbuffer.2]

theorem lastIndexFrom_of_not_mem {delimiter : UInt8} {buffer : List UInt8}
    (hbuffer : delimiter ∉ buffer) (i : Nat) : lastIndexFrom delimiter i buffer = none := by
  induction buffer generalizing i with
  | nil => rfl
  | cons byte rest ih =>
      rw [List.mem_cons, not_or] at hbuffer
      rw [lastIndexFrom, ih hbuffer.2, if_neg (Ne.symm hbuffer.1), Option.none_or]

theorem lastIndexFrom_append {delimiter : UInt8} (front : List UInt8) {back : List UInt8}
    (hback : delimiter ∉ back) (i : Nat) :
    lastIndexFrom delimiter i (front ++ delimiter :: back) = some (i + front.length) := by
  induction front generalizing i with
  | nil => simp [lastIndexFrom, lastIndexFrom_of_not_mem hback]
  | cons byte front ih =>
      rw [List.cons_append, lastIndexFrom, ih, Option.some_or, List.length_cons, Nat.add_assoc,
        Nat.add_comm 1]

/-- The scan in terms of its parts. -/
theorem fsScanDelimiters_eq (buffer : List UInt8) :
    fsScanDelimiters buffer =
      { colonIndex := headerScan packetHeader none none 0 buffer
        binaryIndex := headerScan packetHeaderV2 none none 0 buffer
        exclamIndex := firstIndexFrom packetFooter 0 buffer
        semicolonIndex := firstIndexFrom cmdTerminator 0 buffer } := by
  have hcolon := colonIndex_scanDelimitersFrom ⟨none, none, none, none⟩ none none 0 buffer
  have hbinary := binaryIndex_scanDelimitersFrom ⟨none, none, none, none⟩ none none 0 buffer
  have hexclam := exclamIndex_scanDelimitersFrom ⟨none, none, none, none⟩ none none 0 buffer
  have hsemicolon :=
    semicolonIndex_scanDelimitersFrom ⟨none, none, none, none⟩ none none 0 buffer
  rw [Option.none_or] at hexclam hsemicolon
  rw [fsScanDelimiters, ← hcolon, ← hbinary, ← hexclam, ← hsemicolon]

/-- A frame whose header stands before the first footer is found. -/
theorem frameIndices_of_header {header : UInt8} {front payload : List UInt8}
    (hheader : header ≠ packetFooter) (hfront : packetFooter ∉ front)
    (hpayload : packetFooter ∉ payload) (hlast : header ∉ payload) (post : List UInt8) :
    frameIndices
        (headerScan header none none 0 (front ++ header :: payload ++ packetFooter :: post))
        (firstIndexFrom packetFooter 0 (front ++ header :: payload ++ packetFooter :: post)) =
      some (front.length, front.length + 1 + payload.length) := by
  have hpre : packetFooter ∉ front ++ header :: payload := by
    simp [hfront, hpayload, Ne.symm hheader]
  have hlength : (front ++ header :: payload).length = front.length + 1 + payload.length := by
    simp
    omega
  rw [headerScan_append none none 0 hpre, lastIndexFrom_append front hlast 0,
    firstIndexFrom_append hpre 0, headerScan, if_neg (Ne.symm hheader), if_pos rfl,
    Option.some_or, Option.none_or, headerScan_some, Nat.zero_add, Nat.zero_add, hlength]
  simp only [frameIndices]
  rw [if_pos (by omega)]

/-- No frame of this kind is found when its header does not stand before the
first footer. -/
theorem frameIndices_of_no_header {header : UInt8} (hheader : header ≠ packetFooter)
    {buffer : List UInt8}
    (hnone : ∀ pre post, buffer = pre ++ packetFooter :: post → packetFooter ∉ pre →
      header ∉ pre) :
    frameIndices (headerScan header none none 0 buffer)
      (firstIndexFrom packetFooter 0 buffer) = none := by
  by_cases hfooter : packetFooter ∈ buffer
  · obtain ⟨pre, post, rfl, hpre⟩ := List.eq_append_cons_of_mem hfooter
    have hnot := hnone pre post rfl hpre
    rw [headerScan_append none none 0 hpre, lastIndexFrom_of_not_mem hnot, Option.none_or,
      firstIndexFrom_append hpre, headerScan, if_neg (Ne.symm hheader), if_pos rfl,
      Option.none_or]
    cases hscan : headerScan header none none (0 + pre.length + 1) post with
    | none => rfl
    | some index =>
        have hlater := le_of_headerScan (Nat.le_refl _) (by simp) hscan
        simp only [frameIndices]
        rw [if_neg (by omega)]
  · rw [firstIndexFrom_of_not_mem hfooter]
    unfold frameIndices
    split
    · contradiction
    · rfl

/-- No header stands before the first footer. -/
def NoFrame (content : List UInt8) : Prop :=
  ∀ pre post, content = pre ++ packetFooter :: post → packetFooter ∉ pre →
    packetHeader ∉ pre ∧ packetHeaderV2 ∉ pre

theorem findSegment_binary {front payload : List UInt8} (hfront : packetFooter ∉ front)
    (hpayload : packetFooter ∉ payload) (hlast : packetHeaderV2 ∉ payload)
    (post : List UInt8) :
    findSegment (fsScanDelimiters
        (front ++ packetHeaderV2 :: payload ++ packetFooter :: post)) =
      .binary front.length (front.length + 1 + payload.length) := by
  rw [fsScanDelimiters_eq, findSegment]
  simp only [frameIndices_of_header (by decide) hfront hpayload hlast post]

theorem findSegment_base64 {front payload : List UInt8} (hfront : packetFooter ∉ front)
    (hpayload : packetFooter ∉ payload) (hlast : packetHeader ∉ payload)
    (hbinary : packetHeaderV2 ∉ front ++ packetHeader :: payload) (post : List UInt8) :
    findSegment (fsScanDelimiters
        (front ++ packetHeader :: payload ++ packetFooter :: post)) =
      .base64 front.length (front.length + 1 + payload.length) := by
  have hfirst : packetFooter ∉ front ++ packetHeader :: payload := by
    simp only [List.mem_append, List.mem_cons, not_or]
    exact ⟨hfront, by decide, hpayload⟩
  have hnone : ∀ pre rest,
      front ++ packetHeader :: payload ++ packetFooter :: post = pre ++ packetFooter :: rest →
      packetFooter ∉ pre → packetHeaderV2 ∉ pre := by
    intro pre rest hsplit hpre
    obtain ⟨rfl, _⟩ := append_cons_unique hfirst hpre hsplit
    exact hbinary
  rw [fsScanDelimiters_eq, findSegment]
  simp only [@frameIndices_of_no_header packetHeaderV2 (by decide) _ hnone,
    frameIndices_of_header (by decide) hfront hpayload hlast post]

theorem findSegment_of_noFrame {content : List UInt8} (hcontent : NoFrame content) :
    findSegment (fsScanDelimiters content) =
      match firstIndexFrom cmdTerminator 0 content with
      | some semicolon => .command semicolon
      | none => .incomplete := by
  have hbinary := @frameIndices_of_no_header packetHeaderV2 (by decide) content
    fun pre post hsplit hpre => (hcontent pre post hsplit hpre).2
  have hcolon := @frameIndices_of_no_header packetHeader (by decide) content
    fun pre post hsplit hpre => (hcontent pre post hsplit hpre).1
  rw [fsScanDelimiters_eq, findSegment]
  cases firstIndexFrom cmdTerminator 0 content <;> simp only [hbinary, hcolon]

end Trifecta
