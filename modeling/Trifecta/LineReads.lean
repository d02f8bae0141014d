/-
Reading a line into a buffer, byte by byte: how far one call moves in the file, what
it leaves in the buffer, and which places it writes.
-/
import Trifecta.ReplayCursor

namespace Trifecta

/-- `fgetc`: the next byte, or `none` for `EOF`. -/
def FsFile.fgetc (file : FsFile) : Option UInt8 × FsFile :=
  match file.content[file.pos]? with
  | some c => (some c, file.seek (file.pos + 1))
  | none => (none, file)

namespace FsFile

variable {file : FsFile} {c : UInt8} {rest : List UInt8}

theorem fgetc_nil (hend : file.remaining = []) : file.fgetc = (none, file) := by
  have hnone : file.content[file.pos]? = none := by
    rw [← List.head?_drop]
    exact congrArg List.head? hend
  rw [fgetc, hnone]

theorem fgetc_cons (hmore : file.remaining = c :: rest) :
    file.fgetc = (some c, file.seek (file.pos + 1)) := by
  have hsome : file.content[file.pos]? = some c := by
    rw [← List.head?_drop]
    exact congrArg List.head? hmore
  rw [fgetc, hsome]

theorem remaining_seek_succ (hmore : file.remaining = c :: rest) :
    (file.seek (file.pos + 1)).remaining = rest := by
  have htail : file.remaining.tail = rest := congrArg List.tail hmore
  rw [← htail]
  exact List.tail_drop.symm

/-- A byte that is read no longer remains. -/
theorem length_fgetc (file : FsFile) :
    file.fgetc.2.remaining.length + file.fgetc.1.toList.length = file.remaining.length := by
  cases hremaining : file.remaining with
  | nil =>
      rw [fgetc_nil hremaining, hremaining]
      rfl
  | cons c rest =>
      rw [fgetc_cons hremaining, remaining_seek_succ hremaining]
      rfl

end FsFile

/-- An array of the caller, with the places that have been written, latest last. -/
structure TextBuffer where
  bytes : Nat → UInt8
  written : List Nat

/-- What `fs_safe_fgets` returns and leaves behind. -/
structure BufferedLine where
  code : Int
  buf : TextBuffer
  file : FsFile

namespace TextBuffer

def store (buf : TextBuffer) (index : Nat) (byte : UInt8) : TextBuffer where
  bytes := Function.update buf.bytes index byte
  written := buf.written ++ [index]

/-- The inner loop of `fs_safe_fgets`, from the byte that has been read. -/
def discardLine (c : Option UInt8) (file : FsFile) : FsFile :=
  if c = some lineFeed ∨ c = none then file
  else discardLine file.fgetc.1 file.fgetc.2
termination_by file.remaining.length + c.toList.length
decreasing_by
  next hmore =>
    have hread := file.length_fgetc
    obtain ⟨byte, rfl⟩ := Option.ne_none_iff_exists'.1 (not_or.1 hmore).2
    rw [hread]
    exact Nat.lt_succ_self _

/-- The loop of `fs_safe_fgets` and what follows it. -/
def fgetsLoop (bufSize idx : Nat) (buf : TextBuffer) (file : FsFile) : BufferedLine :=
  match hread : file.fgetc with
  | (none, next) =>
      if idx = 0 then { code := 0, buf, file := next }
      else { code := 1, buf := buf.store idx 0, file := next }
  | (some c, next) =>
      if idx < bufSize - 1 then
        let stored := buf.store idx c
        if c = lineFeed then { code := 1, buf := stored.store (idx + 1) 0, file := next }
        else fgetsLoop bufSize (idx + 1) stored next
      else
        { code := -1
          buf := buf.store (bufSize - 1) 0
          file := discardLine (some c) next }
termination_by file.remaining.length
decreasing_by
  have hlength := file.length_fgetc
  rw [hread] at hlength
  rw [← hlength]
  exact Nat.lt_succ_self _

/-- `fs_safe_fgets` on an open file and a buffer. -/
def fsSafeFgets (file : FsFile) (buf : TextBuffer) (bufSize : Nat) : BufferedLine :=
  if bufSize < 2 then { code := -2, buf, file }
  else fgetsLoop bufSize 0 buf file

@[simp] theorem mem_written_store {buf : TextBuffer} {place index : Nat} {byte : UInt8} :
    index ∈ (buf.store place byte).written ↔ index ∈ buf.written ∨ index = place := by
  rw [store, List.mem_append, List.mem_singleton]

/-- The array starts with these bytes. -/
def Starts (buf : TextBuffer) (text : List UInt8) : Prop :=
  (List.range text.length).map buf.bytes = text

theorem Starts.store {buf : TextBuffer} {text : List UInt8} (hstarts : buf.Starts text)
    (byte : UInt8) : (buf.store text.length byte).Starts (text ++ [byte]) := by
  have hkept : (List.range text.length).map (buf.store text.length byte).bytes = text := by
    refine Eq.trans (List.map_congr_left fun index hindex => ?_) hstarts
    exact Function.update_of_ne (List.mem_range.1 hindex).ne byte buf.bytes
  have hlast : (buf.store text.length byte).bytes text.length = byte :=
    Function.update_self _ _ _
  rw [Starts, List.length_append, List.length_singleton, List.range_succ, List.map_append, hkept,
    List.map_singleton, hlast]

end TextBuffer

open TextBuffer

/-- A line is discarded up to its line feed. -/
theorem discardLine_eq {file : FsFile} {rest : List UInt8} (hremaining : file.remaining = rest)
    (c : UInt8) : discardLine (some c) file =
      file.seek (file.pos +
        (rest.length - ((c :: rest).dropWhile (· ≠ lineFeed)).tail.length)) := by
  induction rest generalizing c file with
  | nil =>
      rw [discardLine]
      by_cases hc : c = lineFeed
      · rw [if_pos (Or.inl (congrArg some hc))]
        simp [FsFile.seek]
      · rw [if_neg (by simp [hc]), FsFile.fgetc_nil hremaining, discardLine,
          if_pos (Or.inr rfl)]
        simp [FsFile.seek]
  | cons next rest ih =>
      rw [discardLine]
      by_cases hc : c = lineFeed
      · rw [if_pos (Or.inl (congrArg some hc))]
        simp [FsFile.seek, hc]
      · have hdropped : (c :: next :: rest).dropWhile (· ≠ lineFeed) =
            (next :: rest).dropWhile (· ≠ lineFeed) := by simp [hc]
        have hle := (List.dropWhile_suffix (l := next :: rest) (· ≠ lineFeed)).length_le
        rw [if_neg (by simp [hc]), FsFile.fgetc_cons hremaining, hdropped,
          ih (FsFile.remaining_seek_succ hremaining)]
        simp only [FsFile.seek, FsFile.mk.injEq, true_and, List.length_cons, List.length_tail]
          at hle ⊢
        omega

section Loop

variable {bufSize idx : Nat} {buf : TextBuffer} {file : FsFile} {c : UInt8} {rest : List UInt8}

theorem fgetsLoop_nil (hend : file.remaining = []) :
    fgetsLoop bufSize idx buf file =
      if idx = 0 then { code := 0, buf, file }
      else { code := 1, buf := buf.store idx 0, file } := by
  rw [fgetsLoop]
  split
  · next hread =>
      rw [FsFile.fgetc_nil hend] at hread
      obtain ⟨_, rfl⟩ := Prod.mk.inj hread
      rfl
  · next hread =>
      rw [FsFile.fgetc_nil hend] at hread
      cases hread

theorem fgetsLoop_cons (hmore : file.remaining = c :: rest) :
    fgetsLoop bufSize idx buf file =
      if idx < bufSize - 1 then
        if c = lineFeed then
          { code := 1
            buf := (buf.store idx c).store (idx + 1) 0
            file := file.seek (file.pos + 1) }
        else fgetsLoop bufSize (idx + 1) (buf.store idx c) (file.seek (file.pos + 1))
      else
        { code := -1
          buf := buf.store (bufSize - 1) 0
          file := discardLine (some c) (file.seek (file.pos + 1)) } := by
  rw [fgetsLoop]
  split
  · next hread =>
      rw [FsFile.fgetc_cons hmore] at hread
      cases hread
  · next hread =>
      rw [FsFile.fgetc_cons hmore] at hread
      obtain ⟨hbyte, rfl⟩ := Prod.mk.inj hread
      obtain rfl := Option.some.inj hbyte
      rfl

end Loop

/-- What the loop leaves in memory is what it leaves of the text that remains. -/
structure LeavesInMemory (bufSize : Nat) (buf : TextBuffer) (file : FsFile)
    (got : Int × List UInt8 × List UInt8) (result : BufferedLine) : Prop where
  code : result.code = got.1
  text : got.1 ≠ 0 → result.buf.Starts (got.2.1 ++ [0])
  moved : result.file = file.seek (file.pos + (file.remaining.length - got.2.2.length))
  inside : ∀ index ∈ result.buf.written, index ∈ buf.written ∨ index < bufSize

theorem fgetsLoop_leaves {bufSize : Nat} (hsize : 2 ≤ bufSize) {buf : TextBuffer}
    {file : FsFile} {line rest : List UInt8} (hremaining : file.remaining = rest)
    (hstarts : buf.Starts line) (hroom : line.length ≤ bufSize - 1) :
    LeavesInMemory bufSize buf file (fsSafeFgetsFrom bufSize line rest)
      (fgetsLoop bufSize line.length buf file) := by
  induction rest generalizing line buf file with
  | nil =>
      rw [fgetsLoop_nil hremaining, fsSafeFgetsFrom]
      cases line with
      | nil =>
          refine ⟨rfl, fun hcode => absurd rfl hcode, ?_, fun _ => Or.inl⟩
          simp [hremaining, FsFile.seek]
      | cons byte line =>
          rw [if_neg (by simp), if_neg (by simp)]
          refine ⟨rfl, fun _ => hstarts.store 0, by simp [hremaining, FsFile.seek], ?_⟩
          intro index hindex
          rw [mem_written_store] at hindex
          exact hindex.imp_right (by omega)
  | cons c rest ih =>
      have hnext := FsFile.remaining_seek_succ hremaining
      have hstored := hstarts.store c
      have hlength : (line ++ [c]).length = line.length + 1 := List.length_append
      rw [fgetsLoop_cons hremaining, fsSafeFgetsFrom]
      by_cases hfits : line.length < bufSize - 1
      · rw [if_pos hfits, if_pos hfits]
        by_cases hc : c = lineFeed
        · rw [if_pos hc, if_pos hc]
          refine ⟨rfl, fun _ => ?_, by simp [hremaining, FsFile.seek], ?_⟩
          · rw [← hlength]
            exact hstored.store 0
          · intro index hindex
            rw [mem_written_store, mem_written_store, or_assoc] at hindex
            exact hindex.imp_right (by omega)
        · rw [if_neg hc, if_neg hc, ← hlength]
          have hlater := ih hnext hstored (by omega)
          have hle := length_fsSafeFgetsFrom_le bufSize (line ++ [c]) rest
          refine ⟨hlater.code, hlater.text, ?_, fun index hindex => ?_⟩
          · rw [hlater.moved, hnext, hremaining]
            simp only [FsFile.seek, FsFile.mk.injEq, true_and, List.length_cons]
            omega
          · have hinside := hlater.inside index hindex
            rw [mem_written_store, or_assoc] at hinside
            exact hinside.imp_right (by omega)
      · have hfull : bufSize - 1 = line.length := by omega
        have hle := (List.dropWhile_suffix (l := c :: rest) (· ≠ lineFeed)).length_le
        rw [if_neg hfits, if_neg hfits]
        refine ⟨rfl, fun _ => ?_, ?_, fun index hindex => ?_⟩
        · rw [hfull]
          exact hstarts.store 0
        · rw [discardLine_eq hnext, hremaining]
          simp only [FsFile.seek, FsFile.mk.injEq, true_and, List.length_cons, List.length_tail]
            at hle ⊢
          omega
        · rw [mem_written_store] at hindex
          exact hindex.imp_right (by omega)

/-! The line that stands next in a file. -/

/-- The bytes up to and including the first line feed, or all of them. -/
def firstLine (text : List UInt8) : List UInt8 :=
  text.take ((text.takeWhile (· ≠ lineFeed)).length + 1)

theorem ne_lineFeed_of_not_mem {text : List UInt8} (hnone : lineFeed ∉ text) :
    ∀ byte ∈ text, decide (byte ≠ lineFeed) = true :=
  fun _ hbyte => decide_eq_true fun heq => hnone (heq ▸ hbyte)

theorem firstLine_of_not_mem {text : List UInt8} (hnone : lineFeed ∉ text) :
    firstLine text = text := by
  have hwhole : text.takeWhile (· ≠ lineFeed) = text :=
    List.takeWhile_eq_self_iff.2 (ne_lineFeed_of_not_mem hnone)
  rw [firstLine, hwhole]
  exact List.take_of_length_le (Nat.le_succ _)

theorem firstLine_append_cons {body : List UInt8} (hbody : lineFeed ∉ body)
    (rest : List UInt8) : firstLine (body ++ lineFeed :: rest) = body ++ [lineFeed] := by
  have hfront : (body ++ lineFeed :: rest).takeWhile (· ≠ lineFeed) = body := by
    rw [List.takeWhile_append_of_pos (ne_lineFeed_of_not_mem hbody)]
    simp
  rw [firstLine, hfront, List.take_append, List.take_of_length_le (Nat.le_succ _),
    Nat.add_sub_cancel_left]
  rfl

theorem firstLine_eq_nil_iff (text : List UInt8) : firstLine text = [] ↔ text = [] := by
  cases text with
  | nil => exact iff_of_true rfl rfl
  | cons byte rest => simp [firstLine]

theorem drop_line (body rest : List UInt8) :
    (body ++ lineFeed :: rest).drop (body ++ [lineFeed]).length = rest := by
  rw [List.append_cons body lineFeed rest, List.drop_left]

/-- A first line that fits is read whole. -/
theorem fsSafeFgetsFrom_of_fits {bufSize : Nat} {text : List UInt8} (hmore : text ≠ [])
    (hfits : (firstLine text).length ≤ bufSize - 1) :
    fsSafeFgetsFrom bufSize [] text =
      (1, firstLine text, text.drop (firstLine text).length) := by
  by_cases hfeed : lineFeed ∈ text
  · obtain ⟨body, rest, rfl, hbody⟩ := List.eq_append_cons_of_mem hfeed
    rw [firstLine_append_cons hbody] at hfits ⊢
    rw [List.length_append, List.length_singleton] at hfits
    rw [fsSafeFgetsFrom_line hbody rest hfits, drop_line]
  · rw [firstLine_of_not_mem hfeed] at hfits ⊢
    rw [fsSafeFgetsFrom_lastLine hfeed hmore hfits, List.drop_length]

/-- A first line that does not fit is cut, and dropped whole. -/
theorem fsSafeFgetsFrom_of_long {bufSize : Nat} {text : List UInt8}
    (hlong : bufSize - 1 < (firstLine text).length) :
    fsSafeFgetsFrom bufSize [] text =
      (-1, (firstLine text).take (bufSize - 1), text.drop (firstLine text).length) := by
  by_cases hfeed : lineFeed ∈ text
  · obtain ⟨body, rest, rfl, hbody⟩ := List.eq_append_cons_of_mem hfeed
    rw [firstLine_append_cons hbody] at hlong ⊢
    rw [List.length_append, List.length_singleton] at hlong
    have hroom : bufSize - 1 ≤ body.length := Nat.le_of_lt_succ hlong
    have hfront : (body ++ lineFeed :: rest).take (bufSize - 1) = body.take (bufSize - 1) :=
      List.take_append_of_le_length hroom
    have hback : (body ++ lineFeed :: rest).drop (bufSize - 1) =
        body.drop (bufSize - 1) ++ lineFeed :: rest := List.drop_append_of_le_length hroom
    have hlater : lineFeed ∉ body.drop (bufSize - 1) := fun hmem =>
      hbody (List.mem_of_mem_drop hmem)
    have hdropped : (body.drop (bufSize - 1) ++ lineFeed :: rest).dropWhile (· ≠ lineFeed) =
        lineFeed :: rest := by
      rw [List.dropWhile_append_of_pos (ne_lineFeed_of_not_mem hlater)]
      simp
    have hnone : lineFeed ∉ (body ++ lineFeed :: rest).take (bufSize - 1) := by
      rw [hfront]
      exact fun hmem => hbody (List.mem_of_mem_take hmem)
    rw [fsSafeFgetsFrom_overflow hnone (by simp; omega), hfront, hback, hdropped, List.tail_cons,
      List.take_append_of_le_length hroom, drop_line]
  · have hnone : lineFeed ∉ text.take (bufSize - 1) := fun hmem =>
      hfeed (List.mem_of_mem_take hmem)
    have hlater : lineFeed ∉ text.drop (bufSize - 1) := fun hmem =>
      hfeed (List.mem_of_mem_drop hmem)
    have hdropped : (text.drop (bufSize - 1)).dropWhile (· ≠ lineFeed) = [] :=
      List.dropWhile_eq_nil_iff.2 (ne_lineFeed_of_not_mem hlater)
    rw [firstLine_of_not_mem hfeed] at hlong ⊢
    rw [fsSafeFgetsFrom_overflow hnone hlong, hdropped, List.drop_length]
    rfl

/-- Every call takes the first line off the text, whatever of it the buffer gets. -/
theorem fsSafeFgetsFrom_eq (bufSize : Nat) (text : List UInt8) :
    fsSafeFgetsFrom bufSize [] text =
      (if text = [] then 0 else if (firstLine text).length ≤ bufSize - 1 then 1 else -1,
        (firstLine text).take (bufSize - 1), text.drop (firstLine text).length) := by
  split_ifs with hend hfits
  · simp [hend, fsSafeFgetsFrom, firstLine]
  · rw [fsSafeFgetsFrom_of_fits hend hfits, List.take_of_length_le hfits]
  · exact fsSafeFgetsFrom_of_long (Nat.lt_of_not_le hfits)

/-- The line that stands next in a file, nothing at its end. -/
def FsFile.nextLine (file : FsFile) : List UInt8 :=
  firstLine file.remaining

/-- A call has consumed one line of the file and has stored what the buffer has room
for, with a terminator. -/
structure ConsumesLine (file : FsFile) (bufSize : Nat) (result : BufferedLine) : Prop where
  consumed : result.file = file.seek (file.pos + file.nextLine.length)
  whole : 1 ≤ file.nextLine.length → file.nextLine.length ≤ bufSize - 1 →
    result.code = 1 ∧ result.buf.Starts (file.nextLine ++ [0])
  cut : bufSize - 1 < file.nextLine.length →
    result.code = -1 ∧ result.buf.Starts (file.nextLine.take (bufSize - 1) ++ [0])
  atEnd : result.code = 0 ↔ file.content.length ≤ file.pos
  unmoved : result.code = 0 → result.file = file
  inside : ∀ index ∈ result.buf.written, index < bufSize

section Calls

variable {bufSize : Nat}

/-- What a call leaves in memory, whatever the buffer held. -/
theorem fsSafeFgets_leaves (hsize : 2 ≤ bufSize) (file : FsFile) (memory : Nat → UInt8) :
    LeavesInMemory bufSize ⟨memory, []⟩ file (fsSafeFgetsFrom bufSize [] file.remaining)
      (TextBuffer.fsSafeFgets file ⟨memory, []⟩ bufSize) := by
  have hstarts : (⟨memory, []⟩ : TextBuffer).Starts [] := rfl
  have hloop := fgetsLoop_leaves hsize (rfl : file.remaining = _) hstarts (Nat.zero_le _)
  rw [TextBuffer.fsSafeFgets, if_neg (Nat.not_lt.2 hsize)]
  exact hloop

/-- Inside the file, the call is the one that gives its line as a list. -/
theorem fsSafeFgets_views (hsize : 2 ≤ bufSize) {file : FsFile}
    (hpos : file.pos ≤ file.content.length) (memory : Nat → UInt8) :
    (TextBuffer.fsSafeFgets file ⟨memory, []⟩ bufSize).code = (fsSafeFgets bufSize file).code ∧
      (TextBuffer.fsSafeFgets file ⟨memory, []⟩ bufSize).file =
        (fsSafeFgets bufSize file).file ∧
      ((fsSafeFgets bufSize file).code ≠ 0 →
        (TextBuffer.fsSafeFgets file ⟨memory, []⟩ bufSize).buf.Starts
          ((fsSafeFgets bufSize file).line ++ [0])) := by
  have hleaves := fsSafeFgets_leaves hsize file memory
  refine ⟨hleaves.code, ?_, hleaves.text⟩
  have hle := length_fsSafeFgetsFrom_le bufSize [] file.remaining
  have hremaining : file.remaining.length = file.content.length - file.pos := List.length_drop
  rw [hleaves.moved, fsSafeFgets]
  simp only [FsFile.seek, FsFile.mk.injEq, true_and]
  omega

/-- `fs_safe_fgets` consumes exactly one line of the file, whatever its length. -/
theorem fsSafeFgets_consumes_line (hsize : 2 ≤ bufSize) (file : FsFile)
    (memory : Nat → UInt8) :
    ConsumesLine file bufSize (TextBuffer.fsSafeFgets file ⟨memory, []⟩ bufSize) := by
  have hleaves := fsSafeFgets_leaves hsize file memory
  have hend : file.remaining = [] ↔ file.content.length ≤ file.pos := List.drop_eq_nil_iff
  have hnone : file.nextLine = [] ↔ file.remaining = [] := firstLine_eq_nil_iff _
  have hle : file.nextLine.length ≤ file.remaining.length := List.length_take_le' _ _
  rw [fsSafeFgetsFrom_eq, ← FsFile.nextLine] at hleaves
  have hmoved := hleaves.moved
  rw [List.length_drop, Nat.sub_sub_self hle] at hmoved
  have hcode := hleaves.code
  have htext := hleaves.text
  dsimp only at hcode htext
  have hzero : (TextBuffer.fsSafeFgets file ⟨memory, []⟩ bufSize).code = 0 ↔
      file.remaining = [] := by
    rw [hcode]
    split_ifs with hnil <;> simp [hnil]
  constructor
  · exact hmoved
  · intro hpos hfits
    have hmore : file.remaining ≠ [] := fun hnil => by
      rw [hnone.2 hnil] at hpos
      cases hpos
    rw [if_neg hmore, if_pos hfits] at hcode htext
    rw [List.take_of_length_le hfits] at htext
    exact ⟨hcode, htext (by decide)⟩
  · intro hlong
    have hmore : file.remaining ≠ [] := fun hnil => by
      rw [hnone.2 hnil] at hlong
      cases hlong
    rw [if_neg hmore, if_neg (Nat.not_le.2 hlong)] at hcode htext
    exact ⟨hcode, htext (by decide)⟩
  · exact hzero.trans hend
  · intro hcodeZero
    rw [hmoved, hnone.2 (hzero.1 hcodeZero)]
    rfl
  · exact fun index hindex => (hleaves.inside index hindex).resolve_left List.not_mem_nil

end Calls

/-- A line of three bytes before the last one. -/
def shortLines : FsFile where
  content := [97, 98, lineFeed, 99]
  pos := 0

theorem fsSafeFgets_consumes_line_cut :
    ConsumesLine shortLines 3 (TextBuffer.fsSafeFgets shortLines ⟨fun _ => 0, []⟩ 3) :=
  fsSafeFgets_consumes_line (by decide) shortLines _

end Trifecta
