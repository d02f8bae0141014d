/-
Reading a row by the names of its columns: their order, the spelling of the names
and the columns of other names make no difference.
-/
import Trifecta.RowColumns
import Trifecta.Library.Segments
import Mathlib.Data.List.Nodup

namespace Trifecta

open CText

/-- A name in lower case and without the white space around it. -/
def spelling (name : List UInt8) : List UInt8 :=
  (((name.dropWhile isspace).reverse.dropWhile isspace).reverse).map tolower

/-- A header and a row under it, within the limits of the reader. -/
structure NamedRow where
  header : List UInt8
  row : List UInt8
  header_text : 0 ∉ header
  header_length : header.length ≤ 511
  header_columns : (header.splitOn comma).length ≤ 64
  header_names : ∀ name ∈ header.splitOn comma, name.length ≤ 63
  row_text : 0 ∉ row ∧ 10 ∉ row
  row_length : row.length ≤ 511
  row_columns : (header.splitOn comma).length ≤ (row.splitOn comma).length

namespace NamedRow

/-- The tokens of the row under the names of the header. -/
def columns (named : NamedRow) : List (List UInt8 × List UInt8) :=
  (named.header.splitOn comma).zip (named.row.splitOn comma)

/-- `fs_replay_parse_header`, then `fs_replay_parse_packet`. -/
def read (named : NamedRow) (floats : FloatText) (out : FsPacketUnion) : Int × FsPacketUnion :=
  fsReplayParsePacket floats (fsReplayParseHeader named.header) named.row out

/-- No field is named by two columns of the header. -/
def UniqueFields (named : NamedRow) : Prop :=
  (((named.header.splitOn comma).map headerField).filter (· ≠ .none)).Nodup

end NamedRow

/-- Columns with names of one spelling, and with one token unless the name is
unknown. -/
def SameColumn (first second : List UInt8 × List UInt8) : Prop :=
  spelling first.1 = spelling second.1 ∧ (headerField first.1 ≠ .none → first.2 = second.2)

/-- The second row has the columns of the first in some order. -/
def SameColumns (first second : NamedRow) : Prop :=
  ∃ ordered, first.columns.Perm ordered ∧ List.Forall₂ SameColumn ordered second.columns

/-- What `fs_replay_parse_packet` makes of the fields and tokens of a row. -/
def readColumns (floats : FloatText) (columns : List (FsFieldId × List UInt8))
    (out : FsPacketUnion) : Int × FsPacketUnion :=
  let packetType := rowType columns
  match replayLayout packetType with
  | none => (-2, out)
  | some layout =>
      let typed := layout.set .type
        (fun size => Block.littleEndian size (packetType % 2 ^ 32).toNat) (layout.clear out)
      (0, columns.foldl (storeCell floats layout) typed)

theorem fsReplayParsePacket_eq (floats : FloatText) (fieldForColumn : List FsFieldId)
    (line : List UInt8) (out : FsPacketUnion) :
    fsReplayParsePacket floats fieldForColumn line out =
      readColumns floats (fieldForColumn.zip (lineCells line)) out :=
  rfl

/-- The columns whose names are known. -/
def knownColumns (columns : List (FsFieldId × List UInt8)) : List (FsFieldId × List UInt8) :=
  columns.filter (·.1 ≠ .none)

/-- The normalized token of a short name is its spelling. -/
theorem fsNormalizeToken_eq {name : List UInt8} (hcomma : comma ∉ name)
    (hlength : name.length ≤ 63) : fsNormalizeToken (name.take 63) 64 = spelling name := by
  have hstarted : (name.dropWhile isspace).takeWhile (· ≠ comma) = name.dropWhile isspace := by
    refine List.takeWhile_eq_self_iff.2 fun byte hbyte => ?_
    simp only [ne_eq, decide_eq_true_eq]
    rintro rfl
    exact hcomma ((List.dropWhile_suffix isspace).mem hbyte)
  have hkept : (name.dropWhile isspace).length ≤ 63 :=
    (List.dropWhile_suffix isspace).length_le.trans hlength
  rw [fsNormalizeToken, List.take_of_length_le hlength, spelling, hstarted,
    List.take_of_length_le hkept]

theorem headerField_eq_of_spelling {name other : List UInt8} (hcomma : comma ∉ name)
    (hlength : name.length ≤ 63) (hother : comma ∉ other) (hotherLength : other.length ≤ 63)
    (hspelling : spelling name = spelling other) : headerField name = headerField other := by
  rw [headerField, headerField, fsNormalizeToken_eq hcomma hlength,
    fsNormalizeToken_eq hother hotherLength, hspelling]

section Read

variable (floats : FloatText)

theorem rowType_knownColumns (columns : List (FsFieldId × List UInt8)) :
    rowType (knownColumns columns) = rowType columns := by
  have hfind : (knownColumns columns).find? (fun column => column.1 = .type) =
      columns.find? fun column => column.1 = .type := by
    rw [knownColumns, List.find?_filter]
    congr 1
    funext column
    by_cases htype : column.1 = .type <;> simp [htype]
  rw [rowType, rowType, hfind]

theorem foldl_storeCell_knownColumns (layout : Layout FsFieldId)
    (columns : List (FsFieldId × List UInt8)) (packet : FsPacketUnion) :
    (knownColumns columns).foldl (storeCell floats layout) packet =
      columns.foldl (storeCell floats layout) packet := by
  induction columns generalizing packet with
  | nil => rfl
  | cons column later ih =>
      rw [knownColumns, List.filter_cons]
      split
      · exact ih _
      · next hunknown =>
          have hnone : column.1 = .none := by simpa using hunknown
          have hstored : storeCell floats layout packet column = packet := by
            rw [storeCell, hnone]
            rfl
          rw [List.foldl_cons, hstored]
          exact ih packet

/-- Columns of unknown names are passed over. -/
theorem readColumns_knownColumns (columns : List (FsFieldId × List UInt8))
    (out : FsPacketUnion) :
    readColumns floats (knownColumns columns) out = readColumns floats columns out := by
  rw [readColumns, readColumns, rowType_knownColumns]
  cases replayLayout (rowType columns) with
  | none => rfl
  | some layout => exact congrArg (Prod.mk 0) (foldl_storeCell_knownColumns floats layout columns _)

/-- Values of different fields can be stored in any order. -/
theorem storeCell_comm (layout : Layout FsFieldId) {first second : FsFieldId × List UInt8}
    (hne : first.1 ≠ second.1) (packet : FsPacketUnion) :
    storeCell floats layout (storeCell floats layout packet first) second =
      storeCell floats layout (storeCell floats layout packet second) first := by
  rw [storeCell, storeCell, storeCell, storeCell]
  cases hfirst : cellValue floats first.1 first.2 with
  | none => rfl
  | some value =>
      cases hsecond : cellValue floats second.1 second.2 with
      | none => rfl
      | some other =>
          exact Layout.set_comm layout hne (length_cellValue hfirst) (length_cellValue hsecond)
            packet

/-- With a field in at most one column, the column of the type is the same in
any order. -/
theorem rowType_perm {columns others : List (FsFieldId × List UInt8)}
    (hperm : columns.Perm others) (hnodup : (columns.map Prod.fst).Nodup) :
    rowType columns = rowType others := by
  induction hperm with
  | nil => rfl
  | cons column _ ih =>
      rw [List.map_cons, List.nodup_cons] at hnodup
      have hlater := ih hnodup.2
      rw [rowType, rowType] at hlater ⊢
      by_cases htype : column.1 = .type
      · simp [htype]
      · simpa [htype] using hlater
  | swap first second later =>
      rw [List.map_cons, List.map_cons, List.nodup_cons, List.mem_cons, not_or] at hnodup
      rw [rowType, rowType]
      by_cases hfirst : first.1 = .type
      · have hsecond : second.1 ≠ .type := fun heq => hnodup.1.1 (heq.trans hfirst.symm)
        simp [hfirst, hsecond]
      · by_cases hsecond : second.1 = .type <;> simp [hfirst, hsecond]
  | trans hfirst _ ihfirst ihsecond =>
      exact (ihfirst hnodup).trans (ihsecond ((hfirst.map Prod.fst).nodup_iff.1 hnodup))

theorem readColumns_perm {columns others : List (FsFieldId × List UInt8)}
    (hperm : columns.Perm others) (hnodup : (columns.map Prod.fst).Nodup)
    (out : FsPacketUnion) : readColumns floats columns out = readColumns floats others out := by
  rw [readColumns, readColumns, rowType_perm hperm hnodup]
  cases replayLayout (rowType others) with
  | none => rfl
  | some layout =>
      refine congrArg (Prod.mk 0) (hperm.foldl_eq' ?_ _)
      intro first hfirst second hsecond packet
      by_cases hsame : first = second
      · rw [hsame]
      · have hne : first.1 ≠ second.1 := fun heq =>
          hsame (List.inj_on_of_nodup_map hnodup hfirst hsecond heq)
        exact storeCell_comm floats layout hne packet

end Read

namespace NamedRow

variable (named : NamedRow)

/-- The columns of the row with the fields that their names are read as. -/
def fieldColumns : List (FsFieldId × List UInt8) :=
  named.columns.map fun column => (headerField column.1, column.2)

theorem lineCells_header : lineCells named.header = named.header.splitOn comma := by
  have hlength : named.header.length ≤ replayLineSize - 1 := named.header_length
  have hcolumns : (named.header.splitOn comma).length ≤ fsReplayMaxColumns := named.header_columns
  rw [lineCells, cString_of_not_mem named.header_text, List.take_of_length_le hlength,
    List.take_of_length_le hcolumns]

theorem lineCells_row :
    lineCells named.row = (named.row.splitOn comma).take fsReplayMaxColumns := by
  have hlength : named.row.length ≤ replayLineSize - 1 := named.row_length
  rw [lineCells, cString_of_not_mem named.row_text.1, List.take_of_length_le hlength]

/-- What the reader sees of the row is its columns, and tokens of no field. -/
theorem knownColumns_zip :
    knownColumns ((fsReplayParseHeader named.header).zip (lineCells named.row)) =
      knownColumns named.fieldColumns := by
  have hcolumns := named.header_columns
  have hrow := named.row_columns
  have hsplit : lineCells named.row =
      (named.row.splitOn comma).take (named.header.splitOn comma).length ++
        (lineCells named.row).drop (named.header.splitOn comma).length := by
    have htake : (named.row.splitOn comma).take (named.header.splitOn comma).length =
        (lineCells named.row).take (named.header.splitOn comma).length := by
      rw [lineCells_row, List.take_take, Nat.min_eq_left hcolumns]
    rw [htake, List.take_append_drop]
  have hfields : ((named.header.splitOn comma).map headerField).length =
      ((named.row.splitOn comma).take (named.header.splitOn comma).length).length := by
    rw [List.length_map, List.length_take, Nat.min_eq_left hrow]
  have hbeyond : ∀ (count : Nat) (tokens : List (List UInt8)),
      knownColumns ((List.replicate count FsFieldId.none).zip tokens) = [] := by
    intro count tokens
    refine List.filter_eq_nil_iff.2 fun column hcolumn => ?_
    have hnone := List.eq_of_mem_replicate (List.of_mem_zip hcolumn).1
    simp [hnone]
  have hzip : ((named.header.splitOn comma).map headerField).zip
      ((named.row.splitOn comma).take (named.header.splitOn comma).length) =
        named.fieldColumns := by
    rw [fieldColumns, columns, List.zip_map_left]
    refine congrArg (List.map _) ?_
    have hmin := @List.zip_eq_zip_take_min _ _ (named.header.splitOn comma)
      (named.row.splitOn comma)
    rw [Nat.min_eq_left hrow, List.take_length] at hmin
    exact hmin.symm
  rw [fsReplayParseHeader, lineCells_header, hsplit, List.zip_append hfields, knownColumns,
    List.filter_append, hzip]
  exact (congrArg _ (hbeyond _ _)).trans (List.append_nil _)

theorem read_eq (floats : FloatText) (out : FsPacketUnion) :
    named.read floats out = readColumns floats (knownColumns named.fieldColumns) out := by
  rw [read, fsReplayParsePacket_eq, ← readColumns_knownColumns, knownColumns_zip]

/-- A name of the header has no comma and fits the reader. -/
theorem short_name {column : List UInt8 × List UInt8} (hcolumn : column ∈ named.columns) :
    comma ∉ column.1 ∧ column.1.length ≤ 63 := by
  have hname := (List.of_mem_zip hcolumn).1
  exact ⟨Segments.not_mem_of_mem_splitOn hname, named.header_names column.1 hname⟩

/-- The fields of the known columns are those that the header names. -/
theorem map_knownColumns :
    (knownColumns named.fieldColumns).map Prod.fst =
      ((named.header.splitOn comma).map headerField).filter (· ≠ .none) := by
  have hnames : named.columns.map Prod.fst = named.header.splitOn comma :=
    List.map_fst_zip named.row_columns
  rw [knownColumns, fieldColumns, ← hnames, List.map_map, List.filter_map, List.map_map,
    List.filter_map]
  rfl

end NamedRow

/-- Columns of one spelling and token are known as one field with one token. -/
theorem knownColumns_eq_of_same {columns others : List (List UInt8 × List UInt8)}
    (hsame : List.Forall₂ SameColumn columns others)
    (hcolumns : ∀ column ∈ columns, comma ∉ column.1 ∧ column.1.length ≤ 63)
    (hothers : ∀ column ∈ others, comma ∉ column.1 ∧ column.1.length ≤ 63) :
    knownColumns (columns.map fun column => (headerField column.1, column.2)) =
      knownColumns (others.map fun column => (headerField column.1, column.2)) := by
  induction hsame with
  | nil => rfl
  | cons hfirst _ ih =>
      rw [List.forall_mem_cons] at hcolumns hothers
      obtain ⟨hspelling, htoken⟩ := hfirst
      have hfield := headerField_eq_of_spelling hcolumns.1.1 hcolumns.1.2 hothers.1.1
        hothers.1.2 hspelling
      have hlater := ih hcolumns.2 hothers.2
      rw [knownColumns, knownColumns] at hlater ⊢
      rw [List.map_cons, List.map_cons, List.filter_cons, List.filter_cons, ← hfield, hlater]
      split
      · next hknown => rw [htoken (by simpa using hknown)]
      · rfl

/-- Rows with the same columns are read as the same packet. -/
theorem read_eq_of_sameColumns (floats : FloatText) {first second : NamedRow}
    (hunique : first.UniqueFields) (hsame : SameColumns first second) (out : FsPacketUnion) :
    second.read floats out = first.read floats out := by
  obtain ⟨ordered, hperm, hcolumns⟩ := hsame
  have hshort : ∀ column ∈ ordered, comma ∉ column.1 ∧ column.1.length ≤ 63 :=
    fun column hcolumn => first.short_name (hperm.mem_iff.2 hcolumn)
  have hordered : knownColumns (ordered.map fun column => (headerField column.1, column.2)) =
      knownColumns second.fieldColumns :=
    knownColumns_eq_of_same hcolumns hshort fun _ hcolumn => second.short_name hcolumn
  have hknown : (knownColumns first.fieldColumns).Perm (knownColumns second.fieldColumns) := by
    rw [← hordered]
    exact (hperm.map _).filter _
  have hnodup : ((knownColumns first.fieldColumns).map Prod.fst).Nodup := by
    rw [first.map_knownColumns]
    exact hunique
  rw [first.read_eq, second.read_eq, readColumns_perm floats hknown hnodup]

/-- A row of two columns. -/
def typedRow : NamedRow where
  header := asciiText "type,time"
  row := asciiText "1,5"
  header_text := by decide +kernel
  header_length := by decide +kernel
  header_columns := by decide +kernel
  header_names := by decide +kernel
  row_text := by decide +kernel
  row_length := by decide +kernel
  row_columns := by decide +kernel

/-- The same columns the other way round, under other spellings of their names. -/
def respelledRow : NamedRow where
  header := asciiText " Time,TYPE\n"
  row := asciiText "5,1,7"
  header_text := by decide +kernel
  header_length := by decide +kernel
  header_columns := by decide +kernel
  header_names := by decide +kernel
  row_text := by decide +kernel
  row_length := by decide +kernel
  row_columns := by decide +kernel

theorem read_eq_respelledRow :
    respelledRow.read printedFloats (.zero 185) = typedRow.read printedFloats (.zero 185) := by
  have hunique : typedRow.UniqueFields := by
    rw [NamedRow.UniqueFields]
    decide +kernel
  have hcolumns : typedRow.columns =
      [(asciiText "type", asciiText "1"), (asciiText "time", asciiText "5")] := by decide +kernel
  have hrespelled : respelledRow.columns =
      [(asciiText " Time", asciiText "5"), (asciiText "TYPE\n", asciiText "1")] := by
    decide +kernel
  have htime : spelling (asciiText "time") = spelling (asciiText " Time") := by decide +kernel
  have htype : spelling (asciiText "type") = spelling (asciiText "TYPE\n") := by decide +kernel
  refine read_eq_of_sameColumns _ hunique
    ⟨[(asciiText "time", asciiText "5"), (asciiText "type", asciiText "1")], ?_, ?_⟩ _
  · rw [hcolumns]
    exact List.Perm.swap _ _ []
  · rw [hrespelled]
    exact .cons ⟨htime, fun _ => rfl⟩ (.cons ⟨htype, fun _ => rfl⟩ .nil)

end Trifecta
