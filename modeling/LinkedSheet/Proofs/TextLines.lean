import LinkedSheet.Export.Text
import LinkedSheet.Proofs.MarkdownGrid
import Mathlib.Algebra.Order.BigOperators.Group.List
import Mathlib.Data.List.DropRight

/-!
How many lines a table has as aligned text. A text is written as it is, line feeds included, so that
a row goes on over several lines; only the blanks at the end of its last text are left out, and line
feeds are blanks. The line on which a row begins has its number in front.
-/
namespace LinkedSheet

namespace Text
variable {c : Char} {front s : List Char}

theorem trimEnd_append_cons (solid : isBlank c = false) (front s : List Char) :
    trimEnd (front ++ c :: s) = front ++ c :: trimEnd s := by
  have stops : (front ++ c :: s).reverse.dropWhile isBlank =
      s.reverse.dropWhile isBlank ++ c :: front.reverse := by
    rw [List.reverse_append, List.reverse_cons, List.append_assoc, List.singleton_append,
      List.dropWhile_append, List.dropWhile_cons_of_neg (by simp [solid])]
    split
    · rename_i blank
      rw [List.isEmpty_iff.1 blank, List.nil_append]
    · rfl
  rw [trimEnd, stops, trimEnd]
  simp

theorem exists_trimEnd_append (s : List Char) :
    ∃ blanks, (∀ c ∈ blanks, isBlank c = true) ∧ trimEnd s ++ blanks = s :=
  ⟨s.rtakeWhile isBlank, fun _ => List.mem_rtakeWhile_imp, List.rdropWhile_append_rtakeWhile⟩

theorem trimEnd_blanks_append {blanks : List Char} (blank : ∀ c ∈ blanks, isBlank c = true)
    (s : List Char) :
    trimEnd (blanks ++ s) = if trimEnd s = [] then [] else blanks ++ trimEnd s := by
  have gone : blanks.reverse.dropWhile isBlank = [] :=
    List.dropWhile_eq_nil_iff.2 fun c member => blank c (List.mem_reverse.1 member)
  rw [trimEnd, List.reverse_append, List.dropWhile_append, gone, trimEnd]
  simp only [List.isEmpty_iff, List.reverse_eq_nil_iff]
  split <;> simp

end Text

namespace Export

theorem length_splitOn (text : List Char) :
    (text.splitOn '\n').length = text.count '\n' + 1 := by
  induction text with
  | nil => rfl
  | cons c text ih =>
    rw [List.splitOn_cons_eq_if_modifyHead, List.count_cons]
    split <;> simp [ih]

theorem splitOn_append_of_not_mem {front : List Char} (whole : '\n' ∉ front) (text : List Char) :
    (front ++ text).splitOn '\n' = (text.splitOn '\n').modifyHead (front ++ ·) := by
  induction front with
  | nil =>
    rw [List.nil_append]
    cases text.splitOn '\n' <;> rfl
  | cons c front ih =>
    rw [List.mem_cons, not_or] at whole
    rw [List.cons_append, List.splitOn_cons_eq_if_modifyHead, if_neg (by simpa using Ne.symm whole.1),
      ih whole.2, List.modifyHead_modifyHead]
    rfl

theorem getElem?_flatten_head {α : Type} {parts : List (List α)} {i : Nat} {first : α}
    {rest : List α} (part : parts[i]? = some (first :: rest)) :
    parts.flatten[((parts.take i).map List.length).sum]? = some first := by
  induction parts generalizing i with
  | nil => cases part
  | cons other parts ih =>
    cases i with
    | zero =>
      obtain rfl : other = first :: rest := Option.some.inj part
      rfl
    | succ i =>
      rw [List.flatten_cons, List.take_succ_cons, List.map_cons, List.sum_cons,
        List.getElem?_append_right (Nat.le_add_right _ _), Nat.add_sub_cancel_left]
      exact ih part

namespace Text
variable {label text : List Char} {texts : List (List Char)} {sizes : List Nat} {extent : Region}

open LinkedSheet.Text

def barred (text : List Char) (width : Nat) : List Char :=
  [' ', '|', ' '] ++ padLeft width text

def body (label : List Char) (texts : List (List Char)) (sizes : List Nat) : List Char :=
  trimEnd (label ++ (texts.zipWith barred sizes).flatten)

theorem line_eq (label : List Char) (texts : List (List Char)) (sizes : List Nat) :
    line label texts sizes = body label texts sizes ++ ['\n'] := rfl

/-- The line feeds of a row that are written: those of all its texts, less those among the blanks at
the end of the last one. -/
def writtenBreaks (texts : List (List Char)) : Nat :=
  (texts.dropLast.map (·.count '\n')).sum + (trimEnd (texts.getLastD [])).count '\n'

theorem count_padLeft (size : Nat) (text : List Char) :
    (padLeft size text).count '\n' = text.count '\n' := by
  rw [padLeft, List.count_append, List.count_replicate]
  simp

theorem count_barred (text : List Char) (size : Nat) :
    (barred text size).count '\n' = text.count '\n' := by
  rw [barred, List.count_append, count_padLeft]
  simp

theorem count_trimEnd_padLeft (size : Nat) (text : List Char) :
    (trimEnd (' ' :: padLeft size text)).count '\n' = (trimEnd text).count '\n' := by
  have spaces : ' ' :: padLeft size text =
      List.replicate (size - text.length + 1) ' ' ++ text := rfl
  rw [spaces, trimEnd_blanks_append]
  · split
    · rename_i blank
      rw [blank]
    · rw [List.count_append, List.count_replicate]
      simp
  · intro c member
    rw [List.eq_of_mem_replicate member]
    rfl

theorem body_cons (label text : List Char) (size : Nat) (texts : List (List Char))
    (sizes : List Nat) :
    body label (text :: texts) (size :: sizes) =
      label ++ [' ', '|'] ++
        trimEnd (' ' :: padLeft size text ++ (texts.zipWith barred sizes).flatten) := by
  have bar : label ++ ((text :: texts).zipWith barred (size :: sizes)).flatten =
      (label ++ [' ']) ++ '|' :: (' ' :: padLeft size text ++ (texts.zipWith barred sizes).flatten) := by
    simp [barred]
  rw [body, bar, trimEnd_append_cons rfl]
  simp

theorem body_cons_eq_body (label text : List Char) (size : Nat) (texts : List (List Char))
    (sizes : List Nat) :
    body label (text :: texts) (size :: sizes) = body (label ++ barred text size) texts sizes := by
  rw [body, body, List.zipWith_cons_cons, List.flatten_cons, List.append_assoc]

theorem count_body (label : List Char) (same : texts.length = sizes.length) (filled : texts ≠ []) :
    (body label texts sizes).count '\n' = label.count '\n' + writtenBreaks texts := by
  induction texts generalizing label sizes with
  | nil => exact absurd rfl filled
  | cons text texts ih =>
    obtain _ | ⟨size, sizes⟩ := sizes
    · cases same
    have same : texts.length = sizes.length := Nat.succ.inj same
    cases texts with
    | nil =>
      rw [body_cons, List.count_append, List.zipWith_nil_left, List.flatten_nil, List.append_nil,
        count_trimEnd_padLeft]
      simp [writtenBreaks]
    | cons next texts =>
      rw [body_cons_eq_body, ih _ same (List.cons_ne_nil _ _), List.count_append, count_barred]
      simp [writtenBreaks, Nat.add_assoc]

theorem splitOn_body (whole : '\n' ∉ label) (same : texts.length = sizes.length)
    (filled : texts ≠ []) :
    ∃ first rest, (body label texts sizes).splitOn '\n' = (label ++ first) :: rest ∧
      rest.length = writtenBreaks texts := by
  have count := count_body label same filled
  rw [List.count_eq_zero.2 whole, Nat.zero_add] at count
  obtain ⟨text, texts, rfl⟩ := List.exists_cons_of_ne_nil filled
  obtain _ | ⟨size, sizes⟩ := sizes
  · cases same
  rw [body_cons, List.append_assoc] at count ⊢
  generalize [' ', '|'] ++
    trimEnd (' ' :: padLeft size text ++ (texts.zipWith barred sizes).flatten) = behind at count ⊢
  have length := length_splitOn (label ++ behind)
  rw [count, splitOn_append_of_not_mem whole, List.length_modifyHead] at length
  obtain ⟨first, rest, parts⟩ := List.exists_cons_of_ne_nil (List.splitOn_ne_nil '\n' behind)
  rw [parts] at length
  refine ⟨first, rest, ?_, Nat.succ.inj length⟩
  rw [splitOn_append_of_not_mem whole, parts, List.modifyHead_cons]

theorem writtenBreaks_eq_zero_iff :
    writtenBreaks texts = 0 ↔
      (∀ text ∈ texts.dropLast, '\n' ∉ text) ∧ '\n' ∉ trimEnd (texts.getLastD []) := by
  rw [writtenBreaks, Nat.add_eq_zero_iff, List.sum_eq_zero_iff, List.forall_mem_map]
  simp only [List.count_eq_zero]

theorem writtenBreaks_of_whole (whole : ∀ text ∈ texts, '\n' ∉ text) : writtenBreaks texts = 0 := by
  refine writtenBreaks_eq_zero_iff.2
    ⟨fun text member => whole text (List.dropLast_subset _ member), fun member => ?_⟩
  have member := (trimEnd_isPrefix _).subset member
  cases last : texts.getLast? with
  | none => simp [List.getLastD_eq_getLast?, last] at member
  | some text =>
    rw [List.getLastD_eq_getLast?, last] at member
    exact whole text (List.mem_of_getLast? last) member

def labelWidth (extent : Region) : Nat :=
  (Nat.toDigits 10 (extent.bottomRight.row + 1)).length

def rowLabel (extent : Region) (row : Nat) : List Char :=
  padLeft (labelWidth extent) (Nat.toDigits 10 (row + 1))

/-- A text at the right end of a field of so many characters. -/
def RightAligned (width : Nat) (text field : List Char) : Prop :=
  field.length = width ∧ ∃ spaces, field = List.replicate spaces ' ' ++ text

theorem rightAligned_padLeft {width : Nat} (fits : text.length ≤ width) :
    RightAligned width text (padLeft width text) := by
  refine ⟨?_, _, rfl⟩
  rw [padLeft, List.length_append, List.length_replicate]
  omega

theorem length_toDigits_mono {n m : Nat} (h : n ≤ m) :
    (Nat.toDigits 10 n).length ≤ (Nat.toDigits 10 m).length := by
  have below := (Nat.length_toDigits_le_iff (by decide) Nat.length_toDigits_pos).1
    (Nat.le_refl (Nat.toDigits 10 m).length)
  exact (Nat.length_toDigits_le_iff (by decide) Nat.length_toDigits_pos).2 (Nat.lt_of_le_of_lt h below)

theorem mem_rowIndices {row : Nat} :
    row ∈ extent.rowIndices ↔ extent.topLeft.row ≤ row ∧ row ≤ extent.bottomRight.row := by
  have ordered := extent.row_le
  rw [Region.rowIndices, List.mem_range'_1, Region.height]
  omega

theorem rightAligned_rowLabel {row : Nat} (member : row ∈ extent.rowIndices) :
    RightAligned (labelWidth extent) (Nat.toDigits 10 (row + 1)) (rowLabel extent row) :=
  rightAligned_padLeft (length_toDigits_mono (Nat.succ_le_succ (mem_rowIndices.1 member).2))

theorem newline_not_mem_rowLabel (extent : Region) (row : Nat) : '\n' ∉ rowLabel extent row := by
  intro member
  rcases List.mem_append.1 member with space | digit
  · exact absurd (List.eq_of_mem_replicate space) (by decide)
  · exact absurd rfl (Markdown.plain_digits _ _ digit).2.1

theorem colIndices_eq (extent : Region) :
    ∃ front, extent.colIndices = front ++ [extent.bottomRight.col] := by
  have ordered := extent.col_le
  have last : extent.topLeft.col + 1 * (extent.bottomRight.col - extent.topLeft.col) =
      extent.bottomRight.col := by omega
  refine ⟨List.range' extent.topLeft.col (extent.bottomRight.col - extent.topLeft.col), ?_⟩
  rw [Region.colIndices, Region.width, List.range'_concat, last]

section
variable [Script.Engine] {table : Table}

def shown (table : Table) (extent : Region) (row : Nat) : List (List Char) :=
  rowFields table extent.colIndices row

def columnWidth (table : Table) (extent : Region) (col : Nat) : Nat :=
  extent.rowIndices.foldl (fun width row => max width (table.display ⟨row, col⟩).length)
    (Cell.columnLetters col).length

theorem foldl_widen (table : Table) (columns rows : List Nat) (start : Nat → Nat) :
    (rows.map (rowFields table columns)).foldl
        (fun widths fields => widen widths (fields.map List.length)) (columns.map start) =
      columns.map fun col =>
        rows.foldl (fun width row => max width (table.display ⟨row, col⟩).length) (start col) := by
  induction rows generalizing start with
  | nil => rfl
  | cons row rows ih =>
    have grown : widen (columns.map start) ((rowFields table columns row).map List.length) =
        columns.map fun col => max (start col) (table.display ⟨row, col⟩).length := by
      simp [widen, rowFields, List.zipWith_map, List.zipWith_self, String.length_toList]
    rw [List.map_cons, List.foldl_cons, grown, ih]
    rfl

theorem widths_eq (table : Table) (extent : Region) :
    widths (extent.colIndices.map Cell.columnLetters) (extent.rowIndices.map (shown table extent)) =
      extent.colIndices.map (columnWidth table extent) := by
  rw [widths, List.map_map]
  exact foldl_widen table extent.colIndices extent.rowIndices _

def headerBody (table : Table) (extent : Region) : List Char :=
  body (List.replicate (labelWidth extent) ' ') (extent.colIndices.map Cell.columnLetters)
    (extent.colIndices.map (columnWidth table extent))

def rowBody (table : Table) (extent : Region) (row : Nat) : List Char :=
  body (rowLabel extent row) (shown table extent row)
    (extent.colIndices.map (columnWidth table extent))

theorem region_eq (table : Table) (extent : Region) :
    region table extent = headerBody table extent ++ '\n' ::
      (extent.rowIndices.map (rowBody table extent)).flatMap (· ++ ['\n']) := by
  have rows : extent.rowIndices.map ((·.2) ∘ fun row => (row, rowFields table extent.colIndices row)) =
      extent.rowIndices.map (shown table extent) := rfl
  unfold region
  simp only [List.map_map, List.flatMap_map, line_eq, List.append_assoc, List.singleton_append, rows,
    widths_eq]
  rfl

theorem splitOn_rowBody (table : Table) (extent : Region) (row : Nat) :
    ∃ first rest, (rowBody table extent row).splitOn '\n' = (rowLabel extent row ++ first) :: rest ∧
      rest.length = writtenBreaks (shown table extent row) :=
  splitOn_body (newline_not_mem_rowLabel extent row) (by simp [shown, rowFields])
    (by simpa [shown, rowFields] using extent.colIndices_ne_nil)

theorem newline_not_mem_headerBody (table : Table) (extent : Region) :
    '\n' ∉ headerBody table extent := by
  have whole : ∀ text ∈ extent.colIndices.map Cell.columnLetters, '\n' ∉ text := by
    rw [List.forall_mem_map]
    exact fun col _ member => absurd rfl (Markdown.plain_columnLetters col _ member).2.1
  have count : (headerBody table extent).count '\n' =
      (List.replicate (labelWidth extent) ' ').count '\n' +
        writtenBreaks (extent.colIndices.map Cell.columnLetters) :=
    count_body _ (by simp) (by simpa using extent.colIndices_ne_nil)
  rw [writtenBreaks_of_whole whole, List.count_replicate, if_neg (by decide)] at count
  exact List.count_eq_zero.1 count

theorem splitOn_region (table : Table) (extent : Region) :
    (region table extent).splitOn '\n' = headerBody table extent ::
      (extent.rowIndices.map fun row => (rowBody table extent row).splitOn '\n').flatten ++ [[]] := by
  rw [region_eq,
    List.splitOn_append_cons_self_of_not_mem (newline_not_mem_headerBody table extent),
    splitOn_flatMap_lines, List.flatMap_map, List.flatMap_def, List.cons_append]

theorem render_of_small (occupied : table.extent = some extent)
    (small : extent.height * extent.width ≤ 1000000) :
    render table = .ok (String.ofList (region table extent)) := by
  rw [render, Table.boundedExtent_of_small occupied small]

def rowBreaks (table : Table) (extent : Region) (row : Nat) : Nat :=
  writtenBreaks (shown table extent row)

theorem sum_length_splitOn_rowBody (table : Table) (extent : Region) (rows : List Nat) :
    ((rows.map fun row => (rowBody table extent row).splitOn '\n').map List.length).sum =
      rows.length + (rows.map (rowBreaks table extent)).sum := by
  have each : (rows.map fun row => (rowBody table extent row).splitOn '\n').map List.length =
      rows.map fun row => 1 + rowBreaks table extent row := by
    rw [List.map_map]
    refine List.map_congr_left fun row _ => ?_
    obtain ⟨first, rest, parts, length⟩ := splitOn_rowBody table extent row
    rw [Function.comp_apply, parts, List.length_cons, length, Nat.add_comm]
    rfl
  rw [each, List.sum_map_add, List.map_const', List.sum_replicate_nat, Nat.mul_one]

theorem rowBreaks_eq_zero_iff (table : Table) (extent : Region) (row : Nat) :
    rowBreaks table extent row = 0 ↔
      (∀ col ∈ extent.colIndices.dropLast, '\n' ∉ (table.display ⟨row, col⟩).toList) ∧
        '\n' ∉ trimEnd (table.display ⟨row, extent.bottomRight.col⟩).toList := by
  obtain ⟨front, columns⟩ := colIndices_eq extent
  rw [rowBreaks, writtenBreaks_eq_zero_iff, shown, rowFields, columns, List.map_append,
    List.map_singleton, List.dropLast_concat, List.dropLast_concat, List.forall_mem_map]
  simp

/-- Under the header, a table has one line for each row and one more for each line feed that is
written; each row begins on a line with its number in front, as many lines further down as line feeds
have been written before. There are as many lines as rows if and only if no text has a line feed,
except for the texts of the last column among the blanks at their ends. -/
theorem lines_of_render (table : Table) (extent : Region) (occupied : table.extent = some extent)
    (small : extent.height * extent.width ≤ 1000000) :
    ∃ text header lines, render table = .ok text ∧
      text.toList.splitOn '\n' = header :: lines ++ [[]] ∧
      lines.length = extent.height + (extent.rowIndices.map (rowBreaks table extent)).sum ∧
      (∀ i row, extent.rowIndices[i]? = some row → ∃ number behind,
        lines[i + ((extent.rowIndices.take i).map (rowBreaks table extent)).sum]? =
          some (number ++ behind) ∧
        RightAligned (labelWidth extent) (Nat.toDigits 10 (row + 1)) number) ∧
      (lines.length = extent.height ↔ ∀ row ∈ extent.rowIndices,
        (∀ col ∈ extent.colIndices.dropLast, '\n' ∉ (table.display ⟨row, col⟩).toList) ∧
          '\n' ∉ trimEnd (table.display ⟨row, extent.bottomRight.col⟩).toList) := by
  have rows : extent.rowIndices.length = extent.height := List.length_range'
  have count := sum_length_splitOn_rowBody table extent extent.rowIndices
  rw [rows, ← List.length_flatten] at count
  refine ⟨_, headerBody table extent, _, render_of_small occupied small, ?_, count,
    fun i row at_i => ?_, ?_⟩
  · rw [String.toList_ofList, splitOn_region]
  · obtain ⟨first, rest, parts, -⟩ := splitOn_rowBody table extent row
    have before : ((extent.rowIndices.take i).map (rowBreaks table extent)).sum + i =
        (((extent.rowIndices.map fun row => (rowBody table extent row).splitOn '\n').take i).map
          List.length).sum := by
      obtain ⟨inside, -⟩ := List.getElem?_eq_some_iff.1 at_i
      rw [← List.map_take, sum_length_splitOn_rowBody, List.length_take_of_le inside.le, Nat.add_comm]
    refine ⟨rowLabel extent row, first, ?_, rightAligned_rowLabel (List.mem_of_getElem? at_i)⟩
    rw [Nat.add_comm, before]
    exact getElem?_flatten_head (by rw [List.getElem?_map, at_i, Option.map_some, parts])
  · rw [count, Nat.add_eq_left, List.sum_eq_zero_iff, List.forall_mem_map]
    simp only [rowBreaks_eq_zero_iff]

end

def brokenCells : Table :=
  (Table.evaluate { Table.empty with operations :=
    [⟨1, .empty, .reference "C9", .block (.ofList (Function.rowEntries
      [[.text "over\ntwo lines", .text "here\n\n"], [.int 10]])), none⟩] }).1

theorem lines_of_render_brokenCells :
    brokenCells.extent = some (.of ⟨8, 2⟩ ⟨9, 3⟩) ∧
    ∃ text header lines, render brokenCells = .ok text ∧
      text.toList.splitOn '\n' = header :: lines ++ [[]] ∧ lines.length = 3 ∧
      (∃ number behind, lines[0]? = some (number ++ behind) ∧ RightAligned 2 ['9'] number) ∧
      ∃ number behind, lines[2]? = some (number ++ behind) ∧ RightAligned 2 ['1', '0'] number := by
  have occupied : brokenCells.extent = some (.of ⟨8, 2⟩ ⟨9, 3⟩) := by decide +kernel
  have first : rowBreaks brokenCells (.of ⟨8, 2⟩ ⟨9, 3⟩) 8 = 1 := by decide +kernel
  have second : rowBreaks brokenCells (.of ⟨8, 2⟩ ⟨9, 3⟩) 9 = 0 := by decide +kernel
  have rows : (Region.of ⟨8, 2⟩ ⟨9, 3⟩).rowIndices = [8, 9] := rfl
  obtain ⟨text, header, lines, rendered, cut, length, begins, -⟩ :=
    lines_of_render brokenCells _ occupied (by decide)
  have upper := begins 0 8 rfl
  have lower := begins 1 9 rfl
  rw [rows] at length upper lower
  simp only [List.map_cons, List.map_nil, List.take_succ_cons, List.take_zero, first, second] at *
  exact ⟨occupied, text, header, lines, rendered, cut, length, upper, lower⟩

def forgedRow : Table :=
  (Table.evaluate { Table.empty with operations :=
    [⟨1, .empty, .reference "A1", .block (.scalar (.text "x\n2 | y")), none⟩] }).1

theorem row_forged_by_line_feed :
    forgedRow.extent = some (.of ⟨0, 0⟩ ⟨0, 0⟩) ∧
    ∃ text header lines, render forgedRow = .ok text ∧
      text.toList.splitOn '\n' = header :: lines ++ [[]] ∧
      lines = ["1 | x".toList, "2 | y".toList] ∧
      lines.length ≠ (Region.of ⟨0, 0⟩ ⟨0, 0⟩).height := by
  have occupied : forgedRow.extent = some (.of ⟨0, 0⟩ ⟨0, 0⟩) := by decide +kernel
  have cut : (region forgedRow (.of ⟨0, 0⟩ ⟨0, 0⟩)).splitOn '\n' =
      "  |       A".toList :: ["1 | x".toList, "2 | y".toList] ++ [[]] := by decide +kernel
  refine ⟨occupied, _, "  |       A".toList, _, render_of_small occupied (by decide), ?_, rfl, by decide⟩
  rw [String.toList_ofList, cut]

end Text

end Export

end LinkedSheet
