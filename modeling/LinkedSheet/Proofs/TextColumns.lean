import LinkedSheet.Proofs.TextLines
import Mathlib.Data.List.Forall2
import Mathlib.Order.Bounds.Basic

/-!
Columns of aligned text. Every column is exactly as wide as the longest of its texts, so that on all
lines the bars stand at the same positions, counted in characters. A text stands at the right end of
its column; what is left out at the end of a line are blanks behind the last bar.
-/
namespace LinkedSheet.Export.Text
variable {label text : List Char} {texts : List (List Char)} {sizes : List Nat} {size : Nat}

open LinkedSheet.Text

def barPosition (labelWidth : Nat) (widths : List Nat) (k : Nat) : Nat :=
  labelWidth + 1 + ((widths.take k).map (3 + ·)).sum

/-- A line with its label in front, a bar in front of every column, and a text at the right end of
each column. Blanks may be missing at the end of the line. -/
structure Aligned (labelWidth : Nat) (widths : List Nat) (label : List Char)
    (texts : List (List Char)) (drawn : List Char) : Prop where
  front : RightAligned labelWidth label (drawn.take labelWidth)
  bar : ∀ k < widths.length, drawn[barPosition labelWidth widths k]? = some '|'
  inside : ∀ k text width, texts[k]? = some text → widths[k]? = some width →
    k + 1 < widths.length →
      ∃ field, RightAligned width text field ∧
        drawn.extract (barPosition labelWidth widths k + 1) (barPosition labelWidth widths (k + 1)) =
          ' ' :: field ++ [' ']
  last : ∀ k text width, texts[k]? = some text → widths[k]? = some width →
    k + 1 = widths.length →
      ∃ field blanks, RightAligned width text field ∧ (∀ c ∈ blanks, isBlank c = true) ∧
        drawn.drop (barPosition labelWidth widths k + 1) ++ blanks = ' ' :: field

theorem barPosition_succ {k : Nat} (at_k : sizes[k]? = some size) (labelWidth : Nat) :
    barPosition labelWidth sizes (k + 1) = barPosition labelWidth sizes k + (3 + size) := by
  rw [barPosition, barPosition, List.take_add_one, at_k]
  simp [Nat.add_assoc]

theorem length_barred (fits : text.length ≤ size) : (barred text size).length = 3 + size := by
  rw [barred, List.length_append, (rightAligned_padLeft fits).1]
  rfl

theorem exists_front (label : List Char) {k : Nat}
    (fits : List.Forall₂ (fun text size => text.length ≤ size) texts sizes)
    (text_at : texts[k]? = some text) (size_at : sizes[k]? = some size) :
    ∃ front, front.length = barPosition label.length sizes k ∧ label <+: front ∧
      body label texts sizes = front ++ '|' :: trimEnd (' ' :: padLeft size text ++
        ((texts.drop (k + 1)).zipWith barred (sizes.drop (k + 1))).flatten) := by
  induction fits generalizing label k with
  | nil => cases text_at
  | @cons first width texts sizes short others ih =>
    cases k with
    | zero =>
      cases text_at
      cases size_at
      refine ⟨label ++ [' '], by simp [barPosition], List.prefix_append _ _, ?_⟩
      rw [body_cons]
      simp
    | succ k =>
      obtain ⟨front, length, begins, split⟩ := ih (label ++ barred first width)
        (by simpa using text_at) (by simpa using size_at)
      refine ⟨front, ?_, (List.prefix_append _ _).trans begins, ?_⟩
      · rw [length, List.length_append, length_barred short, barPosition, barPosition]
        simp
        omega
      · rw [body_cons_eq_body, split]
        rfl

theorem drop_front (front behind : List Char) :
    (front ++ '|' :: behind).drop (front.length + 1) = behind := by
  rw [← List.drop_drop, List.drop_left, List.drop_one, List.tail_cons]

theorem aligned_body (number : List Char)
    (fits : List.Forall₂ (fun text size => text.length ≤ size) texts sizes) (filled : texts ≠ [])
    (numbered : RightAligned label.length number label) :
    Aligned label.length sizes number texts (body label texts sizes) := by
  have same : texts.length = sizes.length := fits.length_eq
  have room {k : Nat} {text : List Char} {size : Nat} (text_at : texts[k]? = some text)
      (size_at : sizes[k]? = some size) : text.length ≤ size := by
    obtain ⟨below, rfl⟩ := List.getElem?_eq_some_iff.1 text_at
    obtain ⟨below', rfl⟩ := List.getElem?_eq_some_iff.1 size_at
    exact fits.get below below'
  refine ⟨?_, fun k below => ?_, fun k text size text_at size_at below => ?_,
    fun k text size text_at size_at ends => ?_⟩
  · have some_text : 0 < texts.length := List.length_pos_of_ne_nil filled
    obtain ⟨front, -, begins, split⟩ := exists_front label fits
      (List.getElem?_eq_getElem some_text) (List.getElem?_eq_getElem (same ▸ some_text))
    have whole := begins.trans (split ▸ List.prefix_append front _)
    rw [← List.prefix_iff_eq_take.1 whole]
    exact numbered
  · obtain ⟨front, length, -, split⟩ := exists_front label fits
      (List.getElem?_eq_getElem (same ▸ below)) (List.getElem?_eq_getElem below)
    rw [split, ← length, List.getElem?_append_right (Nat.le_refl _), Nat.sub_self]
    rfl
  · -- another bar follows, so that nothing of the field is left out
    obtain ⟨front, length, -, split⟩ := exists_front label fits text_at size_at
    have aligned := rightAligned_padLeft (room text_at size_at)
    refine ⟨padLeft size text, aligned, ?_⟩
    obtain ⟨next, more, texts_behind⟩ := List.exists_cons_of_ne_nil
      (List.drop_eq_nil_iff.not.2 (Nat.not_le.2 (same ▸ below : k + 1 < texts.length)))
    obtain ⟨width, others, sizes_behind⟩ := List.exists_cons_of_ne_nil
      (List.drop_eq_nil_iff.not.2 (Nat.not_le.2 below))
    have behind : ' ' :: padLeft size text ++
        ((texts.drop (k + 1)).zipWith barred (sizes.drop (k + 1))).flatten =
          (' ' :: padLeft size text ++ [' ']) ++ '|' :: (' ' :: padLeft width next ++
            (more.zipWith barred others).flatten) := by
      rw [texts_behind, sizes_behind]
      simp [barred]
    have field : (' ' :: padLeft size text ++ [' ']).length =
        front.length + (3 + size) - (front.length + 1) := by
      rw [List.length_append, List.length_cons, aligned.1, List.length_singleton]
      omega
    rw [split, behind, trimEnd_append_cons rfl, barPosition_succ size_at, ← length, List.extract,
      drop_front]
    exact List.take_left' field
  · obtain ⟨front, length, -, split⟩ := exists_front label fits text_at size_at
    obtain ⟨blanks, blank, whole⟩ := exists_trimEnd_append (' ' :: padLeft size text)
    refine ⟨padLeft size text, blanks, rightAligned_padLeft (room text_at size_at), blank, ?_⟩
    have behind : texts.drop (k + 1) = [] := List.drop_eq_nil_iff.2 (by omega)
    rw [split, behind, List.zipWith_nil_left, List.flatten_nil, List.append_nil, ← length, drop_front]
    exact whole

theorem isGreatest_foldl_max (length : Nat → Nat) (rows : List Nat) (start : Nat) :
    IsGreatest {n | n = start ∨ ∃ row ∈ rows, n = length row}
      (rows.foldl (fun width row => max width (length row)) start) := by
  induction rows generalizing start with
  | nil => simp [IsGreatest]
  | cons row rows ih =>
    obtain ⟨among, bound⟩ := ih (max start (length row))
    have grown : max start (length row) ≤
        rows.foldl (fun width row => max width (length row)) (max start (length row)) :=
      bound (.inl rfl)
    refine ⟨?_, ?_⟩
    · rcases among with same | ⟨other, member, same⟩
      · rw [List.foldl_cons, same]
        rcases max_choice start (length row) with first | second
        · exact .inl first
        · exact .inr ⟨row, List.mem_cons_self, second⟩
      · exact .inr ⟨other, List.mem_cons_of_mem _ member, same⟩
    · rintro n (rfl | ⟨other, member, rfl⟩)
      · exact (le_max_left _ _).trans grown
      · rcases List.mem_cons.1 member with rfl | member
        · exact (le_max_right _ _).trans grown
        · exact bound (.inr ⟨other, member, rfl⟩)

section
variable [Script.Engine] {table : Table} {extent : Region}

theorem isGreatest_columnWidth (table : Table) (extent : Region) (col : Nat) :
    IsGreatest {n | n = (Cell.columnLetters col).length ∨
        ∃ row ∈ extent.rowIndices, n = (table.display ⟨row, col⟩).length}
      (columnWidth table extent col) :=
  isGreatest_foldl_max _ _ _

theorem fits_letters (table : Table) (extent : Region) :
    List.Forall₂ (fun text size => text.length ≤ size)
      (extent.colIndices.map Cell.columnLetters)
      (extent.colIndices.map (columnWidth table extent)) := by
  rw [List.forall₂_map_left_iff, List.forall₂_map_right_iff, List.forall₂_same]
  exact fun col _ => (isGreatest_columnWidth table extent col).2 (.inl rfl)

theorem fits_shown (table : Table) {row : Nat} (member : row ∈ extent.rowIndices) :
    List.Forall₂ (fun text size => text.length ≤ size) (shown table extent row)
      (extent.colIndices.map (columnWidth table extent)) := by
  rw [shown, rowFields, List.forall₂_map_left_iff, List.forall₂_map_right_iff, List.forall₂_same]
  exact fun col _ => (isGreatest_columnWidth table extent col).2
    (.inr ⟨row, member, String.length_toList⟩)

theorem aligned_headerBody (table : Table) (extent : Region) :
    Aligned (labelWidth extent) (extent.colIndices.map (columnWidth table extent)) []
      (extent.colIndices.map Cell.columnLetters) (headerBody table extent) := by
  have blank : (List.replicate (labelWidth extent) ' ').length = labelWidth extent :=
    List.length_replicate
  have aligned := aligned_body [] (fits_letters table extent)
    (by simpa using extent.colIndices_ne_nil) ⟨rfl, labelWidth extent, (List.append_nil _).symm⟩
  rw [blank] at aligned
  exact aligned

theorem aligned_rowBody {row : Nat} (member : row ∈ extent.rowIndices) :
    Aligned (labelWidth extent) (extent.colIndices.map (columnWidth table extent))
      (Nat.toDigits 10 (row + 1)) (shown table extent row) (rowBody table extent row) := by
  have numbered := rightAligned_rowLabel member
  have fits := fits_shown table member
  have aligned := aligned_body _ fits (by simpa [shown, rowFields] using extent.colIndices_ne_nil)
    (numbered.1.symm ▸ numbered)
  rw [numbered.1] at aligned
  exact aligned

theorem splitOn_rowBody_of_whole {row : Nat}
    (whole : ∀ col ∈ extent.colIndices, '\n' ∉ (table.display ⟨row, col⟩).toList) :
    (rowBody table extent row).splitOn '\n' = [rowBody table extent row] := by
  have unbroken : writtenBreaks (shown table extent row) = 0 :=
    writtenBreaks_of_whole (List.forall_mem_map.2 whole)
  obtain ⟨first, rest, parts, length⟩ := splitOn_rowBody table extent row
  have lines := length_splitOn (rowBody table extent row)
  rw [parts, List.length_cons, length, unbroken] at lines
  exact List.splitOn_eq_singleton (List.count_eq_zero.1 (Nat.succ.inj lines).symm)

/-- If no text has a line feed, a table has a header and one line for each row. On all these lines
the bars stand at the same positions, columns being as wide as the longest text in them, and the
texts stand at the right ends of their columns. -/
theorem columns_of_render (table : Table) (extent : Region) (occupied : table.extent = some extent)
    (small : extent.height * extent.width ≤ 1000000)
    (whole : ∀ cell ∈ extent.cells, '\n' ∉ (table.display cell).toList) :
    ∃ text header lines widths, render table = .ok text ∧
      text.toList.splitOn '\n' = header :: lines ++ [[]] ∧
      List.Forall₂ (fun col width =>
        IsGreatest {n | n = (Cell.columnLetters col).length ∨
          ∃ row ∈ extent.rowIndices, n = (table.display ⟨row, col⟩).length} width)
        extent.colIndices widths ∧
      Aligned (labelWidth extent) widths [] (extent.colIndices.map Cell.columnLetters) header ∧
      List.Forall₂ (fun row line => Aligned (labelWidth extent) widths (Nat.toDigits 10 (row + 1))
        (extent.colIndices.map fun col => (table.display ⟨row, col⟩).toList) line)
        extent.rowIndices lines := by
  have unbroken : (extent.rowIndices.map fun row => (rowBody table extent row).splitOn '\n').flatten =
      extent.rowIndices.map (rowBody table extent) := by
    have each : ∀ row ∈ extent.rowIndices,
        (rowBody table extent row).splitOn '\n' = [rowBody table extent row] :=
      fun row down => splitOn_rowBody_of_whole fun col across =>
        whole _ (List.mem_flatMap.2 ⟨row, down, List.mem_map_of_mem across⟩)
    rw [List.map_congr_left each, ← List.flatMap_def, ← List.map_eq_flatMap]
  refine ⟨_, headerBody table extent, extent.rowIndices.map (rowBody table extent),
    extent.colIndices.map (columnWidth table extent), render_of_small occupied small, ?_, ?_,
    aligned_headerBody table extent, ?_⟩
  · rw [String.toList_ofList, splitOn_region, unbroken]
  · rw [List.forall₂_map_right_iff, List.forall₂_same]
    exact fun col _ => isGreatest_columnWidth table extent col
  · rw [List.forall₂_map_right_iff, List.forall₂_same]
    exact fun row member => aligned_rowBody member

end

def barredColumns : Table :=
  (Table.evaluate { Table.empty with operations :=
    [⟨1, .empty, .reference "C99", .block (.ofList (Function.rowEntries
      [[.text "ünï | "], [.int 7, .text "\t|x "]])), none⟩] }).1

theorem columns_of_render_barredColumns :
    barredColumns.extent = some (.of ⟨98, 2⟩ ⟨99, 3⟩) ∧
    ∃ text header upper lower, render barredColumns = .ok text ∧
      text.toList.splitOn '\n' = [header, upper, lower, []] ∧
      (∀ drawn ∈ [header, upper, lower], drawn[4]? = some '|' ∧ drawn[13]? = some '|') ∧
      ∃ field, RightAligned 6 "ünï | ".toList field ∧ upper.extract 5 13 = ' ' :: field ++ [' '] := by
  have occupied : barredColumns.extent = some (.of ⟨98, 2⟩ ⟨99, 3⟩) := by decide +kernel
  have whole : ∀ cell ∈ (Region.of ⟨98, 2⟩ ⟨99, 3⟩).cells,
      '\n' ∉ (barredColumns.display cell).toList := by decide +kernel
  obtain ⟨text, header, lines, widths, rendered, cut, greatest, top, rows⟩ :=
    columns_of_render barredColumns _ occupied (by decide) whole
  have columns : (Region.of ⟨98, 2⟩ ⟨99, 3⟩).colIndices = [2, 3] := rfl
  have numbers : (Region.of ⟨98, 2⟩ ⟨99, 3⟩).rowIndices = [98, 99] := rfl
  rw [numbers] at rows
  rw [columns] at greatest top rows
  cases rows with | cons first rows =>
  cases rows with | cons second rows =>
  cases rows
  cases greatest with | cons left greatest =>
  cases greatest with | cons right greatest =>
  cases greatest
  have wide : columnWidth barredColumns (.of ⟨98, 2⟩ ⟨99, 3⟩) 2 = 6 := by decide +kernel
  obtain rfl := left.unique (wide ▸ isGreatest_columnWidth barredColumns (.of ⟨98, 2⟩ ⟨99, 3⟩) 2)
  have shows : (barredColumns.display ⟨98, 2⟩).toList = "ünï | ".toList := by decide +kernel
  have bars {number : List Char} {texts : List (List Char)} {drawn : List Char} {last : Nat}
      (aligned : Aligned 3 [6, last] number texts drawn) :
      drawn[4]? = some '|' ∧ drawn[13]? = some '|' :=
    ⟨aligned.bar 0 Nat.zero_lt_two, aligned.bar 1 Nat.one_lt_two⟩
  obtain ⟨field, aligned, inside⟩ := first.inside 0 _ 6 rfl rfl Nat.one_lt_two
  refine ⟨occupied, text, header, _, _, rendered, cut, ?_, field, shows ▸ aligned, inside⟩
  simp only [List.forall_mem_cons]
  exact ⟨bars top, bars first, bars second, by simp⟩

end LinkedSheet.Export.Text
