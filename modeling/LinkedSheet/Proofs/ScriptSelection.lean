import LinkedSheet.Proofs.CopiedCells
import LinkedSheet.Proofs.ScriptBlocks
import LinkedSheet.Proofs.ScriptReductions

/-!
What scripts see of their selection. The numbers of rows and columns that a script is given are
those of the selected region, the values stand row by row, and cutting them into rows again and
storing these gives the block that a copy of the selection emits.
-/
namespace LinkedSheet

namespace Region

theorem cells_eq_flatMap (region : Region) :
    region.cells = (List.range region.height).flatMap fun row =>
      (List.range region.width).map fun col =>
        ⟨region.topLeft.row + row, region.topLeft.col + col⟩ := by
  simp only [cells, rowIndices, colIndices, List.range'_eq_map_range, List.flatMap_map,
    List.map_map, Function.comp_def]

theorem place_of_topLeft_add (region : Region) (row col : Nat) :
    region.place ⟨region.topLeft.row + row, region.topLeft.col + col⟩ = ⟨row, col⟩ := by
  rw [place, Nat.add_sub_cancel_left, Nat.add_sub_cancel_left]

end Region

def Sheet.rowsOf (sheet : Sheet) (region : Region) : List (List (Option Value)) :=
  (List.range region.height).map fun row => (List.range region.width).map fun col =>
    sheet.value ⟨region.topLeft.row + row, region.topLeft.col + col⟩

namespace Script

namespace Layout
variable {α : Type}

def cut (cols : Nat) (values : List Datum) : List (List Datum) :=
  (List.range (values.length / cols)).map fun row => (values.drop (row * cols)).take cols

theorem zipIdx_map_range (f : Nat → α) (n : Nat) :
    ((List.range n).map f).zipIdx = (List.range n).map fun i => (f i, i) :=
  List.ext_getElem (by simp) (by simp)

theorem entries_rowsOf (sheet : Sheet) (region : Region) :
    entries (sheet.rowsOf region) = Function.placedCells sheet region := by
  rw [Function.placedCells, Region.cells_eq_flatMap, List.map_flatMap]
  simp only [entries, Sheet.rowsOf, zipIdx_map_range, List.flatMap_map, List.map_map,
    Function.comp_def, Region.place_of_topLeft_add]

theorem cut_selectedData (sheet : Sheet) (region : Region) :
    cut region.width (selectedData sheet region.cells) =
      (sheet.rowsOf region).map (·.map Datum.ofCell) := by
  rw [cut, selectedData, List.length_map, region.length_cells,
    Nat.mul_div_cancel _ region.width_pos, Sheet.rowsOf, List.map_map]
  refine List.map_congr_left fun row member => List.ext_getElem? fun col => ?_
  rw [List.getElem?_take, Function.comp_apply, List.map_map, List.getElem?_map]
  by_cases across : col < region.width
  · have inside := region.row_col_inside (List.mem_range.1 member) across
    rw [if_pos across, List.getElem?_drop, List.getElem?_map, Region.getElem?_cells inside,
      Region.nth_row_col across, List.getElem?_range across]
    rfl
  · rw [if_neg across, List.getElem?_eq_none (by simpa using across)]
    rfl

end Layout

theorem toBlock_cut_selectedData (sheet : Sheet) (region : Region) :
    (Layout.grid (Layout.cut region.width (selectedData sheet region.cells))).toBlock =
      .ok (Function.copied sheet region.cells) := by
  rw [Layout.cut_selectedData, Layout.toBlock_grid_ofCell, Layout.entries_rowsOf,
    Function.copied_cells]

theorem countDatum_eq {n : Nat} (small : n ≤ 1000000) : countDatum n = .int n := by
  have bounds : -((Word.bound : Int) / 2) ≤ n ∧ (n : Int) < (Word.bound + 1) / 2 := by
    unfold Word.bound
    omega
  rw [countDatum, Word.signed, Int.bmod_eq_of_le bounds.1 bounds.2]

theorem selectionVariables_nil (sheet : Sheet) :
    selectionVariables sheet [] =
      [("input", .array #[]), ("rows", .int (0 : Nat)), ("cols", .int (0 : Nat))] := by
  have none_selected : selectionVariables sheet [] =
      [("input", .array #[]), ("rows", countDatum 0), ("cols", countDatum 0)] := rfl
  rw [none_selected, countDatum_eq (Nat.zero_le _)]

theorem selectionVariables_cells (sheet : Sheet) {region : Region}
    (small : region.height * region.width ≤ 1000000) :
    selectionVariables sheet region.cells =
      [("input", .array (selectedData sheet region.cells).toArray),
        ("rows", .int region.height), ("cols", .int region.width)] := by
  have height : region.height ≤ 1000000 :=
    Nat.le_trans (Nat.le_mul_of_pos_right _ region.width_pos) small
  have width : region.width ≤ 1000000 :=
    Nat.le_trans (Nat.le_mul_of_pos_left _ region.height_pos) small
  have limit : 1000000 ≤ Region.countLimit := by decide
  have rows : region.rowCount = region.height := min_eq_left (Nat.le_trans height limit)
  have cols : region.colCount = region.width := min_eq_left (Nat.le_trans width limit)
  rw [selectionVariables, region.bounding_cells]
  dsimp only
  rw [rows, cols, countDatum_eq height, countDatum_eq width]
  rfl

end Script

open Script

/-- A script sees its selection as it is. The numbers of rows and columns are those of the region,
or zero if nothing is selected; their product is the number of values; and the value so many rows
below and columns right of the corner stands where row by row counting says, unit for an empty cell.
Cut into rows and stored, the values give the block that a copy of the selection emits. -/
theorem selection_seen_by_scripts [Engine] {sheet : Sheet} {selection : Selection} {input : List Cell}
    (selected : selection.select sheet = .ok input) :
    ∃ (rows cols : Nat) (values : List Datum),
      selectionVariables sheet input =
        [("input", .array values.toArray), ("rows", .int rows), ("cols", .int cols)] ∧
      rows * cols = values.length ∧
      (selection.region sheet = .ok none → rows = 0 ∧ cols = 0) ∧
      (∀ region, selection.region sheet = .ok (some region) →
        rows = region.height ∧ cols = region.width ∧
        ∀ row < rows, ∀ col < cols, values[row * cols + col]? =
          some (Datum.ofCell (sheet.value
            ⟨region.topLeft.row + row, region.topLeft.col + col⟩))) ∧
      ∃ block, (Layout.grid (Layout.cut cols values)).toBlock = .ok block ∧
        Function.copy.call sheet input = .ok block := by
  rcases Selection.select_eq_ok_iff.1 selected with
    ⟨nothing, rfl⟩ | ⟨region, resolved, small, rfl⟩
  · refine ⟨0, 0, [], selectionVariables_nil sheet, rfl, fun _ => ⟨rfl, rfl⟩, fun region found => ?_, _, rfl, rfl⟩
    rw [nothing] at found
    cases found
  · refine ⟨region.height, region.width, selectedData sheet region.cells,
      selectionVariables_cells sheet small, ?_, fun nothing => ?_, fun other found => ?_,
      _, toBlock_cut_selectedData sheet region, rfl⟩
    · rw [selectedData, List.length_map, region.length_cells]
    · rw [resolved] at nothing
      cases nothing
    · rw [resolved] at found
      cases found
      refine ⟨rfl, rfl, fun row down col across => ?_⟩
      rw [selectedData, List.getElem?_map,
        Region.getElem?_cells (region.row_col_inside down across), Region.nth_row_col across]
      rfl

theorem selection_seen_by_scripts_halfDiagonal :
    ∃ values : List Datum,
      selectionVariables Session.halfDiagonal.sheet (Region.of ⟨2, 2⟩ ⟨0, 1⟩).cells =
        [("input", .array values.toArray), ("rows", .int (3 : Nat)), ("cols", .int (2 : Nat))] ∧
      3 * 2 = values.length ∧ values[2 * 2 + 1]? = some (.text "two") ∧
      values[1 * 2 + 1]? = some .unit ∧
      ∃ block, (Layout.grid (Layout.cut 2 values)).toBlock = .ok block ∧
        Function.copy.call Session.halfDiagonal.sheet (Region.of ⟨2, 2⟩ ⟨0, 1⟩).cells =
          .ok block := by
  have selected : (Selection.fixedBox ⟨2, 2⟩ ⟨0, 1⟩).select Session.halfDiagonal.sheet =
      .ok (Region.of ⟨2, 2⟩ ⟨0, 1⟩).cells := by rfl
  obtain ⟨rows, cols, values, bound, length, _, seen, stored⟩ := selection_seen_by_scripts selected
  obtain ⟨rfl, rfl, value⟩ := seen _ (Selection.region_fixedBox _ ⟨2, 2⟩ ⟨0, 1⟩)
  refine ⟨values, bound, length, ?_, ?_, stored⟩
  · exact (value 2 (by decide) 1 (by decide)).trans (by rfl)
  · exact (value 1 (by decide) 1 (by decide)).trans (by rfl)

end LinkedSheet
