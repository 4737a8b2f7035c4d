import LinkedSheet.Script.Interpreter
import LinkedSheet.Selection
import LinkedSheet.Proofs.RegionBounding
import LinkedSheet.Proofs.TableExtent

/-!
The list of cells that a selection stands for. A region is listed row by row, so a position in the
list gives row and column by division by the width, the list increases in the order of cells, and
the region around it is the region itself. A selection with a region is listed if the product of its
sides is small enough, however far the sides reach, and refused otherwise.
-/
namespace LinkedSheet

namespace Region
variable {region : Region} {cell : Cell} {i : Nat}

def nth (region : Region) (i : Nat) : Cell :=
  ⟨region.topLeft.row + i / region.width, region.topLeft.col + i % region.width⟩

theorem mem_cells : cell ∈ region.cells ↔ region.contains cell := by
  have rows := region.row_le
  have cols := region.col_le
  simp only [cells, rowIndices, colIndices, height, width, List.mem_flatMap, List.mem_map,
    List.mem_range'_1, contains, Bool.and_eq_true, decide_eq_true_eq]
  constructor
  · rintro ⟨row, down, col, across, rfl⟩
    dsimp only
    omega
  · intro inside
    exact ⟨cell.row, by omega, cell.col, by omega, rfl⟩

theorem nth_row_col {row col : Nat} (across : col < region.width) :
    region.nth (row * region.width + col) =
      ⟨region.topLeft.row + row, region.topLeft.col + col⟩ := by
  rw [nth, Nat.mul_comm row, Nat.mul_add_div region.width_pos, Nat.div_eq_of_lt across,
    Nat.add_zero, Nat.mul_add_mod, Nat.mod_eq_of_lt across]

theorem row_col_inside (region : Region) {row col : Nat} (down : row < region.height)
    (across : col < region.width) :
    row * region.width + col < region.height * region.width :=
  calc
    row * region.width + col < row * region.width + region.width := Nat.add_lt_add_left across _
    _ = (row + 1) * region.width := (Nat.succ_mul row region.width).symm
    _ ≤ region.height * region.width := Nat.mul_le_mul_right _ down

theorem flatMap_rows (region : Region) (n : Nat) :
    ((List.range' region.topLeft.row n).flatMap fun row =>
        region.colIndices.map fun col => (⟨row, col⟩ : Cell)) =
      (List.range (n * region.width)).map region.nth := by
  induction n with
  | zero => simp
  | succ n ih =>
    have last : (region.colIndices.map fun col => (⟨region.topLeft.row + n, col⟩ : Cell)) =
        ((List.range region.width).map (n * region.width + ·)).map region.nth := by
      rw [colIndices, List.range'_eq_map_range, List.map_map, List.map_map]
      refine List.map_congr_left fun col member => ?_
      exact (nth_row_col (List.mem_range.1 member)).symm
    rw [List.range'_concat, List.flatMap_append, ih, List.flatMap_singleton, Nat.one_mul, last,
      ← List.map_append, ← List.range_add, ← Nat.succ_mul]

theorem cells_eq (region : Region) :
    region.cells = (List.range (region.height * region.width)).map region.nth :=
  region.flatMap_rows region.height

theorem length_cells (region : Region) :
    region.cells.length = region.height * region.width := by
  rw [cells_eq, List.length_map, List.length_range]

theorem getElem?_cells (inside : i < region.height * region.width) :
    region.cells[i]? = some (region.nth i) := by
  rw [cells_eq, List.getElem?_map, List.getElem?_range inside, Option.map_some]

theorem nth_lt_nth {j : Nat} (region : Region) (before : i < j) :
    compare (region.nth i) (region.nth j) = .lt := by
  rw [Cell.compare_eq_lt, nth, nth]
  dsimp only
  have rows : i / region.width ≤ j / region.width := Nat.div_le_div_right (Nat.le_of_lt before)
  rcases Nat.lt_or_eq_of_le rows with earlier | same
  · exact .inl (by omega)
  · have split_i := Nat.div_add_mod i region.width
    have split_j := Nat.div_add_mod j region.width
    rw [same] at split_i
    exact .inr ⟨by omega, by omega⟩

theorem pairwise_cells (region : Region) :
    region.cells.Pairwise fun a b => compare a b = .lt := by
  rw [cells_eq, List.pairwise_map]
  exact List.pairwise_lt_range.imp region.nth_lt_nth

theorem bounding_cells (region : Region) : bounding region.cells = some region := by
  refine bounding_eq_some_iff.2 ⟨List.ne_nil_of_mem (mem_cells.2 region.contains_topLeft), ?_⟩
  exact fun outer => forall_congr' fun cell => by rw [mem_cells]

end Region

namespace Selection
variable {sheet : Sheet} {selection : Selection} {region : Region} {input : List Cell}

theorem select_of_none (resolved : selection.region sheet = .ok none) :
    selection.select sheet = .ok [] := by
  rw [select, resolved]
  rfl

theorem select_of_some (resolved : selection.region sheet = .ok (some region)) :
    selection.select sheet =
      if region.cellCount > cellLimit then .error (.selectionTooLarge region.cellCount)
      else .ok region.cells := by
  rw [select, resolved]
  rfl

theorem eq_cells_of_select (resolved : selection.region sheet = .ok (some region))
    (selected : selection.select sheet = .ok input) : input = region.cells := by
  rw [select_of_some resolved] at selected
  split at selected
  · cases selected
  · exact (Except.ok.inj selected).symm

theorem select_eq_ok_iff :
    selection.select sheet = .ok input ↔
      (selection.region sheet = .ok none ∧ input = []) ∨
        ∃ region, selection.region sheet = .ok (some region) ∧
          region.height * region.width ≤ 1000000 ∧ input = region.cells := by
  rcases resolved : selection.region sheet with e | _ | region
  · have failed : selection.select sheet = .error e := by rw [select, resolved]; rfl
    simp [failed]
  · simp [select_of_none resolved, eq_comm]
  · by_cases large : cellLimit < region.cellCount
    · have product := Region.cellLimit_lt_cellCount_iff.1 large
      simp [select_of_some resolved, large, product]
    · have product := mt Region.cellLimit_lt_cellCount_iff.2 large
      simp [select_of_some resolved, large, Nat.not_lt.1 product, eq_comm]

/-- A selection with a region is listed exactly if the region has at most a million cells. The list
has all cells of the region and no other ones, row by row in increasing order. A larger region is
refused with its number of cells, as far as 64 bits can tell it. -/
theorem select_lists_region (resolved : selection.region sheet = .ok (some region)) :
    (region.height * region.width ≤ 1000000 →
      ∃ cells, selection.select sheet = .ok cells ∧
        cells.length = region.height * region.width ∧
        (∀ i < region.height * region.width,
          cells[i]? = some ⟨region.topLeft.row + i / region.width,
            region.topLeft.col + i % region.width⟩) ∧
        cells.Pairwise (fun a b => compare a b = .lt) ∧
        ∀ cell, cell ∈ cells ↔ region.contains cell) ∧
    (1000000 < region.height * region.width →
      selection.select sheet =
        .error (.selectionTooLarge (min (region.height * region.width) Region.countLimit))) := by
  refine ⟨fun few => ⟨region.cells, ?_, region.length_cells, fun i => Region.getElem?_cells,
    region.pairwise_cells, fun cell => Region.mem_cells⟩, fun many => ?_⟩
  · exact select_eq_ok_iff.2 (.inr ⟨region, resolved, few, rfl⟩)
  · rw [select_of_some resolved, if_pos (Region.cellLimit_lt_cellCount_iff.2 many),
      Region.cellCount_eq]

def fixedBox (a b : Cell) : Selection :=
  .box (.base (.fixed a.row) (.fixed a.col)) (.base (.fixed b.row) (.fixed b.col))

theorem region_fixedBox (sheet : Sheet) (a b : Cell) :
    (fixedBox a b).region sheet = .ok (some (Region.of a b)) := rfl

theorem select_lists_region_lastRows :
    (∃ cells, (fixedBox ⟨Cell.indexBound - 1, 4⟩ ⟨Cell.indexBound - 2, 2⟩).select
        Table.empty.sheet = .ok cells ∧
      cells.length = 6 ∧ cells[5]? = some ⟨Cell.indexBound - 1, 4⟩ ∧
      (⟨Cell.indexBound - 2, 4⟩ : Cell) ∈ cells) ∧
    (fixedBox ⟨Cell.indexBound - 1, 4⟩ ⟨0, 4⟩).select Table.empty.sheet =
      .error (.selectionTooLarge (Cell.indexBound - 1)) := by
  constructor
  · have resolved := region_fixedBox Table.empty.sheet ⟨Cell.indexBound - 1, 4⟩
      ⟨Cell.indexBound - 2, 2⟩
    obtain ⟨cells, selected, length, nth, _, members⟩ :=
      (select_lists_region resolved).1 (by decide)
    exact ⟨cells, selected, length, nth 5 (by decide), (members _).2 (by decide)⟩
  · have resolved := region_fixedBox Table.empty.sheet ⟨Cell.indexBound - 1, 4⟩ ⟨0, 4⟩
    exact (select_lists_region resolved).2 (by decide)

end Selection

end LinkedSheet
