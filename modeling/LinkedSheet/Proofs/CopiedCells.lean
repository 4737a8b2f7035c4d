import LinkedSheet.Proofs.AppliedOperation
import LinkedSheet.Proofs.SelectedCells

/-!
Copying. The block of a copy is made of the selected cells as they are before anything is written,
each at its place in the selected region. Applying the operation therefore carries every populated
cell of the region to the same place relative to the anchor and changes no other cell, also where
the copies come to stand on the region itself.
-/
namespace LinkedSheet

namespace Region
variable {region : Region} {cell : Cell}

def place (region : Region) (cell : Cell) : Cell :=
  ⟨cell.row - region.topLeft.row, cell.col - region.topLeft.col⟩

theorem place_add_topLeft (inside : region.contains cell) :
    region.place cell + region.topLeft = cell := by
  simp only [contains, Bool.and_eq_true, decide_eq_true_eq] at inside
  obtain ⟨row, col⟩ := cell
  exact congrArg₂ Cell.mk (Nat.sub_add_cancel inside.1.1.1) (Nat.sub_add_cancel inside.1.2)

theorem eq_of_place_eq {other : Cell} (inside : region.contains cell)
    (other_inside : region.contains other) (same : region.place cell = region.place other) :
    cell = other := by
  rw [← place_add_topLeft inside, same, place_add_topLeft other_inside]

end Region

namespace Function
variable {sheet : Sheet} {region : Region} {relative : Cell} {value : Value}

def placedCells (sheet : Sheet) (region : Region) : List (Cell × Option Value) :=
  region.cells.map fun cell => (region.place cell, sheet.value cell)

theorem copied_cells (sheet : Sheet) (region : Region) :
    copied sheet region.cells = Block.ofList (Block.populated (placedCells sheet region)) := by
  rw [copied, region.bounding_cells, placedCells, Block.populated, List.filterMap_map]
  rfl

theorem pairwise_placedCells (sheet : Sheet) (region : Region) :
    (placedCells sheet region).Pairwise fun a b => a.1 ≠ b.1 := by
  rw [placedCells, List.pairwise_map]
  refine region.pairwise_cells.imp_of_mem fun {a b} member other before same => ?_
  rw [Region.eq_of_place_eq (Region.mem_cells.1 member) (Region.mem_cells.1 other) same,
    Cell.compare_eq_eq.2 rfl] at before
  cases before

theorem getElem?_copied_eq_some_iff :
    (copied sheet region.cells)[relative]? = some value ↔
      ∃ cell, region.contains cell ∧ sheet.value cell = some value ∧
        region.place cell = relative := by
  rw [copied_cells, Block.getElem?_ofList_populated (pairwise_placedCells sheet region),
    placedCells, List.mem_map]
  simp only [Region.mem_cells, Prod.mk.injEq, and_comm]

end Function

namespace Table
variable [Script.Engine] {table : Table} {op : Operation} {output : Output} {region : Region} {cell : Cell}
  {value : Value}

theorem block_of_copy (copies : op.function = .copy)
    (resolved : op.selection.region table.sheet = .ok (some region))
    (emits : table.Emits op output) :
    output.block = Function.copied table.sheet region.cells := by
  obtain ⟨_, input, selected, called, _⟩ := emits
  rw [copies, Selection.eq_cells_of_select resolved selected] at called
  exact (Except.ok.inj called).symm

theorem get_record_place (copy : output.block = Function.copied table.sheet region.cells)
    (inside : region.contains cell) (held : table.get cell = some value) :
    (table.record output).get (region.place cell + output.anchor) = some value := by
  refine (table.holds_record output).cells _ value ?_
  rw [copy]
  exact Function.getElem?_copied_eq_some_iff.2 ⟨cell, inside, held, rfl⟩

theorem get_record_of_ne_place (copy : output.block = Function.copied table.sheet region.cells)
    {other : Cell} (apart : ∀ cell, region.contains cell → (table.get cell).isSome →
      other ≠ region.place cell + output.anchor) :
    (table.record output).get other = table.get other := by
  refine (table.holds_record output).other_cells other fun relative listed here => ?_
  have some_value := Std.TreeMap.mem_iff_isSome_getElem?.1 (Std.TreeMap.mem_keys.1 listed)
  obtain ⟨value, entry⟩ := Option.isSome_iff_exists.1 some_value
  rw [copy] at entry
  obtain ⟨cell, inside, held, rfl⟩ := Function.getElem?_copied_eq_some_iff.1 entry
  exact apart cell inside (Option.isSome_of_eq_some held) here.symm

theorem get_record_topLeft (copy : output.block = Function.copied table.sheet region.cells)
    (inPlace : output.anchor = region.topLeft) (cell : Cell) :
    (table.record output).get cell = table.get cell := by
  by_cases filled : region.contains cell ∧ (table.get cell).isSome
  · obtain ⟨value, held⟩ := Option.isSome_iff_exists.1 filled.2
    have carried := get_record_place copy filled.1 held
    rw [inPlace, Region.place_add_topLeft filled.1] at carried
    rw [carried, held]
  · refine get_record_of_ne_place copy fun other inside held here => ?_
    rw [inPlace, Region.place_add_topLeft inside] at here
    rw [here] at filled
    exact filled ⟨inside, held⟩

end Table

namespace Session

section
variable [Script.Engine] {σ : Type} {table left : Table} {op : Operation} {region : Region}
  {anchor : Cell} {files : σ}

/-- Copying reads everything before it writes anything. A copy that succeeds has carried the value
of each populated cell of the selected region, as it was before, to the same place relative to the
anchor, and has changed no other cell, whether or not the places overlap the region. A copy onto the
region itself changes nothing. -/
theorem copy_reads_before_writing (copies : op.function = .copy)
    (resolved : op.selection.region table.sheet = .ok (some region))
    (anchored : op.anchor.resolve table.sheet = .ok anchor)
    (applied : (apply op : Session (StateM σ) Unit).on table files = ((.ok (), left), files)) :
    (∀ cell value, region.contains cell → table.get cell = some value →
      left.get ⟨cell.row - region.topLeft.row + anchor.row,
        cell.col - region.topLeft.col + anchor.col⟩ = some value) ∧
    (∀ other, (∀ cell, region.contains cell → (table.get cell).isSome →
        other ≠ ⟨cell.row - region.topLeft.row + anchor.row,
          cell.col - region.topLeft.col + anchor.col⟩) →
      left.get other = table.get other) ∧
    (anchor = region.topLeft → ∀ cell, left.get cell = table.get cell) := by
  obtain ⟨output, emits, rfl⟩ := apply_on_eq_ok applied
  have copy := Table.block_of_copy copies resolved emits
  obtain ⟨_, _, _, _, there⟩ := emits
  obtain rfl : anchor = output.anchor := Except.ok.inj (anchored.symm.trans there)
  exact ⟨fun _ _ => Table.get_record_place copy, fun _ => Table.get_record_of_ne_place copy,
    Table.get_record_topLeft copy⟩

end

def halfDiagonal : Table :=
  { Table.empty with values := Block.ofList [(⟨1, 1⟩, .int 1), (⟨2, 2⟩, .text "two")] }

def alongDiagonal : Operation :=
  ⟨3, Selection.fixedBox ⟨0, 0⟩ ⟨2, 2⟩, .base (.fixed 1) (.fixed 1), .copy, some .copy⟩

theorem copy_reads_before_writing_alongDiagonal :
    ∃ left, (apply alongDiagonal : Session (StateM Unit) Unit).on halfDiagonal () =
        ((.ok (), left), ()) ∧
      left.get ⟨2, 2⟩ = some (.int 1) ∧ left.get ⟨3, 3⟩ = some (.text "two") ∧
      left.get ⟨1, 1⟩ = some (.int 1) := by
  have emits : halfDiagonal.Emits alongDiagonal
      ⟨3, ⟨1, 1⟩, .ofList [(⟨1, 1⟩, .int 1), (⟨2, 2⟩, .text "two")]⟩ := ⟨rfl, _, rfl, rfl, rfl⟩
  obtain ⟨left, recorded⟩ : ∃ left, halfDiagonal.apply alongDiagonal = .ok left :=
    ⟨_, Table.apply_eq_ok_iff_emits.2
      ⟨_, emits, Output.inBounds_iff_keys.2 (by decide +kernel), rfl⟩⟩
  have applied : (apply alongDiagonal : Session (StateM Unit) Unit).on halfDiagonal () =
      ((.ok (), left), ()) := by rw [apply_on, recorded]; rfl
  have one : halfDiagonal.get ⟨1, 1⟩ = some (.int 1) := by rfl
  have two : halfDiagonal.get ⟨2, 2⟩ = some (.text "two") := by rfl
  have corner : halfDiagonal.get ⟨0, 0⟩ = none := by rfl
  obtain ⟨carried, unchanged, _⟩ := copy_reads_before_writing rfl
    (Selection.region_fixedBox _ ⟨0, 0⟩ ⟨2, 2⟩) rfl applied
  refine ⟨left, applied, carried ⟨1, 1⟩ _ (by decide) one, carried ⟨2, 2⟩ _ (by decide) two, ?_⟩
  rw [unchanged ⟨1, 1⟩, one]
  rintro ⟨row, col⟩ _ filled here
  have rows : 1 = row - 0 + 1 := congrArg Cell.row here
  have cols : 1 = col - 0 + 1 := congrArg Cell.col here
  obtain rfl : row = 0 := by omega
  obtain rfl : col = 0 := by omega
  rw [corner] at filled
  cases filled

end Session

end LinkedSheet
