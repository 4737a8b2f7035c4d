import LinkedSheet.Proofs.SelectedCells
import Mathlib.Order.Bounds.Basic

/-!
The region around a list of cells is the least one that holds them all, so it depends on nothing but
which cells are in the list, and a whole region is the one around its own cells. Moving a region
checks its two corners only, and yet it is refused exactly if one of the cells would come to stand
beyond `Cell.maxIndex`; a region that is moved is the one around the moved cells.
-/
namespace LinkedSheet.Region
variable {region : Region} {cells others : List Cell} {rows cols : Nat}

theorem isLeast_of_bounding (bounded : bounding cells = some region) :
    IsLeast {outer : Region | ∀ cell ∈ cells, outer.contains cell} region :=
  ⟨fun _ member => contains_of_bounding bounded member,
    fun _ holds => (bounding_le_iff bounded).2 holds⟩

theorem bounding_congr (same : ∀ cell, cell ∈ others ↔ cell ∈ cells) :
    bounding others = bounding cells := by
  cases around : bounding cells with
  | none =>
    have empty := bounding_eq_none_iff.1 around
    subst empty
    exact bounding_eq_none_iff.2
      (List.eq_nil_iff_forall_not_mem.2 fun cell member => List.not_mem_nil ((same cell).1 member))
  | some region =>
    obtain ⟨some_cell, least⟩ := bounding_eq_some_iff.1 around
    obtain ⟨cell, member⟩ := List.exists_mem_of_ne_nil cells some_cell
    refine bounding_eq_some_iff.2 ⟨List.ne_nil_of_mem ((same cell).2 member), fun outer => ?_⟩
    exact (least outer).trans (forall_congr' fun cell => by rw [same])

theorem inBounds_shift_iff (bounded : bounding cells = some region) (by_ : Cell) :
    (region.shift by_).bottomRight.InBounds ↔ ∀ cell ∈ cells, (cell + by_).InBounds := by
  have moved : bounding (cells.map (· + by_)) = some (region.shift by_) := by
    rw [bounding_map_add, bounded, Option.map_some]
  rw [inBounds_iff_of_bounding moved, List.forall_mem_map]

theorem offset?_eq_none_iff (bounded : bounding cells = some region) :
    region.offset? rows cols = none ↔ ∃ cell ∈ cells, ¬ (cell + ⟨rows, cols⟩).InBounds := by
  rw [← not_iff_not, ← ne_eq, Option.ne_none_iff_exists']
  simp only [offset?_eq_some_iff, inBounds_shift_iff bounded, exists_and_left, exists_eq, and_true]
  push Not
  rfl

theorem mapM_advance? (cells : List Cell) (rows cols : Nat) :
    cells.mapM (Cell.advance? · rows cols) =
      if ∀ cell ∈ cells, cell.row + rows ≤ Cell.maxIndex ∧ cell.col + cols ≤ Cell.maxIndex then
        some (cells.map (· + ⟨rows, cols⟩))
      else none := by
  induction cells with
  | nil => rfl
  | cons cell rest ih =>
    rw [List.mapM_cons, ih]
    by_cases first : cell.row + rows ≤ Cell.maxIndex ∧ cell.col + cols ≤ Cell.maxIndex
    · have moved : cell.advance? rows cols = some (cell + ⟨rows, cols⟩) :=
        Cell.advance?_eq_some_iff.2 ⟨first, rfl⟩
      simp only [moved, List.forall_mem_cons, first, true_and, List.map_cons]
      split <;> rfl
    · have refused : cell.advance? rows cols = none :=
        Option.eq_none_iff_forall_ne_some.2 fun _ moved =>
          first (Cell.advance?_eq_some_iff.1 moved).1
      simp only [refused, List.forall_mem_cons, first, false_and, if_false]
      rfl

theorem mapM_advance?_bind_bounding (cells : List Cell) (rows cols : Nat) :
    (cells.mapM (Cell.advance? · rows cols)).bind bounding =
      (bounding cells).bind (·.offset? rows cols) := by
  rw [mapM_advance?]
  split
  · rename_i within
    rw [Option.bind_some, bounding_map_add]
    cases around : bounding cells with
    | none => rfl
    | some region =>
      exact (offset?_eq_some_iff.2 ⟨(inBounds_shift_iff around _).2 within, rfl⟩).symm
  · rename_i beyond
    cases around : bounding cells with
    | none => rfl
    | some region =>
      push Not at beyond
      refine ((offset?_eq_none_iff around).2 ?_).symm
      obtain ⟨cell, member, large⟩ := beyond
      exact ⟨cell, member, fun within => (large within.1).not_ge within.2⟩

/-- Only for no cells there is no region around them; otherwise it is the least one that holds them
all, whatever their order and however often they are listed. A region is the one around its own
cells. Cells can be moved if the indices of all of them stay small enough; the region around moved
cells is the region around the cells, moved, and the one is refused exactly if the other is. -/
theorem bounding_least_and_moves (cells : List Cell) :
    (bounding cells = none ↔ cells = []) ∧
    (∀ region, bounding cells = some region →
      IsLeast {outer : Region | ∀ cell ∈ cells, outer.contains cell} region) ∧
    (∀ others : List Cell, (∀ cell, cell ∈ others ↔ cell ∈ cells) →
      bounding others = bounding cells) ∧
    (∀ region : Region, bounding region.cells = some region) ∧
    ∀ rows cols : Nat,
      cells.mapM (Cell.advance? · rows cols) =
        (if ∀ cell ∈ cells, cell.row + rows ≤ Cell.maxIndex ∧ cell.col + cols ≤ Cell.maxIndex then
          some (cells.map (· + ⟨rows, cols⟩))
        else none) ∧
      (cells.mapM (Cell.advance? · rows cols)).bind bounding =
        (bounding cells).bind (·.offset? rows cols) ∧
      ∀ region, bounding cells = some region →
        (region.offset? rows cols = none ↔
          ∃ cell ∈ cells, Cell.maxIndex < cell.row + rows ∨ Cell.maxIndex < cell.col + cols) := by
  refine ⟨bounding_eq_none_iff, fun region => isLeast_of_bounding, fun others => bounding_congr,
    bounding_cells, fun rows cols => ⟨mapM_advance? cells rows cols,
      mapM_advance?_bind_bounding cells rows cols, fun region bounded => ?_⟩⟩
  rw [offset?_eq_none_iff bounded]
  simp only [Cell.InBounds, Cell.add_row, Cell.add_col, not_and_or, Nat.not_le]

def besideLastColumn : List Cell :=
  [⟨3, 1⟩, ⟨0, Cell.maxIndex - 1⟩, ⟨3, 1⟩]

theorem bounding_least_and_moves_besideLastColumn :
    IsLeast {outer : Region | ∀ cell ∈ besideLastColumn, outer.contains cell}
        (of ⟨0, 1⟩ ⟨3, Cell.maxIndex - 1⟩) ∧
      bounding [⟨0, Cell.maxIndex - 1⟩, ⟨3, 1⟩] = some (of ⟨0, 1⟩ ⟨3, Cell.maxIndex - 1⟩) ∧
      bounding (besideLastColumn.map (· + ⟨5, 1⟩)) = some (of ⟨5, 2⟩ ⟨8, Cell.maxIndex⟩) ∧
      besideLastColumn.mapM (Cell.advance? · 0 2) = none ∧
      (of ⟨0, 1⟩ ⟨3, Cell.maxIndex - 1⟩).offset? 0 2 = none := by
  have around : bounding besideLastColumn = some (of ⟨0, 1⟩ ⟨3, Cell.maxIndex - 1⟩) := by
    decide +kernel
  obtain ⟨-, least, congr, -, moves⟩ := bounding_least_and_moves besideLastColumn
  obtain ⟨together, along, -⟩ := moves 5 1
  obtain ⟨beyond, -, refused⟩ := moves 0 2
  refine ⟨least _ around, ?_, ?_, ?_, (refused _ around).2 (by decide +kernel)⟩
  · rw [← around]
    refine congr _ fun cell => ?_
    simp only [besideLastColumn, List.mem_cons, List.not_mem_nil, or_false]
    tauto
  · rw [together, if_pos (by decide +kernel), Option.bind_some, around] at along
    rw [along]
    decide +kernel
  · rw [beyond, if_neg (by decide +kernel)]

end LinkedSheet.Region
