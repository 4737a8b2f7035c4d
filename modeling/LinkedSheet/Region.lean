import LinkedSheet.Cell

/-!
Rectangles of cells, both corners included. A region is built from two opposite corners or as the
smallest one that covers a list of cells, so its top-left corner never lies beyond its bottom-right
one. Counts saturate at the largest 64-bit number.
-/
namespace LinkedSheet

inductive Corner where
  | topLeft | topRight | bottomLeft | bottomRight
deriving DecidableEq, Repr

inductive Axis where
  | row | col
deriving DecidableEq, Repr

inductive Edge where
  | first | last
deriving DecidableEq, Repr

structure Region where
  topLeft : Cell
  bottomRight : Cell
  row_le : topLeft.row ≤ bottomRight.row
  col_le : topLeft.col ≤ bottomRight.col
deriving DecidableEq

namespace Region

def of (a b : Cell) : Region where
  topLeft := ⟨min a.row b.row, min a.col b.col⟩
  bottomRight := ⟨max a.row b.row, max a.col b.col⟩
  row_le := by show min _ _ ≤ max _ _; omega
  col_le := by show min _ _ ≤ max _ _; omega

def single (cell : Cell) : Region :=
  of cell cell

def cover (region : Region) (cell : Cell) : Region where
  topLeft := ⟨min region.topLeft.row cell.row, min region.topLeft.col cell.col⟩
  bottomRight := ⟨max region.bottomRight.row cell.row, max region.bottomRight.col cell.col⟩
  row_le := by have := region.row_le; show min _ _ ≤ max _ _; omega
  col_le := by have := region.col_le; show min _ _ ≤ max _ _; omega

/-- The smallest region that holds every cell of the list, or none for no cells. -/
def bounding : List Cell → Option Region
  | [] => none
  | cell :: rest => some (rest.foldl cover (single cell))

def corner (region : Region) : Corner → Cell
  | .topLeft => region.topLeft
  | .topRight => ⟨region.topLeft.row, region.bottomRight.col⟩
  | .bottomLeft => ⟨region.bottomRight.row, region.topLeft.col⟩
  | .bottomRight => region.bottomRight

def edge (region : Region) : Axis → Edge → Nat
  | .row, .first => region.topLeft.row
  | .row, .last => region.bottomRight.row
  | .col, .first => region.topLeft.col
  | .col, .last => region.bottomRight.col

def height (region : Region) : Nat :=
  region.bottomRight.row - region.topLeft.row + 1

def width (region : Region) : Nat :=
  region.bottomRight.col - region.topLeft.col + 1

def countLimit : Nat := Cell.indexBound - 1

def rowCount (region : Region) : Nat :=
  min region.height countLimit

def colCount (region : Region) : Nat :=
  min region.width countLimit

def cellCount (region : Region) : Nat :=
  min (region.rowCount * region.colCount) countLimit

def contains (region : Region) (cell : Cell) : Bool :=
  region.topLeft.row ≤ cell.row && cell.row ≤ region.bottomRight.row &&
    region.topLeft.col ≤ cell.col && cell.col ≤ region.bottomRight.col

def rowIndices (region : Region) : List Nat :=
  List.range' region.topLeft.row region.height

def colIndices (region : Region) : List Nat :=
  List.range' region.topLeft.col region.width

def cells (region : Region) : List Cell :=
  region.rowIndices.flatMap fun row => region.colIndices.map fun col => ⟨row, col⟩

/-- The region moved down and right, if no corner passes `Cell.maxIndex`. -/
def offset? (region : Region) (rows cols : Nat) : Option Region := do
  let topLeft ← region.topLeft.advance? rows cols
  let bottomRight ← region.bottomRight.advance? rows cols
  return of topLeft bottomRight

end Region

end LinkedSheet
