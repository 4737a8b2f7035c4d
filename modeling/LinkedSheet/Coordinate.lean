import LinkedSheet.Sheet

/-!
Row and column indices, and cells, that may depend on the table: on its extent or on the region that
another operation wrote. Resolving one reads nothing but the extent and the regions of the
operations that `dependencies` lists.
-/
namespace LinkedSheet

/-- The largest selection that one operation may read, and the largest extent that is rendered. -/
def cellLimit : Nat := 1000000

inductive ResolveError where
  | unresolvedOperation (id : OpId)
  | emptyTable
  | invalidReference (reference : String)
  | outOfBounds (base : Cell) (rows cols : Int)
  | selectionTooLarge (count : Nat)
deriving DecidableEq, Repr

namespace ResolveError

def message : ResolveError → String
  | unresolvedOperation id => s!"Operation {id} has not written a region"
  | emptyTable => "Table is empty"
  | invalidReference reference => "Invalid cell reference: " ++ reference
  | outOfBounds base rows cols =>
    s!"Offset ({rows}, {cols}) from " ++ base.toText ++ " is out of bounds"
  | selectionTooLarge count => s!"Selection of {count} cells exceeds the limit of {cellLimit}"

end ResolveError

inductive Ordinate where
  /-- A fixed index, counted from zero. -/
  | fixed (index : Nat)
  /-- The last populated row of the table. -/
  | lastRow
  /-- The last populated column of the table. -/
  | lastCol
  /-- The first or last row or column of the region that an operation wrote. -/
  | operationEdge (id : OpId) (axis : Axis) (edge : Edge)
deriving DecidableEq, Repr

namespace Ordinate

def resolve (sheet : Sheet) : Ordinate → Except ResolveError Nat
  | fixed index => .ok index
  | lastRow =>
    match sheet.extent with
    | some extent => .ok extent.bottomRight.row
    | none => .error .emptyTable
  | lastCol =>
    match sheet.extent with
    | some extent => .ok extent.bottomRight.col
    | none => .error .emptyTable
  | operationEdge id axis edge =>
    match sheet.region id with
    | some region => .ok (region.edge axis edge)
    | none => .error (.unresolvedOperation id)

def dependencies : Ordinate → List OpId
  | operationEdge id _ _ => [id]
  | _ => []

end Ordinate

inductive Coordinate where
  | base (row col : Ordinate)
  /-- A reference such as `B2`. -/
  | reference (text : String)
  /-- A position moved by signed offsets. -/
  | offset (inner : Coordinate) (rows cols : Int)
  /-- A corner of the region that an operation wrote. -/
  | operationCorner (id : OpId) (corner : Corner)
deriving DecidableEq, Repr

namespace Coordinate

/-- The row is resolved before the column, and the inner position of an offset before its bounds. -/
def resolve (sheet : Sheet) : Coordinate → Except ResolveError Cell
  | base row col => do
    let row ← row.resolve sheet
    let col ← col.resolve sheet
    return ⟨row, col⟩
  | reference text =>
    match Cell.ofText? text with
    | some cell => .ok cell
    | none => .error (.invalidReference text)
  | offset inner rows cols => do
    let base ← inner.resolve sheet
    match base.offset? rows cols with
    | some cell => .ok cell
    | none => .error (.outOfBounds base rows cols)
  | operationCorner id corner =>
    match sheet.region id with
    | some region => .ok (region.corner corner)
    | none => .error (.unresolvedOperation id)

def dependencies : Coordinate → List OpId
  | base row col => row.dependencies ++ col.dependencies
  | reference _ => []
  | offset inner _ _ => inner.dependencies
  | operationCorner id _ => [id]

end Coordinate

end LinkedSheet
