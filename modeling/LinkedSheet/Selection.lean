import LinkedSheet.Coordinate
import LinkedSheet.Text.Blank

/-!
The cells that an operation reads, given as a rectangle: a box between two positions, a range such
as `A1:B5`, one column from a row on, or all that another operation wrote. A selection resolves to
its region first; `select` lists the cells of the region row by row and refuses more than
`cellLimit` of them.
-/
namespace LinkedSheet

inductive Selection where
  | empty
  /-- The box between two positions, in either order. -/
  | box (upperLeft lowerRight : Coordinate)
  /-- A range in references, such as `A1:B5`. -/
  | range (text : String)
  /-- One column from a row, counted from one, to `toRow`, counted from zero; to the last populated
  row if that is left out. -/
  | column (col : String) (fromRow : Nat) (toRow : Option Ordinate)
  /-- Every cell between the corners of what an operation wrote. -/
  | operationRegion (id : OpId)
deriving DecidableEq, Repr

/-- Two references with a colon between them, each with blanks around it or not. -/
def parseRange? (range : String) : Option (Cell × Cell) :=
  let text := range.toList
  match text.dropWhile (· != ':') with
  | [] => none
  | _ :: after =>
    match Cell.ofReference? (Text.trim (text.takeWhile (· != ':'))),
      Cell.ofReference? (Text.trim after) with
    | some a, some b => some (a, b)
    | _, _ => none

namespace Selection

/-- The rectangle from a column's first row to its last, or nothing if the last comes first. -/
def columnRegion (col first last : Nat) : Option Region :=
  if last < first then none else some (Region.of ⟨first, col⟩ ⟨last, col⟩)

def region (sheet : Sheet) : Selection → Except ResolveError (Option Region)
  | empty => .ok none
  | box upperLeft lowerRight => do
    let a ← upperLeft.resolve sheet
    let b ← lowerRight.resolve sheet
    return some (Region.of a b)
  | range text =>
    match parseRange? text with
    | some (a, b) => .ok (some (Region.of a b))
    | none => .error (.invalidReference text)
  | column col fromRow toRow =>
    match Cell.columnOfLetters? col.toList with
    | none => .error (.invalidReference col)
    | some index =>
      if fromRow = 0 then .error (.invalidReference (col ++ toString fromRow))
      else
        match toRow with
        | some ordinate => do
          let last ← ordinate.resolve sheet
          return columnRegion index (fromRow - 1) last
        | none =>
          match sheet.extent with
          | some extent => .ok (columnRegion index (fromRow - 1) extent.bottomRight.row)
          | none => .ok none
  | operationRegion id =>
    match sheet.region id with
    | some region => .ok (some region)
    | none => .error (.unresolvedOperation id)

def select (sheet : Sheet) (selection : Selection) : Except ResolveError (List Cell) := do
  match ← selection.region sheet with
  | none => return []
  | some region =>
    if region.cellCount > cellLimit then throw (.selectionTooLarge region.cellCount)
    else return region.cells

def dependencies : Selection → List OpId
  | empty => []
  | box upperLeft lowerRight => upperLeft.dependencies ++ lowerRight.dependencies
  | range _ => []
  | column _ _ toRow => (toRow.map Ordinate.dependencies).getD []
  | operationRegion id => [id]

end Selection

end LinkedSheet
