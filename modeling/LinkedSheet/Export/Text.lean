import LinkedSheet.Table
import LinkedSheet.Text.Blank

/-!
Tables as aligned columns for a terminal: a line with the column letters, then one line for each row
of the extent with its number in front. Every column is as wide as its longest text, counted in
characters; texts stand at its right, and blanks at the end of a line are left out.
-/
namespace LinkedSheet.Export.Text

def padLeft (width : Nat) (text : List Char) : List Char :=
  List.replicate (width - text.length) ' ' ++ text

/-- A label and the fields behind it, each behind a bar and at its width. -/
def line (label : List Char) (fields : List (List Char)) (widths : List Nat) : List Char :=
  LinkedSheet.Text.trimEnd (label ++ (fields.zipWith (fun field width =>
    [' ', '|', ' '] ++ padLeft width field) widths).flatten) ++ ['\n']

variable [Script.Engine]

def rowFields (table : Table) (columns : List Nat) (row : Nat) : List (List Char) :=
  columns.map fun col => (table.display ⟨row, col⟩).toList

def widen (widths lengths : List Nat) : List Nat :=
  widths.zipWith max lengths

/-- The width of every column: that of its longest text, the header among them. -/
def widths (headers : List (List Char)) (rows : List (List (List Char))) : List Nat :=
  rows.foldl (fun widths fields => widen widths (fields.map List.length))
    (headers.map List.length)

def region (table : Table) (region : Region) : List Char :=
  let columns := region.colIndices
  let headers := columns.map Cell.columnLetters
  let rows := region.rowIndices.map fun row => (row, rowFields table columns row)
  let widths := widths headers (rows.map (·.2))
  let labelWidth := (Nat.toDigits 10 (region.bottomRight.row + 1)).length
  line (List.replicate labelWidth ' ') headers widths ++
    rows.flatMap fun row =>
      line (padLeft labelWidth (Nat.toDigits 10 (row.1 + 1))) row.2 widths

def render (table : Table) : Except TableError String :=
  match table.boundedExtent with
  | .error e => .error e
  | .ok none => .ok "(empty)\n"
  | .ok (some extent) => .ok (String.ofList (region table extent))

end LinkedSheet.Export.Text
