import LinkedSheet.Table

/-!
Tables as Markdown: a title, a header line with the column letters, a delimiter line, and one line
for each row of the extent with its number in front. In a cell, a bar is escaped, a line feed
becomes a space and a carriage return is left out, so that no text breaks the lines.
-/
namespace LinkedSheet.Export.Markdown

def escapeChar (c : Char) : List Char :=
  if c = '|' then ['\\', '|']
  else if c = '\n' then [' ']
  else if c = '\r' then []
  else [c]

def escape (text : List Char) : List Char :=
  text.flatMap escapeChar

def title : List Char :=
  "# Table\n\n".toList

def cell (text : List Char) : List Char :=
  ' ' :: text ++ [' ', '|']

def headerLine (columns : List Nat) : List Char :=
  "|   |".toList ++ columns.flatMap (fun col => cell (Cell.columnLetters col)) ++ ['\n']

def delimiterLine (columns : List Nat) : List Char :=
  "|---|".toList ++ columns.flatMap (fun _ => "---|".toList) ++ ['\n']

variable [Script.Engine]

def rowLine (table : Table) (columns : List Nat) (row : Nat) : List Char :=
  '|' :: cell (Nat.toDigits 10 (row + 1)) ++
    columns.flatMap (fun col => cell (escape (table.display ⟨row, col⟩).toList)) ++ ['\n']

def region (table : Table) (region : Region) : List Char :=
  headerLine region.colIndices ++ delimiterLine region.colIndices ++
    region.rowIndices.flatMap (rowLine table region.colIndices)

def render (table : Table) : Except TableError String :=
  match table.boundedExtent with
  | .error e => .error e
  | .ok none => .ok (String.ofList (title ++ "*Empty table*\n".toList))
  | .ok (some extent) => .ok (String.ofList (title ++ region table extent))

end LinkedSheet.Export.Markdown
