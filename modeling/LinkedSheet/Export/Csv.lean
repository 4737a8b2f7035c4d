import LinkedSheet.Decimal.Numeral
import LinkedSheet.Table
import LinkedSheet.Text.Blank

/-!
Tables as comma-separated values: one record for each row of the extent and one field for each
column. A field that a spreadsheet program would take for a formula gets an apostrophe in front; a
field with a comma, a quote or a line break is quoted, its quotes doubled.
-/
namespace LinkedSheet.Export.Csv

/-- Blanks that do not hide the start of a formula. -/
def isLead (c : Char) : Bool :=
  c == ' ' || c == '\t'

/-- Whether the text would be taken for a formula. A minus is harmless before a number. -/
def isFormula (field : List Char) : Bool :=
  match field.dropWhile isLead with
  | [] => false
  | c :: _ =>
    c == '=' || c == '+' || c == '@' ||
      (c == '-' && !Decimal.isNumeral (Text.trim field))

def guarded (field : List Char) : List Char :=
  if isFormula field then '\'' :: field else field

def needsQuotes (field : List Char) : Bool :=
  field.any fun c => c == ',' || c == '"' || c == '\n' || c == '\r'

def inQuotes (field : List Char) : List Char :=
  '"' :: field.flatMap (fun c => if c = '"' then ['"', '"'] else [c]) ++ ['"']

def field (text : List Char) : List Char :=
  let safe := guarded text
  if needsQuotes safe then inQuotes safe else safe

def record (fields : List (List Char)) : List Char :=
  [','].intercalate fields ++ ['\n']

variable [Script.Engine]

def region (table : Table) (region : Region) : List Char :=
  region.rowIndices.flatMap fun row =>
    record (region.colIndices.map fun col => field (table.display ⟨row, col⟩).toList)

def render (table : Table) : Except TableError String :=
  match table.boundedExtent with
  | .error e => .error e
  | .ok none => .ok ""
  | .ok (some extent) => .ok (String.ofList (region table extent))

end LinkedSheet.Export.Csv
