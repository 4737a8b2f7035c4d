import LinkedSheet.Script.Builtin

/-!
Calling a script on a selection and laying out what it gives: a single value goes to the anchor, an
array runs down a column, an array of arrays is a block of rows, and unit writes nothing. One
element that no cell can hold refuses the whole result.
-/
namespace LinkedSheet

namespace Script

/-- The value of a cell that a script gave; truth values become one and zero. -/
def Datum.toValue : Datum → Except ScriptError Value
  | .int n => .ok (.int n)
  | .float x => .ok (.float x)
  | .bool b => .ok (.int (if b then 1 else 0))
  | .text s => .ok (.text s)
  | d => .error (.unstorable d.typeName)

namespace Layout

def row (index : Nat) : Datum → List (Cell × Datum)
  | .array items => items.toList.zipIdx.map fun item => (⟨index, item.2⟩, item.1)
  | d => [(⟨index, 0⟩, d)]

def positions : Datum → List (Cell × Datum)
  | .array rows => rows.toList.zipIdx.flatMap fun item => row item.2 item.1
  | d => [(⟨0, 0⟩, d)]

def putAll : List (Cell × Datum) → Block → Except ScriptError Block
  | [], block => .ok block
  | (cell, d) :: rest, block =>
    if d.isUnit then putAll rest block
    else
      match d.toValue with
      | .ok value => putAll rest (block.insert cell value)
      | .error error => .error error

end Layout

def Datum.toBlock (d : Datum) : Except ScriptError Block :=
  Layout.putAll (Layout.positions d) Block.empty

def countDatum (n : Nat) : Datum :=
  .int (Word.signed n)

/-- What a script sees of its selection: the values in `input`, unit for an empty cell, and the
numbers of rows and columns between the outermost cells. -/
def selectionVariables (sheet : Sheet) (input : List Cell) : List (String × Datum) :=
  let values := input.map fun cell => Datum.ofCell (sheet.value cell)
  let shape :=
    match Region.bounding input with
    | some region => (region.rowCount, region.colCount)
    | none => (0, 0)
  [("input", .array values.toArray), ("rows", countDatum shape.1), ("cols", countDatum shape.2)]

variable [Engine]

/-- The programs of an expression and of the custom functions, joined. -/
def compile (custom : Engine.Program) (source : String) : Except ScriptError Engine.Program :=
  match Engine.compile? source with
  | some program => .ok (Engine.merge custom program)
  | none => .error .malformed

def compileFunctions (source : String) : Except ScriptError Engine.Program :=
  match Engine.compile? source with
  | some program => .ok program
  | none => .error .malformedFunctions

namespace Engine.Program

def run (program : Program) (read : Cell → Option Value) (given : List (String × Datum)) :
    Except ScriptError Datum × List String :=
  finish (start program (Builtin.natives read) given)

def block (program : Program) (sheet : Sheet) (input : List Cell) : Except ScriptError Block :=
  match (program.run sheet.value (selectionVariables sheet input)).1 with
  | .ok d => d.toBlock
  | .error e => .error e

def lines (program : Program) (sheet : Sheet) (input : List Cell) : List String :=
  (program.run sheet.value (selectionVariables sheet input)).2

end Engine.Program

end Script

end LinkedSheet
