import LinkedSheet.Aggregate
import LinkedSheet.Script.Engine
import LinkedSheet.Sheet

/-!
The functions that tables give to scripts: two that read cells and five that reduce arrays.
-/
namespace LinkedSheet.Script

def Datum.number? : Datum → Option Float
  | .int n => some (Binary64.ofInt n)
  | .float x => some x
  | _ => none

def Datum.ofValue : Value → Datum
  | .int n => .int n
  | .float x => .float x
  | .text s => .text s

def Datum.ofCell : Option Value → Datum
  | some value => .ofValue value
  | none => .unit

namespace Builtin

/-- Names and descriptions of the functions that read cells and reduce arrays. -/
def table : List (String × String) :=
  [("CELL", "CELL(row, col): value at a 0-based position, () when empty"),
    ("VALUE", "VALUE(\"B2\"): value at an A1 reference, () when empty"),
    ("SUM", "SUM(array): sum of the numeric values"),
    ("AVG", "AVG(array): mean of the numeric values"),
    ("MIN", "MIN(array): smallest numeric value"),
    ("MAX", "MAX(array): largest numeric value"),
    ("COUNT", "COUNT(array): number of non-empty values")]

/-- The numbers of an array, empty cells passed over; anything else is an error, and the first one
is reported. -/
def numbers (function : String) (items : List Datum) : Except String (List Float) :=
  match items.find? fun d => !d.isUnit && d.number?.isNone with
  | some d => .error (function ++ " expects numbers, got " ++ d.typeName)
  | none => .ok (items.filterMap Datum.number?)

def someNumbers (function : String) (items : List Datum) : Except String (List Float) := do
  match ← numbers function items with
  | [] => .error (function ++ " needs at least one number")
  | xs => .ok xs

def count (items : List Datum) : Nat :=
  (items.filter fun d => !d.isUnit).length

def reduce (f : List Float → Float) (numbers : Except String (List Float)) : Except String Datum :=
  numbers.map fun xs => .float (f xs)

def cellAt (row col : Int) : Except String Cell :=
  if row < 0 then .error "row must be >= 0"
  else if col < 0 then .error "col must be >= 0"
  else .ok ⟨row.toNat, col.toNat⟩

def cellOfText (reference : String) : Except String Cell :=
  match Cell.ofText? reference with
  | some cell => .ok cell
  | none => .error ("Invalid cell reference: " ++ reference)

def readCell (read : Cell → Option Value) (cell : Except String Cell) : Except String Datum :=
  cell.map fun cell => .ofCell (read cell)

/-- The built-in function of a name on some arguments, if there is one that takes them. -/
def natives (read : Cell → Option Value) : Natives
  | "CELL", [.int row, .int col] => some (readCell read (cellAt row col))
  | "VALUE", [.text reference] => some (readCell read (cellOfText reference))
  | "SUM", [.array items] => some (reduce Aggregate.sum (numbers "SUM" items.toList))
  | "AVG", [.array items] => some (reduce Aggregate.mean (someNumbers "AVG" items.toList))
  | "MIN", [.array items] => some (reduce Aggregate.least (someNumbers "MIN" items.toList))
  | "MAX", [.array items] => some (reduce Aggregate.greatest (someNumbers "MAX" items.toList))
  | "COUNT", [.array items] => some (.ok (.int (count items.toList)))
  | _, _ => none

end Builtin

end LinkedSheet.Script
