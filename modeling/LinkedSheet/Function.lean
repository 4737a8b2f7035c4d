import LinkedSheet.Script.Layout

/-!
Functions that are bound to a selection. A function reads the cells of its selection from a sheet
and emits a block, keyed by position relative to the anchor, or fails. Every function except a
closure has a declarative form, from which it is built; scripts are read when they are built, so
that a faulty one is found before anything runs.
-/
namespace LinkedSheet

inductive FunctionError where
  | textInput (function : String) (cell : Cell)
  | noNumericInput (function : String)
  | script (e : ScriptError)
  | custom (text : String)
deriving DecidableEq, Repr

namespace FunctionError

def message : FunctionError → String
  | textInput function cell => function ++ " cannot use text in " ++ cell.toText
  | noNumericInput function => function ++ " needs at least one numeric input"
  | script e => "Script error: " ++ e.message
  | custom text => text

end FunctionError

/-- Reductions of the numbers of a selection to one number. -/
inductive Reduction where
  | average | sum | min | max
deriving DecidableEq, Repr

namespace Reduction

def name : Reduction → String
  | average => "Average"
  | sum => "Sum"
  | min => "Min"
  | max => "Max"

/-- The numbers of the selected cells. Empty cells are passed over; the first text is an error. -/
def numbers (reduction : Reduction) (sheet : Sheet) (input : List Cell) :
    Except FunctionError (List Float) :=
  match input.find? fun cell => ((sheet.value cell).map Value.isText).getD false with
  | some cell => .error (.textInput reduction.name cell)
  | none => .ok (input.filterMap fun cell => (sheet.value cell).bind Value.number?)

/-- Only a sum may have nothing to add up. -/
def reduce (reduction : Reduction) (xs : List Float) : Except FunctionError Float :=
  match reduction, xs with
  | sum, xs => .ok (Aggregate.sum xs)
  | reduction, [] => .error (.noNumericInput reduction.name)
  | average, xs => .ok (Aggregate.mean xs)
  | min, xs => .ok (Aggregate.least xs)
  | max, xs => .ok (Aggregate.greatest xs)

def call (reduction : Reduction) (sheet : Sheet) (input : List Cell) :
    Except FunctionError Block :=
  match reduction.numbers sheet input with
  | .error error => .error error
  | .ok xs =>
    match reduction.reduce xs with
    | .error error => .error error
    | .ok x => .ok (Block.scalar (.float x))

end Reduction

inductive FunctionSpec where
  /-- A fixed block of values, row by row. -/
  | rawInput (rows : List (List Value))
  | average
  | sum
  | min
  | max
  | count
  | copy
  /-- A script over `input`, `rows` and `cols`. -/
  | script (source : String)

namespace FunctionSpec

def name : FunctionSpec → String
  | rawInput _ => "RawInput"
  | average => "Average"
  | sum => "Sum"
  | min => "Min"
  | max => "Max"
  | count => "Count"
  | copy => "Copy"
  | script _ => "Script"

end FunctionSpec

variable [Script.Engine]

inductive Function where
  | block (values : Block)
  | reduction (r : Reduction)
  | count
  | copy
  | script (program : Script.Engine.Program)
  | closure (f : Sheet → List Cell → Except FunctionError Block)

namespace Function

def name : Function → String
  | block _ => "RawInput"
  | reduction r => r.name
  | count => "Count"
  | copy => "Copy"
  | script _ => "Script"
  | closure _ => "closure"

def rowEntries (rows : List (List Value)) : List (Cell × Value) :=
  rows.zipIdx.flatMap fun row => row.1.zipIdx.map fun item => (⟨row.2, item.2⟩, item.1)

/-- The populated cells, moved so that the outermost selected ones start at the anchor. -/
def copied (sheet : Sheet) (input : List Cell) : Block :=
  match Region.bounding input with
  | none => Block.empty
  | some region =>
    Block.ofList (input.filterMap fun cell =>
      (sheet.value cell).map fun value =>
        (⟨cell.row - region.topLeft.row, cell.col - region.topLeft.col⟩, value))

def counted (sheet : Sheet) (input : List Cell) : Nat :=
  (input.filter fun cell => (sheet.value cell).isSome).length

def call (function : Function) (sheet : Sheet) (input : List Cell) : Except FunctionError Block :=
  match function with
  | block values => .ok values
  | reduction r => r.call sheet input
  | count => .ok (Block.scalar (.int (counted sheet input)))
  | copy => .ok (copied sheet input)
  | script program =>
    match program.block sheet input with
    | .ok values => .ok values
    | .error e => .error (.script e)
  | closure f => f sheet input

def lines (function : Function) (sheet : Sheet) (input : List Cell) : List String :=
  match function with
  | script program => program.lines sheet input
  | _ => []

def ofValues (f : List Value → Except FunctionError Value) : Function :=
  closure fun sheet input =>
    match f (input.filterMap sheet.value) with
    | .ok value => .ok (Block.scalar value)
    | .error error => .error error

end Function

/-- The function of a declarative form, with the custom functions in sight of its scripts. -/
def FunctionSpec.build (custom : Script.Engine.Program) : FunctionSpec → Except FunctionError Function
  | rawInput rows => .ok (.block (Block.ofList (Function.rowEntries rows)))
  | average => .ok (.reduction .average)
  | sum => .ok (.reduction .sum)
  | min => .ok (.reduction .min)
  | max => .ok (.reduction .max)
  | count => .ok .count
  | copy => .ok .copy
  | script source =>
    match Script.compile custom source with
    | .ok program => .ok (.script program)
    | .error error => .error (.script error)

end LinkedSheet
