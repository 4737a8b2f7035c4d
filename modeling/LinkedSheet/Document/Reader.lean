import LinkedSheet.Document
import LinkedSheet.Operation.Description
import LinkedSheet.Table
import LinkedSheet.Toml.Content
import LinkedSheet.Toml.Reader

/-!
Reading table documents. A fault of a plain field is reported at the line of its value. A fault
inside a selection, a function or an anchor is reported at the line where that whole value starts,
except that a kind that is not known is reported where it stands.
-/
namespace LinkedSheet

open Toml (Item Reading Content Slot Fault)

namespace Axis

def options : List (String × Axis) := [row, col].map fun axis => (axis.label, axis)

end Axis

namespace Edge

def options : List (String × Edge) := [first, last].map fun edge => (edge.label, edge)

end Edge

namespace Corner

def options : List (String × Corner) :=
  [topLeft, topRight, bottomLeft, bottomRight].map fun corner => (corner.label, corner)

end Corner

namespace Ordinate

inductive Kind where
  | fixed | lastRow | lastCol | operationEdge

def kinds : List (String × Kind) :=
  [("Abs", .fixed), ("AbsOrdinate", .fixed), ("LastRow", .lastRow), ("LastCol", .lastCol),
    ("OpEdge", .operationEdge)]

def ofItem (item : Item) : Reading Ordinate := do
  match ← item.kind "Ordinate" kinds with
  | .fixed =>
    let content := item.content "Ordinate::Abs" ["val"]
    let index := content.slot "val" (Item.natural "usize")
    content.build [index.fault] do return .fixed (← index.required content)
  | .lastRow => return .lastRow
  | .lastCol => return .lastCol
  | .operationEdge =>
    let content := item.content "Ordinate::OpEdge" ["op_id", "axis", "edge"]
    let id := content.slot "op_id" (Item.natural "u64")
    let axis := content.slot "axis" (Item.choice Axis.options)
    let edge := content.slot "edge" (Item.choice Edge.options)
    content.build [id.fault, axis.fault, edge.fault] do
      return .operationEdge (← id.required content) (← axis.required content)
        (← edge.required content)

end Ordinate

namespace Coordinate

inductive Kind where
  | base | reference | offset | operationCorner

def kinds : List (String × Kind) :=
  [("Base", .base), ("BaseCoordinate", .base), ("Cell", .reference), ("Offset", .offset),
    ("OffsetCoordinate", .offset), ("OpCorner", .operationCorner)]

def kind (item : Item) : Reading Kind :=
  item.kind "Coordinate" kinds

def ofItem (item : Item) : Reading Coordinate := do
  match ← kind item with
  | .base =>
    let content := item.content "Coordinate::Base" ["row", "col"]
    let row := content.slot "row" Ordinate.ofItem
    let col := content.slot "col" Ordinate.ofItem
    content.build [row.fault, col.fault] do
      return .base (← row.required content) (← col.required content)
  | .reference =>
    let content := item.content "Coordinate::Cell" ["cell"]
    let cell := content.slot "cell" (Item.string "a string")
    content.build [cell.fault] do return .reference (← cell.required content)
  | .offset =>
    let content := item.content "Coordinate::Offset" ["inner", "row_offset", "col_offset"]
    let inner : Slot Coordinate :=
      ⟨"inner", (content.fields.lookup "inner").attach.map fun inner => ofItem inner.1⟩
    let rows := content.slot "row_offset" (Item.integer "i64")
    let cols := content.slot "col_offset" (Item.integer "i64")
    content.build [inner.fault, rows.fault, cols.fault] do
      return .offset (← inner.required content) ((← rows.optional).getD 0)
        ((← cols.optional).getD 0)
  | .operationCorner =>
    let content := item.content "Coordinate::OpCorner" ["op_id", "corner"]
    let id := content.slot "op_id" (Item.natural "u64")
    let corner := content.slot "corner" (Item.choice Corner.options)
    content.build [id.fault, corner.fault] do
      return .operationCorner (← id.required content) (← corner.required content)
termination_by sizeOf item
decreasing_by exact Item.sizeOf_lt_of_content inner.2

end Coordinate

namespace Selection

inductive Kind where
  | empty | box | range | column | operationRegion

def kinds : List (String × Kind) :=
  [("Empty", .empty), ("EmptySelection", .empty), ("Box", .box), ("BoxSelection", .box),
    ("Range", .range), ("Column", .column), ("OpRegion", .operationRegion)]

def kind (item : Item) : Reading Kind :=
  item.kind "Selection" kinds

def ofItem (item : Item) : Reading Selection := do
  match ← kind item with
  | .empty => return .empty
  | .box =>
    let content := item.content "Selection::Box" ["upper_left", "lower_right"]
    let upperLeft := content.slot "upper_left" Coordinate.ofItem
    let lowerRight := content.slot "lower_right" Coordinate.ofItem
    content.build [upperLeft.fault, lowerRight.fault] do
      return .box (← upperLeft.required content) (← lowerRight.required content)
  | .range =>
    let content := item.content "Selection::Range" ["range"]
    let range := content.slot "range" (Item.string "a string")
    content.build [range.fault] do return .range (← range.required content)
  | .column =>
    let content := item.content "Selection::Column" ["col", "from_row", "to_row"]
    let col := content.slot "col" (Item.string "a string")
    let fromRow := content.slot "from_row" (Item.natural "usize")
    let toRow := content.slot "to_row" Ordinate.ofItem
    content.build [col.fault, fromRow.fault, toRow.fault] do
      return .column (← col.required content) ((← fromRow.optional).getD 1) (← toRow.optional)
  | .operationRegion =>
    let content := item.content "Selection::OpRegion" ["op_id"]
    let id := content.slot "op_id" (Item.natural "u64")
    content.build [id.fault] do return .operationRegion (← id.required content)

end Selection

namespace Value

def ofItem : Item → Reading Value
  | .scalar _ (.integer n) => .ok (.int n)
  | .scalar _ (.float x) => .ok (.float x)
  | .scalar _ (.string s) => .ok (.text s)
  | item => .error ⟨item.line, "data did not match any variant of untagged enum CellValue"⟩

end Value

namespace FunctionSpec

inductive Kind where
  | rawInput
  | plain (spec : FunctionSpec)
  | script

def kinds : List (String × Kind) :=
  [("RawInput", .rawInput), ("Average", .plain average), ("Sum", .plain sum), ("Min", .plain min),
    ("Max", .plain max), ("Count", .plain count), ("Copy", .plain copy), ("Script", .script)]

def kind (item : Item) : Reading Kind :=
  item.kind "FunctionSpec" kinds

def ofItem (item : Item) : Reading FunctionSpec := do
  match ← kind item with
  | .rawInput =>
    let content := item.content "FunctionSpec::RawInput" ["values"]
    let rows := content.slot "values" (Item.list (Item.list Value.ofItem))
    content.build [rows.fault] do return .rawInput (← rows.required content)
  | .plain spec => return spec
  | .script =>
    let content := item.content "FunctionSpec::Script" ["source"]
    let source := content.slot "source" (Item.string "a string")
    content.build [source.fault] do return .script (← source.required content)

end FunctionSpec

/-- A value in a field of its own: the fault of its kind keeps its line, and every other fault
stands for the whole value. -/
def Toml.Item.whole (kind : Item → Reading κ) (read : Item → Reading α) (item : Item) :
    Reading α := do
  let _ ← kind item
  Toml.within item (read item)

namespace Declaration

def names : List String := ["id", "input_selection", "function", "output_anchor"]

/-- The fields of an operation; an array holds them in the declared sequence. -/
def content : Item → Reading Content
  | .table line _ fields => .ok ⟨line, fields, names, Toml.missingField, none⟩
  | .array line _ items =>
    .ok ⟨line, names.zip items, names,
      fun _ => s!"invalid length {items.length}, expected struct OperationDocument with " ++
        Toml.count names.length, none⟩
  | .scalar line .datetime => .error ⟨line, Toml.unknown "field" Toml.datetimeField names⟩
  | item => .error (item.invalid "struct OperationDocument")

def ofItem (item : Item) : Reading Declaration := do
  let content ← content item
  let id := content.slot "id" (Item.natural "u64")
  let selection := content.slot "input_selection" (Item.whole Selection.kind Selection.ofItem)
  let function := content.slot "function" (Item.whole FunctionSpec.kind FunctionSpec.ofItem)
  let anchor := content.slot "output_anchor" (Item.whole Coordinate.kind Coordinate.ofItem)
  content.build [id.fault, selection.fault, function.fault, anchor.fault] do
    let id ← id.required content
    let selection ← selection.optional
    let function ← function.required content
    let anchor ← anchor.required content
    return ⟨id, selection.getD .empty, function, anchor⟩

end Declaration

namespace Document

def ofFields (fields : Toml.Fields) : Reading Document := do
  let content : Content :=
    ⟨1, fields, ["functions", "order", "operations"], Toml.missingField, none⟩
  let functions := content.slot "functions" (Item.list (Item.string "path string"))
  let order := content.slot "order" (Item.list (Item.natural "u64"))
  let operations := content.slot "operations" (Item.list Declaration.ofItem)
  content.build [functions.fault, order.fault, operations.fault] do
    return ⟨(← functions.optional).getD [], (← order.optional).getD [],
      (← operations.optional).getD []⟩

/-- The document that a text holds, its levels being nested below a limit if there is one. -/
def ofText (limit : Option Nat) (text : String) : Except TableError Document :=
  match Toml.read limit text with
  | .error line => .error (.malformed line)
  | .ok fields =>
    match ofFields fields with
    | .ok document => .ok document
    | .error fault => .error (.parse fault.line fault.text)

end Document

end LinkedSheet
