import LinkedSheet.Document
import LinkedSheet.Operation.Description
import LinkedSheet.Table
import LinkedSheet.Toml.Writer

/-!
Writing table documents. Every position, selection and function is a table whose field `type` names
its kind; what it is made of follows as plain fields, and positions inside it as tables of their
own. An operation that selects nothing has no field for its selection.

The language of documents has signed 64-bit integers only, so a document with a larger number cannot
be written.
-/
namespace LinkedSheet

open Toml (Literal Part)

def Document.numberLimit : Nat := Word.signBound - 1

def Toml.Literal.ofNat (n : Nat) : Literal := .integer n

def Toml.Part.tagged (path : List String) (tag : String) (fields : List (String × Literal)) :
    Part :=
  ⟨false, path, ("type", .string tag) :: fields⟩

namespace Ordinate

def fits : Ordinate → Bool
  | fixed index => index ≤ Document.numberLimit
  | lastRow => true
  | lastCol => true
  | operationEdge id _ _ => id ≤ Document.numberLimit

def part (path : List String) : Ordinate → Part
  | fixed index => .tagged path "Abs" [("val", .ofNat index)]
  | lastRow => .tagged path "LastRow" []
  | lastCol => .tagged path "LastCol" []
  | operationEdge id axis edge =>
    .tagged path "OpEdge"
      [("op_id", .ofNat id), ("axis", .string axis.label), ("edge", .string edge.label)]

end Ordinate

namespace Coordinate

def fits : Coordinate → Bool
  | base row col => row.fits && col.fits
  | reference _ => true
  | offset inner _ _ => inner.fits
  | operationCorner id _ => id ≤ Document.numberLimit

def parts (path : List String) : Coordinate → List Part
  | base row col =>
    [.tagged path "Base" [], row.part (path ++ ["row"]), col.part (path ++ ["col"])]
  | reference text => [.tagged path "Cell" [("cell", .string text)]]
  | offset inner rows cols =>
    .tagged path "Offset" [("row_offset", .integer rows), ("col_offset", .integer cols)] ::
      inner.parts (path ++ ["inner"])
  | operationCorner id corner =>
    [.tagged path "OpCorner" [("op_id", .ofNat id), ("corner", .string corner.label)]]

end Coordinate

namespace Selection

def fits : Selection → Bool
  | empty => true
  | box upperLeft lowerRight => upperLeft.fits && lowerRight.fits
  | range _ => true
  | column _ fromRow toRow =>
    fromRow ≤ Document.numberLimit && ((toRow.map Ordinate.fits).getD true)
  | operationRegion id => id ≤ Document.numberLimit

/-- The tables of a selection at a path; the empty selection is left out. -/
def parts (path : List String) : Selection → List Part
  | empty => []
  | box upperLeft lowerRight =>
    .tagged path "Box" [] ::
      (upperLeft.parts (path ++ ["upper_left"]) ++ lowerRight.parts (path ++ ["lower_right"]))
  | range text => [.tagged path "Range" [("range", .string text)]]
  | column col fromRow toRow =>
    .tagged path "Column" [("col", .string col), ("from_row", .ofNat fromRow)] ::
      match toRow with
      | some ordinate => [ordinate.part (path ++ ["to_row"])]
      | none => []
  | operationRegion id => [.tagged path "OpRegion" [("op_id", .ofNat id)]]

end Selection

namespace Value

def literal : Value → Literal
  | int n => .integer n
  | float x => .float x
  | text s => .string s

end Value

namespace FunctionSpec

def part (path : List String) (spec : FunctionSpec) : Part :=
  .tagged path spec.name
    (match spec with
      | rawInput rows => [("values", .array (rows.map fun row => .array (row.map Value.literal)))]
      | script source => [("source", .string source)]
      | _ => [])

end FunctionSpec

namespace Declaration

def fits (d : Declaration) : Bool :=
  d.id ≤ Document.numberLimit && d.selection.fits && d.anchor.fits

def parts (d : Declaration) : List Part :=
  ⟨true, ["operations"], [("id", .ofNat d.id)]⟩ ::
    (d.selection.parts ["operations", "input_selection"] ++
      d.function.part ["operations", "function"] ::
        d.anchor.parts ["operations", "output_anchor"])

end Declaration

namespace Document

def fits (d : Document) : Bool :=
  d.order.all (· ≤ numberLimit) && d.operations.all Declaration.fits

def listField (name : String) (items : List Literal) : List (String × Literal) :=
  if items.isEmpty then [] else [(name, .array items)]

/-- The fields before the first operation. If there are no operations, the document says so. -/
def fields (d : Document) : List (String × Literal) :=
  listField "functions" (d.functions.map .string) ++ listField "order" (d.order.map .ofNat) ++
    if d.operations.isEmpty then [("operations", .array [])] else []

def text (d : Document) : Except TableError String :=
  if d.fits then .ok (Toml.write d.fields (d.operations.flatMap Declaration.parts))
  else .error (.unwritable "out-of-range value for u64 type")

end Document

end LinkedSheet
