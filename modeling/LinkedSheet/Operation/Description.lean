import LinkedSheet.Operation
import LinkedSheet.Text.Quoted

/-!
Operations written out in full for inspection: each part by its name, with the names of its fields.
-/
namespace LinkedSheet

def describeFields (name : String) (fields : List (String × String)) : String :=
  if fields.isEmpty then name
  else
    name ++ " \x7b " ++ ", ".intercalate (fields.map fun field => field.1 ++ ": " ++ field.2) ++
      " \x7d"

namespace Axis

def label : Axis → String
  | row => "Row"
  | col => "Col"

end Axis

namespace Edge

def label : Edge → String
  | first => "First"
  | last => "Last"

end Edge

namespace Corner

def label : Corner → String
  | topLeft => "TopLeft"
  | topRight => "TopRight"
  | bottomLeft => "BotLeft"
  | bottomRight => "BotRight"

end Corner

namespace Ordinate

def describe : Ordinate → String
  | fixed index => describeFields "Abs" [("val", toString index)]
  | lastRow => "LastRow"
  | lastCol => "LastCol"
  | operationEdge id axis edge =>
    describeFields "OpEdge" [("op_id", toString id), ("axis", axis.label), ("edge", edge.label)]

end Ordinate

namespace Coordinate

def describe : Coordinate → String
  | base row col => describeFields "Base" [("row", row.describe), ("col", col.describe)]
  | reference text => describeFields "Cell" [("cell", Text.quoted text)]
  | offset inner rows cols =>
    describeFields "Offset" [("inner", inner.describe), ("row_offset", toString rows),
      ("col_offset", toString cols)]
  | operationCorner id corner =>
    describeFields "OpCorner" [("op_id", toString id), ("corner", corner.label)]

end Coordinate

namespace Selection

def describe : Selection → String
  | empty => "Empty"
  | box upperLeft lowerRight =>
    describeFields "Box" [("upper_left", upperLeft.describe),
      ("lower_right", lowerRight.describe)]
  | range text => describeFields "Range" [("range", Text.quoted text)]
  | column col fromRow toRow =>
    describeFields "Column" [("col", Text.quoted col), ("from_row", toString fromRow),
      ("to_row", match toRow with
        | some ordinate => "Some(" ++ ordinate.describe ++ ")"
        | none => "None")]
  | operationRegion id => describeFields "OpRegion" [("op_id", toString id)]

end Selection

namespace Operation

def describe [Script.Engine] (op : Operation) : String :=
  describeFields "Operation" [("id", toString op.id), ("input_selection", op.selection.describe),
    ("output_anchor", op.anchor.describe), ("function", Text.quoted op.function.name)]

end Operation

end LinkedSheet
