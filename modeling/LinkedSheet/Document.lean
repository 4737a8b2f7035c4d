import LinkedSheet.Function
import LinkedSheet.Selection

/-!
Table documents: the files of custom functions, the operations that run first, and every operation
in its declarative form.
-/
namespace LinkedSheet

structure Declaration where
  id : OpId
  selection : Selection
  function : FunctionSpec
  anchor : Coordinate

structure Document where
  /-- Files of custom functions, relative to the document. -/
  functions : List String
  order : List OpId
  operations : List Declaration

/-- Whether two lists hold related members in the same places. -/
def sameAll (same : α → α → Bool) : List α → List α → Bool
  | [], [] => true
  | a :: as, b :: bs => same a b && sameAll same as bs
  | _, _ => false

namespace FunctionSpec

/-- Equality of declarative forms; a form that holds a NaN equals nothing. -/
def same : FunctionSpec → FunctionSpec → Bool
  | rawInput a, rawInput b => sameAll (sameAll Value.same) a b
  | average, average => true
  | sum, sum => true
  | min, min => true
  | max, max => true
  | count, count => true
  | copy, copy => true
  | script a, script b => a == b
  | _, _ => false

end FunctionSpec

namespace Declaration

def same (a b : Declaration) : Bool :=
  a.id == b.id && decide (a.selection = b.selection) && a.function.same b.function &&
    decide (a.anchor = b.anchor)

end Declaration

namespace Document

def same (a b : Document) : Bool :=
  a.functions == b.functions && a.order == b.order &&
    sameAll Declaration.same a.operations b.operations

end Document

end LinkedSheet
