import LinkedSheet.Function
import LinkedSheet.Schedule
import LinkedSheet.Selection

/-!
Operations: a function bound to an input selection and an output anchor. An operation depends on
those whose regions its selection or its anchor reads.
-/
namespace LinkedSheet

variable [Script.Engine]

structure Operation where
  id : OpId
  selection : Selection
  anchor : Coordinate
  function : Function
  /-- The declarative form that the function was built from; closures have none. -/
  spec : Option FunctionSpec

def sortedSet (ids : List Nat) : List Nat :=
  ids.foldr insert []
where
  insert (id : Nat) : List Nat → List Nat
    | [] => [id]
    | head :: tail =>
      if id < head then id :: head :: tail
      else if id = head then head :: tail
      else head :: insert id tail

namespace Operation

def dependencies (op : Operation) : List OpId :=
  sortedSet (op.selection.dependencies ++ op.anchor.dependencies)

end Operation

def schedule (operations : List Operation) (order : List OpId) :
    Except ScheduleError (List OpId) :=
  Schedule.compute (operations.map fun op => (op.id, op.dependencies)) order

end LinkedSheet
