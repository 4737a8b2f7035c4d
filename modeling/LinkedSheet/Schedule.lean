import LinkedSheet.Cycle

/-!
The sequence in which nodes with dependencies are run. The nodes of an explicit order come first, as
they are listed there. Every other node follows after all it depends on; of those that are ready,
the one declared first is taken.
-/
namespace LinkedSheet

inductive ScheduleError where
  | unknown (id : Nat)
  /-- The explicit order lists a node twice. -/
  | repeated (id : Nat)
  /-- A walk that ends where it began. -/
  | circular (walk : List Nat)
deriving DecidableEq, Repr

namespace ScheduleError

def message : ScheduleError → String
  | unknown id => s!"Unknown operation {id}"
  | repeated id => s!"Operation {id} is listed more than once in the order"
  | circular walk =>
    "Circular dependency detected: " ++ " -> ".intercalate (walk.map toString)

end ScheduleError

namespace Schedule

/-- The first fault of an explicit order: at each place, an unknown node before a repeated one. -/
def orderFault? (known : List Nat) : List Nat → List Nat → Option ScheduleError
  | _, [] => none
  | seen, id :: rest =>
    if !known.contains id then some (.unknown id)
    else if seen.contains id then some (.repeated id)
    else orderFault? known (id :: seen) rest

def unknownDependency? (known : List Nat) (nodes : Graph) : Option Nat :=
  nodes.findSome? fun node => node.2.find? fun id => !known.contains id

def restricted (order : List Nat) (nodes : Graph) : Graph :=
  (nodes.filter fun node => !order.contains node.1).map fun node =>
    (node.1, node.2.filter fun id => !order.contains id)

def isReady (graph : Graph) (done : List Nat) (id : Nat) : Bool :=
  ((graph.targets? id).getD []).all done.contains

def takeReady? (ready : Nat → Bool) : List Nat → Option (Nat × List Nat)
  | [] => none
  | id :: rest =>
    if ready id then some (id, rest)
    else (takeReady? ready rest).map fun taken => (taken.1, id :: taken.2)

theorem length_takeReady? {ready : Nat → Bool} {pending : List Nat} {id : Nat} {rest : List Nat}
    (h : takeReady? ready pending = some (id, rest)) : rest.length < pending.length := by
  induction pending generalizing rest with
  | nil => simp [takeReady?] at h
  | cons head tail ih =>
    unfold takeReady? at h
    split at h
    · simp only [Option.some.injEq, Prod.mk.injEq] at h
      simp [← h.2]
    · obtain ⟨⟨taken, left⟩, found, eq⟩ := Option.map_eq_some_iff.1 h
      simp only [Prod.mk.injEq] at eq
      rw [eq.1] at found
      have := ih found
      simp only [← eq.2, List.length_cons]
      omega

/-- The loop among nodes that all wait for one another, found from the first of them. -/
def blockingLoop (graph : Graph) (pending : List Nat) : List Nat :=
  match pending.head?.bind graph.findLoop with
  | some walk => Graph.closing walk
  | none => pending

def greedy (graph : Graph) (done pending : List Nat) : Except ScheduleError (List Nat) :=
  match pending with
  | [] => .ok []
  | head :: tail =>
    match _h : takeReady? (isReady graph done) (head :: tail) with
    | none => .error (.circular (blockingLoop graph (head :: tail)))
    | some (id, rest) =>
      match greedy graph (id :: done) rest with
      | .ok sequence => .ok (id :: sequence)
      | .error error => .error error
termination_by pending.length
decreasing_by exact length_takeReady? _h

def compute (nodes : Graph) (order : List Nat) : Except ScheduleError (List Nat) :=
  let known := nodes.map (·.1)
  match orderFault? known [] order with
  | some fault => .error fault
  | none =>
    match unknownDependency? known nodes with
    | some id => .error (.unknown id)
    | none =>
      let graph := restricted order nodes
      match greedy graph order (known.filter fun id => !order.contains id) with
      | .ok sequence => .ok (order ++ sequence)
      | .error error => .error error

end Schedule

end LinkedSheet
