/-!
Loops in a dependency graph. A search goes from a node along its edges, depth first and in the order
in which they are listed, and stops at the first node that is on its own way: the way to it is a
walk that ends where it has been before. Nodes without an entry have no edges.
-/
namespace LinkedSheet

/-- Every node's entry lists the nodes it depends on; a later entry of a node replaces an earlier
one. -/
abbrev Graph := List (Nat × List Nat)

namespace Graph

def targets? (graph : Graph) (node : Nat) : Option (List Nat) :=
  graph.reverse.lookup node

/-- The outcome of a search: a walk that closes a loop, or the nodes that are known to lead to
none. -/
inductive Search where
  | loop (walk : List Nat)
  | clear (done : List Nat)
deriving DecidableEq, Repr

def visitAll (visit : List Nat → Nat → Search) : List Nat → List Nat → Search
  | done, [] => .clear done
  | done, node :: rest =>
    match visit done node with
    | .loop walk => .loop walk
    | .clear done => visitAll visit done rest

/-- Searches from a node; `way` holds the nodes on the way to it, the last first. Each level of fuel
is a node more on the way, and all of them have entries. -/
def search (graph : Graph) : Nat → List Nat → List Nat → Nat → Search
  | fuel, way, done, node =>
    if way.contains node then .loop (way.reverse ++ [node])
    else if done.contains node then .clear done
    else
      match graph.targets? node with
      | none => .clear done
      | some targets =>
        match fuel with
        | 0 => .clear done
        | fuel + 1 =>
          match visitAll (search graph fuel (node :: way)) done targets with
          | .loop walk => .loop walk
          | .clear done => .clear (node :: done)

/-- A walk from the node that ends where it has been before, if there is one. -/
def findLoop (graph : Graph) (start : Nat) : Option (List Nat) :=
  match search graph graph.length [] [] start with
  | .loop walk => some walk
  | .clear _ => none

/-- The end of a walk, from the first time on that it passes its last node. -/
def closing (walk : List Nat) : List Nat :=
  match walk.getLast? with
  | some last => walk.dropWhile (· != last)
  | none => []

end Graph

end LinkedSheet
