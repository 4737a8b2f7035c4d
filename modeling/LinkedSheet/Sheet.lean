import LinkedSheet.Region
import LinkedSheet.Value
import Std.Data.TreeMap

/-!
What may be read of a table while positions are resolved and functions run: the value of a cell, the
extent of all populated cells and the region that an operation wrote. Blocks are the values that a
function emits, keyed by their position relative to an anchor.
-/
namespace LinkedSheet

/-- Operations are named by numbers below `Cell.indexBound`. -/
abbrev OpId := Nat

abbrev Block := Std.TreeMap Cell Value

structure Sheet where
  value : Cell → Option Value
  extent : Option Region
  region : OpId → Option Region

namespace Block

def empty : Block := {}

def scalar (value : Value) : Block :=
  empty.insert ⟨0, 0⟩ value

/-- Later entries win over earlier ones at the same cell. -/
def ofList (entries : List (Cell × Value)) : Block :=
  entries.foldl (fun block entry => block.insert entry.1 entry.2) empty

/-- Every entry of `block`, moved by the anchor, written over `values`. -/
def writeAt (anchor : Cell) (block values : Block) : Block :=
  block.toList.foldl (fun values entry => values.insert (entry.1 + anchor) entry.2) values

def extent (block : Block) : Option Region :=
  Region.bounding block.keys

end Block

end LinkedSheet
