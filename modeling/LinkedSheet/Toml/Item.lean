/-!
What a document in the configuration language holds: scalars, arrays and tables, each with the line
where it starts. A table lists its fields in the sequence of the document, each name once.

`Fields.insert?` puts an item at a path of names, as a dotted key does, and
`Fields.place` puts a whole table at the path of its header. A table that is written out, in braces
or under its own header, is complete: neither a dotted key nor a second header adds to it.
-/
namespace LinkedSheet.Toml

inductive Scalar where
  | string (s : String)
  | integer (n : Int)
  | float (x : Float)
  | boolean (b : Bool)
  /-- A date, a time of day or both. -/
  | datetime

/-- How a table came about. -/
inductive TableKind where
  /-- Written in braces. -/
  | inline
  /-- By a dotted key that leads through it. -/
  | dotted
  /-- By the header of a table inside it. -/
  | implied
  /-- By its own header, alone or as an element of an array of tables. -/
  | header
deriving DecidableEq, Repr

inductive Item where
  | scalar (line : Nat) (value : Scalar)
  | array (line : Nat) (ofTables : Bool) (items : List Item)
  | table (line : Nat) (kind : TableKind) (fields : List (String × Item))

abbrev Fields := List (String × Item)

namespace Item

def line : Item → Nat
  | scalar line _ => line
  | array line _ _ => line
  | table line _ _ => line

end Item

namespace Fields

def set (name : String) (item : Item) (fields : Fields) : Fields :=
  fields.map fun field => if field.1 = name then (name, item) else field

def remove (name : String) (fields : Fields) : Fields :=
  fields.filter fun field => field.1 ≠ name

/-- Puts an item at a path, making the tables in between. `accepts` tells whether a name may be
added right here: it may in the table that is being written and in those that dotted keys made, and
not in one that only a header implied. -/
def insert? (item : Item) : (accepts : Bool) → List String → Fields → Option Fields
  | _, [], _ => none
  | accepts, [name], fields =>
    if accepts && (fields.lookup name).isNone then some (fields ++ [(name, item)]) else none
  | _, name :: rest, fields =>
    match fields.lookup name with
    | none =>
      (insert? item true rest []).map fun inner =>
        fields ++ [(name, .table item.line .dotted inner)]
    | some (.table line .dotted inner) =>
      (insert? item true rest inner).map fun inner => set name (.table line .dotted inner) fields
    | some (.table line .implied inner) =>
      (insert? item false rest inner).map fun inner => set name (.table line .implied inner) fields
    | some (.array line true items) =>
      match items.getLast? with
      | some (.table first kind inner) =>
        (insert? item false rest inner).map fun inner =>
          set name (.array line true (items.dropLast ++ [.table first kind inner])) fields
      | _ => none
    | some _ => none

/-- Puts a table at the path of its header, as an element of an array of tables or alone. `fill`
adds the fields that follow the header to those the table already has: only a table that headers
inside it implied has any, and it moves to the end. A line is the answer if the path leads through
something else than tables, or if the table is there already. -/
def place (line : Nat) (inArray : Bool) (fill : Fields → Except Nat Fields) :
    List String → Fields → Except Nat Fields
  | [], _ => .error line
  | [name], fields =>
    match inArray, fields.lookup name with
    | true, none => do
      let inner ← fill []
      return fields ++ [(name, .array line true [.table line .header inner])]
    | true, some (.array first true items) => do
      let inner ← fill []
      return set name (.array first true (items ++ [.table line .header inner])) fields
    | false, none => do
      let inner ← fill []
      return fields ++ [(name, .table line .header inner)]
    | false, some (.table _ .implied inner) => do
      let inner ← fill inner
      return remove name fields ++ [(name, .table line .header inner)]
    | _, some _ => .error line
  | name :: rest, fields =>
    match fields.lookup name with
    | none => do
      let inner ← place line inArray fill rest []
      return fields ++ [(name, .table line .implied inner)]
    | some (.table _ .inline _) => .error line
    | some (.table first kind inner) => do
      let inner ← place line inArray fill rest inner
      return set name (.table first kind inner) fields
    | some (.array first true items) =>
      match items.getLast? with
      | some (.table start kind inner) => do
        let inner ← place line inArray fill rest inner
        return set name (.array first true (items.dropLast ++ [.table start kind inner])) fields
      | _ => .error line
    | some _ => .error line

end Fields

end LinkedSheet.Toml
