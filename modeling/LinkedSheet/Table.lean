import LinkedSheet.FileSystem
import LinkedSheet.Operation

/-!
Tables: operations in the sequence of their declaration, the values and regions that the last
evaluation left, and the custom functions that scripts may call. Evaluating recomputes everything:
the operations run in the sequence of the schedule, each on the values that the ones before it
wrote, and the first one that fails ends the evaluation and leaves no trace of its own.
-/
namespace LinkedSheet

inductive TableError where
  | file (e : FileError)
  /-- The document is not well formed; the line is where reading stopped. -/
  | malformed (line : Nat)
  /-- The document is well formed but describes no table. -/
  | parse (line : Nat) (text : String)
  | unwritable (text : String)
  | schedule (e : ScheduleError)
  | duplicateOperation (id : OpId)
  | resolve (id : OpId) (e : ResolveError)
  | function (id : OpId) (name : String) (e : FunctionError)
  | notSerializable (id : OpId)
  | extentTooLarge (count : Nat)
  | noTableFile (path : String)
  | noFilePath
  | functionsMalformed (e : FunctionError)
deriving DecidableEq, Repr

namespace TableError

def message : TableError → String
  | file e => "IO error: " ++ e.message
  | malformed line => s!"Parse error at line {line}: the document is not well formed"
  | parse line text => s!"Parse error at line {line}: " ++ text
  | unwritable text => "Serialize error: " ++ text
  | schedule e => e.message
  | duplicateOperation id => s!"Operation {id} is defined more than once"
  | resolve id e => s!"Operation {id}: " ++ e.message
  | function id name e => s!"Operation {id} (" ++ name ++ "): " ++ e.message
  | notSerializable id => s!"Operation {id} is bound to a closure and cannot be saved"
  | extentTooLarge count => s!"Table extent of {count} cells exceeds the limit of {cellLimit}"
  | noTableFile path => "No table document at " ++ path
  | noFilePath => "No file path set"
  | functionsMalformed e => "Rhai compile error: " ++ e.message

def cause? : TableError → Option String
  | file e => some e.message
  | unwritable text => some text
  | resolve _ e => some e.message
  | function _ _ e => some e.message
  | _ => none

end TableError

variable [Script.Engine]

structure Table where
  values : Block
  regions : Std.TreeMap OpId Region
  operations : List Operation
  /-- The operations that run first. -/
  order : List OpId
  /-- The program of the custom functions. -/
  custom : Script.Engine.Program
  /-- The document that the table was read from or is saved to. -/
  filePath : Option String
  /-- The files of the custom functions, in the sequence of loading. -/
  functionFiles : List String
  /-- The texts of those files, with an empty line between them. -/
  customSource : Option String

namespace Table

def empty : Table where
  values := Block.empty
  regions := {}
  operations := []
  order := []
  custom := Script.Engine.empty
  filePath := none
  functionFiles := []
  customSource := none

instance : Inhabited Table := ⟨empty⟩

def get (table : Table) (cell : Cell) : Option Value :=
  table.values.get? cell

/-- The shown text of a cell, empty for an empty cell. -/
def display (table : Table) (cell : Cell) : String :=
  ((table.get cell).map Value.display).getD ""

def regionOf (table : Table) (id : OpId) : Option Region :=
  table.regions.get? id

def extent (table : Table) : Option Region :=
  table.values.extent

def sheet (table : Table) : Sheet where
  value := table.get
  extent := table.extent
  region := table.regionOf

def boundedExtent (table : Table) : Except TableError (Option Region) :=
  match table.extent with
  | some region =>
    if region.cellCount > cellLimit then .error (.extentTooLarge region.cellCount)
    else .ok (some region)
  | none => .ok none

def operation? (table : Table) (id : OpId) : Option Operation :=
  table.operations.find? fun op => op.id == id

def operation (table : Table) (id : OpId) : Except TableError Operation :=
  match table.operation? id with
  | some op => .ok op
  | none => .error (.schedule (.unknown id))

/-- One past the highest id in use, from one on. The sum has 64 bits: past the last id comes zero. -/
def nextId (table : Table) : OpId :=
  match table.operations.map Operation.id with
  | [] => 1
  | id :: rest => (rest.foldl max id + 1) % Word.bound

def add (table : Table) (op : Operation) : Except TableError Table :=
  if table.operations.any fun other => other.id == op.id then .error (.duplicateOperation op.id)
  else .ok { table with operations := table.operations ++ [op] }

def bind (table : Table) (selection : Selection) (anchor : Coordinate) (function : Function)
    (id : Option OpId) : Except TableError (OpId × Table) :=
  let id := id.getD table.nextId
  match table.add ⟨id, selection, anchor, function, none⟩ with
  | .ok table => .ok (id, table)
  | .error e => .error e

def bindSpec (table : Table) (selection : Selection) (anchor : Coordinate) (spec : FunctionSpec)
    (id : Option OpId) : Except TableError (OpId × Table) :=
  let id := id.getD table.nextId
  match spec.build table.custom with
  | .error e => .error (.function id spec.name e)
  | .ok function =>
    match table.add ⟨id, selection, anchor, function, some spec⟩ with
    | .ok table => .ok (id, table)
    | .error e => .error e

def setOrder (table : Table) (ids : List OpId) : Except TableError Table :=
  match Schedule.orderFault? (table.operations.map Operation.id) [] ids with
  | some fault => .error (.schedule fault)
  | none => .ok { table with order := ids }

def rebuilt (custom : Script.Engine.Program) : List Operation → Except TableError (List Operation)
  | [] => .ok []
  | op :: rest =>
    match op.spec with
    | none =>
      match rebuilt custom rest with
      | .ok rest => .ok (op :: rest)
      | .error e => .error e
    | some spec =>
      match spec.build custom with
      | .error e => .error (.function op.id op.function.name e)
      | .ok function =>
        match rebuilt custom rest with
        | .ok rest => .ok ({ op with function := function } :: rest)
        | .error e => .error e

def sourceWith (table : Table) (source : String) : String :=
  match table.customSource with
  | some before => before ++ "\n\n" ++ source
  | none => source

/-- Adds the text of a functions file to the custom functions; a file that is already there changes
nothing. -/
def addFunctions (table : Table) (path source : String) : Except TableError Table :=
  if table.functionFiles.contains path then .ok table
  else
    let joined := table.sourceWith source
    match Script.compileFunctions joined with
    | .error e => .error (.functionsMalformed (.script e))
    | .ok custom =>
      match rebuilt custom table.operations with
      | .error e => .error e
      | .ok operations =>
        .ok { table with
          operations := operations
          custom := custom
          functionFiles := table.functionFiles ++ [path]
          customSource := some joined }

def schedule (table : Table) : Except TableError (List OpId) :=
  match LinkedSheet.schedule table.operations table.order with
  | .ok sequence => .ok sequence
  | .error e => .error (.schedule e)

/-- The table after a block has been written at an anchor; an empty block removes the region. -/
def write (table : Table) (id : OpId) (anchor : Cell) (block : Block) : Except ResolveError Table :=
  match block.extent with
  | none => .ok { table with regions := table.regions.erase id }
  | some relative =>
    match relative.offset? anchor.row anchor.col with
    | none =>
      .error (.outOfBounds anchor (Word.signed relative.bottomRight.row)
        (Word.signed relative.bottomRight.col))
    | some region =>
      .ok { table with
        regions := table.regions.insert id region
        values := Block.writeAt anchor block table.values }

/-- Runs one operation on the values as they are: selects, calls, resolves the anchor and writes. -/
def apply (table : Table) (op : Operation) : Except TableError Table :=
  match op.selection.select table.sheet with
  | .error e => .error (.resolve op.id e)
  | .ok input =>
    match op.function.call table.sheet input with
    | .error e => .error (.function op.id op.function.name e)
    | .ok block =>
      match op.anchor.resolve table.sheet with
      | .error e => .error (.resolve op.id e)
      | .ok anchor =>
        match table.write op.id anchor block with
        | .error e => .error (.resolve op.id e)
        | .ok table => .ok table

/-- Runs operations one after the other until one fails; the table is as the last one that did not
fail left it. -/
def run (table : Table) : List OpId → Table × Except TableError Unit
  | [] => (table, .ok ())
  | id :: rest =>
    match table.operation id with
    | .error e => (table, .error e)
    | .ok op =>
      match table.apply op with
      | .error e => (table, .error e)
      | .ok table => table.run rest

def cleared (table : Table) : Table :=
  { table with values := Block.empty, regions := {} }

/-- Recomputes every value. If there is no schedule, nothing changes. -/
def evaluate (table : Table) : Table × Except TableError Unit :=
  match table.schedule with
  | .error e => (table, .error e)
  | .ok sequence => table.cleared.run sequence

def linesOf (table : Table) : List OpId → List String
  | [] => []
  | id :: rest =>
    match table.operation id with
    | .error _ => []
    | .ok op =>
      match op.selection.select table.sheet with
      | .error _ => []
      | .ok input =>
        op.function.lines table.sheet input ++
          match table.apply op with
          | .error _ => []
          | .ok table => table.linesOf rest

def lines (table : Table) : List String :=
  match table.schedule with
  | .error _ => []
  | .ok sequence => table.cleared.linesOf sequence

end Table

end LinkedSheet
