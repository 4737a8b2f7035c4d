import LinkedSheet.Table.Storage

/-!
Working on one table in place. A call goes step by step; a step that fails ends it, and what the
steps before have changed stays changed. A call therefore changes the table only once nothing can
fail any more. An evaluation is the exception: it keeps what its operations wrote before one failed.
-/
namespace LinkedSheet

/-- A computation on a table in place. An error comes with the table as it is by then. -/
abbrev Session [Script.Engine] (m : Type → Type) := ExceptT TableError (StateT Table m)

namespace Session

variable [Script.Engine] {m : Type → Type} [Monad m]

def storing (action : Storing m α) : Session m α :=
  ExceptT.mk (StateT.lift action.run)

def pass (result : Except TableError α) : Session m α :=
  storing (Storing.pass result)

def add (op : Operation) : Session m OpId := do
  let table ← get
  if table.operations.any fun other => other.id == op.id then throw (.duplicateOperation op.id)
  set { table with operations := table.operations ++ [op] }
  return op.id

def bind (selection : Selection) (anchor : Coordinate) (function : Function) (id : Option OpId) :
    Session m OpId := do
  let table ← get
  add ⟨id.getD table.nextId, selection, anchor, function, none⟩

def bindSpec (selection : Selection) (anchor : Coordinate) (spec : FunctionSpec)
    (id : Option OpId) : Session m OpId := do
  let table ← get
  let id := id.getD table.nextId
  match spec.build table.custom with
  | .error e => throw (.function id spec.name e)
  | .ok function => add ⟨id, selection, anchor, function, some spec⟩

def setOrder (ids : List OpId) : Session m Unit := do
  let table ← get
  match Schedule.orderFault? (table.operations.map Operation.id) [] ids with
  | some fault => throw (.schedule fault)
  | none => set { table with order := ids }

/-- Writes entries of a block, moved by the anchor, one after the other. -/
def place (anchor : Cell) : List (Cell × Value) → Session m Unit
  | [] => return
  | entry :: rest => do
    modify fun table => { table with values := table.values.insert (entry.1 + anchor) entry.2 }
    place anchor rest

/-- Runs one operation on the values as they are: selects, calls, resolves the anchor, and then
records the region before it writes the cells. -/
def apply (op : Operation) : Session m Unit := do
  let table ← get
  let input ← pass ((op.selection.select table.sheet).mapError (.resolve op.id))
  let block ← pass
    ((op.function.call table.sheet input).mapError (.function op.id op.function.name))
  let anchor ← pass ((op.anchor.resolve table.sheet).mapError (.resolve op.id))
  match block.extent with
  | none => modify fun table => { table with regions := table.regions.erase op.id }
  | some relative =>
    match relative.offset? anchor.row anchor.col with
    | none =>
      throw (.resolve op.id (.outOfBounds anchor (Word.signed relative.bottomRight.row)
        (Word.signed relative.bottomRight.col)))
    | some region =>
      modify fun table => { table with regions := table.regions.insert op.id region }
      place anchor block.toList

def runAll : List OpId → Session m Unit
  | [] => return
  | id :: rest => do
    let table ← get
    let op ← pass (table.operation id)
    apply op
    runAll rest

def evaluate : Session m Unit := do
  let table ← get
  let sequence ← pass table.schedule
  set table.cleared
  runAll sequence

/-- Builds every declarative function anew, or none if one of them fails. -/
def rebuild (custom : Script.Engine.Program) : Session m Unit := do
  let table ← get
  let operations ← pass (Table.rebuilt custom table.operations)
  set { table with operations := operations }

variable [FileSystem m]

/-- Adds the custom functions of a file, and yields the path by which the table knows the file. -/
def loadFunctions (path : String) : Session m String := do
  let path ← storing (Storing.file (FileSystem.canonical path))
  let source ← storing (Document.readText path "functions file")
  let table ← get
  if table.functionFiles.contains path then return path
  let joined := table.sourceWith source
  match Script.compileFunctions joined with
  | .error e => throw (.functionsMalformed (.script e))
  | .ok custom =>
    rebuild custom
    modify fun table => { table with custom := custom }
    modify fun table => { table with functionFiles := table.functionFiles ++ [path] }
    modify fun table => { table with customSource := some joined }
    return path

/-- Saves the table where a path stands for, and makes that its document. -/
def saveAs (path : String) : Session m String := do
  let path ← storing (ExceptT.lift (Document.locate path))
  let table ← get
  let document ← storing (table.toDocument (Table.directoryOf path))
  storing (document.save path)
  modify fun table => { table with filePath := some path }
  return path

def save : Session m String := do
  let table ← get
  match table.filePath with
  | some path => saveAs path
  | none => throw .noFilePath

end Session

end LinkedSheet
