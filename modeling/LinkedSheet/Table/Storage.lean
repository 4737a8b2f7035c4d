import LinkedSheet.Document.Reader
import LinkedSheet.Document.Writer
import LinkedSheet.Export.Csv
import LinkedSheet.Export.Markdown
import LinkedSheet.FileSystem.Path

/-!
Opening and exporting tables, and the documents that they are saved as. A table is kept as a
document, and the files of its custom functions are named in the document by their paths from there.
Everything is written for any `FileSystem`; a failure leaves the table that the caller holds as it
is.
-/
namespace LinkedSheet

abbrev Storing (m : Type → Type) := ExceptT TableError m

namespace Storing

variable {m : Type → Type} [Monad m]

def file (action : m (Except FileError α)) : Storing m α :=
  ExceptT.mk do
    match ← action with
    | .ok a => return .ok a
    | .error e => return .error (.file e)

def pass (result : Except TableError α) : Storing m α :=
  ExceptT.mk (pure result)

end Storing

namespace Document

def fileName : String := "__table__.toml"

/-- The largest document and the largest functions file that is read, in bytes. -/
def sizeLimit : Nat := 1048576

variable {m : Type → Type} [Monad m] [FileSystem m]

/-- The document that a path stands for: a directory holds its own. -/
def locate (path : String) : m String := do
  match ← FileSystem.kind? path with
  | some .directory => return Path.join path fileName
  | _ => return path

/-- The text of a file that is not too large; `kind` says what it should be. -/
def readText (path kind : String) : Storing m String := do
  let size ← Storing.file (FileSystem.size path)
  if size > sizeLimit then throw (.file (.tooLarge path kind size sizeLimit))
  let content ← Storing.file (FileSystem.read path)
  match String.fromUTF8? content with
  | some text => return text
  | none => throw (.file .notText)

def load (limit : Option Nat) (path : String) : Storing m Document := do
  match (← (FileSystem.kind? path : m (Option FileKind))) with
  | some .file => Storing.pass (Document.ofText limit (← readText path "table document"))
  | _ => throw (.noTableFile path)

def save (document : Document) (path : String) : Storing m Unit := do
  let text ← Storing.pass document.text
  Storing.file (FileSystem.write path text.toUTF8)

end Document

namespace Table

variable [Script.Engine] {m : Type → Type} [Monad m] [FileSystem m]

/-- Adds the custom functions of a file; the path by which the table knows the file comes with the
table. -/
def loadFunctions (table : Table) (path : String) : Storing m (String × Table) := do
  let path ← Storing.file (FileSystem.canonical path)
  let source ← Document.readText path "functions file"
  let table ← Storing.pass (table.addFunctions path source)
  return (path, table)

def loadAllFunctions (table : Table) : List String → Storing m Table
  | [] => return table
  | path :: rest => do
    let (_, table) ← table.loadFunctions path
    table.loadAllFunctions rest

def declare (table : Table) : List Declaration → Except TableError Table
  | [] => .ok table
  | d :: rest =>
    match table.bindSpec d.selection d.anchor d.function (some d.id) with
    | .ok (_, table) => table.declare rest
    | .error e => .error e

/-- Adds what a document holds; its functions files are found from `base`. -/
def addDocument (table : Table) (document : Document) (base : String) : Storing m Table := do
  let table ← table.loadAllFunctions (document.functions.map (Path.join base))
  let table ← Storing.pass (table.declare document.operations)
  Storing.pass (table.setOrder document.order)

def ofDocument (document : Document) (base : String) : Storing m Table :=
  empty.addDocument document base

def directoryOf (path : String) : String :=
  (Path.parent? path).getD "."

/-- Opens the table that a path stands for. The functions in `files` come before the document's
own. -/
def openFrom (limit : Option Nat) (path : String) (files : List String) : Storing m Table := do
  let path ← (Document.locate path : m String)
  let document ← Document.load limit path
  let table ← empty.loadAllFunctions files
  let table ← table.addDocument document (directoryOf path)
  return { table with filePath := some path }

def declarations : List Operation → Except TableError (List Declaration)
  | [] => .ok []
  | op :: rest =>
    match op.spec with
    | none => .error (.notSerializable op.id)
    | some spec =>
      match declarations rest with
      | .ok rest => .ok (⟨op.id, op.selection, spec, op.anchor⟩ :: rest)
      | .error e => .error e

/-- The path of a functions file as a document in a directory writes it: from there if the file lies
in the directory. -/
def relativePath (base path : String) : String :=
  (Path.within? base path).getD path

/-- The absolute path of a directory, or its path as it is if it cannot be found. -/
def baseOf (path : String) : m String := do
  match ← FileSystem.canonical path with
  | .ok base => return base
  | .error _ => return path

def toDocument (table : Table) (base : String) : Storing m Document := do
  let base ← (baseOf base : m String)
  let operations ← Storing.pass (declarations table.operations)
  return ⟨table.functionFiles.map (relativePath base), table.order, operations⟩

/-- Writes the table as comma-separated values. The file is there, and empty, even if the table is
too large. -/
def exportCsv (table : Table) (path : String) : Storing m Unit := do
  Storing.file (FileSystem.write path ByteArray.empty)
  let text ← Storing.pass (Export.Csv.render table)
  Storing.file (FileSystem.write path text.toUTF8)

/-- Writes the table as a document with one grid. Nothing is written if the table is too large. -/
def exportMarkdown (table : Table) (path : String) : Storing m Unit := do
  let text ← Storing.pass (Export.Markdown.render table)
  Storing.file (FileSystem.write path text.toUTF8)

end Table

end LinkedSheet
