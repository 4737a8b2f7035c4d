import LinkedSheet.CommandLine.Arguments
import LinkedSheet.Export.Text
import LinkedSheet.Script.Interpreter
import LinkedSheet.Table.Storage

/-!
The command: it opens a table, evaluates it and shows or exports what it holds. What it prints is a
value; only the files it reads and writes are effects.
-/
namespace LinkedSheet.CommandLine

structure Outcome where
  code : Nat
  output : String
  errors : String

def chain (context : String) (e : TableError) : String :=
  context ++ ": " ++ e.message ++
    match e.cause? with
    | some cause => ": " ++ cause
    | none => ""

def success (output : String) : Outcome := ⟨0, output, ""⟩

def failure (output message : String) : Outcome := ⟨1, output, "Error: " ++ message ++ "\n"⟩

def asLines (lines : List String) : String :=
  String.join (lines.map (· ++ "\n"))

/-- A name in a column that is at least six characters wide, and its description. -/
def builtinLine (builtin : String × String) : String :=
  builtin.1 ++ String.ofList (List.replicate (6 - builtin.1.length) ' ') ++ " " ++ builtin.2

def heading : String :=
  "Final Table\n" ++ String.ofList (List.replicate 40 '=') ++ "\n"

variable {m : Type → Type} [Monad m] [FileSystem m]

def shown (printed : String) (table : Table) : Outcome :=
  match Export.Text.render table with
  | .ok text => success (printed ++ heading ++ text)
  | .error e => failure printed (chain "Failed to render table" e)

/-- The export of a table into a file, in the format that its extension names. -/
def exporter? (path : String) : Option (Table → Storing m Unit) :=
  match (Path.extension? path).map String.toLower with
  | some "csv" => some fun table => table.exportCsv path
  | some "md" => some fun table => table.exportMarkdown path
  | _ => none

def exported (printed : String) (table : Table) (path : String) : m Outcome := do
  match (exporter? path : Option (Table → Storing m Unit)) with
  | none =>
    return failure printed ("Unsupported output format: " ++ path ++ " (expected .csv or .md)")
  | some exporter =>
    match ← (exporter table).run with
    | .ok () => return success (printed ++ "Exported to " ++ path ++ "\n")
    | .error e => return failure printed (chain ("Failed to write " ++ path) e)

def evaluated (options : Options) (table : Table) : m Outcome := do
  let printed := asLines table.lines
  match table.evaluate with
  | (_, .error e) => return failure printed (chain "Evaluation failed" e)
  | (table, .ok ()) =>
    match options.output with
    | some path => exported printed table path
    | none => return shown printed table

/-- The functions files in the sequence of loading: the default one is left out unless it is a
file. -/
def functionFiles (options : Options) (defaultFile : Option String) : m (List String) := do
  match options.defaultFunctions, defaultFile with
  | true, some path =>
    match ← FileSystem.kind? path with
    | some .file => return path :: options.functions
    | _ => return options.functions
  | _, _ => return options.functions

def runAt (path : String) (options : Options) (defaultFile : Option String) : m Outcome := do
  let files ← (functionFiles options defaultFile : m (List String))
  match ← (Table.openFrom Toml.nestingLimit path files : Storing m Table).run with
  | .error e => return failure "" (chain ("Failed to load table: " ++ path) e)
  | .ok table =>
    if options.order.isEmpty then evaluated options table
    else
      match table.setOrder options.order with
      | .error e => return failure "" (chain "Invalid --order" e)
      | .ok table => evaluated options table

/-- Runs a command with its arguments. `defaultFile` is where the default functions would be. -/
def run (arguments : List String) (defaultFile : Option String) : m Outcome := do
  match Request.ofArguments? arguments with
  | none => return ⟨2, "", usageError⟩
  | some .help => return success help
  | some .version => return success (version ++ "\n")
  | some (.evaluate options) =>
    if options.listFunctions then
      return success (asLines (Script.Builtin.table.map builtinLine))
    else
      match options.path with
      | some path => runAt path options defaultFile
      | none => return failure "" "a table path is required"

end LinkedSheet.CommandLine
