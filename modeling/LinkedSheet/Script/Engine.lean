import LinkedSheet.Script.Operator

/-!
What tables need of a script language: programs that are compiled from a source, joined and run with
variables and with functions that their host gives them. Tables are written for any engine;
`Script.Interpreter` is one.
-/
namespace LinkedSheet

inductive ScriptError where
  | malformed
  | malformedFunctions
  | thrown (shown : String)
  | fault (f : Script.Fault)
  | exhausted
  | unstorable (typeName : String)
deriving DecidableEq, Repr

namespace ScriptError

def message : ScriptError → String
  | malformed => "the source is not a script"
  | malformedFunctions => "Error in custom functions: the source is not a script"
  | thrown shown => if shown.isEmpty then "Runtime error" else "Runtime error: " ++ shown
  | fault f => f.message
  | exhausted => "the script takes too many steps"
  | unstorable typeName => "cannot store " ++ typeName ++ " in a cell"

end ScriptError

namespace Script

/-- The functions that a host gives to scripts; one that fails throws a text. -/
abbrev Natives := String → List Datum → Option (Except String Datum)

/-- A script language whose runs can call functions of their host. -/
class Engine where
  Program : Type
  empty : Program
  compile? (source : String) : Option Program
  /-- Both programs, one after the other; a function of the second hides one of the first. -/
  merge (first second : Program) : Program
  /-- Whether a program has a function of its own with a name and so many parameters. -/
  defines (program : Program) (name : String) (arity : Nat) : Bool
  /-- A point of a run at which the script may call a function. -/
  Moment : Type
  start (program : Program) (natives : Natives) (given : List (String × Datum)) : Moment
  /-- What a run gives from a moment on, and the lines that it prints. -/
  finish (moment : Moment) : Except ScriptError Datum × List String
  call (moment : Moment) (function : String) (arguments : List Datum) :
    Except ScriptError Datum × Moment
  /-- The moments at which a program with some natives may call. -/
  During (program : Program) (natives : Natives) (moment : Moment) : Prop
  during_start (program : Program) (natives : Natives) (given : List (String × Datum)) :
    During program natives (start program natives given)
  during_call {program : Program} {natives : Natives} {moment : Moment} (function : String)
    (arguments : List Datum) (during : During program natives moment) :
    During program natives (call moment function arguments).2
  /-- A native that no function of the program hides gives its result, and nothing else changes. -/
  call_native {program : Program} {natives : Natives} {moment : Moment} {function : String}
    {arguments : List Datum} {result : Except String Datum}
    (during : During program natives moment)
    (kept : defines program function arguments.length = false)
    (native : natives function arguments = some result) :
    call moment function arguments = (result.mapError .thrown, moment)

end Script

end LinkedSheet
