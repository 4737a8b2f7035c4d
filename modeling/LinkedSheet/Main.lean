import LinkedSheet.CommandLine

/-!
The program: the command on the files of the machine.
-/
namespace LinkedSheet.Main

/-- What went wrong with a file, in the words of the table library. -/
def fileError : IO.Error → FileError
  | .noFileOrDirectory .. => .missing
  | .noSuchThing .. => .missing
  | .inappropriateType _ _ details =>
    if details.startsWith "Is a" then .isADirectory else .notADirectory
  | e => .other (toString e)

def attempt (action : IO α) : IO (Except FileError α) := do
  try return .ok (← action)
  catch e => return .error (fileError e)

instance : FileSystem IO where
  canonical path := attempt do return (← IO.FS.realPath path).toString
  kind? path := do
    match ← attempt (do (← IO.FS.realPath path).metadata) with
    | .ok data =>
      match data.type with
      | .file => return some .file
      | .dir => return some .directory
      | _ => return none
    | .error _ => return none
  size path := attempt do return (← (← IO.FS.realPath path).metadata).byteSize.toNat
  read path := attempt (IO.FS.readBinFile path)
  write path content := attempt (IO.FS.writeBinFile path content)

/-- Where the default functions would be: in the directory for settings if there is an absolute one,
and else in the usual one of the home directory. -/
def defaultFile : IO (Option String) := do
  let settings := (← IO.getEnv "XDG_CONFIG_HOME").filter Path.isAbsolute
  let home := (← IO.getEnv "HOME").filter (· ≠ "")
  let directory := settings <|> home.map fun home => Path.join home ".config"
  return directory.map fun directory => Path.join directory "spysheet/default.rhai"

end LinkedSheet.Main

open LinkedSheet in
def main (arguments : List String) : IO UInt32 := do
  let outcome ← (CommandLine.run arguments (← Main.defaultFile) : IO CommandLine.Outcome)
  IO.print outcome.output
  IO.eprint outcome.errors
  return outcome.code.toUInt32
