/-!
Paths as texts. A path consists of steps with slashes between them; empty steps and, except at the
start, steps that stay in place do not count.
-/
namespace LinkedSheet.Path

def pieces (path : String) : List String :=
  go [] path.toList
where
  go (piece : List Char) : List Char → List String
    | [] => [String.ofList piece.reverse]
    | c :: rest =>
      if c = '/' then String.ofList piece.reverse :: go [] rest else go (c :: piece) rest

def isAbsolute (path : String) : Bool :=
  path.toList.head? == some '/'

/-- The steps of a path; an absolute path starts with the step `/`. -/
def steps (path : String) : List String :=
  let counted := (pieces path).filter fun piece => piece ≠ "" ∧ piece ≠ "."
  if isAbsolute path then "/" :: counted
  else if (pieces path).head? = some "." then "." :: counted
  else counted

def ofSteps : List String → String
  | "/" :: rest => "/" ++ "/".intercalate rest
  | steps => "/".intercalate steps

def join (base path : String) : String :=
  if isAbsolute path || base.isEmpty then path
  else if base.toList.getLast? == some '/' then base ++ path
  else base ++ "/" ++ path

/-- The path without its last step, if it has one that can be taken away. -/
def parent? (path : String) : Option String :=
  match steps path with
  | [] => none
  | ["/"] => none
  | steps => some (ofSteps steps.dropLast)

/-- The rest of a path that leads through a directory. -/
def within? (base path : String) : Option String :=
  if (steps base).isPrefixOf (steps path) then
    some (ofSteps ((steps path).drop (steps base).length))
  else none

/-- What follows the last point of the last step, if something precedes that point. -/
def extension? (path : String) : Option String := do
  let name ← (steps path).getLast?
  if name = "/" ∨ name = "." ∨ name = ".." then none
  else
    let backwards := name.toList.reverse
    match backwards.dropWhile (· != '.') with
    | [] => none
    | ['.'] => none
    | _ => some (String.ofList (backwards.takeWhile (· != '.')).reverse)

end LinkedSheet.Path
