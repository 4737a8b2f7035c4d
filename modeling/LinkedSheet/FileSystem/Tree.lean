import LinkedSheet.FileSystem
import LinkedSheet.FileSystem.Path

/-!
Files and directories as a value, with a working directory from which paths that are not absolute
start. There are no links, so that a path is without detours once its steps have been taken.
-/
namespace LinkedSheet

structure FileTree where
  /-- The steps from the root to the directory where paths start. -/
  workingDirectory : List String
  /-- What there is under the root, by the steps that lead there, the latest first; nothing is held
  for a directory. -/
  nodes : List (List String × Option ByteArray)

namespace FileTree

/-- An empty working directory at an absolute path, and the directories that lead there. -/
def empty (workingDirectory : List String) : FileTree where
  workingDirectory := workingDirectory
  nodes := (List.range (workingDirectory.length + 1)).map fun count =>
    (workingDirectory.take count, none)

inductive Node where
  | nothing
  | directory
  | file (content : ByteArray)

def node (tree : FileTree) (place : List String) : Node :=
  if place.isEmpty then .directory
  else
    match tree.nodes.lookup place with
    | some (some content) => .file content
    | some none => .directory
    | none => .nothing

/-- Where steps lead from a place. Every step, even one that stays, needs a directory to start
from. -/
def follow (tree : FileTree) (place : List String) : List String → Except FileError (List String)
  | [] =>
    match tree.node place with
    | .nothing => .error .missing
    | _ => .ok place
  | step :: rest =>
    match tree.node place with
    | .nothing => .error .missing
    | .file _ => .error .notADirectory
    | .directory =>
      if step = "" ∨ step = "." then tree.follow place rest
      else if step = ".." then tree.follow place.dropLast rest
      else tree.follow (place ++ [step]) rest

def start (tree : FileTree) (path : String) : List String :=
  if Path.isAbsolute path then [] else tree.workingDirectory

def resolve (tree : FileTree) (path : String) : Except FileError (List String) :=
  if path.isEmpty then .error .missing else tree.follow (tree.start path) (Path.pieces path)

def placeText (place : List String) : String :=
  "/" ++ "/".intercalate place

def read (tree : FileTree) (path : String) : Except FileError ByteArray := do
  match tree.node (← tree.resolve path) with
  | .file content => .ok content
  | .directory => .error .isADirectory
  | .nothing => .error .missing

/-- The place of a file that is to be written: all steps but the last one lead to a directory, and
the last one is a name. -/
def target (tree : FileTree) (path : String) : Except FileError (List String) := do
  let pieces := Path.pieces path
  let stripped := (pieces.reverse.dropWhile (· = "")).reverse
  match stripped.getLast? with
  | none => if path.isEmpty then throw .missing else throw .isADirectory
  | some name =>
    let place ← tree.follow (tree.start path) stripped.dropLast
    match tree.node place with
    | .directory =>
      if stripped.length ≠ pieces.length ∨ name = "." ∨ name = ".." then throw .isADirectory
      else return place ++ [name]
    | _ => throw .notADirectory

def write (tree : FileTree) (path : String) (content : ByteArray) : Except FileError FileTree := do
  let place ← tree.target path
  match tree.node place with
  | .directory => throw .isADirectory
  | _ => return { tree with nodes := (place, some content) :: tree.nodes }

/-- Makes the directories on the way from a place, those that are there being kept. -/
def makeDirectories (tree : FileTree) (place : List String) : List String → FileTree
  | [] => tree
  | step :: rest =>
    if step = "" ∨ step = "." then tree.makeDirectories place rest
    else if step = ".." then tree.makeDirectories place.dropLast rest
    else
      let place := place ++ [step]
      match tree.node place with
      | .nothing => { tree with nodes := (place, none) :: tree.nodes }.makeDirectories place rest
      | _ => tree.makeDirectories place rest

def makeDirectory (tree : FileTree) (path : String) : FileTree :=
  tree.makeDirectories (tree.start path) (Path.pieces path)

def looking (look : FileTree → α) : StateM FileTree α := do
  return look (← get)

instance : FileSystem (StateM FileTree) where
  canonical path := looking fun tree => (tree.resolve path).map placeText
  kind? path := looking fun tree =>
    match tree.resolve path with
    | .error _ => none
    | .ok place =>
      match tree.node place with
      | .file _ => some .file
      | .directory => some .directory
      | .nothing => none
  size path := looking fun tree => do
    match tree.node (← tree.resolve path) with
    | .file content => return content.size
    | .directory => return 0
    | .nothing => throw .missing
  read path := looking fun tree => tree.read path
  write path content := do
    match (← get).write path content with
    | .ok tree =>
      set tree
      return .ok ()
    | .error e => return .error e

end FileTree

end LinkedSheet
