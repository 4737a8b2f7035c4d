/-!
Expressions and statements of the script language, and whole programs: function definitions and a
list of statements whose last value is the result.

A chain is a root with elements, properties and methods behind it; it is kept whole because its
arguments are all computed before its root. A closure lists the variables around it that it shares.
-/
namespace LinkedSheet.Script

inductive UnaryOp where
  | negate | plus | not
deriving DecidableEq, Repr

inductive BinaryOp where
  | add | sub | mul | div | mod
  | eq | ne | lt | le | gt | ge
  /-- Whole numbers from the left one up to the right one, without it. -/
  | upTo
  /-- Whole numbers from the left one through the right one. -/
  | through
deriving DecidableEq, Repr

/-- Operators that can be joined with storing. -/
def BinaryOp.isArithmetic : BinaryOp → Bool
  | add => true
  | sub => true
  | mul => true
  | div => true
  | mod => true
  | _ => false

mutual

inductive Expr where
  | unit
  | bool (b : Bool)
  | int (n : Int)
  | float (x : Float)
  | char (c : Char)
  | text (s : String)
  /-- The whole numbers from `low` up to `high`, without it. -/
  | range (low high : Int)
  /-- Pieces whose texts are joined. -/
  | template (pieces : List Expr)
  | name (name : String)
  | array (items : List Expr)
  | map (keys : List String) (values : List Expr)
  | closure (params shared : List String) (body : List Stmt)
  | unary (op : UnaryOp) (e : Expr)
  | binary (op : BinaryOp) (a b : Expr)
  | both (a b : Expr)
  | either (a b : Expr)
  | call (function : String) (arguments : List Expr)
  | chain (root : Expr) (links : List Link)
  | block (body : List Stmt)

/-- A step from a value to one of its parts, or to the result of a method. -/
inductive Link where
  | element (position : Expr)
  | property (name : String)
  | method (function : String) (arguments : List Expr)

inductive Stmt where
  | expr (e : Expr)
  | choice (condition : Expr) (yes no : List Stmt)
  | block (body : List Stmt)
  | declare (name : String) (value : Expr)
  /-- Stores into a variable or a part of one; with an operator, the old value comes first. -/
  | assign (target : Expr) (op : Option BinaryOp) (value : Expr)
  /-- Repeats the body as long as the condition holds, or without end if there is none. -/
  | repeatWhile (condition : Option Expr) (body : List Stmt)
  | forEach (name : String) (items : Expr) (body : List Stmt)
  | giveBack (value : Option Expr)
  | throwValue (value : Option Expr)
  | leaveLoop
  | nextRound
  | skip

end

instance : Inhabited Expr := ⟨.unit⟩

instance : Inhabited Stmt := ⟨.skip⟩

def selfName : String := "this"

/-- The variable that a statement brings into sight of the next ones. -/
def Stmt.declared : Stmt → List String
  | .declare name _ => [name]
  | _ => []

mutual

/-- The variables that an expression uses, apart from those in `bound` and those that it declares
itself. -/
def Expr.free (bound : List String) : Expr → List String
  | .name name => if bound.contains name then [] else [name]
  | .template pieces => freeAll bound pieces
  | .array items => freeAll bound items
  | .map _ values => freeAll bound values
  | .closure _ shared _ => shared.filter fun name => !bound.contains name
  | .unary _ e => e.free bound
  | .binary _ a b => a.free bound ++ b.free bound
  | .both a b => a.free bound ++ b.free bound
  | .either a b => a.free bound ++ b.free bound
  | .call _ arguments => freeAll bound arguments
  | .chain root links => root.free bound ++ freeLinks bound links
  | .block body => freeBody bound body
  | _ => []

def freeAll (bound : List String) : List Expr → List String
  | [] => []
  | e :: rest => e.free bound ++ freeAll bound rest

def Link.free (bound : List String) : Link → List String
  | .element position => position.free bound
  | .property _ => []
  | .method _ arguments => freeAll bound arguments

def freeLinks (bound : List String) : List Link → List String
  | [] => []
  | link :: rest => link.free bound ++ freeLinks bound rest

def freeOption (bound : List String) : Option Expr → List String
  | none => []
  | some e => e.free bound

def Stmt.free (bound : List String) : Stmt → List String
  | .expr e => e.free bound
  | .choice condition yes no =>
    condition.free bound ++ freeBody bound yes ++ freeBody bound no
  | .block body => freeBody bound body
  | .declare _ value => value.free bound
  | .assign target _ value => target.free bound ++ value.free bound
  | .repeatWhile condition body => freeOption bound condition ++ freeBody bound body
  | .forEach name items body => items.free bound ++ freeBody (name :: bound) body
  | .giveBack value => freeOption bound value
  | .throwValue value => freeOption bound value
  | _ => []

def freeBody (bound : List String) : List Stmt → List String
  | [] => []
  | stmt :: rest => stmt.free bound ++ freeBody (stmt.declared ++ bound) rest

end

structure Definition where
  name : String
  params : List String
  body : List Stmt

structure Program where
  definitions : List Definition
  body : List Stmt

namespace Program

def empty : Program := ⟨[], []⟩

/-- The statements of `first` run before those of `second`; a definition in `second` hides one in
`first` of the same name and number of parameters. -/
def merge (first second : Program) : Program where
  definitions := second.definitions ++ first.definitions
  body := first.body ++ second.body

end Program

end LinkedSheet.Script
