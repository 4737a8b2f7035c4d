import LinkedSheet.Script.Datum
import LinkedSheet.Word

/-!
Arithmetic and comparison of script values. Whole-number arithmetic is that of the signed 64-bit
range and fails rather than wraps; an operation on a whole and a floating-point number is done on
floating-point numbers. A text takes in whatever stands on the other side of a plus.

Values of different kinds are unequal and in no order. Of two values of one kind that has no order
(arrays, maps, functions) none is asked for, and functions cannot even be compared for equality.
-/
namespace LinkedSheet.Script

/-- Why a script cannot go on, apart from values that it throws itself. -/
inductive Fault where
  | overflow
  | divisionByZero
  | unknownName (name : String)
  | unknownFunction (name : String) (arity : Nat)
  | unfitting (operation : String)
  | outOfBounds (position : Int)
  | callsTooDeep
  /-- A variable is used while a method works on it. -/
  | inUse (name : String)
deriving DecidableEq, Repr

namespace Fault

def message : Fault → String
  | overflow => "Arithmetic overflow"
  | divisionByZero => "Division by zero"
  | unknownName name => "Variable not found: " ++ name
  | unknownFunction name arity => "Function not found: " ++ name ++ s!" with {arity} arguments"
  | unfitting operation => "Values do not fit: " ++ operation
  | outOfBounds position => s!"No element at {position}"
  | callsTooDeep => "Calls are nested too deeply"
  | inUse name => "Variable is in use: " ++ name

end Fault

namespace Operator

def least : Int := -Word.signBound

def greatest : Int := Word.signBound - 1

def whole (n : Int) : Except Fault Datum :=
  if least ≤ n ∧ n ≤ greatest then .ok (.int n) else .error .overflow

def symbol : BinaryOp → String
  | .add => "+"
  | .sub => "-"
  | .mul => "*"
  | .div => "/"
  | .mod => "%"
  | .eq => "=="
  | .ne => "!="
  | .lt => "<"
  | .le => "<="
  | .gt => ">"
  | .ge => ">="
  | .upTo => ".."
  | .through => "..="

/-- Division cuts off the fraction; the remainder has the sign of the dividend. -/
def onWholes (op : BinaryOp) (a b : Int) : Except Fault Datum :=
  match op with
  | .add => whole (a + b)
  | .sub => whole (a - b)
  | .mul => whole (a * b)
  | .div => if b = 0 then .error .divisionByZero else whole (Int.tdiv a b)
  | .mod =>
    if b = 0 then .error .divisionByZero
    else if a = least ∧ b = -1 then .error .overflow
    else whole (Int.tmod a b)
  | .eq => .ok (.bool (a == b))
  | .ne => .ok (.bool (a != b))
  | .lt => .ok (.bool (decide (a < b)))
  | .le => .ok (.bool (decide (a ≤ b)))
  | .gt => .ok (.bool (decide (b < a)))
  | .ge => .ok (.bool (decide (b ≤ a)))
  | .upTo => .ok (.range a b)
  | .through => .ok (.range a (b + 1))

def onFloats (op : BinaryOp) (a b : Float) : Except Fault Datum :=
  match op with
  | .add => .ok (.float (a + b))
  | .sub => .ok (.float (a - b))
  | .mul => .ok (.float (a * b))
  | .div => .ok (.float (a / b))
  | .mod => .ok (.float (Binary64.remainder a b))
  | .eq => .ok (.bool (a == b))
  | .ne => .ok (.bool (a != b))
  | .lt => .ok (.bool (decide (a < b)))
  | .le => .ok (.bool (decide (a ≤ b)))
  | .gt => .ok (.bool (decide (b < a)))
  | .ge => .ok (.bool (decide (b ≤ a)))
  | .upTo => .error (.unfitting "..")
  | .through => .error (.unfitting "..=")

def onOrder (op : BinaryOp) (o : Ordering) : Except Fault Datum :=
  match op with
  | .eq => .ok (.bool o.isEq)
  | .ne => .ok (.bool o.isNe)
  | .lt => .ok (.bool o.isLT)
  | .le => .ok (.bool o.isLE)
  | .gt => .ok (.bool o.isGT)
  | .ge => .ok (.bool o.isGE)
  | op => .error (.unfitting (symbol op))

/-- Code points decide from left to right; a beginning comes before the whole. -/
def compareTexts : List Char → List Char → Ordering
  | [], [] => .eq
  | [], _ :: _ => .lt
  | _ :: _, [] => .gt
  | a :: as, b :: bs => (compare a.toNat b.toNat).then (compareTexts as bs)

def boolNumber (b : Bool) : Nat :=
  if b then 1 else 0

/-- Without the occurrences of a part that is not empty, found from left to right; `skip` characters
of the last one are still to come. -/
def without (part : List Char) (skip : Nat) : List Char → List Char
  | [] => []
  | c :: rest =>
    match skip with
    | skip + 1 => without part skip rest
    | 0 =>
      if part.isPrefixOf (c :: rest) then without part (part.length - 1) rest
      else c :: without part 0 rest

/-- Taking a text out of a text. Out of the empty text nothing can be taken, and the other text
results. -/
def takeOut (s part : String) : String :=
  if part.isEmpty then s
  else if s.isEmpty then part
  else String.ofList (without part.toList 0 s.toList)

def setEntry (key : String) (value : Datum) : List String → List Datum → List String × List Datum
  | k :: keys, v :: values =>
    if k = key then (k :: keys, value :: values)
    else if key < k then (key :: k :: keys, value :: v :: values)
    else
      let (keys, values) := setEntry key value keys values
      (k :: keys, v :: values)
  | _, _ => ([key], [value])

def setEntries : List String → List Datum → List String × List Datum → List String × List Datum
  | key :: keys, value :: values, entries =>
    setEntries keys values (setEntry key value entries.1 entries.2)
  | _, _, entries => entries

mutual

def equal : Datum → Datum → Except Fault Bool
  | .unit, .unit => .ok true
  | .bool a, .bool b => .ok (a == b)
  | .int a, .int b => .ok (a == b)
  | .int a, .float b => .ok (Binary64.ofInt a == b)
  | .float a, .int b => .ok (a == Binary64.ofInt b)
  | .float a, .float b => .ok (a == b)
  | .char a, .char b => .ok (a == b)
  | .char a, .text b => .ok (String.singleton a == b)
  | .text a, .char b => .ok (a == String.singleton b)
  | .text a, .text b => .ok (a == b)
  | .array as, .array bs =>
    if as.size = bs.size then equalAll as.toList bs.toList else .ok false
  | .map ks as, .map ls bs => if ks = ls then equalAll as bs else .ok false
  | .range a b, .range c d => .ok (a == c && b == d)
  | a, b => if a.typeName = "Fn" ∧ b.typeName = "Fn" then .error (.unfitting "==") else .ok false

def equalAll : List Datum → List Datum → Except Fault Bool
  | [], [] => .ok true
  | a :: as, b :: bs => do
    if ← equal a b then equalAll as bs else return false
  | _, _ => .ok false

end

def onUnordered (op : BinaryOp) (a b : Datum) : Except Fault Datum :=
  match op with
  | .eq => (equal a b).map .bool
  | .ne => (equal a b).map fun same => .bool (!same)
  | op => .error (.unfitting (symbol op))

/-- Values of different kinds are unequal and in no order. -/
def onDifferent (op : BinaryOp) : Except Fault Datum :=
  match op with
  | .eq => .ok (.bool false)
  | .ne => .ok (.bool true)
  | .lt => .ok (.bool false)
  | .le => .ok (.bool false)
  | .gt => .ok (.bool false)
  | .ge => .ok (.bool false)
  | op => .error (.unfitting (symbol op))

def onUnits (op : BinaryOp) : Except Fault Datum :=
  match op with
  | .eq => .ok (.bool true)
  | .ne => .ok (.bool false)
  | op => onDifferent op

def binary (op : BinaryOp) (a b : Datum) : Except Fault Datum :=
  match op, a, b with
  | op, .int a, .int b => onWholes op a b
  | op, .float a, .float b => onFloats op a b
  | op, .int a, .float b => onFloats op (Binary64.ofInt a) b
  | op, .float a, .int b => onFloats op a (Binary64.ofInt b)
  | .add, .text a, b => .ok (.text (a ++ b.shown))
  | .add, a, .text b => .ok (.text (a.shown ++ b))
  | .add, .char a, .char b => .ok (.text (String.singleton a ++ String.singleton b))
  | .add, .array as, .array bs => .ok (.array (as ++ bs))
  | .add, .map ks as, .map ls bs =>
    let entries := setEntries ls bs (ks, as)
    .ok (.map entries.1 entries.2)
  | .sub, .text a, .text b => .ok (.text (takeOut a b))
  | .sub, .text a, .char b => .ok (.text (String.ofList (a.toList.filter (· != b))))
  | op, .text a, .text b => onOrder op (compareTexts a.toList b.toList)
  | op, .char a, .char b => onOrder op (compare a.toNat b.toNat)
  | op, .char a, .text b => onOrder op (compareTexts [a] b.toList)
  | op, .text a, .char b => onOrder op (compareTexts a.toList [b])
  | op, .bool a, .bool b => onOrder op (compare (boolNumber a) (boolNumber b))
  | op, .unit, .unit => onUnits op
  | op, a, b => if a.typeName = b.typeName then onUnordered op a b else onDifferent op

/-- Storing with a plus adds an element to an array; otherwise it is the operation itself. -/
def storing (op : BinaryOp) (old new : Datum) : Except Fault Datum :=
  match op, old, new with
  | .add, .array as, .array bs => .ok (.array (as ++ bs))
  | .add, .array as, b => .ok (.array (as.push b))
  | op, old, new => binary op old new

def unary (op : UnaryOp) (a : Datum) : Except Fault Datum :=
  match op, a with
  | .negate, .int n => whole (-n)
  | .negate, .float x => .ok (.float (-x))
  | .plus, .int n => .ok (.int n)
  | .plus, .float x => .ok (.float x)
  | .not, .bool b => .ok (.bool (!b))
  | .negate, _ => .error (.unfitting "-")
  | .plus, _ => .error (.unfitting "+")
  | .not, _ => .error (.unfitting "!")

end Operator

end LinkedSheet.Script
