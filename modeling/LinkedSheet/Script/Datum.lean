import LinkedSheet.Decimal.Shortest
import LinkedSheet.Script.Expr
import LinkedSheet.Text.Quoted

/-!
Values that scripts compute with, and their texts. Variables live in a memory that is addressed by
position; a closure holds the addresses of the variables that it shares with its surroundings.

A value has two texts. `shown` joins it to other texts and prints it; `displayed` is the one of a
thrown value and of a template whose pieces are all written out. They differ in the characters
inside arrays and maps, which only the second one quotes.
-/
namespace LinkedSheet.Script

/-- Variables in sight, the innermost first, with their addresses. -/
abbrev Scope := List (String × Nat)

inductive Datum where
  | unit
  | bool (b : Bool)
  | int (n : Int)
  | float (x : Float)
  | char (c : Char)
  | text (s : String)
  | array (items : Array Datum)
  /-- Keys in increasing order, each with its value. -/
  | map (keys : List String) (values : List Datum)
  | closure (params : List String) (body : List Stmt) (scope : Scope)
  /-- A function by its name. -/
  | function (name : String)
  /-- The whole numbers from `low` up to `high`, without it. -/
  | range (low high : Int)
deriving Inhabited

def withFraction (d : Decimal.Digits) : String :=
  if 0 ≤ d.exponent then d.positional ++ ".0" else d.positional

/-- The text of a floating-point number; `plain` tells which ones are written without an
exponent. -/
def floatTextWith (plain : Float → Bool) (zero : String) (x : Float) : String :=
  match Binary64.ofFloat x with
  | .notANumber => "NaN"
  | .infinite negative => if negative then "-inf" else "inf"
  | .finite negative mantissa exponent =>
    if mantissa = 0 then (if negative then zero else "0.0")
    else
      let d := Decimal.shortest mantissa exponent
      (if negative then "-" else "") ++ (if plain x then withFraction d else d.scientific)

def greatestPlain : Float := 9999999827968

def leastPlain : Float := Float.ofBits 0x3d3c25c260000000

/-- Numbers are joined to texts without an exponent between the two bounds. -/
def floatText : Float → String :=
  floatTextWith (fun x => leastPlain ≤ x.abs && x.abs ≤ greatestPlain) "0.0"

/-- Numbers inside arrays and maps are written without an exponent below `10 ^ 16`. -/
def floatNotation : Float → String :=
  floatTextWith (fun x => 1e-4 ≤ x.abs && x.abs < 1e16) "-0.0"

namespace Datum

def typeName : Datum → String
  | unit => "()"
  | bool _ => "bool"
  | int _ => "i64"
  | float _ => "f64"
  | char _ => "char"
  | text _ => "string"
  | array _ => "array"
  | map .. => "map"
  | closure .. => "Fn"
  | function _ => "Fn"
  | range .. => "range"

mutual

/-- The text of a value inside an array or a map, its characters in quotes or not. -/
def inside (quotes : Bool) : Datum → String
  | unit => "()"
  | bool b => toString b
  | int n => toString n
  | float x => floatNotation x
  | char c => if quotes then Text.quotedChar c else String.singleton c
  | text s => Text.quoted s
  | array items => "[" ++ ", ".intercalate (insideAll quotes items.toList) ++ "]"
  | map keys values =>
    "#\x7b" ++ ", ".intercalate (keys.zipWith (fun k v => Text.quoted k ++ ": " ++ v)
      (insideAll quotes values)) ++ "\x7d"
  | closure .. => "Fn"
  | function name => "Fn(" ++ name ++ ")"
  | range low high => toString low ++ ".." ++ toString high

def insideAll (quotes : Bool) : List Datum → List String
  | [] => []
  | d :: rest => inside quotes d :: insideAll quotes rest

end

def textWith (quotes : Bool) : Datum → String
  | unit => ""
  | float x => floatText x
  | char c => String.singleton c
  | text s => s
  | d => inside quotes d

/-- The text of a value as it is printed and joined to other texts. -/
def shown : Datum → String :=
  textWith false

/-- The text of a value that is thrown, or written out in a template. -/
def displayed : Datum → String :=
  textWith true

def isUnit : Datum → Bool
  | unit => true
  | _ => false

end Datum

end LinkedSheet.Script
