import LinkedSheet.Binary64

/-!
Cell values and the text a cell shows. Integers are those of the signed 64-bit range; everything
that makes one checks the range.

A number below ten thousand million without a fraction is shown whole; every other finite number is
shown with two decimals, rounded from its exact value, a tie going to the even hundredth.
-/
namespace LinkedSheet

inductive Value where
  | int (n : Int)
  | float (x : Float)
  | text (s : String)
deriving Inhabited

namespace Value

def number? : Value → Option Float
  | int n => some (Binary64.ofInt n)
  | float x => some x
  | text _ => none

def isText : Value → Bool
  | text _ => true
  | _ => false

/-- Whether both hold the same kind and content; numbers compare as numbers do, so a NaN equals
nothing. -/
def same : Value → Value → Bool
  | int a, int b => a == b
  | float a, float b => a == b
  | text a, text b => a == b
  | _, _ => false

end Value

namespace Display

/-- Magnitudes from here on are shown with decimals even if they are whole. -/
def wholeBound : Nat := tenPow 10

def sign (negative : Bool) : List Char :=
  if negative then ['-'] else []

def twoDigits (n : Nat) : List Char :=
  [Nat.digitChar (n / 10), Nat.digitChar (n % 10)]

def hundredths (n : Nat) : List Char :=
  Nat.toDigits 10 (n / 100) ++ '.' :: twoDigits (n % 100)

def ratio (negative : Bool) (num den : Nat) : List Char :=
  if num % den = 0 ∧ num / den < wholeBound then sign negative ++ Nat.toDigits 10 (num / den)
  else sign negative ++ hundredths (Decimal.roundHalfEven (num * 100) den)

def binary : Binary64 → List Char
  | .notANumber => ['#', 'N', 'A', 'N', '!']
  | .infinite _ => ['#', 'I', 'N', 'F', '!']
  | .finite negative mantissa exponent =>
    ratio negative (Binary64.numerator mantissa exponent) (Binary64.denominator exponent)

def float (x : Float) : String :=
  String.ofList (binary (Binary64.ofFloat x))

end Display

def Value.display : Value → String
  | int n => toString n
  | float x => Display.float x
  | text s => s

end LinkedSheet
