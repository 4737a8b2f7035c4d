import LinkedSheet.Binary64

/-!
The fewest decimal digits that read back as a given binary number, and of those the nearest to it.
A decimal reads back exactly if it lies between the two midpoints to the neighbouring numbers; the
midpoints themselves belong to the number whose mantissa is even.
-/
namespace LinkedSheet.Decimal

structure Digits where
  digits : Nat
  exponent : Int
deriving DecidableEq, Repr

namespace Digits

def strip (fuel : Nat) (d : Digits) : Digits :=
  match fuel with
  | 0 => d
  | fuel + 1 =>
    if d.digits ≠ 0 ∧ d.digits % 10 = 0 then strip fuel ⟨d.digits / 10, d.exponent + 1⟩ else d

/-- Digits with a point, never with an exponent; whole numbers have neither point nor fraction. -/
def positional (d : Digits) : String :=
  let digits := Nat.toDigits 10 d.digits
  if 0 ≤ d.exponent then String.ofList (digits ++ List.replicate d.exponent.toNat '0')
  else
    let places := (-d.exponent).toNat
    if places < digits.length then
      String.ofList
        (digits.take (digits.length - places) ++ '.' :: digits.drop (digits.length - places))
    else String.ofList ('0' :: '.' :: List.replicate (places - digits.length) '0' ++ digits)

/-- One digit, the others behind a point, then `e` and the exponent of the first digit. -/
def scientific (d : Digits) : String :=
  let digits := Nat.toDigits 10 d.digits
  let exponent := d.exponent + digits.length - 1
  let mantissa :=
    match digits with
    | [] => []
    | [c] => [c]
    | c :: rest => c :: '.' :: rest
  String.ofList mantissa ++ "e" ++ toString exponent

end Digits

/-- The number of decimal digits before the point of `num / den`, less one: the exponent of the
first digit that is not zero. -/
def leadingPlace (num den : Nat) : Int :=
  if den ≤ num then ((Nat.toDigits 10 (num / den)).length : Int) - 1
  else
    let length := (Nat.toDigits 10 (den / num)).length
    if den ≤ num * tenPow (length - 1) then -((length : Int) - 1) else -(length : Int)

/-- The decimals that read back as `mantissa * 2 ^ exponent`: both ends in quarters of the last
binary place, and whether the ends belong to them. -/
structure Interval where
  low : Nat
  high : Nat
  closed : Bool

def Interval.of (mantissa : Nat) (exponent : Int) : Interval where
  low :=
    if mantissa = Binary64.leadingBit ∧ exponent ≠ -1074 then 4 * mantissa - 1
    else 4 * mantissa - 2
  high := 4 * mantissa + 2
  closed := mantissa % 2 == 0

/-- Whether `num / den`, in quarters of the last binary place, lies in the interval. -/
def Interval.contains (i : Interval) (num den : Nat) : Bool :=
  if i.closed then i.low * den ≤ num && num ≤ i.high * den
  else i.low * den < num && num < i.high * den

/-- The nearest point to the number, among those of the grid `10 ^ place` that read back. -/
def onGrid? (mantissa : Nat) (exponent place : Int) : Option Digits :=
  -- a grid point `d` is `d * num / den` quarters of the last binary place
  let quarter := exponent - 2
  let num := tenPow place.toNat * twoPow (-quarter).toNat
  let den := tenPow (-place).toNat * twoPow quarter.toNat
  let value := 4 * mantissa * den
  let below := value / num
  let above := below + 1
  let interval := Interval.of mantissa exponent
  let belowReads := interval.contains (below * num) den && below != 0
  let aboveReads := interval.contains (above * num) den
  let nearer := value - below * num < above * num - value ||
    value - below * num == above * num - value && below % 2 == 0
  if belowReads && (nearer || !aboveReads) then some ⟨below, place⟩
  else if aboveReads then some ⟨above, place⟩
  else none

def firstGrid (mantissa : Nat) (exponent place : Int) : Nat → Digits
  | 0 => ⟨Binary64.numerator mantissa exponent, 0⟩
  | count + 1 =>
    match onGrid? mantissa exponent place with
    | some digits => digits
    | none => firstGrid mantissa exponent (place - 1) count

/-- The shortest decimal that reads back as the positive number `mantissa * 2 ^ exponent`. Seventeen
digits always suffice. -/
def shortest (mantissa : Nat) (exponent : Int) : Digits :=
  let place := leadingPlace (Binary64.numerator mantissa exponent) (Binary64.denominator exponent)
  (firstGrid mantissa exponent place 18).strip 18

end LinkedSheet.Decimal
