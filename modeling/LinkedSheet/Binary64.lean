import LinkedSheet.Decimal.Rounding
import LinkedSheet.Word

/-!
The content of a 64-bit binary floating-point number as an exact ratio, and the nearest such number
to an exact ratio. All arithmetic here is on natural numbers; `Float` values enter and leave through
their bit patterns.
-/
namespace LinkedSheet

/-- What a 64-bit pattern stands for; a finite one is `± mantissa * 2 ^ exponent`. -/
inductive Binary64 where
  | notANumber
  | infinite (negative : Bool)
  | finite (negative : Bool) (mantissa : Nat) (exponent : Int)
deriving DecidableEq, Repr

namespace Binary64

def leadingBit : Nat := 4503599627370496

def ofBits (bits : UInt64) : Binary64 :=
  let pattern := bits.toNat
  let negative := pattern / Word.signBound == 1
  let field : Nat := pattern / leadingBit % 2048
  let fraction := pattern % leadingBit
  if field = 2047 then
    if fraction = 0 then .infinite negative else .notANumber
  else if field = 0 then .finite negative fraction (-1074)
  else .finite negative (fraction + leadingBit) ((field : Int) - 1075)

def ofFloat (x : Float) : Binary64 :=
  ofBits x.toBits

/-- Numerator of `mantissa * 2 ^ exponent` over `denominator exponent`. -/
def numerator (mantissa : Nat) (exponent : Int) : Nat :=
  mantissa * twoPow exponent.toNat

def denominator (exponent : Int) : Nat :=
  twoPow (-exponent).toNat

def infinityBits : Nat := 2047 * leadingBit

/-- The exponent of the last place when `num / den` is written with 53 binary digits, or the least
exponent there is. -/
def lastPlace (num den : Nat) : Int :=
  let guess : Int := (num.log2 : Int) - den.log2 - 52
  let low := num * twoPow (-guess).toNat < leadingBit * (den * twoPow guess.toNat)
  max (if low then guess - 1 else guess) (-1074)

/-- The magnitude bits of the number nearest to `num / den`, a tie going to the even mantissa and
an overflow to infinity. A rounded mantissa of `2 ^ 53` carries into the exponent field. -/
def nearestMagnitude (num den : Nat) : Nat :=
  if num = 0 then 0
  else
    let place := lastPlace num den
    let mantissa :=
      Decimal.roundHalfEven (num * twoPow (-place).toNat) (den * twoPow place.toNat)
    min ((place + 1074).toNat * leadingBit + mantissa) infinityBits

def withSign (negative : Bool) (magnitude : Nat) : UInt64 :=
  UInt64.ofNat (if negative then magnitude + Word.signBound else magnitude)

def nearest (negative : Bool) (num den : Nat) : Float :=
  Float.ofBits (withSign negative (nearestMagnitude num den))

def ofInt (n : Int) : Float :=
  nearest (n < 0) n.natAbs 1

/-- The number nearest to `± digits * 10 ^ exponent`. Exponents so far out that the result is zero
or infinite are not expanded. -/
def ofDecimal (negative : Bool) (digits : Nat) (exponent : Int) : Float :=
  if digits = 0 then Float.ofBits (withSign negative 0)
  else
    let size : Int := (Nat.toDigits 10 digits).length + exponent
    if size < -400 then Float.ofBits (withSign negative 0)
    else if size > 400 then Float.ofBits (withSign negative infinityBits)
    else nearest negative (digits * tenPow exponent.toNat) (tenPow (-exponent).toNat)

/-- The remainder of a division that truncates, with the sign of the dividend; it is exact. -/
def remainder (x y : Float) : Float :=
  match ofFloat x, ofFloat y with
  | .finite negative m e, .finite _ n f =>
    if n = 0 then Float.ofBits 0x7ff8000000000000
    else
      let place := min e f
      let dividend := m * twoPow (e - place).toNat
      let divisor := n * twoPow (f - place).toNat
      let rest := dividend % divisor
      nearest negative (numerator rest place) (denominator place)
  | .finite .., .infinite _ => x
  | _, _ => Float.ofBits 0x7ff8000000000000

end Binary64

end LinkedSheet
