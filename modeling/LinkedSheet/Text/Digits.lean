/-!
Reading digits: the value of a digit in bases up to sixteen, of a list of digits, and the character
that hexadecimal digits name. A list of digits has a value only if every digit is below the base.
-/
namespace LinkedSheet.Text

def hexValue? (c : Char) : Option Nat :=
  if c.isDigit then some (c.toNat - '0'.toNat)
  else if 'a' ≤ c && c ≤ 'f' then some (c.toNat - 'a'.toNat + 10)
  else if 'A' ≤ c && c ≤ 'F' then some (c.toNat - 'A'.toNat + 10)
  else none

/-- The value of digits in a base, if there is a digit and all of them are below the base. -/
def digitsValue? (base : Nat) : List Char → Option Nat
  | [] => none
  | digits => digits.foldl (fun value c => do
      let value ← value
      let digit ← hexValue? c
      if digit < base then some (value * base + digit) else none) (some 0)

def charOfHex? (digits : List Char) : Option Char := do
  let n ← digitsValue? 16 digits
  if n.isValidChar then some (Char.ofNat n) else none

end LinkedSheet.Text
