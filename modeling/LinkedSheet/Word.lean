/-!
Numbers of 64 bits: their bounds, and the signed reading of a number. Powers of two and ten are
given by functions, so that a statement can speak of one of them by name.
-/
namespace LinkedSheet

def twoPow (n : Nat) : Nat := Nat.pow 2 n

def tenPow (n : Nat) : Nat := Nat.pow 10 n

namespace Word

def bound : Nat := 18446744073709551616

def signBound : Nat := 9223372036854775808

/-- The signed number that has the last 64 bits of a number. -/
def signed (n : Int) : Int := Int.bmod n bound

def fits (n : Int) : Bool := -(signBound : Int) ≤ n && n < signBound

end Word

end LinkedSheet
