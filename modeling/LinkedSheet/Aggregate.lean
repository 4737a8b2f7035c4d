import LinkedSheet.Binary64

/-!
Reductions of a list of numbers. Sums run from left to right and start from negative zero, so the
sum of no numbers is negative zero; the extremes pass over every NaN.
-/
namespace LinkedSheet.Aggregate

def sum (xs : List Float) : Float :=
  xs.foldl (· + ·) (-0.0)

def mean (xs : List Float) : Float :=
  sum xs / Binary64.ofInt xs.length

def smaller (a b : Float) : Float :=
  if a.isNaN then b else if b.isNaN then a else if b < a then b else a

def larger (a b : Float) : Float :=
  if a.isNaN then b else if b.isNaN then a else if a < b then b else a

def infinity : Float :=
  Float.ofBits 0x7ff0000000000000

def least (xs : List Float) : Float :=
  xs.foldl smaller infinity

def greatest (xs : List Float) : Float :=
  xs.foldl larger (-infinity)

end LinkedSheet.Aggregate
