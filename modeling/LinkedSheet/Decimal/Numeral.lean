/-!
Which texts are numbers: an optional sign, then digits with or without a point among, before or
behind them, then an optional exponent; or one of the words for infinity and for no number, in any
case.
-/
namespace LinkedSheet.Decimal

def unsigned : List Char → List Char
  | '+' :: rest => rest
  | '-' :: rest => rest
  | cs => cs

def isExponent : List Char → Bool
  | [] => true
  | c :: rest =>
    let digits := unsigned rest
    (c == 'e' || c == 'E') && !digits.isEmpty && digits.all Char.isDigit

/-- Digits with at most one point, at least one digit, and an exponent or nothing behind. -/
def isDecimal (cs : List Char) : Bool :=
  let whole := cs.takeWhile Char.isDigit
  match cs.dropWhile Char.isDigit with
  | '.' :: rest =>
    (!whole.isEmpty || !(rest.takeWhile Char.isDigit).isEmpty) &&
      isExponent (rest.dropWhile Char.isDigit)
  | rest => !whole.isEmpty && isExponent rest

def specialWords : List (List Char) :=
  [['i', 'n', 'f'], ['i', 'n', 'f', 'i', 'n', 'i', 't', 'y'], ['n', 'a', 'n']]

/-- Whether the text reads as a floating-point number. -/
def isNumeral (cs : List Char) : Bool :=
  let cs := unsigned cs
  isDecimal cs || specialWords.contains (cs.map Char.toLower)

end LinkedSheet.Decimal
