import LinkedSheet.Binary64
import LinkedSheet.Text.Digits
import LinkedSheet.Toml.Item
import LinkedSheet.Word

/-!
Scalars that are written without quotes: truth values, numbers, dates and times. A scalar is read as
far as it goes, and whatever follows it is left: of `01` the zero is read. But once a part has
started that needs a certain continuation, as an exponent or a date does, there is no scalar without
it. Single underscores may stand between the digits of a number.
-/
namespace LinkedSheet.Toml.Number

/-- Digits without the single underscores between them, and what follows; behind an underscore there
has to be a digit. `read` holds the digits so far, last first. -/
def digits? (isDigit : Char → Bool) (read : List Char) :
    (afterDigit : Bool) → List Char → Option (List Char × List Char)
  | afterDigit, [] => if afterDigit then some (read.reverse, []) else none
  | afterDigit, c :: rest =>
    if isDigit c then digits? isDigit (c :: read) true rest
    else if c == '_' && afterDigit then digits? isDigit read false rest
    else if afterDigit then some (read.reverse, c :: rest)
    else none

def decimalDigits? (cs : List Char) : Option (List Char × List Char) :=
  digits? Char.isDigit [] false cs

def wholeDigits? : List Char → Option (List Char × List Char)
  | '0' :: rest => some (['0'], rest)
  | cs => decimalDigits? cs

def bounded? (n : Int) : Option Scalar :=
  if Word.fits n then some (.integer n) else none

def isDigitOf (base : Nat) (c : Char) : Bool :=
  match Text.hexValue? c with
  | some digit => digit < base
  | none => false

def based? (base : Nat) (cs : List Char) : Option (Scalar × List Char) := do
  let (digits, rest) ← digits? (isDigitOf base) [] false cs
  return (← bounded? (← Text.digitsValue? base digits), rest)

def exponent? (cs : List Char) : Option (Int × List Char) := do
  let (negative, cs) :=
    match cs with
    | '-' :: rest => (true, rest)
    | '+' :: rest => (false, rest)
    | rest => (false, rest)
  let (digits, rest) ← decimalDigits? cs
  let n ← Text.digitsValue? 10 digits
  return (if negative then -n else n, rest)

/-- A number with a fraction or an exponent. One too large to be finite is refused, unless it is
negative. -/
def float? (negative : Bool) (whole fraction : List Char) (exponent : Int) : Option Scalar := do
  let digits ← Text.digitsValue? 10 (whole ++ fraction)
  let x := Binary64.ofDecimal negative digits (exponent - fraction.length)
  if Binary64.ofFloat x = .infinite false then none else some (.float x)

def optionalExponent? : List Char → Option (Option Int × List Char)
  | 'e' :: rest => do
    let (exponent, rest) ← exponent? rest
    return (some exponent, rest)
  | 'E' :: rest => do
    let (exponent, rest) ← exponent? rest
    return (some exponent, rest)
  | rest => some (none, rest)

def decimal? (negative : Bool) (cs : List Char) : Option (Scalar × List Char) := do
  let (whole, rest) ← wholeDigits? cs
  match rest with
  | '.' :: rest =>
    let (fraction, rest) ← decimalDigits? rest
    let (exponent, rest) ← optionalExponent? rest
    return (← float? negative whole fraction (exponent.getD 0), rest)
  | rest =>
    match ← optionalExponent? rest with
    | (some exponent, rest) => return (← float? negative whole [] exponent, rest)
    | (none, rest) =>
      let n ← Text.digitsValue? 10 whole
      return (← bounded? (if negative then -(n : Int) else n), rest)

def unsigned? (negative : Bool) : List Char → Option (Scalar × List Char)
  | 'i' :: 'n' :: 'f' :: rest =>
    some (.float (Float.ofBits (Binary64.withSign negative Binary64.infinityBits)), rest)
  | 'n' :: 'a' :: 'n' :: rest =>
    some (.float (Float.ofBits (Binary64.withSign negative 0x7ff8000000000000)), rest)
  | cs => decimal? negative cs

def number? : List Char → Option (Scalar × List Char)
  | '0' :: 'x' :: rest => based? 16 rest
  | '0' :: 'o' :: rest => based? 8 rest
  | '0' :: 'b' :: rest => based? 2 rest
  | '+' :: rest => unsigned? false rest
  | '-' :: rest => unsigned? true rest
  | rest => unsigned? false rest

def isField (digits : List Char) (least most : Nat) : Bool :=
  digits.all Char.isDigit &&
    match Text.digitsValue? 10 digits with
    | some n => least ≤ n && n ≤ most
    | none => false

def daysIn (year month : Nat) : Nat :=
  if month = 2 then
    if year % 4 = 0 ∧ (year % 100 ≠ 0 ∨ year % 400 = 0) then 29 else 28
  else if month = 4 ∨ month = 6 ∨ month = 9 ∨ month = 11 then 30
  else 31

/-- Four digits and a hyphen have to be continued to a date. -/
def startsDate : List Char → Bool
  | a :: b :: c :: d :: '-' :: _ => [a, b, c, d].all Char.isDigit
  | _ => false

/-- Two digits for an hour and a colon have to be continued to a time of day. -/
def startsTime : List Char → Bool
  | a :: b :: ':' :: _ => isField [a, b] 0 23
  | _ => false

def date? : List Char → Option (List Char)
  | a :: b :: c :: d :: '-' :: e :: f :: '-' :: g :: h :: rest => do
    let year ← Text.digitsValue? 10 [a, b, c, d]
    let month ← Text.digitsValue? 10 [e, f]
    if isField [e, f] 1 12 && isField [g, h] 1 (daysIn year month) then some rest else none
  | _ => none

def time? : List Char → Option (List Char)
  | _ :: _ :: ':' :: c :: d :: ':' :: e :: f :: rest =>
    if isField [c, d] 0 59 && isField [e, f] 0 60 then
      match rest with
      | '.' :: digit :: fraction =>
        some (if digit.isDigit then fraction.dropWhile Char.isDigit else rest)
      | rest => some rest
    else none
  | _ => none

def zone? : List Char → Option (List Char)
  | 'Z' :: rest => some rest
  | 'z' :: rest => some rest
  | '+' :: rest => offset? rest
  | '-' :: rest => offset? rest
  | rest => some rest
where
  offset? : List Char → Option (List Char)
    | a :: b :: ':' :: c :: d :: rest =>
      if isField [a, b] 0 23 && isField [c, d] 0 59 then some rest else none
    | _ => none

/-- What follows a date and the time of day that may stand behind it. -/
def dateTime? (cs : List Char) : Option (List Char) := do
  match ← date? cs with
  | between :: time =>
    if (between == 'T' || between == 't' || between == ' ') && startsTime time then
      zone? (← time? time)
    else some (between :: time)
  | [] => some []

def read? : List Char → Option (Scalar × List Char)
  | 't' :: 'r' :: 'u' :: 'e' :: rest => some (.boolean true, rest)
  | 'f' :: 'a' :: 'l' :: 's' :: 'e' :: rest => some (.boolean false, rest)
  | cs =>
    if startsDate cs then (dateTime? cs).map (.datetime, ·)
    else if startsTime cs then (time? cs).map (.datetime, ·)
    else number? cs

end LinkedSheet.Toml.Number
