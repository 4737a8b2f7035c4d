import LinkedSheet.Decimal.Shortest

/-!
Writing documents in the configuration language. Fields come first, then the tables, each under its
header and one empty line apart. Names are written bare, so they hold letters, digits, underscores
and dashes only.

A string takes the first form that fits: double quotes, single quotes, three double quotes, three
single quotes; if none can hold it as it is, it is escaped in double quotes, three of them if it
holds a line break. A floating-point number has the fewest digits that read back, never an exponent
and always a fraction.
-/
namespace LinkedSheet.Toml

/-- A value as it is written: arrays are in one piece, and tables have headers of their own. -/
inductive Literal where
  | string (s : String)
  | integer (n : Int)
  | float (x : Float)
  | array (items : List Literal)

structure Part where
  /-- Whether the table is an element of an array of tables. -/
  inArray : Bool
  path : List String
  fields : List (String × Literal)

namespace Writer

/-- The control characters that only an escape can write; tabs and line feeds are none of them. -/
def isControl (c : Char) : Bool :=
  (c < ' ' && c != '\t' && c != '\n') || c == '\x7f'

def hasThree (c : Char) : List Char → Bool
  | x :: y :: z :: rest =>
    (x == c && y == c && z == c) || hasThree c (y :: z :: rest)
  | _ => false

def hexDigit (n : Nat) : Char :=
  (Nat.digitChar n).toUpper

/-- A character other than a quote in double quotes. `several` tells whether the string goes over
several lines, so that a line feed stands for itself. -/
def escaped (several : Bool) (c : Char) : List Char :=
  if c = '\x08' then ['\\', 'b']
  else if c = '\t' then ['\\', 't']
  else if c = '\n' then if several then ['\n'] else ['\\', 'n']
  else if c = '\x0c' then ['\\', 'f']
  else if c = '\r' then ['\\', 'r']
  else if c = '\\' then ['\\', '\\']
  else if isControl c then
    ['\\', 'u', '0', '0', hexDigit (c.toNat / 16), hexDigit (c.toNat % 16)]
  else [c]

/-- The characters between double quotes; `written` holds those so far, last first, and `run` counts
the quotes right before. On one line every quote is escaped, and else every third one in a row. -/
def escapeAll (several : Bool) (written : List Char) : (run : Nat) → List Char → List Char
  | _, [] => written.reverse
  | run, c :: rest =>
    if c = '"' then
      if run < (if several then 2 else 0) then escapeAll several ('"' :: written) (run + 1) rest
      else escapeAll several ('"' :: '\\' :: written) 0 rest
    else escapeAll several ((escaped several c).reverse ++ written) 0 rest

/-- A line break right behind three opening quotes is not part of the string, so one is put there
if the string holds a line break. -/
def lineStart (cs : List Char) : List Char :=
  if cs.contains '\n' then ['\n'] else []

def string (cs : List Char) : List Char :=
  let double := ['"', '"', '"']
  let single := ['\'', '\'', '\'']
  if !cs.any isControl && !cs.contains '\\' && !cs.contains '"' && !cs.contains '\n' then
    '"' :: escapeAll false [] 0 cs ++ ['"']
  else if !cs.any isControl && !cs.contains '\'' && !cs.contains '\n' then
    '\'' :: cs ++ ['\'']
  else if !cs.any isControl && !cs.contains '\\' && !hasThree '"' cs then
    double ++ lineStart cs ++ escapeAll true [] 0 cs ++ double
  else if !cs.any isControl && !hasThree '\'' cs then
    single ++ lineStart cs ++ cs ++ single
  else if cs.contains '\n' then double ++ lineStart cs ++ escapeAll true [] 0 cs ++ double
  else '"' :: escapeAll false [] 0 cs ++ ['"']

def sign (negative : Bool) : List Char :=
  if negative then ['-'] else []

/-- Digits with a point, and a zero behind it if there is no fraction. -/
def withFraction (cs : List Char) : List Char :=
  if cs.contains '.' then cs else cs ++ ['.', '0']

def binary : Binary64 → List Char
  | .notANumber => ['n', 'a', 'n']
  | .infinite negative => sign negative ++ ['i', 'n', 'f']
  | .finite negative mantissa exponent =>
    sign negative ++
      if mantissa = 0 then ['0', '.', '0']
      else withFraction (Decimal.shortest mantissa exponent).positional.toList

def float (x : Float) : List Char :=
  binary (Binary64.ofFloat x)

def integer (n : Int) : List Char :=
  sign (n < 0) ++ Nat.toDigits 10 n.natAbs

mutual

def literal : Literal → List Char
  | .string s => string s.toList
  | .integer n => integer n
  | .float x => float x
  | .array items => '[' :: elements items

def elements : List Literal → List Char
  | [] => [']']
  | [item] => literal item ++ [']']
  | item :: rest => literal item ++ ',' :: ' ' :: elements rest

end

def field (f : String × Literal) : List Char :=
  f.1.toList ++ ' ' :: '=' :: ' ' :: literal f.2 ++ ['\n']

def path (names : List String) : List Char :=
  (".".intercalate names).toList

def header (part : Part) : List Char :=
  if part.inArray then '[' :: '[' :: path part.path ++ [']', ']', '\n']
  else '[' :: path part.path ++ [']', '\n']

def part (p : Part) : List Char :=
  header p ++ p.fields.flatMap field

end Writer

def write (fields : List (String × Literal)) (parts : List Part) : String :=
  let start := fields.flatMap Writer.field
  let tables := parts.map Writer.part
  String.ofList
    (if fields.isEmpty then ['\n'].intercalate tables else ['\n'].intercalate (start :: tables))

end LinkedSheet.Toml
