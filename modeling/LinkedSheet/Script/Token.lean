import LinkedSheet.Binary64
import LinkedSheet.Text.Blank
import LinkedSheet.Text.Digits
import LinkedSheet.Word

/-!
Tokens of the script language and reading them from a source text. Blanks and comments separate
tokens and leave no trace. A text in back quotes may hold code between `$` and braces: its pieces
become tokens of their own, and the braces of the code are counted to find its end.

A minus directly before a digit belongs to the number wherever an expression can start, so that the
least whole number can be written. A text that goes on in the next line leaves out the blanks of
that line up to the column of its opening quote; reading therefore keeps count of columns.
-/
namespace LinkedSheet.Script

inductive Token where
  | int (n : Int)
  | float (x : Float)
  | char (c : Char)
  | text (s : String)
  | name (s : String)
  /-- A name that only stands for a function, directly before its arguments. -/
  | functionName (s : String)
  /-- A word of the language. -/
  | word (s : String)
  /-- Punctuation or an operator. -/
  | mark (s : String)
  /-- The opening back quote of a template. -/
  | templateStart
  /-- Literal characters of a template. -/
  | templateText (s : String)
  /-- The start of code inside a template. -/
  | codeStart
  | codeEnd
  | templateEnd
deriving BEq, Inhabited

namespace Token

def words : List String :=
  ["let", "const", "fn", "if", "else", "while", "loop", "for", "in", "return", "throw", "true",
    "false", "break", "continue", "this"]

/-- Words that the language keeps for itself and gives no meaning here. -/
def reservedWords : List String :=
  ["do", "until", "switch", "try", "catch", "import", "export", "as", "private", "var", "static",
    "shared", "goto", "match", "case", "public", "protected", "new", "use", "with", "is", "module",
    "package", "super", "spawn", "thread", "go", "sync", "async", "await", "yield", "default",
    "void", "null", "nil"]

def functionNames : List String :=
  ["print", "debug", "type_of", "eval", "Fn", "call", "curry", "is_def_var", "is_def_fn",
    "is_shared"]

/-- Punctuation and operators; a longer one comes before each of its beginnings. -/
def marks : List String :=
  ["..=", "...", "**=", "<<=", ">>=", "===", "!==", "==", "!=", "<=", ">=", "&&", "||", "..", "+=",
    "-=", "*=", "/=", "%=", "#\x7b", "=>", "::", ":=", "**", "<<", ">>", "??", "?.", "?[", "|=",
    "&=", "^=", "->", "<-", "++", "--", "+", "-", "*", "/", "%", "=", "<", ">", "!", "(", ")", "[",
    "]", "\x7b", "\x7d", ",", ";", ":", ".", "|", "&", "^"]

def leadingWords : List String :=
  ["if", "while", "in", "return", "throw"]

def closingMarks : List String :=
  [")", "]", "\x7d", "."]

/-- Whether a minus directly before a digit belongs to the number if it stands behind this token. -/
def precedesSign : Token → Bool
  | word w => leadingWords.contains w
  | mark m => !closingMarks.contains m
  | codeStart => true
  | _ => false

def isBlank (c : Char) : Bool :=
  c == ' ' || c == '\t' || c == '\n' || c == '\x0C' || c == '\r'

def isNameStart (c : Char) : Bool :=
  c.isAlpha || c == '_'

def isNameRest (c : Char) : Bool :=
  c.isAlphanum || c == '_'

/-- A name holds a letter, and no digit before its first letter. -/
def isName (name : List Char) : Bool :=
  match name.dropWhile (· == '_') with
  | c :: _ => c.isAlpha
  | [] => false

def nextColumn (column : Nat) (c : Char) : Nat :=
  if c == '\n' then 0 else column + 1

def skipLine (column : Nat) : List Char → Nat × List Char
  | '\r' :: '\n' :: rest => (0, rest)
  | '\r' :: rest => (0, rest)
  | '\n' :: rest => (0, rest)
  | _ :: rest => skipLine (column + 1) rest
  | [] => (column, [])

/-- What follows a comment between slash-star and star-slash; such comments nest, and one that is
not closed extends to the end. -/
def skipComment (depth column : Nat) : List Char → Nat × List Char
  | '*' :: '/' :: rest =>
    match depth with
    | 0 => (column + 2, rest)
    | depth + 1 => skipComment depth (column + 2) rest
  | '/' :: '*' :: rest => skipComment (depth + 1) (column + 2) rest
  | c :: rest => skipComment depth (nextColumn column c) rest
  | [] => (column, [])

def isDigitOrGap (c : Char) : Bool :=
  c.isDigit || c == '_'

def isHexOrGap (c : Char) : Bool :=
  (Text.hexValue? c).isSome || c == '_'

def withoutGaps (digits : List Char) : List Char :=
  digits.filter (· != '_')

def signed (n : Nat) : Option Int :=
  if n < Word.bound then some (Word.signed n) else none

def base? (c : Char) : Option Nat :=
  if c == 'x' || c == 'X' then some 16
  else if c == 'o' || c == 'O' then some 8
  else if c == 'b' || c == 'B' then some 2
  else none

/-- The base of the number at the start of the text, if it is written with one, and the number of
characters before its digits. -/
def scanBase? : List Char → Option (Nat × Nat)
  | '0' :: rest =>
    let gaps := (rest.takeWhile (· == '_')).length
    match rest.drop gaps with
    | c :: _ => (base? c).map (·, gaps + 2)
    | [] => none
  | _ => none

def scanBased (base : Nat) (cs : List Char) : Option (Token × Nat) := do
  let digits := cs.takeWhile isHexOrGap
  let n ← Text.digitsValue? base (withoutGaps digits)
  return (.int (← signed n), digits.length)

/-- The decimal exponent at the start of the text, if there is one, and its length. An exponent with
a sign has to have digits. -/
def scanExponent (cs : List Char) : Option (Option Int × Nat) :=
  let read (negative : Bool) (lead : Nat) (cs : List Char) : Option (Option Int × Nat) := do
    let digits := cs.takeWhile isDigitOrGap
    let n ← Text.digitsValue? 10 (withoutGaps digits)
    return (some (if negative then -n else n), lead + digits.length)
  match cs with
  | e :: '-' :: rest => if e == 'e' || e == 'E' then read true 2 rest else some (none, 0)
  | e :: '+' :: rest => if e == 'e' || e == 'E' then read false 2 rest else some (none, 0)
  | e :: c :: rest =>
    if (e == 'e' || e == 'E') && c.isDigit then read false 1 (c :: rest) else some (none, 0)
  | _ => some (none, 0)

/-- The fraction at the start of the text, if there is one, and its length: a point with a digit
behind it, or a point behind which neither a name, nor a second point, nor an underscore can be
read. -/
def scanFraction (cs : List Char) : Option (List Char) × Nat :=
  match cs with
  | '.' :: c :: rest =>
    if c.isDigit then
      let digits := (c :: rest).takeWhile isDigitOrGap
      (some (withoutGaps digits), 1 + digits.length)
    else if isNameStart c || c == '.' then (none, 0)
    else (some [], 1)
  | _ => (none, 0)

/-- A decimal number and its length. A whole number beyond the signed 64-bit range becomes a
floating-point one. -/
def scanDecimal (negative : Bool) (cs : List Char) : Option (Token × Nat) := do
  let whole := cs.takeWhile isDigitOrGap
  let rest := cs.drop whole.length
  let (fraction, length) := scanFraction rest
  let (exponent, more) ← scanExponent (rest.drop length)
  let places := fraction.getD []
  let digits ← Text.digitsValue? 10 (withoutGaps whole ++ places)
  let n : Int := if negative then -digits else digits
  let number : Token :=
    if fraction.isNone && exponent.isNone && Word.fits n then .int n
    else .float (Binary64.ofDecimal negative digits (exponent.getD 0 - places.length))
  return (number, whole.length + length + more)

/-- A number, from its first digit on, and its length. A sign goes with decimal numbers only. -/
def scanNumber (negative : Bool) (cs : List Char) : Option (Token × Nat) :=
  match scanBase? cs with
  | some (base, skip) =>
    if negative then none
    else (scanBased base (cs.drop skip)).map fun number => (number.1, skip + number.2)
  | none => scanDecimal negative cs

/-- The characters up to the closing quote, escapes resolved, the column there, and what follows. A
quote is escaped by a backslash or by doubling it. A line break ends the text without closing it,
except behind a backslash in a text that may go on: it goes on in the next line, and blanks up to
the column `start` of that line are left out. `margin` is that column while they are, or zero. -/
def scanQuoted (quote : Char) (goesOn : Bool) (start margin column : Nat) (read : List Char) :
    List Char → Option (List Char × Nat × List Char)
  | [] => none
  | '\\' :: 'x' :: a :: b :: rest => do
    let c ← Text.charOfHex? [a, b]
    scanQuoted quote goesOn start margin (column + 4) (c :: read) rest
  | '\\' :: 'u' :: a :: b :: c :: d :: rest => do
    let c ← Text.charOfHex? [a, b, c, d]
    scanQuoted quote goesOn start margin (column + 6) (c :: read) rest
  | '\\' :: 'U' :: a :: b :: c :: d :: e :: f :: g :: h :: rest => do
    let c ← Text.charOfHex? [a, b, c, d, e, f, g, h]
    scanQuoted quote goesOn start margin (column + 10) (c :: read) rest
  | '\\' :: '\n' :: rest => if goesOn then scanQuoted quote goesOn start start 0 read rest else none
  | '\\' :: '\r' :: '\n' :: rest =>
    if goesOn then scanQuoted quote goesOn start start 0 read rest else none
  | '\\' :: c :: rest =>
    if c == 'n' then scanQuoted quote goesOn start margin (column + 2) ('\n' :: read) rest
    else if c == 't' then scanQuoted quote goesOn start margin (column + 2) ('\t' :: read) rest
    else if c == 'r' then scanQuoted quote goesOn start margin (column + 2) ('\r' :: read) rest
    else if c == '\\' || c == quote then
      scanQuoted quote goesOn start margin (column + 2) (c :: read) rest
    else none
  | '\r' :: '\n' :: _ => none
  | '\n' :: _ => none
  | c :: rest =>
    if c == quote then
      match rest with
      | d :: rest' =>
        if d == quote then scanQuoted quote goesOn start 0 (column + 2) (d :: read) rest'
        else some (read.reverse, column + 1, d :: rest')
      | [] => some (read.reverse, column + 1, [])
    else if column < margin && Text.isBlank c then
      scanQuoted quote goesOn start margin (column + 1) read rest
    else scanQuoted quote goesOn start 0 (column + 1) (c :: read) rest

/-- The literal characters of a template up to its end or to the next code, whether code comes, the
column there, and what follows. A backslash keeps code from starting. -/
def scanTemplate (column : Nat) (read : List Char) :
    List Char → Option (List Char × Bool × Nat × List Char)
  | [] => none
  | '`' :: '`' :: rest => scanTemplate (column + 2) ('`' :: read) rest
  | '`' :: rest => some (read.reverse, false, column + 1, rest)
  | '$' :: '\x7b' :: rest => some (read.reverse, true, column + 2, rest)
  | '\\' :: '$' :: '\x7b' :: rest => scanTemplate (column + 3) ('\x7b' :: '$' :: read) rest
  | '\r' :: '\n' :: rest => scanTemplate 0 ('\n' :: read) rest
  | c :: rest => scanTemplate (nextColumn column c) (c :: read) rest

/-- A line break right behind the opening back quote is not part of the template. -/
def dropLineBreak (column : Nat) : List Char → Nat × List Char
  | '\r' :: '\n' :: rest => (0, rest)
  | '\r' :: rest => (0, rest)
  | '\n' :: rest => (0, rest)
  | rest => (column, rest)

def mark? (cs : List Char) : Option (String × List Char) :=
  marks.findSome? fun m =>
    if m.toList.isPrefixOf cs then some (m, cs.drop m.length) else none

def ofName? (name : List Char) : Option Token :=
  let s := String.ofList name
  if words.contains s then some (.word s)
  else if functionNames.contains s then some (.functionName s)
  else if reservedWords.contains s || !isName name then none
  else some (.name s)

/-- Where reading stands: the column of the last character, the number of braces that are open in
the code of each open template, the tokens so far, last first, and the text that is left. -/
structure Scanner where
  column : Nat
  braces : List Nat
  tokens : List Token
  rest : List Char

namespace Scanner

def start (source : String) : Scanner := ⟨0, [], [], source.toList⟩

def push (s : Scanner) (token : Token) (length : Nat) (rest : List Char) : Scanner :=
  { s with column := s.column + length, tokens := token :: s.tokens, rest }

def template? (s : Scanner) : Option Scanner := do
  let (chars, code, column, rest) ← scanTemplate s.column [] s.rest
  let tokens := Token.templateText (String.ofList chars) :: s.tokens
  if code then return ⟨column, 0 :: s.braces, Token.codeStart :: tokens, rest⟩
  else return ⟨column, s.braces, Token.templateEnd :: tokens, rest⟩

def number? (s : Scanner) (negative : Bool) (sign : Nat) (cs : List Char) : Option Scanner := do
  let (number, length) ← scanNumber negative cs
  return s.push number (sign + length) (cs.drop length)

def mark? (s : Scanner) : Option Scanner := do
  let (m, rest) ← Token.mark? s.rest
  let next := s.push (.mark m) m.length rest
  match s.braces with
  | [] => return next
  | inner :: outer =>
    if m = "\x7d" then
      if inner = 0 then
        template? { next with braces := outer, tokens := Token.codeEnd :: s.tokens }
      else return { next with braces := (inner - 1) :: outer }
    else if m = "\x7b" || m = "#\x7b" then return { next with braces := (inner + 1) :: outer }
    else return next

def signs (s : Scanner) : Bool :=
  match s.tokens with
  | [] => true
  | token :: _ => token.precedesSign

def step (s : Scanner) : Option Scanner :=
  match s.rest with
  | [] => none
  | '/' :: '/' :: rest =>
    let (column, rest) := skipLine s.column rest
    some { s with column, rest }
  | '/' :: '*' :: rest =>
    let (column, rest) := skipComment 0 (s.column + 2) rest
    some { s with column, rest }
  | '"' :: rest => do
    let (chars, column, rest) ← scanQuoted '"' true (s.column + 1) 0 (s.column + 1) [] rest
    return { s with column, tokens := .text (String.ofList chars) :: s.tokens, rest }
  | '\'' :: '\'' :: _ => none
  | '\'' :: rest => do
    let (chars, column, rest) ← scanQuoted '\'' false 0 0 (s.column + 1) [] rest
    match chars with
    | [c] => return { s with column, tokens := .char c :: s.tokens, rest }
    | _ => none
  | '`' :: rest =>
    let (column, rest) := dropLineBreak (s.column + 1) rest
    template? { s with column, tokens := Token.templateStart :: s.tokens, rest }
  | '-' :: c :: rest =>
    if c.isDigit && s.signs then s.number? true 1 (c :: rest) else s.mark?
  | c :: rest =>
    if isBlank c then some { s with column := nextColumn s.column c, rest }
    else if c.isDigit then s.number? false 0 (c :: rest)
    else if isNameStart c then do
      let name := (c :: rest).takeWhile isNameRest
      return s.push (← ofName? name) name.length ((c :: rest).dropWhile isNameRest)
    else s.mark?

def run : Nat → Scanner → Option (List Token)
  | _, ⟨_, [], tokens, []⟩ => some tokens.reverse
  | 0, _ => none
  | fuel + 1, s =>
    match s.step with
    | some s => run fuel s
    | none => none

end Scanner

/-- The tokens of a source text, or none if it holds something that is no token. -/
def scan (source : String) : Option (List Token) :=
  (Scanner.start source).run (source.length + 1)

end Token

end LinkedSheet.Script
