import LinkedSheet.Script.Expr
import LinkedSheet.Script.Token

/-!
Reading a program from tokens. Every reader takes the tokens that are left and gives back what it
read and the tokens behind it, or nothing if the tokens do not fit. The readers call one another
with less and less fuel; a chain of calls that uses up no token is shorter than `callsPerToken`, so
the fuel that `ofTokens?` starts with never runs out before the tokens do.

A program may be nested only so deep. Each reader knows its spot: how deep it stands, and which
words have a meaning there.
-/
namespace LinkedSheet.Script

namespace Expr

def isCondition : Expr → Bool
  | unit => false
  | int _ => false
  | float _ => false
  | char _ => false
  | text _ => false
  | range .. => false
  | template _ => false
  | array _ => false
  | map .. => false
  | closure _ [] _ => false
  | _ => true

/-- A literal other than a text, an array or a range is nothing to loop over. -/
def isIterable : Expr → Bool
  | unit => false
  | bool _ => false
  | int _ => false
  | float _ => false
  | char _ => false
  | map .. => false
  | _ => true

def isNoPosition : Expr → Bool
  | unit => true
  | bool _ => true
  | float _ => true
  | char _ => true
  | both .. => true
  | either .. => true
  | _ => false

def isText : Expr → Bool
  | text _ => true
  | template _ => true
  | _ => false

/-- Whether a literal may be followed by this position: maps have texts for keys, while arrays,
texts and whole numbers have numbered elements. -/
def admits : (object position : Expr) → Bool
  | map .., .int _ => false
  | map .., position => !position.isNoPosition
  | int _, position => !position.isNoPosition && !position.isText
  | array _, position => !position.isNoPosition && !position.isText
  | text _, position => !position.isNoPosition && !position.isText
  | template _, position => !position.isNoPosition && !position.isText
  | _, _ => true

/-- Variables, and elements and properties of them, can be stored into. -/
def isTarget : Expr → Bool
  | name _ => true
  | chain (.name _) links => links.all fun link =>
    match link with
    | .method .. => false
    | _ => true
  | _ => false

end Expr

def Stmt.endsWithBlock : Stmt → Bool
  | .choice .. => true
  | .block _ => true
  | .repeatWhile .. => true
  | .forEach .. => true
  | _ => false

structure Spot where
  /-- The number of levels around it. -/
  level : Nat
  /-- The number of levels that there may be. -/
  limit : Nat
  /-- Inside a function or a closure, methods may have been called on a value. -/
  inFunction : Bool
  inLoop : Bool
  /-- Names of the functions defined before. -/
  functions : List String

namespace Spot

def programLimit : Nat := 64

def functionLimit : Nat := 32

def deeper (spot : Spot) : Option Spot :=
  if spot.level < spot.limit then some { spot with level := spot.level + 1 } else none

def ofProgram (definitions : List Definition) : Spot :=
  ⟨0, programLimit, false, false, definitions.map (·.name)⟩

def ofFunction (definitions : List Definition) : Spot :=
  ⟨0, functionLimit, true, false, definitions.map (·.name)⟩

def inClosure (spot : Spot) : Spot :=
  { spot with limit := functionLimit, inFunction := true, inLoop := false }

def looping (spot : Spot) : Spot :=
  { spot with inLoop := true }

end Spot

namespace Reading

def mark (m : String) : List Token → Option (List Token)
  | .mark s :: rest => if s = m then some rest else none
  | _ => none

def isMark (m : String) : List Token → Bool
  | .mark s :: _ => s == m
  | _ => false

/-- Binding strength of the operators between two expressions; all of them associate to the left. -/
def precedence : String → Nat
  | "||" => 30
  | "&&" => 60
  | "==" => 90
  | "!=" => 90
  | "<" => 130
  | "<=" => 130
  | ">" => 130
  | ">=" => 130
  | ".." => 140
  | "..=" => 140
  | "+" => 150
  | "-" => 150
  | "*" => 180
  | "/" => 180
  | "%" => 180
  | _ => 0

def binaryOp? : String → Option BinaryOp
  | "==" => some .eq
  | "!=" => some .ne
  | "<" => some .lt
  | "<=" => some .le
  | ">" => some .gt
  | ">=" => some .ge
  | ".." => some .upTo
  | "..=" => some .through
  | "+" => some .add
  | "-" => some .sub
  | "*" => some .mul
  | "/" => some .div
  | "%" => some .mod
  | _ => none

def combine (op : String) (a b : Expr) : Option Expr :=
  let conditions := a.isCondition && b.isCondition
  if op = "||" then (if conditions then some (.either a b) else none)
  else if op = "&&" then (if conditions then some (.both a b) else none)
  else (binaryOp? op).map fun op => .binary op a b

def assignment? : String → Option (Option BinaryOp)
  | "=" => some none
  | "+=" => some (some .add)
  | "-=" => some (some .sub)
  | "*=" => some (some .mul)
  | "/=" => some (some .div)
  | "%=" => some (some .mod)
  | _ => none

/-- A minus before a number is worked out at once; the number of greatest magnitude has no whole
negative and becomes a floating-point one. -/
def negate : Expr → Expr
  | .int n => if Word.fits (-n) then .int (-n) else .float (-(Binary64.ofInt n))
  | .float x => .float (-x)
  | e => .unary .negate e

def affirm : Expr → Expr
  | .int n => .int n
  | .float x => .float x
  | e => .unary .plus e

/-- Names between commas up to the closing mark; a comma may stand before the mark. -/
def names (close : String) (read : List String) : List Token →
    Option (List String × List Token)
  | .mark s :: rest => if s = close then some (read.reverse, rest) else none
  | .name n :: .mark s :: rest =>
    if read.contains n then none
    else if s = close then some ((n :: read).reverse, rest)
    else if s = "," then names close (n :: read) rest
    else none
  | _ => none

/-- The name of a method: functions whose names are kept for them are methods only if they act on
any value. -/
def methodName? : Token → Option String
  | .name f => some f
  | .functionName f => if ["type_of", "call", "curry", "is_shared"].contains f then some f else none
  | _ => none

def bodyOf : Stmt → List Stmt
  | .block body => body
  | .skip => []
  | stmt => [stmt]

/-- A closure shares the variables that it uses and does not declare. -/
def closure (spot : Spot) (params : List String) (body : List Stmt) : Expr :=
  .closure params (freeBody (selfName :: params ++ spot.functions) body).eraseDups body

def templateOf : List Expr → Expr
  | [] => .text ""
  | [.text s] => .text s
  | pieces => .template pieces

mutual

def expr (fuel : Nat) (spot : Spot) (ts : List Token) : Option (Expr × List Token) :=
  match fuel with
  | 0 => none
  | fuel + 1 => do
    let spot ← spot.deeper
    let (first, rest) ← unary fuel spot ts
    operators fuel spot 0 first rest

/-- The operators that bind at least as strongly as `least`, and their right operands, that follow
an expression. -/
def operators (fuel : Nat) (spot : Spot) (least : Nat) (left : Expr) (ts : List Token) :
    Option (Expr × List Token) :=
  match fuel with
  | 0 => none
  | fuel + 1 =>
    match ts with
    | .mark op :: rest =>
      if precedence op ≠ 0 ∧ least ≤ precedence op then do
        let (right, rest) ← unary fuel spot rest
        let (right, rest) ← operators fuel spot (precedence op + 1) right rest
        let joined ← combine op left right
        operators fuel (← spot.deeper) least joined rest
      else some (left, ts)
    | _ => some (left, ts)

def unary (fuel : Nat) (spot : Spot) (ts : List Token) : Option (Expr × List Token) :=
  match fuel with
  | 0 => none
  | fuel + 1 =>
    match ts with
    | .mark "-" :: rest => do
      let (e, rest) ← unary fuel (← spot.deeper) rest
      return (negate e, rest)
    | .mark "+" :: rest => do
      let (e, rest) ← unary fuel (← spot.deeper) rest
      return (affirm e, rest)
    | .mark "!" :: rest => do
      let (e, rest) ← unary fuel (← spot.deeper) rest
      return (.unary .not e, rest)
    | _ => do
      let (root, rest) ← primary fuel spot ts
      let (root, rest) ← called fuel spot root rest
      let (links, rest) ← access fuel spot root [] rest
      return (if links.isEmpty then root else .chain root links, rest)

def primary (fuel : Nat) (spot : Spot) (ts : List Token) : Option (Expr × List Token) :=
  match fuel with
  | 0 => none
  | fuel + 1 =>
    match ts with
    | .int n :: rest => some (.int n, rest)
    | .float x :: rest => some (.float x, rest)
    | .char c :: rest => some (.char c, rest)
    | .text s :: rest => some (.text s, rest)
    | .word "true" :: rest => some (.bool true, rest)
    | .word "false" :: rest => some (.bool false, rest)
    | .word "this" :: rest => if spot.inFunction then some (.name selfName, rest) else none
    | .name n :: rest => some (.name n, rest)
    | .functionName f :: rest => if isMark "(" rest then some (.name f, rest) else none
    | .mark "(" :: .mark ")" :: rest => some (.unit, rest)
    | .mark "(" :: rest => do
      let (e, rest) ← expr fuel (← spot.deeper) rest
      return (e, ← mark ")" rest)
    | .mark "[" :: rest => do
      let (items, rest) ← items fuel (← spot.deeper) "]" [] rest
      return (.array items, rest)
    | .mark "#\x7b" :: rest => do
      let ((keys, values), rest) ← entries fuel (← spot.deeper) [] [] rest
      return (.map keys values, rest)
    | .templateStart :: rest => do
      let (pieces, rest) ← pieces fuel spot [] rest
      return (templateOf pieces, rest)
    | .mark "|" :: rest => do
      let (params, rest) ← names "|" [] rest
      let (body, rest) ← statement fuel spot.inClosure rest
      return (closure spot params (bodyOf body), rest)
    | .mark "||" :: rest => do
      let (body, rest) ← statement fuel spot.inClosure rest
      return (closure spot [] (bodyOf body), rest)
    | .mark "\x7b" :: rest => do
      let (body, rest) ← block fuel spot rest
      return (.block body, rest)
    | .word _ :: _ => do
      let (stmt, rest) ← compound fuel spot ts
      return (.block [stmt], rest)
    | _ => none

/-- A variable with arguments behind it is a call of the function of that name. -/
def called (fuel : Nat) (spot : Spot) (root : Expr) (ts : List Token) :
    Option (Expr × List Token) :=
  match fuel with
  | 0 => none
  | fuel + 1 =>
    match root, ts with
    | .name f, .mark "(" :: rest =>
      if f = selfName then none
      else do
        let (arguments, rest) ← items fuel (← spot.deeper) ")" [] rest
        return (.call f arguments, rest)
    | _, _ => some (root, ts)

/-- Elements, properties and methods that follow an expression; `read` holds those so far, last
first. -/
def access (fuel : Nat) (spot : Spot) (root : Expr) (read : List Link) (ts : List Token) :
    Option (List Link × List Token) :=
  match fuel with
  | 0 => none
  | fuel + 1 =>
    match ts with
    | .mark "[" :: rest => do
      let spot ← spot.deeper
      let (position, rest) ← expr fuel spot rest
      if read.isEmpty && !root.admits position then none
      else access fuel spot root (.element position :: read) (← mark "]" rest)
    | .mark "." :: f :: .mark "(" :: rest => do
      let f ← methodName? f
      let spot ← spot.deeper
      let (arguments, rest) ← items fuel spot ")" [] rest
      access fuel spot root (.method f arguments :: read) rest
    | .mark "." :: .name p :: rest => do
      access fuel (← spot.deeper) root (.property p :: read) rest
    | .mark "." :: _ => none
    | _ => some (read.reverse, ts)

/-- Expressions between commas up to the closing mark; a comma may stand before the mark. -/
def items (fuel : Nat) (spot : Spot) (close : String) (read : List Expr) (ts : List Token) :
    Option (List Expr × List Token) :=
  match fuel with
  | 0 => none
  | fuel + 1 =>
    match mark close ts with
    | some rest => some (read.reverse, rest)
    | none => do
      let (item, rest) ← expr fuel spot ts
      match mark close rest with
      | some rest => return ((item :: read).reverse, rest)
      | none => items fuel spot close (item :: read) (← mark "," rest)

def entries (fuel : Nat) (spot : Spot) (keys : List String) (values : List Expr)
    (ts : List Token) : Option ((List String × List Expr) × List Token) :=
  match fuel with
  | 0 => none
  | fuel + 1 =>
    match ts with
    | .mark "\x7d" :: rest => some ((keys.reverse, values.reverse), rest)
    | .name key :: .mark ":" :: rest => entry fuel spot key keys values rest
    | .text key :: .mark ":" :: rest => entry fuel spot key keys values rest
    | .templateStart :: .templateText key :: .templateEnd :: .mark ":" :: rest =>
      entry fuel spot key keys values rest
    | _ => none

def entry (fuel : Nat) (spot : Spot) (key : String) (keys : List String) (values : List Expr)
    (ts : List Token) : Option ((List String × List Expr) × List Token) :=
  match fuel with
  | 0 => none
  | fuel + 1 =>
    if keys.contains key then none
    else do
      let (value, rest) ← expr fuel spot ts
      match mark "," rest with
      | some rest => entries fuel spot (key :: keys) (value :: values) rest
      | none =>
        return (((key :: keys).reverse, (value :: values).reverse), ← mark "\x7d" rest)

def pieces (fuel : Nat) (spot : Spot) (read : List Expr) (ts : List Token) :
    Option (List Expr × List Token) :=
  match fuel with
  | 0 => none
  | fuel + 1 =>
    match ts with
    | .templateText s :: rest =>
      pieces fuel spot (if s.isEmpty then read else .text s :: read) rest
    | .codeStart :: rest => do
      let (body, rest) ← statements fuel (← spot.deeper) [] rest
      match rest with
      | .codeEnd :: rest => pieces fuel spot (.block body :: read) rest
      | _ => none
    | .templateEnd :: rest => some (read.reverse, rest)
    | _ => none

def condition (fuel : Nat) (spot : Spot) (ts : List Token) : Option (Expr × List Token) :=
  match fuel with
  | 0 => none
  | fuel + 1 =>
    if isMark "\x7b" ts then none
    else do
      let (e, rest) ← expr fuel spot ts
      if e.isCondition then return (e, rest) else none

/-- A condition, its block, and what else there is, behind the word `if`. -/
def choice (fuel : Nat) (spot : Spot) (ts : List Token) : Option (Stmt × List Token) :=
  match fuel with
  | 0 => none
  | fuel + 1 => do
    let spot ← spot.deeper
    let (condition, rest) ← condition fuel spot ts
    let (yes, rest) ← block fuel spot (← mark "\x7b" rest)
    match rest with
    | .word "else" :: .word "if" :: rest => do
      let (no, rest) ← choice fuel spot rest
      return (.choice condition yes [no], rest)
    | .word "else" :: rest => do
      let (no, rest) ← block fuel spot (← mark "\x7b" rest)
      return (.choice condition yes no, rest)
    | _ => return (.choice condition yes [], rest)

def compound (fuel : Nat) (spot : Spot) (ts : List Token) : Option (Stmt × List Token) :=
  match fuel with
  | 0 => none
  | fuel + 1 =>
    match ts with
    | .word "if" :: rest => choice fuel spot rest
    | .word "while" :: rest => do
      let spot ← spot.deeper
      let (condition, rest) ← condition fuel spot rest
      let (body, rest) ← block fuel spot.looping (← mark "\x7b" rest)
      return (.repeatWhile (some condition) body, rest)
    | .word "loop" :: rest => do
      let (body, rest) ← block fuel (← spot.deeper).looping (← mark "\x7b" rest)
      return (.repeatWhile none body, rest)
    | .word "for" :: .name n :: .word "in" :: rest => do
      let spot ← spot.deeper
      if isMark "\x7b" rest then none
      else do
        let (items, rest) ← expr fuel spot rest
        let (body, rest) ← block fuel spot.looping (← mark "\x7b" rest)
        if items.isIterable then return (.forEach n items body, rest) else none
    | _ => none

def block (fuel : Nat) (spot : Spot) (ts : List Token) : Option (List Stmt × List Token) :=
  match fuel with
  | 0 => none
  | fuel + 1 => do
    let (body, rest) ← statements fuel (← spot.deeper) [] ts
    return (body, ← mark "\x7d" rest)

/-- Statements up to a closing brace or the end of a template's code; a semicolon alone is none. -/
def statements (fuel : Nat) (spot : Spot) (read : List Stmt) (ts : List Token) :
    Option (List Stmt × List Token) :=
  match fuel with
  | 0 => none
  | fuel + 1 =>
    match ts with
    | [] => none
    | .codeEnd :: _ => some (read.reverse, ts)
    | .mark "\x7d" :: _ => some (read.reverse, ts)
    | .mark ";" :: rest => statements fuel spot read rest
    | _ => do
      let (stmt, rest) ← statement fuel spot ts
      match rest with
      | .mark ";" :: rest => statements fuel spot (stmt :: read) rest
      | .mark "\x7d" :: _ => return ((stmt :: read).reverse, rest)
      | .codeEnd :: _ => return ((stmt :: read).reverse, rest)
      | _ => if stmt.endsWithBlock then statements fuel spot (stmt :: read) rest else none

/-- One statement, without the semicolon behind it; a semicolon alone does nothing. -/
def statement (fuel : Nat) (spot : Spot) (ts : List Token) : Option (Stmt × List Token) :=
  match fuel with
  | 0 => none
  | fuel + 1 =>
    match ts with
    | .mark ";" :: rest => some (.skip, rest)
    | .word "let" :: .name n :: rest => declaration fuel spot n rest
    | .word "const" :: .name n :: rest => declaration fuel spot n rest
    | .word "if" :: _ => compound fuel spot ts
    | .word "while" :: _ => compound fuel spot ts
    | .word "loop" :: _ => compound fuel spot ts
    | .word "for" :: _ => compound fuel spot ts
    | .mark "\x7b" :: rest => do
      let (body, rest) ← block fuel spot rest
      return (.block body, rest)
    | .word "return" :: rest => do
      let (e, rest) ← optional fuel spot rest
      return (.giveBack e, rest)
    | .word "throw" :: rest => do
      let (e, rest) ← optional fuel spot rest
      return (.throwValue e, rest)
    | .word "break" :: rest => if spot.inLoop then some (.leaveLoop, rest) else none
    | .word "continue" :: rest => if spot.inLoop then some (.nextRound, rest) else none
    | _ => do
      let (e, rest) ← expr fuel spot ts
      match rest with
      | .mark m :: rest' =>
        match assignment? m with
        | some op =>
          if e.isTarget then do
            let (value, rest) ← expr fuel spot rest'
            return (.assign e op value, rest)
          else none
        | none => return (.expr e, rest)
      | _ => return (.expr e, rest)

def declaration (fuel : Nat) (spot : Spot) (name : String) (ts : List Token) :
    Option (Stmt × List Token) :=
  match fuel with
  | 0 => none
  | fuel + 1 =>
    match mark "=" ts with
    | some rest => do
      let (value, rest) ← expr fuel (← spot.deeper) rest
      return (.declare name value, rest)
    | none => some (.declare name .unit, ts)

def optional (fuel : Nat) (spot : Spot) (ts : List Token) :
    Option (Option Expr × List Token) :=
  match fuel with
  | 0 => none
  | fuel + 1 =>
    if ts.isEmpty || isMark ";" ts || isMark "\x7d" ts || ts.head? == some .codeEnd then
      some (none, ts)
    else do
      let (e, rest) ← expr fuel (← spot.deeper) ts
      return (some e, rest)

end

def program (fuel : Nat) (definitions : List Definition) (read : List Stmt) (ts : List Token) :
    Option Program :=
  match fuel with
  | 0 => none
  | fuel + 1 =>
    match ts with
    | [] => some ⟨definitions.reverse, read.reverse⟩
    | .mark ";" :: rest => program fuel definitions read rest
    | .word "fn" :: .name f :: .mark "(" :: rest => do
      let (params, rest) ← names ")" [] rest
      let (body, rest) ← block fuel (.ofFunction definitions) (← mark "\x7b" rest)
      if definitions.any fun d => d.name == f && d.params.length == params.length then none
      else program fuel (⟨f, params, body⟩ :: definitions) read rest
    | _ => do
      let (stmt, rest) ← statement fuel (.ofProgram definitions) ts
      match rest with
      | [] => program fuel definitions (stmt :: read) rest
      | .mark ";" :: rest => program fuel definitions (stmt :: read) rest
      | _ => if stmt.endsWithBlock then program fuel definitions (stmt :: read) rest else none

end Reading

namespace Program

def callsPerToken : Nat := 16

def ofTokens? (ts : List Token) : Option Program :=
  Reading.program (callsPerToken * (ts.length + 2)) [] [] ts

def ofSource? (source : String) : Option Program :=
  match Token.scan source with
  | some ts => ofTokens? ts
  | none => none

end Program

end LinkedSheet.Script
