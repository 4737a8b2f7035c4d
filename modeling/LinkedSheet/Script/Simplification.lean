import LinkedSheet.Script.Run

/-!
Rewriting a program to a simpler one before it runs: operators on literals are worked out, choices
between known alternatives are made, blocks without variables of their own are opened, and
statements without effect are dropped. Simplification is part of the language, because it can be
seen: a variable that does not exist is a fault where it is used, unless the statement that uses it
has been dropped, and a `return` that ends a source only gives the source its value.

One pass simplifies the statements of a block and then drops what it can; passes are repeated until
one of them changes nothing.
-/
namespace LinkedSheet.Script

mutual

def Expr.literal? : Expr → Option Datum
  | .unit => some .unit
  | .bool b => some (.bool b)
  | .int n => some (.int n)
  | .float x => some (.float x)
  | .char c => some (.char c)
  | .text s => some (.text s)
  | .range low high => some (.range low high)
  | .template pieces =>
    (literals? pieces).map fun values => .text (String.join (values.map Datum.displayed))
  | .array items => (literals? items).map fun values => .array values.toArray
  | .map keys values =>
    (literals? values).map fun values =>
      let entries := Operator.setEntries keys values ([], [])
      .map entries.1 entries.2
  | .closure params [] body => some (.closure params body [])
  | _ => none

def literals? : List Expr → Option (List Datum)
  | [] => some []
  | e :: rest =>
    match e.literal?, literals? rest with
    | some value, some values => some (value :: values)
    | _, _ => none

end

def Expr.ofDatum? : Datum → Option Expr
  | .unit => some .unit
  | .bool b => some (.bool b)
  | .int n => some (.int n)
  | .float x => some (.float x)
  | .char c => some (.char c)
  | .text s => some (.text s)
  | .range low high => some (.range low high)
  | _ => none

def Expr.isLiteral (e : Expr) : Bool :=
  e.literal?.isSome

mutual

/-- Whether an expression is without effect; one that uses a variable counts as such, although the
variable may not exist. -/
def Expr.isPure : Expr → Bool
  | .name name => name != selfName
  | .both a b => a.isPure && b.isPure
  | .either a b => a.isPure && b.isPure
  | .block body => allPure body
  | e => e.isLiteral

/-- Whether a statement is without effect. A loop over something finite is, if its body is. -/
def Stmt.isPure : Stmt → Bool
  | .skip => true
  | .expr e => e.isPure
  | .choice condition yes no => condition.isPure && allPure yes && allPure no
  | .block body => allPure body
  | .repeatWhile (some (.bool false)) _ => true
  | .forEach _ items body => items.isPure && allPure body
  | _ => false

def allPure : List Stmt → Bool
  | [] => true
  | stmt :: rest => stmt.isPure && allPure rest

end

namespace Stmt

/-- Whether a statement is without effect outside the block that it stands in. -/
def isPureInside : Stmt → Bool
  | declare _ value => value.isPure
  | stmt => stmt.isPure

def hasValue : Stmt → Bool
  | expr _ => true
  | choice .. => true
  | block _ => true
  | _ => false

def endsBlock : Stmt → Bool
  | giveBack _ => true
  | throwValue _ => true
  | leaveLoop => true
  | nextRound => true
  | _ => false

end Stmt

mutual

def Stmt.needsBlock : Stmt → Bool
  | .declare .. => true
  | .block body => allNeedBlock body
  | .expr (.block body) => allNeedBlock body
  | _ => false

def allNeedBlock : List Stmt → Bool
  | [] => true
  | stmt :: rest => stmt.needsBlock && allNeedBlock rest

end

namespace Simplification

inductive Role where
  /-- A whole program, function or closure. -/
  | whole
  /-- A block whose value is used. -/
  | value
  /-- The body of a loop. -/
  | round
deriving DecidableEq, Repr

namespace Role

def keepsValue : Role → Bool
  | round => false
  | _ => true

/-- What counts as effect for the statements of a block: variables of a whole program may be used
by statements that are joined to it. -/
def isPure : Role → Stmt → Bool
  | whole => Stmt.isPure
  | _ => Stmt.isPureInside

def ofInner : Role → Role
  | round => round
  | _ => value

end Role

mutual

/-- The statements that stand for one statement: those of a block that need not be one. -/
def opened : Stmt → List Stmt
  | .block body => if body.any Stmt.needsBlock then [.block body] else flatten body
  | stmt => [stmt]

def flatten : List Stmt → List Stmt
  | [] => []
  | stmt :: rest => opened stmt ++ flatten rest

end

def canFlatten (body : List Stmt) : Bool :=
  body.any fun stmt =>
    match stmt with
    | .block body => !body.any Stmt.needsBlock
    | _ => false

def reached : List Stmt → List Stmt
  | [] => []
  | stmt :: rest => if stmt.endsBlock then [stmt] else stmt :: reached rest

/-- Whether a statement keeps declarations before it from being dropped. -/
def holds (role : Role) (stmt : Stmt) : Bool :=
  !role.isPure stmt ||
    match stmt with
    | .declare _ value => value.isLiteral
    | .expr e => !e.isLiteral
    | _ => false

def lastHold (role : Role) (body : List Stmt) : Nat :=
  (body.zipIdx.filter fun item => holds role item.1).foldl (fun _ item => item.2) 0

/-- The statements without those that have no effect; the last one may be the value. -/
def dropPure (role : Role) (body : List Stmt) : List Stmt :=
  let hold := lastHold role body
  let length := body.length
  (body.zipIdx.filter fun item =>
    (role.keepsValue && item.2 + 1 == length) ||
      !(item.1.isPure || (role.isPure item.1 && hold ≤ item.2))).map (·.1)

/-- One step of shortening the end of a block whose value is used; the statements come last first.
A `return` at the end of a whole program is the value itself. A statement without a value behind
one with a value has to stay, since it makes the value unit. -/
def shortenValue? (role : Role) : List Stmt → Option (List Stmt)
  | [.giveBack none] => if role = .whole then some [] else none
  | [.giveBack (some e)] => if role = .whole then some [.expr e] else none
  | [stmt] => if !stmt.hasValue && role.isPure stmt then some [] else none
  | .giveBack none :: stmt :: rest =>
    if role = .whole then some (if stmt.hasValue then .skip :: stmt :: rest else stmt :: rest)
    else none
  | .giveBack (some e) :: rest => if role = .whole then some (.expr e :: rest) else none
  | .skip :: stmt :: rest => if stmt.hasValue then none else some (stmt :: rest)
  | last :: stmt :: rest =>
    if !last.hasValue && role.isPure last then
      some (if stmt.hasValue then .skip :: stmt :: rest else stmt :: rest)
    else none
  | [] => none

def shorten? (role : Role) : List Stmt → Option (List Stmt)
  | [] => none
  | stmt :: rest =>
    if role.keepsValue then shortenValue? role (stmt :: rest)
    else if role.isPure stmt then some rest else none

/-- Shortens the end of a block as long as possible; every step but one per statement makes it
shorter. -/
def shortenAll (role : Role) : Nat → List Stmt → List Stmt
  | 0, body => body
  | fuel + 1, body =>
    match shorten? role body with
    | some body => shortenAll role fuel body
    | none => body

abbrev Rewriting := StateM Bool

def changed (a : α) : Rewriting α := do
  set true
  return a

def drop (f : List Stmt → List Stmt) (body : List Stmt) : Rewriting (List Stmt) :=
  let dropped := f body
  if dropped.length = body.length then return body else changed dropped

def shortenEnd (role : Role) (body : List Stmt) : Rewriting (List Stmt) :=
  match shorten? role body.reverse with
  | none => return body
  | some shorter => changed (shortenAll role (2 * body.length) shorter).reverse

/-- The literal that an operator makes of two literals, unless it fails. -/
def worked? (op : BinaryOp) (a b : Expr) : Option Expr :=
  match a.literal?, b.literal? with
  | some a, some b =>
    match Operator.binary op a b with
    | .ok d => Expr.ofDatum? d
    | .error _ => none
  | _, _ => none

/-- The part of a literal that a single link leads to, if nothing is lost with the other parts. -/
def part? (root : Expr) (links : List Link) : Option Expr :=
  match root, links with
  | .array items, [.element (.int i)] =>
    if items.all Expr.isPure then do items[← Part.position? items.length i]? else none
  | .map keys values, [.element (.text key)] => property? keys values key
  | .map keys values, [.property key] => property? keys values key
  | .int n, [.element (.int i)] => do Expr.ofDatum? (← (Part.element (.int n) i).toOption)
  | .text s, [.element (.int i)] => do Expr.ofDatum? (← (Part.element (.text s) i).toOption)
  | _, _ => none
where
  property? (keys : List String) (values : List Expr) (key : String) : Option Expr :=
    if values.all Expr.isPure then some (((keys.zip values).lookup key).getD .unit) else none

/-- What is left of a block: nothing, the one statement that can stand alone, or the block. -/
def ofBlock : List Stmt → Rewriting Stmt
  | [] => changed .skip
  | [stmt] => if stmt.needsBlock then return .block [stmt] else changed stmt
  | body => return .block body

def ofSide : List Stmt → Stmt
  | [] => .skip
  | body => .block body

mutual

def expr (fuel : Nat) (e : Expr) : Rewriting Expr :=
  match fuel with
  | 0 => return e
  | fuel + 1 =>
    match e with
    | .block [] => changed .unit
    | .block [.expr e] => do changed (← expr fuel e)
    | .block body => do
      match ← block fuel .value body with
      | [.expr e] => changed e
      | body => return .block body
    | .chain root links => do
      match part? root links with
      | some e => changed e
      | none => return .chain (← expr fuel root) (← linkList fuel links)
    | .template pieces =>
      match e.literal? with
      | some (.text s) => changed (.text s)
      | _ => do return .template (← exprList fuel pieces)
    | .array items => do return .array (← exprList fuel items)
    | .map keys values => do return .map keys (← exprList fuel values)
    | .closure params shared body => return .closure params shared (top fuel body)
    | .unary .not (.bool b) => changed (.bool !b)
    | .unary op e => do return .unary op (← expr fuel e)
    | .binary op a b =>
      match worked? op a b with
      | some e => changed e
      | none => do return .binary op (← expr fuel a) (← expr fuel b)
    | .both (.bool true) e => do changed (← expr fuel e)
    | .both (.bool false) _ => changed (.bool false)
    | .both e (.bool true) => do changed (← expr fuel e)
    | .both a b => do return .both (← expr fuel a) (← expr fuel b)
    | .either (.bool false) e => do changed (← expr fuel e)
    | .either (.bool true) _ => changed (.bool true)
    | .either e (.bool false) => do changed (← expr fuel e)
    | .either a b => do return .either (← expr fuel a) (← expr fuel b)
    | .call function arguments => do return .call function (← exprList fuel arguments)
    | e => return e

def exprList (fuel : Nat) (es : List Expr) : Rewriting (List Expr) :=
  match fuel with
  | 0 => return es
  | fuel + 1 =>
    match es with
    | [] => return []
    | e :: rest => do
      let e ← expr fuel e
      return e :: (← exprList fuel rest)

def linkList (fuel : Nat) (links : List Link) : Rewriting (List Link) :=
  match fuel with
  | 0 => return links
  | fuel + 1 =>
    match links with
    | [] => return []
    | .element position :: rest => do
      let position ← expr fuel position
      return .element position :: (← linkList fuel rest)
    | .property name :: rest => do return .property name :: (← linkList fuel rest)
    | .method function arguments :: rest => do
      let arguments ← exprList fuel arguments
      return .method function arguments :: (← linkList fuel rest)

def exprOption (fuel : Nat) (e : Option Expr) : Rewriting (Option Expr) :=
  match fuel with
  | 0 => return e
  | fuel + 1 =>
    match e with
    | none => return none
    | some e => do return some (← expr fuel e)

/-- A statement of a block. A variable that is given a value made from its old one stores with an
operator. -/
def stmt (fuel : Nat) (role : Role) (s : Stmt) : Rewriting Stmt :=
  match fuel with
  | 0 => return s
  | fuel + 1 =>
    match s with
    | .assign (.name x) none (.binary op (.name y) e) =>
      if x = y ∧ x ≠ selfName ∧ op.isArithmetic then changed (.assign (.name x) (some op) e)
      else do return .assign (.name x) none (← expr fuel (.binary op (.name y) e))
    | .assign target op e => do
      let target ← expr fuel target
      return .assign target op (← expr fuel e)
    | .choice condition [] [] => do
      let condition ← expr fuel condition
      changed (if role.keepsValue then .block [.expr condition, .skip] else .expr condition)
    | .choice (.bool false) _ no => do changed (ofSide (← block fuel role.ofInner no))
    | .choice (.bool true) yes _ => do changed (ofSide (← block fuel role.ofInner yes))
    | .choice condition yes no => do
      let condition ← expr fuel condition
      let yes ← block fuel role.ofInner yes
      return .choice condition yes (← block fuel role.ofInner no)
    | .repeatWhile (some (.bool false)) _ => changed .skip
    | .repeatWhile condition body => do
      let condition ← exprOption fuel condition
      let body ← block fuel .round body
      match condition with
      | some (.bool true) => return .repeatWhile none body
      | condition => return .repeatWhile condition body
    | .forEach name items body => do
      let items ← expr fuel items
      return .forEach name items (← block fuel .round body)
    | .declare name e => do return .declare name (← expr fuel e)
    | .block body => do ofBlock (← block fuel role.ofInner body)
    | .expr (.block []) => changed .skip
    | .expr (.block body) => changed (.block body)
    | .expr e => do return .expr (← expr fuel e)
    | .giveBack e => do return .giveBack (← exprOption fuel e)
    | .throwValue e => do return .throwValue (← exprOption fuel e)
    | s => return s

def stmtList (fuel : Nat) (role : Role) (body : List Stmt) : Rewriting (List Stmt) :=
  match fuel with
  | 0 => return body
  | fuel + 1 =>
    match body with
    | [] => return []
    | s :: rest => do
      let s ← stmt fuel role s
      return s :: (← stmtList fuel role rest)

/-- The statements of a block, after as many passes as change something. -/
def passes (fuel : Nat) (role : Role) (body : List Stmt) : Rewriting (List Stmt) :=
  match fuel with
  | 0 => return body
  | fuel + 1 =>
    let pass : Rewriting (List Stmt) := do
      let body ← drop reached body
      let body ← stmtList fuel role body
      let body ← drop (dropPure role) body
      shortenEnd role body
    match pass.run false with
    | (body, true) => do changed (← passes fuel role body)
    | (body, false) => return body

def block (fuel : Nat) (role : Role) (body : List Stmt) : Rewriting (List Stmt) :=
  match fuel with
  | 0 => return body
  | fuel + 1 =>
    if canFlatten body then do changed (← passes fuel role (flatten body))
    else passes fuel role body

def top (fuel : Nat) (body : List Stmt) : List Stmt :=
  match fuel with
  | 0 => body
  | fuel + 1 => ((block fuel .whole body).run false).1

end

end Simplification

def Program.simplify (fuel : Nat) (program : Program) : Program where
  definitions := program.definitions.map fun d =>
    { d with body := Simplification.top fuel d.body }
  body := Simplification.top fuel program.body

end LinkedSheet.Script
