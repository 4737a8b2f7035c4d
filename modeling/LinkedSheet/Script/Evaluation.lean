import LinkedSheet.Script.Engine
import LinkedSheet.Script.Program
import LinkedSheet.Script.Run

/-!
Running programs. Every function here takes fuel and calls the others with less; `stepLimit` is more
than any loop that ends in reasonable time uses, and running out of it is told apart from every
other outcome. A loop spends one unit of fuel per round; a call is one level deeper.

Functions see their parameters only; closures see the variables around the place where they are
written, and share them. The arguments of a chain are computed before its root, and the value of an
assignment before its target. A function takes its first argument last if that is a variable, and
may then change it.
-/
namespace LinkedSheet.Script

/-- What a program runs in: its definitions, the functions of its host, its level among nested calls,
and the variables that methods are working on. -/
structure Setting where
  definitions : List Definition
  natives : Natives
  level : Nat
  locked : List Nat

/-- Calls may be nested this deep. -/
def callLimit : Nat := 64

def stepLimit : Nat := 1000000000

namespace Setting

def definition? (setting : Setting) (name : String) (arity : Nat) : Option Definition :=
  setting.definitions.find? fun d => d.name == name && d.params.length == arity

def defines (setting : Setting) (name : String) : Bool :=
  setting.definitions.any fun d => d.name == name

def working (setting : Setting) (address : Nat) (v : Variable) : Setting :=
  if v.shared then { setting with locked := address :: setting.locked } else setting

def inCall (setting : Setting) : Setting :=
  { setting with level := setting.level + 1 }

end Setting

inductive Rounds where
  | items (values : List Datum)
  | numbers (low high : Int)

namespace Rounds

def ofDatum? : Datum → Option Rounds
  | .array values => some (items values.toList)
  | .range low high => some (numbers low high)
  | .text s => some (items (s.toList.map .char))
  | _ => none

def next? : Rounds → Option (Datum × Rounds)
  | items [] => none
  | items (value :: values) => some (value, items values)
  | numbers low high => if low < high then some (.int low, numbers (low + 1) high) else none

end Rounds

/-- Arguments that a function may be called with, and the value that it may be called on. -/
structure Offer where
  self : Option Datum
  arguments : List Datum

namespace Evaluation

/-- What a body gives: the value of its end, or the one it returned early. -/
def bodyResult : Except Stop Datum × Memory → Except Stop Datum × Memory
  | (.error (.returned value), memory) => (.ok value, memory)
  | result => result

def isTrue (value : Datum) : Bool :=
  match value with
  | .bool true => true
  | _ => false

/-- A condition that is no truth value is a fault. -/
def truth : Datum → Except Stop Bool
  | .bool b => .ok b
  | _ => .error (.fault (.unfitting "condition"))

def unlocked (setting : Setting) (name : String) (address : Nat) : Run Variable := do
  if setting.locked.contains address then Run.fail (.inUse name) else Run.load address

/-- The value of a name that is no variable: a function of that name. -/
def functionNamed (setting : Setting) (name : String) : Run Datum :=
  if setting.defines name then return .function name else Run.fail (.unknownName name)

def valueOf (setting : Setting) (scope : Scope) (name : String) : Run Datum := do
  match scope.lookup name with
  | some address => return (← unlocked setting name address).value
  | none => functionNamed setting name

/-- The item that some steps push onto a value, if it is an array and they do nothing else. -/
def pushed? (setting : Setting) (steps : List Step) (value : Datum) : Option Datum :=
  match steps, value with
  | [.method "push" [item]], .array _ =>
    if (setting.definition? "push" 1).isSome then none else some item
  | _, _ => none

def storeChange (address : Nat) : Option Datum → Run Unit
  | some value => Run.store address value
  | none => return ()

mutual

def expr (setting : Setting) (fuel : Nat) (scope : Scope) (e : Expr) : Run Datum :=
  match fuel with
  | 0 => throw .exhausted
  | fuel + 1 =>
    match e with
    | .unit => return .unit
    | .bool b => return .bool b
    | .int n => return .int n
    | .float x => return .float x
    | .char c => return .char c
    | .text s => return .text s
    | .range low high => return .range low high
    | .template pieces => do
      let values ← list setting fuel scope pieces
      return .text (String.join (values.map Datum.shown))
    | .name name => valueOf setting scope name
    | .array items => return .array (← list setting fuel scope items).toArray
    | .map keys values => do
      let entries := Operator.setEntries keys (← list setting fuel scope values) ([], [])
      return .map entries.1 entries.2
    | .closure params shared body => do
      return .closure params body (← Run.shareAll scope shared)
    | .unary op a => do Run.lift (Operator.unary op (← expr setting fuel scope a))
    | .binary op a b => do
      let a ← expr setting fuel scope a
      let b ← expr setting fuel scope b
      Run.lift (Operator.binary op a b)
    | .both a b => do
      match truth (← expr setting fuel scope a) with
      | .ok true =>
        match truth (← expr setting fuel scope b) with
        | .ok b => return .bool b
        | .error stop => throw stop
      | .ok false => return .bool false
      | .error stop => throw stop
    | .either a b => do
      match truth (← expr setting fuel scope a) with
      | .ok true => return .bool true
      | .ok false =>
        match truth (← expr setting fuel scope b) with
        | .ok b => return .bool b
        | .error stop => throw stop
      | .error stop => throw stop
    | .call function (.name name :: arguments) => do
      let arguments ← list setting fuel scope arguments
      match scope.lookup name with
      | some address => do
        let first ← unlocked setting name address
        let (result, changed) ← call setting fuel function (first.value :: arguments)
        if !first.shared then storeChange address changed
        return result
      | none => do
        let first ← functionNamed setting name
        return (← call setting fuel function (first :: arguments)).1
    | .call function arguments => do
      return (← call setting fuel function (← list setting fuel scope arguments)).1
    | .chain root links => do
      let steps ← stepList setting fuel scope links
      chain setting fuel scope root steps
    | .block body => statements setting fuel scope body .unit

def list (setting : Setting) (fuel : Nat) (scope : Scope) (es : List Expr) : Run (List Datum) :=
  match fuel with
  | 0 => throw .exhausted
  | fuel + 1 =>
    match es with
    | [] => return []
    | e :: rest => do
      let value ← expr setting fuel scope e
      let values ← list setting fuel scope rest
      return value :: values

/-- The steps of a chain, their arguments computed from left to right. -/
def stepList (setting : Setting) (fuel : Nat) (scope : Scope) (links : List Link) :
    Run (List Step) :=
  match fuel with
  | 0 => throw .exhausted
  | fuel + 1 =>
    match links with
    | [] => return []
    | .element position :: rest => do
      let position ← expr setting fuel scope position
      return .part (.element position) :: (← stepList setting fuel scope rest)
    | .property name :: rest => do
      return .part (.property name) :: (← stepList setting fuel scope rest)
    | .method function arguments :: rest => do
      let arguments ← list setting fuel scope arguments
      return .method function arguments :: (← stepList setting fuel scope rest)

/-- Follows the steps of a chain from its root. A variable at the root is locked meanwhile if it is
shared, and takes the value that a method makes of it. -/
def chain (setting : Setting) (fuel : Nat) (scope : Scope) (root : Expr) (steps : List Step) :
    Run Datum :=
  match fuel with
  | 0 => throw .exhausted
  | fuel + 1 =>
    match root with
    | .name name => do
      match scope.lookup name with
      | some address => do
        let v ← unlocked setting name address
        match pushed? setting steps v.value with
        | some item => do
          Run.append address item
          return .unit
        | none => do
          let (result, changed) ← follow (setting.working address v) fuel steps v.value
          storeChange address changed
          return result
      | none => do return (← follow setting fuel steps (← functionNamed setting name)).1
    | root => do return (← follow setting fuel steps (← expr setting fuel scope root)).1

/-- The value at the end of some steps, and the value at their start if a method has changed it or a
part of it. -/
def follow (setting : Setting) (fuel : Nat) (steps : List Step) (value : Datum) :
    Run (Datum × Option Datum) :=
  match fuel with
  | 0 => throw .exhausted
  | fuel + 1 =>
    match steps with
    | [] => return (value, none)
    | .part key :: rest => do
      let part ← Run.lift (Part.get value key)
      let (result, changed) ← follow setting fuel rest part
      return (result, changed >>= fun part => (Part.put value part key).toOption)
    | .method function arguments :: rest => do
      let (result, changed) ← method setting fuel function value arguments
      return ((← follow setting fuel rest result).1, changed)

/-- The variable that a target stands in, and the keys to the target from there. -/
def place (setting : Setting) (fuel : Nat) (scope : Scope) (target : Expr) :
    Run (String × List Key) :=
  match fuel with
  | 0 => throw .exhausted
  | fuel + 1 =>
    match target with
    | .name name => return (name, [])
    | .chain (.name name) links => do
      let steps ← stepList setting fuel scope links
      return (name, steps.filterMap fun step =>
        match step with
        | .part key => some key
        | .method .. => none)
    | _ => Run.fail (.unfitting "=")

/-- Runs a body with some parameters, on a value if there is one; the second result is what became
of that value. -/
def invoke (setting : Setting) (fuel : Nat) (scope : Scope) (params : List String)
    (body : List Stmt) (offer : Offer) : Run (Datum × Option Datum) :=
  match fuel with
  | 0 => throw .exhausted
  | fuel + 1 =>
    if callLimit < setting.level then Run.fail .callsTooDeep
    else
      match offer.self with
      | none => fun memory =>
        let (result, memory) := bodyResult ((do
          let scope ← Run.declareAll params offer.arguments scope
          statements setting fuel scope body .unit : Run Datum) memory)
        (result.map (·, none), memory)
      | some self => do
        let scope ← Run.declare selfName self scope
        let address ← Run.address scope selfName
        fun memory =>
          let (result, memory) := bodyResult ((do
            let scope ← Run.declareAll params offer.arguments scope
            statements setting fuel scope body .unit : Run Datum) memory)
          let self := (memory.slots[address]?).map (·.value)
          (result.map (·, self), memory)

/-- Calls a defined function, or else one of the language; the second result is what became of the
first argument if the function changes it. -/
def call (setting : Setting) (fuel : Nat) (function : String) (arguments : List Datum) :
    Run (Datum × Option Datum) :=
  match fuel with
  | 0 => throw .exhausted
  | fuel + 1 =>
    match setting.definition? function arguments.length with
    | some d => do
      return ((← invoke setting.inCall fuel [] d.params d.body ⟨none, arguments⟩).1, none)
    | none => native setting fuel function arguments

/-- Calls a method: a function defined with as many parameters, a closure in a map, or a function of
the language that takes the object before the arguments. -/
def method (setting : Setting) (fuel : Nat) (function : String) (object : Datum)
    (arguments : List Datum) : Run (Datum × Option Datum) :=
  match fuel with
  | 0 => throw .exhausted
  | fuel + 1 =>
    match setting.definition? function arguments.length with
    | some d => invoke setting.inCall fuel [] d.params d.body ⟨some object, arguments⟩
    | none =>
      match object with
      | .map keys values =>
        match Part.lookup? keys values function with
        | some (.closure params body scope) =>
          apply setting.inCall fuel (.closure params body scope) [⟨some object, arguments⟩]
        | some (.function name) =>
          apply setting fuel (.function name) [⟨some object, arguments⟩]
        | _ => native setting fuel function (object :: arguments)
      | object => native setting fuel function (object :: arguments)

/-- Calls a function of the host or else of the language. A function value that it calls is two
levels deeper, unless it is the very function to be called. -/
def native (setting : Setting) (fuel : Nat) (function : String) (arguments : List Datum) :
    Run (Datum × Option Datum) :=
  match fuel with
  | 0 => throw .exhausted
  | fuel + 1 =>
    match setting.natives function arguments with
    | some (.ok value) => return (value, none)
    | some (.error message) => Run.complain message
    | none =>
      let inner := setting.inCall.inCall
      match function, arguments with
      | "map", [.array items, f] => do
        return (← collect inner fuel f true 0 items.toList [], none)
      | "filter", [.array items, f] => do
        return (← collect inner fuel f false 0 items.toList [], none)
      | "reduce", [.array items, f] => do
        return (← accumulate inner fuel f 0 items.toList .unit, none)
      | "reduce", [.array items, f, first] => do
        return (← accumulate inner fuel f 0 items.toList first, none)
      | "push", [.array items, item] => return (.unit, some (.array (items.push item)))
      | "call", .closure params body scope :: arguments => do
        return ((← apply setting fuel (.closure params body scope) [⟨none, arguments⟩]).1, none)
      | "call", .function name :: arguments => do
        return ((← apply setting fuel (.function name) [⟨none, arguments⟩]).1, none)
      | function, arguments =>
        match Run.standard? function arguments with
        | some result => do return (← result, none)
        | none => Run.fail (.unknownFunction function arguments.length)

/-- Calls a function value with the first offer that has as many arguments as it has parameters. -/
def apply (setting : Setting) (fuel : Nat) (function : Datum) (offers : List Offer) :
    Run (Datum × Option Datum) :=
  match fuel with
  | 0 => throw .exhausted
  | fuel + 1 =>
    match function with
    | .closure params body scope =>
      match offers.find? fun offer => offer.arguments.length == params.length with
      | some offer => invoke setting fuel scope params body offer
      | none => Run.fail (.unknownFunction "closure" params.length)
    | .function name => applyNamed setting fuel name offers
    | .text name => applyNamed setting fuel name offers
    | _ => Run.fail (.unfitting "call")

/-- Calls the function of a name with the first offer that a definition takes, or else with the
first one that is made to no value. -/
def applyNamed (setting : Setting) (fuel : Nat) (name : String) (offers : List Offer) :
    Run (Datum × Option Datum) :=
  match fuel with
  | 0 => throw .exhausted
  | fuel + 1 =>
    let fits (offer : Offer) : Bool :=
      (setting.definition? name offer.arguments.length).isSome
    match offers.find? fits with
    | some offer =>
      match setting.definition? name offer.arguments.length with
      | some d => invoke setting.inCall fuel [] d.params d.body offer
      | none => Run.fail (.unknownFunction name offer.arguments.length)
    | none =>
      match offers.find? (·.self.isNone) with
      | some offer => native setting fuel name offer.arguments
      | none => Run.fail (.unknownFunction name offers.length)

/-- The results of a function on the items, or the items for which it gives true; `done` holds those
so far, last first. -/
def collect (setting : Setting) (fuel : Nat) (f : Datum) (mapping : Bool) (position : Nat)
    (items done : List Datum) : Run Datum :=
  match fuel with
  | 0 => throw .exhausted
  | fuel + 1 =>
    match items with
    | [] => return .array done.reverse.toArray
    | item :: rest => fun memory =>
      let offers := [⟨some item, []⟩, ⟨none, [item]⟩, ⟨none, [item, .int position]⟩]
      match apply setting fuel f offers memory with
      | (.ok (value, _), memory) =>
        collect setting fuel f mapping (position + 1) rest
          (if mapping then value :: done else if isTrue value then item :: done else done) memory
      | (.error stop, memory) => (.error stop, memory)

def accumulate (setting : Setting) (fuel : Nat) (f : Datum) (position : Nat)
    (items : List Datum) (value : Datum) : Run Datum :=
  match fuel with
  | 0 => throw .exhausted
  | fuel + 1 =>
    match items with
    | [] => return value
    | item :: rest => fun memory =>
      let offers := [⟨some item, [value]⟩, ⟨none, [value, item]⟩,
        ⟨none, [value, item, .int position]⟩]
      match apply setting fuel f offers memory with
      | (.ok (value, _), memory) => accumulate setting fuel f (position + 1) rest value memory
      | (.error stop, memory) => (.error stop, memory)

/-- Runs statements; variables declared by one are in sight of the next. The result is the value of
the last one. -/
def statements (setting : Setting) (fuel : Nat) (scope : Scope) (body : List Stmt)
    (last : Datum) : Run Datum :=
  match fuel with
  | 0 => throw .exhausted
  | fuel + 1 =>
    match body with
    | [] => return last
    | .declare name e :: rest => do
      let value ← expr setting fuel scope e
      statements setting fuel (← Run.declare name value scope) rest .unit
    | stmt :: rest => do
      let value ← statement setting fuel scope stmt
      statements setting fuel scope rest value

def statement (setting : Setting) (fuel : Nat) (scope : Scope) (stmt : Stmt) : Run Datum :=
  match fuel with
  | 0 => throw .exhausted
  | fuel + 1 =>
    match stmt with
    | .expr e => expr setting fuel scope e
    | .choice condition yes no => do
      match truth (← expr setting fuel scope condition) with
      | .ok true => statements setting fuel scope yes .unit
      | .ok false => statements setting fuel scope no .unit
      | .error stop => throw stop
    | .block body => statements setting fuel scope body .unit
    | .declare _ e => do
      let _ ← expr setting fuel scope e
      return .unit
    | .assign target op e => do
      let value ← expr setting fuel scope e
      let (name, keys) ← place setting fuel scope target
      let address ← Run.address scope name
      let _ ← unlocked setting name address
      let old ← Run.take address
      let new ← Run.lift (match op with
        | none => Part.replace value keys old
        | some op => Part.change (fun part => Operator.storing op part value) keys old)
      Run.store address new
      return .unit
    | .repeatWhile condition body => whileLoop setting fuel scope (condition.getD (.bool true)) body
    | .forEach name items body => do
      match Rounds.ofDatum? (← expr setting fuel scope items) with
      | some rounds => do
        let scope ← Run.declare name .unit scope
        forLoop setting fuel scope (← Run.address scope name) rounds body
      | none => Run.fail (.unfitting "for")
    | .giveBack none => throw (.returned .unit)
    | .giveBack (some e) => do
      let value ← expr setting fuel scope e
      throw (.returned value)
    | .throwValue none => throw (.thrown .unit)
    | .throwValue (some e) => do
      let value ← expr setting fuel scope e
      throw (.thrown value)
    | .leaveLoop => throw .leaveLoop
    | .nextRound => throw .nextRound
    | .skip => return .unit

def whileLoop (setting : Setting) (fuel : Nat) (scope : Scope) (condition : Expr)
    (body : List Stmt) : Run Datum :=
  match fuel with
  | 0 => throw .exhausted
  | fuel + 1 => fun memory =>
    match expr setting fuel scope condition memory with
    | (.error stop, memory) => (.error stop, memory)
    | (.ok value, memory) =>
      match truth value with
      | .error stop => (.error stop, memory)
      | .ok false => (.ok .unit, memory)
      | .ok true =>
        match statements setting fuel scope body .unit memory with
        | (.ok _, memory) => whileLoop setting fuel scope condition body memory
        | (.error .nextRound, memory) => whileLoop setting fuel scope condition body memory
        | (.error .leaveLoop, memory) => (.ok .unit, memory)
        | (.error stop, memory) => (.error stop, memory)

/-- Runs the body once for each round, with its value in the variable at the address. -/
def forLoop (setting : Setting) (fuel : Nat) (scope : Scope) (address : Nat) (rounds : Rounds)
    (body : List Stmt) : Run Datum :=
  match fuel with
  | 0 => throw .exhausted
  | fuel + 1 =>
    match rounds.next? with
    | none => return .unit
    | some (value, rest) => fun memory =>
      match statements setting fuel scope body .unit (memory.store address value) with
      | (.ok _, memory) => forLoop setting fuel scope address rest body memory
      | (.error .nextRound, memory) => forLoop setting fuel scope address rest body memory
      | (.error .leaveLoop, memory) => (.ok .unit, memory)
      | (.error stop, memory) => (.error stop, memory)

end

end Evaluation

end LinkedSheet.Script
