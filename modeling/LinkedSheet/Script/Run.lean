import LinkedSheet.Script.Operator

/-!
The state of a running script and what the language does with values: the memory of variables, parts
of arrays and maps, and the functions that every script has.

A variable is shared once a closure has been made over it. While a method works on a shared
variable, the variable is locked, and using it is a fault.
-/
namespace LinkedSheet.Script

inductive Stop where
  | thrown (value : Datum)
  | fault (fault : Fault)
  | returned (value : Datum)
  | leaveLoop
  | nextRound
  /-- The step limit is used up. -/
  | exhausted

structure Variable where
  value : Datum
  shared : Bool

/-- Variables by address, and the printed lines, last first. -/
structure Memory where
  slots : Array Variable
  printed : List String

namespace Memory

def empty : Memory := ⟨#[], []⟩

def push (memory : Memory) (value : Datum) : Memory :=
  { memory with slots := memory.slots.push ⟨value, false⟩ }

def store (memory : Memory) (address : Nat) (value : Datum) : Memory :=
  { memory with slots := memory.slots.modify address fun old => { old with value } }

def share (memory : Memory) (address : Nat) : Memory :=
  { memory with
    slots := memory.slots.modify address fun old => { old with shared := true } }

end Memory

abbrev Run := ExceptT Stop (StateM Memory)

namespace Run

def fail (fault : Fault) : Run α :=
  throw (.fault fault)

def lift : Except Fault α → Run α
  | .ok a => pure a
  | .error fault => fail fault

def complain (message : String) : Run α :=
  throw (.thrown (.text message))

def print (line : String) : Run Unit :=
  modify fun memory => { memory with printed := line :: memory.printed }

def declare (name : String) (value : Datum) (scope : Scope) : Run Scope :=
  modifyGet fun memory => ((name, memory.slots.size) :: scope, memory.push value)

def declareAll : List String → List Datum → Scope → Run Scope
  | name :: names, value :: values, scope => do
    declareAll names values (← declare name value scope)
  | _, _, scope => return scope

def address (scope : Scope) (name : String) : Run Nat :=
  match scope.lookup name with
  | some address => return address
  | none => fail (.unknownName name)

def load (address : Nat) : Run Variable := do
  return ((← get).slots[address]?).getD ⟨.unit, false⟩

def store (address : Nat) (value : Datum) : Run Unit :=
  modify fun memory => memory.store address value

/-- The value of a variable, which is unit until another one is stored. -/
def take (address : Nat) : Run Datum :=
  modifyGet fun memory =>
    (((memory.slots[address]?).map (·.value)).getD .unit, memory.store address .unit)

def append (address : Nat) (item : Datum) : Run Unit := do
  match ← take address with
  | .array items => store address (.array (items.push item))
  | value => store address value

def shareAll (scope : Scope) : List String → Run Scope
  | [] => return []
  | name :: names => do
    let address ← address scope name
    modify fun memory => memory.share address
    return (name, address) :: (← shareAll scope names)

end Run

inductive Key where
  | element (position : Datum)
  | property (name : String)

inductive Step where
  | part (key : Key)
  | method (function : String) (arguments : List Datum)

namespace Part

/-- A position from the front, or a negative one from the end. -/
def position? (length : Nat) (position : Int) : Option Nat :=
  if 0 ≤ position then
    if position < length then some position.toNat else none
  else if -position ≤ length then some (length - (-position).toNat) else none

def lookup? : List String → List Datum → String → Option Datum
  | k :: keys, v :: values, key => if k = key then some v else lookup? keys values key
  | _, _, _ => none

def bitCount : Nat := 64

def pattern (n : Int) : Nat :=
  (n % Word.bound).toNat

def bit (n : Int) (i : Nat) : Bool :=
  (pattern n).testBit i

def setBit (n : Int) (i : Nat) (b : Bool) : Int :=
  let others := if bit n i then pattern n - twoPow i else pattern n
  Word.signed (if b then others + twoPow i else others)

def index (length : Nat) (position : Int) : Except Fault Nat :=
  match position? length position with
  | some i => .ok i
  | none => .error (.outOfBounds position)

def element (value : Datum) (position : Int) : Except Fault Datum :=
  match value with
  | .array items => do return items.getD (← index items.size position) .unit
  | .text s => do return .char (s.toList.getD (← index s.length position) ' ')
  | .int n => do return .bool (bit n (← index bitCount position))
  | _ => .error (.unfitting "index")

/-- The value with the element at a position replaced: texts consist of characters, whole numbers
of truth values. -/
def setElement (value : Datum) (position : Int) (part : Datum) : Except Fault Datum :=
  match value, part with
  | .array items, part => do
    return .array (items.setIfInBounds (← index items.size position) part)
  | .text s, .char c => do
    return .text (String.ofList (s.toList.set (← index s.length position) c))
  | .int n, .bool b => do return .int (setBit n (← index bitCount position) b)
  | _, _ => .error (.unfitting "index")

/-- The part of a value under a key; one that a map does not have is unit. -/
def get (value : Datum) : Key → Except Fault Datum
  | .element (.int position) => element value position
  | .element (.text key) =>
    match value with
    | .map keys values => .ok ((lookup? keys values key).getD .unit)
    | _ => .error (.unfitting "index")
  | .element _ => .error (.unfitting "index")
  | .property name =>
    match value with
    | .map keys values => .ok ((lookup? keys values name).getD .unit)
    | .array items =>
      if name = "len" then .ok (.int items.size) else .error (.unfitting name)
    | .text s => if name = "len" then .ok (.int s.length) else .error (.unfitting name)
    | _ => .error (.unfitting name)

def put (value part : Datum) : Key → Except Fault Datum
  | .element (.int position) => setElement value position part
  | .element (.text key) => setProperty key
  | .element _ => .error (.unfitting "index")
  | .property name => setProperty name
where
  setProperty (name : String) : Except Fault Datum :=
    match value with
    | .map keys values =>
      let entries := Operator.setEntry name part keys values
      .ok (.map entries.1 entries.2)
    | _ => .error (.unfitting name)

def change (f : Datum → Except Fault Datum) : List Key → Datum → Except Fault Datum
  | [], value => f value
  | key :: keys, value => do
    let part ← get value key
    let part ← change f keys part
    put value part key

/-- The value with the part behind some keys replaced; it need not have been there. -/
def replace (part : Datum) : List Key → Datum → Except Fault Datum
  | [], _ => .ok part
  | [key], value => put value part key
  | key :: keys, value => do
    let inner ← get value key
    let inner ← replace part keys inner
    put value inner key

end Part

namespace Run

/-- The function of the language of a name on some arguments, if there is one that takes them. -/
def standard? : String → List Datum → Option (Run Datum)
  | "len", [.array items] => some (return .int items.size)
  | "len", [.map keys _] => some (return .int keys.length)
  | "len", [.text s] => some (return .int s.length)
  | "to_string", [d] => some (return .text d.shown)
  | "type_of", [d] => some (return .text d.typeName)
  | "print", [d] => some (do print d.shown; return .unit)
  | "print", [] => some (do print ""; return .unit)
  | _, _ => none

end Run

end LinkedSheet.Script
