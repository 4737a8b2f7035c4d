import LinkedSheet.Text.Quoted
import LinkedSheet.Toml.Item
import LinkedSheet.Toml.Writer

/-!
Taking typed data out of the items of a document, with a fault where an item is not what it should
be.

A value that comes in several kinds names its kind in a field `type`. Its other parts are fields,
or, if the value is an array, the elements behind the kind, in the declared sequence. Of several
faults the one that comes first in the document counts; parts that are missing count last.
-/
namespace LinkedSheet.Toml

structure Fault where
  line : Nat
  text : String

abbrev Reading := Except Fault

/-- The fault stands for the whole of an item, whatever part of it is at fault. -/
def within (item : Item) : Reading α → Reading α
  | .ok a => .ok a
  | .error fault => .error ⟨item.line, fault.text⟩

def ticked (name : String) : String :=
  "`" ++ name ++ "`"

def oneOf : List String → String
  | [a] => ticked a
  | [a, b] => ticked a ++ " or " ++ ticked b
  | names => "one of " ++ ", ".intercalate (names.map ticked)

def unknown (what name : String) (names : List String) : String :=
  "unknown " ++ what ++ " " ++ ticked name ++ ", expected " ++ oneOf names

def floatText (x : Float) : String :=
  match Binary64.ofFloat x with
  | .notANumber => "NaN"
  | b => String.ofList (Writer.binary b)

def datetimeField : String := "$__toml_private_datetime"

namespace Item

def kindText : Item → String
  | scalar _ (.string s) => "string " ++ Text.quoted s
  | scalar _ (.integer n) => "integer " ++ ticked (toString n)
  | scalar _ (.float x) => "floating point " ++ ticked (floatText x)
  | scalar _ (.boolean b) => "boolean " ++ ticked (if b then "true" else "false")
  | scalar _ .datetime => "map"
  | array .. => "sequence"
  | table .. => "map"

def invalid (item : Item) (expected : String) : Fault :=
  ⟨item.line, "invalid type: " ++ item.kindText ++ ", expected " ++ expected⟩

def string (expected : String) : Item → Reading String
  | scalar _ (.string s) => .ok s
  | item => .error (item.invalid expected)

def integer (expected : String) : Item → Reading Int
  | scalar _ (.integer n) => .ok n
  | item => .error (item.invalid expected)

def natural (expected : String) : Item → Reading Nat
  | scalar line (.integer n) =>
    if n < 0 then
      .error ⟨line, "invalid value: integer " ++ ticked (toString n) ++ ", expected " ++ expected⟩
    else .ok n.toNat
  | item => .error (item.invalid expected)

def list (read : Item → Reading α) : Item → Reading (List α)
  | array _ _ items => items.mapM read
  | item => .error (item.invalid "a sequence")

/-- One of several names; a table with the name as its only field and nothing in it will do. -/
def choice (options : List (String × α)) (item : Item) : Reading α :=
  let pick (name : String) : Reading α :=
    match options.lookup name with
    | some a => .ok a
    | none => .error ⟨item.line, unknown "variant" name (options.map Prod.fst)⟩
  match item with
  | scalar _ (.string s) => pick s
  | scalar _ .datetime => pick datetimeField
  | table _ _ [(name, inner)] => do
    let a ← pick name
    match inner with
    | table _ _ [] => return a
    | inner => throw (inner.invalid "unit")
  | table line .. => .error ⟨line, "invalid value: map, expected map with a single key"⟩
  | item => .error (item.invalid "string or map")

def kind (what : String) (kinds : List (String × α)) (item : Item) : Reading α :=
  let pick (tag : Item) : Reading α :=
    match tag with
    | scalar line (.string name) =>
      match kinds.lookup name with
      | some a => .ok a
      | none => .error ⟨line, unknown "variant" name (kinds.map Prod.fst)⟩
    | tag => .error (tag.invalid "variant identifier")
  let missing : Reading α := .error ⟨item.line, "missing field " ++ ticked "type"⟩
  match item with
  | table _ _ fields =>
    match fields.lookup "type" with
    | some tag => pick tag
    | none => missing
  | array _ _ (tag :: _) => pick tag
  | array _ _ [] => missing
  | scalar _ .datetime => missing
  | item => .error (item.invalid ("internally tagged enum " ++ what))

end Item

structure Content where
  line : Nat
  fields : Fields
  names : List String
  /-- What is said if a part is missing. -/
  missing : String → String
  /-- What is said if there are more parts than names. -/
  surplus : Option String

def missingField (name : String) : String :=
  "missing field " ++ ticked name

def count (n : Nat) : String :=
  toString n ++ if n = 1 then " element" else " elements"

def Item.content (variant : String) (names : List String) : Item → Content
  | table line _ fields => ⟨line, Fields.remove "type" fields, names, missingField, none⟩
  | array line _ items =>
    let given := (items.drop 1).length
    ⟨line, names.zip (items.drop 1), names,
      fun _ => s!"invalid length {given}, expected struct variant " ++ variant ++ " with " ++
        count names.length,
      if given ≤ names.length then none
      else some (s!"invalid length {given}, expected " ++ count names.length ++ " in sequence")⟩
  | scalar line _ => ⟨line, [], names, missingField, none⟩

theorem Item.sizeOf_lt_of_content {variant : String} {names : List String} {item inner : Item}
    {name : String} (h : inner ∈ (item.content variant names).fields.lookup name) :
    sizeOf inner < sizeOf item := by
  have h : (item.content variant names).fields.lookup name = some inner := h
  have mem : ∃ key, (key, inner) ∈ (item.content variant names).fields := by
    obtain ⟨before, after, split, _⟩ := List.lookup_eq_some_iff.mp h
    exact ⟨name, split ▸ List.mem_append_right _ (List.mem_cons_self ..)⟩
  obtain ⟨key, mem⟩ := mem
  cases item with
  | scalar line value => simp [Item.content] at mem
  | table line kind fields =>
    have inFields : (key, inner) ∈ fields := (List.mem_filter.mp mem).1
    have lt := List.sizeOf_lt_of_mem inFields
    simp only [Prod.mk.sizeOf_spec] at lt
    simp only [Item.table.sizeOf_spec]
    omega
  | array line ofTables items =>
    have inItems : inner ∈ items := List.mem_of_mem_drop (List.of_mem_zip mem).2
    have lt := List.sizeOf_lt_of_mem inItems
    simp only [Item.array.sizeOf_spec]
    omega

structure Slot (α : Type) where
  name : String
  result : Option (Reading α)

namespace Slot

def fault (slot : Slot α) : String × Option Fault :=
  (slot.name, match slot.result with
    | some (.error fault) => some fault
    | _ => none)

def required (content : Content) (slot : Slot α) : Reading α :=
  match slot.result with
  | some result => result
  | none => .error ⟨content.line, content.missing slot.name⟩

def optional (slot : Slot α) : Reading (Option α) :=
  match slot.result with
  | some (.ok a) => .ok (some a)
  | some (.error fault) => .error fault
  | none => .ok none

end Slot

namespace Content

def slot (content : Content) (name : String) (read : Item → Reading α) : Slot α :=
  ⟨name, (content.fields.lookup name).map read⟩

/-- The first fault in the sequence of the document, if there is one: a field without a meaning, or
one that could not be read. -/
def firstFault (names : List String) (known : List (String × Option Fault)) : Fields → Reading Unit
  | [] => .ok ()
  | (name, item) :: rest =>
    match known.lookup name with
    | none => .error ⟨item.line, unknown "field" name names⟩
    | some (some fault) => .error fault
    | some none => firstFault names known rest

/-- A value from its parts: faults of the parts come before missing parts, and those before parts
that are too many. -/
def build (content : Content) (known : List (String × Option Fault)) (value : Reading α) :
    Reading α := do
  firstFault content.names known content.fields
  let value ← value
  match content.surplus with
  | none => return value
  | some text => throw ⟨content.line, text⟩

end Content

end LinkedSheet.Toml
