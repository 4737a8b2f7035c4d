import LinkedSheet.Toml.Number
import LinkedSheet.Toml.Quoted

/-!
Reading a document in the configuration language. Its text is a sequence of statements, each on a
line of its own: headers of tables and fields with their values. The statements between two headers
fill one table, and the tables are put together in the sequence of their headers.

Levels may be nested below a limit, or to any depth if there is none.

Reading stops at the first fault, and the line where it stopped is the whole answer: a fault of a
statement's text counts where the text goes wrong, a name that is given twice where the second
statement starts.
-/
namespace LinkedSheet.Toml

def skipSpaces (cs : List Char) : List Char :=
  cs.dropWhile isSpace

def skipGaps (inComment : Bool) (line : Nat) : List Char → Place
  | [] => ⟨line, []⟩
  | '\n' :: rest => skipGaps false (line + 1) rest
  | '\r' :: '\n' :: rest => skipGaps false (line + 1) rest
  | c :: rest =>
    if inComment && isPlain c || isSpace c then skipGaps inComment line rest
    else if c == '#' then skipGaps true line rest
    else ⟨line, c :: rest⟩

/-- Whether a statement may end here: at the end of the line or before a comment. -/
def isLineEnd : List Char → Bool
  | [] => true
  | '\n' :: _ => true
  | '\r' :: '\n' :: _ => true
  | '#' :: _ => true
  | _ => false

def isBareChar (c : Char) : Bool :=
  c.isAlphanum || c == '_' || c == '-'

def readName (line : Nat) (cs : List Char) : Except Nat (Option (String × List Char)) :=
  let quoted (quote : Char) (rest : List Char) : Except Nat (Option (String × List Char)) := do
    let (chars, rest) ← Quoted.singleLine quote line [] rest
    return some (String.ofList chars, rest)
  match cs with
  | '"' :: rest => quoted '"' rest
  | '\'' :: rest => quoted '\'' rest
  | cs =>
    let name := cs.takeWhile isBareChar
    .ok (if name.isEmpty then none else some (String.ofList name, cs.dropWhile isBareChar))

/-- Names with points between them, and blanks around them or not; a point without a name behind it
is left. Every name uses up a character, so that as many names as `fuel` are enough if the text has
no more characters. -/
def readNames (line : Nat) : (fuel : Nat) → List Char →
    Except Nat (Option (List String × List Char))
  | 0, _ => .ok none
  | fuel + 1, cs => do
    match ← readName line (skipSpaces cs) with
    | none => return none
    | some (name, rest) =>
      match skipSpaces rest with
      | '.' :: rest =>
        match ← readNames line fuel rest with
        | some (path, rest) => return some (name :: path, rest)
        | none => return some ([name], '.' :: rest)
      | rest => return some ([name], rest)

/-- The number of levels that a document does not reach, in the names of a path and in brackets
within brackets. -/
def nestingLimit : Option Nat := some 80

/-- Whether a number of levels stays below a limit, if there is one. -/
def isBelow (limit : Option Nat) (levels : Nat) : Bool :=
  limit.all (levels < ·)

variable (limit : Option Nat)

def readPath (fuel line : Nat) (cs : List Char) :
    Except Nat (Option (List String × List Char)) := do
  match ← readNames line fuel cs with
  | some (path, rest) => return if isBelow limit path.length then some (path, rest) else none
  | none => return none

/-- The fields of a table in braces, or none if a name is given twice. -/
def inlineFields? (fields : Fields) : List (List String × Item) → Option Fields
  | [] => some fields
  | (path, item) :: rest => do inlineFields? (← Fields.insert? item true path fields) rest

mutual

/-- The value at a place within `depth` brackets. Every call uses up a character or follows one that
does. -/
def readItem : (fuel depth : Nat) → Place → Except Nat (Item × Place)
  | 0, _, place => .error place.line
  | fuel + 1, depth, ⟨line, cs⟩ =>
    match cs with
    | '[' :: rest =>
      if isBelow limit (depth + 1) then readArray fuel (depth + 1) line [] ⟨line, rest⟩
      else .error line
    | '\x7b' :: rest =>
      if isBelow limit (depth + 1) then
        match skipSpaces rest with
        | '\x7d' :: rest => .ok (.table line .inline [], ⟨line, rest⟩)
        | rest => readTable fuel (depth + 1) line [] ⟨line, rest⟩
      else .error line
    | '"' :: rest => do
      let (s, place) ← Quoted.read '"' line rest
      return (.scalar line (.string s), place)
    | '\'' :: rest => do
      let (s, place) ← Quoted.read '\'' line rest
      return (.scalar line (.string s), place)
    | cs =>
      match Number.read? cs with
      | some (value, rest) => .ok (.scalar line value, ⟨line, rest⟩)
      | none => .error line

/-- The elements of an array up to its bracket; `read` holds those so far, last first. -/
def readArray : (fuel depth : Nat) → (start : Nat) → (read : List Item) → Place →
    Except Nat (Item × Place)
  | 0, _, _, _, place => .error place.line
  | fuel + 1, depth, start, read, ⟨line, cs⟩ =>
    let place := skipGaps false line cs
    match place.rest with
    | ']' :: rest => .ok (.array start false read.reverse, ⟨place.line, rest⟩)
    | _ => do
      let (item, place) ← readItem fuel depth place
      let place := skipGaps false place.line place.rest
      match place.rest with
      | ',' :: rest => readArray fuel depth start (item :: read) ⟨place.line, rest⟩
      | ']' :: rest => .ok (.array start false (item :: read).reverse, ⟨place.line, rest⟩)
      | _ => .error place.line

/-- The fields of a table in braces, at least one, up to the closing brace. A name that is given
twice is found once the fields end, before it is seen whether a brace follows them. -/
def readTable : (fuel depth : Nat) → (start : Nat) → (read : List (List String × Item)) → Place →
    Except Nat (Item × Place)
  | 0, _, _, _, place => .error place.line
  | fuel + 1, depth, start, read, ⟨line, cs⟩ => do
    match ← readPath limit (fuel + 1) line cs with
    | some (path, '=' :: rest) => do
      let (item, place) ← readItem fuel depth ⟨line, skipSpaces rest⟩
      let read := (path, item) :: read
      match skipSpaces place.rest with
      | ',' :: rest => readTable fuel depth start read ⟨place.line, rest⟩
      | rest =>
        match inlineFields? [] read.reverse, rest with
        | some fields, '\x7d' :: rest => .ok (.table start .inline fields, ⟨place.line, rest⟩)
        | some _, _ => .error place.line
        | none, _ => .error start
    | some _ => .error line
    | none => .error (if (inlineFields? [] read.reverse).isSome then line else start)

end

inductive Statement where
  /-- The header of a table, which is an element of an array or stands alone. -/
  | header (line : Nat) (inArray : Bool) (path : List String)
  | field (path : List String) (item : Item)

def readHeader (fuel : Nat) (inArray : Bool) (line : Nat) (cs : List Char) :
    Except Nat (Statement × Place) := do
  match inArray, ← readPath limit fuel line cs with
  | false, some (path, ']' :: rest) => return (.header line false path, ⟨line, rest⟩)
  | true, some (path, ']' :: ']' :: rest) => return (.header line true path, ⟨line, rest⟩)
  | _, _ => .error line

def readStatement (fuel : Nat) (place : Place) : Except Nat (Statement × Place) :=
  let line := place.line
  match place.rest with
  | '[' :: '[' :: rest => readHeader limit fuel true line rest
  | '[' :: rest => readHeader limit fuel false line rest
  | cs => do
    match ← readPath limit fuel line cs with
    | some (path, '=' :: rest) => do
      let (item, place) ← readItem limit fuel 0 ⟨line, skipSpaces rest⟩
      return (.field path item, place)
    | _ => .error line

/-- The statements of a text up to its end or to a fault, with the line of the fault; `read` holds
those so far, last first. Every statement uses up a character. -/
def readStatements : (fuel : Nat) → (read : List Statement) → Place →
    List Statement × Option Nat
  | 0, read, place => (read.reverse, some place.line)
  | fuel + 1, read, ⟨line, cs⟩ =>
    let place := skipGaps false line cs
    match place.rest with
    | [] => (read.reverse, none)
    | _ =>
      match readStatement limit (fuel + 1) place with
      | .error line => (read.reverse, some line)
      | .ok (statement, ⟨line, rest⟩) =>
        let rest := skipSpaces rest
        if isLineEnd rest then readStatements fuel (statement :: read) ⟨line, rest⟩
        else (read.reverse, some line)

structure Section where
  line : Nat
  inArray : Bool
  path : List String
  fields : List (List String × Item)

def sections (statements : List Statement) : List (List String × Item) × List Section :=
  statements.foldr (fun statement later =>
    match statement with
    | .field path item => ((path, item) :: later.1, later.2)
    | .header line inArray path => ([], ⟨line, inArray, path, later.1⟩ :: later.2)) ([], [])

def addFields : List (List String × Item) → Fields → Except Nat Fields
  | [], fields => .ok fields
  | (path, item) :: rest, fields =>
    match Fields.insert? item true path fields with
    | some fields => addFields rest fields
    | none => .error item.line

/-- Puts the tables of sections in their places, one after the other. -/
def addSections : List Section → Fields → Except Nat Fields
  | [], fields => .ok fields
  | part :: rest, fields =>
    match Fields.place part.line part.inArray (addFields part.fields) part.path fields with
    | .ok fields => addSections rest fields
    | .error line => .error line

def read (text : String) : Except Nat Fields := do
  let cs :=
    match text.toList with
    | '\uFEFF' :: rest => rest
    | cs => cs
  let (statements, fault) := readStatements limit (cs.length + 1) [] ⟨1, cs⟩
  let (fields, later) := sections statements
  let root ← addFields fields []
  let root ← addSections later root
  match fault with
  | none => return root
  | some line => throw line

end LinkedSheet.Toml
