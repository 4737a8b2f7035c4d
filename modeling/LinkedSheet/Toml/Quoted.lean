import LinkedSheet.Text.Digits

/-!
Reading quoted strings. Double quotes allow escapes and single quotes do not; three quotes let a
string go over several lines, and up to two quotes may then stand right before the closing ones.
A reader answers with the string and what follows it, or with the line where it stopped.
-/
namespace LinkedSheet.Toml

/-- A place in a document: the number of the line and what is still to be read. -/
structure Place where
  line : Nat
  rest : List Char

/-- The characters that may stand as they are within a line: all but control characters, a tab being
allowed. -/
def isPlain (c : Char) : Bool :=
  c == '\t' || (' ' ≤ c && c != '\x7f')

def isSpace (c : Char) : Bool :=
  c == ' ' || c == '\t'

namespace Quoted

def shortEscape? (c : Char) : Option Char :=
  if c == 'b' then some '\x08'
  else if c == 't' then some '\t'
  else if c == 'n' then some '\n'
  else if c == 'f' then some '\x0c'
  else if c == 'r' then some '\r'
  else if c == '"' || c == '\\' then some c
  else none

/-- The character that is escaped behind a backslash, and what follows it. -/
def escape? : List Char → Option (Char × List Char)
  | 'u' :: a :: b :: c :: d :: rest => (Text.charOfHex? [a, b, c, d]).map (·, rest)
  | 'U' :: a :: b :: c :: d :: e :: f :: g :: h :: rest =>
    (Text.charOfHex? [a, b, c, d, e, f, g, h]).map (·, rest)
  | c :: rest => (shortEscape? c).map (·, rest)
  | [] => none

theorem length_of_escape? {cs rest : List Char} {c : Char} (h : escape? cs = some (c, rest)) :
    rest.length < cs.length := by
  unfold escape? at h
  split at h
  · simp only [Option.map_eq_some_iff, Prod.mk.injEq] at h
    obtain ⟨_, _, _, rfl⟩ := h
    simp only [List.length_cons]
    omega
  · simp only [Option.map_eq_some_iff, Prod.mk.injEq] at h
    obtain ⟨_, _, _, rfl⟩ := h
    simp only [List.length_cons]
    omega
  · simp only [Option.map_eq_some_iff, Prod.mk.injEq] at h
    obtain ⟨_, _, _, rfl⟩ := h
    simp
  · simp at h

/-- The line where reading stops behind a backslash that escapes nothing. What follows the backslash
is read before it is found wrong. -/
def lineOfEscape (line : Nat) : List Char → Nat
  | '\n' :: _ => line + 1
  | _ => line

/-- The string up to its closing quote on the same line; `read` holds its characters so far, last
first. -/
def singleLine (quote : Char) (line : Nat) (read : List Char) (cs : List Char) :
    Except Nat (List Char × List Char) :=
  match cs with
  | [] => .error line
  | c :: rest =>
    if c = quote then .ok (read.reverse, rest)
    else if c = '\\' ∧ quote = '"' then
      match h : escape? rest with
      | some (escaped, after) =>
        have : after.length < rest.length := length_of_escape? h
        singleLine quote line (escaped :: read) after
      | none => .error (lineOfEscape line rest)
    else if isPlain c then singleLine quote line (c :: read) rest
    else .error line
termination_by cs.length

/-- Behind one quote: the quotes that still belong to a string of several lines, and what follows
the string, if two more quotes are there to close it. -/
def closing? (quote : Char) (cs : List Char) : Option (List Char × List Char) :=
  let count := (cs.takeWhile (· == quote)).length
  if count < 2 then none
  else some (List.replicate (min (count - 2) 2) quote, cs.drop (2 + min (count - 2) 2))

/-- Whether nothing but blanks follows on the line, as behind a backslash that joins lines. -/
def endsLine (cs : List Char) : Bool :=
  match cs.dropWhile isSpace with
  | '\n' :: _ => true
  | '\r' :: '\n' :: _ => true
  | _ => false

/-- The string up to its three closing quotes. A line break is read as a line feed. While `joining`,
blanks and line breaks are left out, as they are behind a backslash at the end of a line. -/
def multiLine (quote : Char) (joining : Bool) (read : List Char) (line : Nat) (cs : List Char) :
    Except Nat (List Char × Place) :=
  match cs with
  | [] => .error line
  | '\n' :: rest =>
    multiLine quote joining (if joining then read else '\n' :: read) (line + 1) rest
  | '\r' :: '\n' :: rest =>
    multiLine quote joining (if joining then read else '\n' :: read) (line + 1) rest
  | c :: rest =>
    if joining ∧ isSpace c then multiLine quote true read line rest
    else if c = quote then
      match closing? quote rest with
      | some (quotes, after) => .ok (read.reverse ++ quotes, ⟨line, after⟩)
      | none => multiLine quote false (c :: read) line rest
    else if c = '\\' ∧ quote = '"' then
      if endsLine rest then multiLine quote true read line rest
      else
        match h : escape? rest with
        | some (escaped, after) =>
          have : after.length < rest.length := length_of_escape? h
          multiLine quote false (escaped :: read) line after
        | none => .error line
    else if isPlain c then multiLine quote false (c :: read) line rest
    else .error line
termination_by cs.length

/-- The string behind its first quote. A line break right behind three opening quotes is not part of
it. -/
def read (quote : Char) (line : Nat) (cs : List Char) : Except Nat (String × Place) :=
  let several (line : Nat) (cs : List Char) : Except Nat (String × Place) := do
    let (chars, place) ← multiLine quote false [] line cs
    return (String.ofList chars, place)
  let single : Except Nat (String × Place) := do
    let (chars, rest) ← singleLine quote line [] cs
    return (String.ofList chars, ⟨line, rest⟩)
  match cs with
  | a :: b :: rest =>
    if a = quote ∧ b = quote then
      match rest with
      | '\n' :: rest => several (line + 1) rest
      | '\r' :: '\n' :: rest => several (line + 1) rest
      | rest => several line rest
    else single
  | _ => single

end Quoted

end LinkedSheet.Toml
