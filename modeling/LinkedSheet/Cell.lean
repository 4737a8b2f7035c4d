import LinkedSheet.Word

/-!
Cells of a sheet by row and column, counted from zero, and their `A1` references: column letters
in bijective base 26, then the row counted from one. Cells are ordered by row, then by column.

Indices are natural numbers; `indexBound` is the first one that cannot be addressed and
`maxIndex` the last one that may be written, so that a row count still fits below the bound.
-/
namespace LinkedSheet

structure Cell where
  row : Nat
  col : Nat
deriving DecidableEq, Repr, Inhabited

namespace Cell

/-- Rows and columns are addressed by 64-bit indices. -/
def indexBound : Nat := Word.bound

/-- The largest row or column that may be written. -/
def maxIndex : Nat := indexBound - 2

def order (a b : Cell) : Ordering :=
  (compare a.row b.row).then (compare a.col b.col)

instance : Ord Cell := ⟨order⟩

theorem compare_eq_eq {a b : Cell} : compare a b = .eq ↔ a = b := by
  obtain ⟨ar, ac⟩ := a
  obtain ⟨br, bc⟩ := b
  change (compare ar br).then (compare ac bc) = .eq ↔ _
  rw [Ordering.then_eq_eq, Nat.compare_eq_eq, Nat.compare_eq_eq, Cell.mk.injEq]

theorem compare_eq_lt {a b : Cell} :
    compare a b = .lt ↔ a.row < b.row ∨ a.row = b.row ∧ a.col < b.col := by
  change (compare a.row b.row).then (compare a.col b.col) = .lt ↔ _
  rw [Ordering.then_eq_lt, Nat.compare_eq_lt, Nat.compare_eq_lt, Nat.compare_eq_eq]

theorem compare_swap (a b : Cell) : compare a b = (compare b a).swap := by
  change (compare a.row b.row).then (compare a.col b.col) =
    ((compare b.row a.row).then (compare b.col a.col)).swap
  rw [Ordering.swap_then, Nat.compare_swap, Nat.compare_swap]

instance : Std.TransCmp (compare : Cell → Cell → Ordering) where
  eq_swap := compare_swap _ _
  isLE_trans {a b c} hab hbc := by
    rw [Ordering.isLE_iff_eq_lt_or_eq_eq, compare_eq_lt, compare_eq_eq] at *
    rcases hab with hab | rfl
    · rcases hbc with hbc | rfl
      · left; omega
      · exact Or.inl hab
    · exact hbc

instance : Std.LawfulEqCmp (compare : Cell → Cell → Ordering) where
  eq_of_compare h := compare_eq_eq.1 h
  compare_self := compare_eq_eq.2 rfl

def letter (digit : Nat) : Char :=
  Char.ofNat ('A'.toNat + digit)

/-- One to twenty-six for `A` to `Z`, in either case. -/
def letterValue (c : Char) : Nat :=
  c.toUpper.toNat - 'A'.toNat + 1

def columnLetters (col : Nat) : List Char :=
  if col < 26 then [letter col]
  else columnLetters (col / 26 - 1) ++ [letter (col % 26)]
termination_by col
decreasing_by omega

/-- The bijective base-26 value of the letters, one for `A`. -/
def lettersValue (letters : List Char) : Nat :=
  letters.foldl (fun value c => value * 26 + letterValue c) 0

/-- A number with one more digit behind it, as long as it is a 64-bit number. -/
def appendDigit? (base value digit : Nat) : Option Nat :=
  if value * base + digit < indexBound then some (value * base + digit) else none

theorem le_foldl_digits {base : Nat} (digit : Char → Nat) (positive : 0 < base)
    (signs : List Char) (value : Nat) :
    value ≤ signs.foldl (fun value c => value * base + digit c) value := by
  induction signs generalizing value with
  | nil => exact Nat.le_refl value
  | cons c rest ih =>
    calc
      value ≤ value * base := Nat.le_mul_of_pos_right value positive
      _ ≤ value * base + digit c := Nat.le_add_right _ _
      _ ≤ _ := ih _

theorem foldlM_appendDigit? {base : Nat} (digit : Char → Nat) (positive : 0 < base)
    (signs : List Char) {value : Nat} (fits : value < indexBound) :
    signs.foldlM (fun value c => appendDigit? base value (digit c)) value =
      let total := signs.foldl (fun value c => value * base + digit c) value
      if total < indexBound then some total else none := by
  induction signs generalizing value with
  | nil => simp [fits]
  | cons c rest ih =>
    rw [List.foldlM_cons, List.foldl_cons, appendDigit?]
    by_cases next : value * base + digit c < indexBound
    · rw [if_pos next]
      exact ih next
    · have large := Nat.le_trans (Nat.not_lt.1 next) (le_foldl_digits digit positive rest _)
      rw [if_neg next]
      exact (if_neg (Nat.not_lt.2 large)).symm

/-- The column that ASCII letters name, if their value is a 64-bit number. -/
def columnOfLetters? (letters : List Char) : Option Nat :=
  if letters.isEmpty || !letters.all Char.isAlpha then none
  else (letters.foldlM (fun value c => appendDigit? 26 value (letterValue c)) 0).map (· - 1)

theorem columnOfLetters?_eq (letters : List Char) :
    columnOfLetters? letters =
      if letters.isEmpty || !letters.all Char.isAlpha then none
      else if lettersValue letters < indexBound then some (lettersValue letters - 1) else none := by
  rw [columnOfLetters?, foldlM_appendDigit? letterValue (by decide) letters (by decide)]
  unfold lettersValue
  split
  · rfl
  · dsimp only
    split <;> rfl

def digitsValue (digits : List Char) : Nat :=
  digits.foldl (fun value c => value * 10 + (c.toNat - '0'.toNat)) 0

/-- The row that ASCII digits name, counted from one, if their value is a 64-bit number. -/
def rowOfDigits? (digits : List Char) : Option Nat :=
  match digits.foldlM (fun value c => appendDigit? 10 value (c.toNat - '0'.toNat)) 0 with
  | some (row + 1) => some row
  | _ => none

theorem rowOfDigits?_eq (digits : List Char) :
    rowOfDigits? digits =
      if 1 ≤ digitsValue digits ∧ digitsValue digits < indexBound then
        some (digitsValue digits - 1)
      else none := by
  rw [rowOfDigits?, foldlM_appendDigit? _ (by decide) digits (by decide)]
  change (match if digitsValue digits < indexBound then some (digitsValue digits) else none with
    | some (row + 1) => some row
    | _ => none) = _
  cases digitsValue digits with
  | zero => rfl
  | succ row => by_cases fits : row + 1 < indexBound <;> simp [fits]

def ofReference? (text : List Char) : Option Cell :=
  let letters := text.takeWhile Char.isAlpha
  let digits := text.dropWhile Char.isAlpha
  if digits.isEmpty || !digits.all Char.isDigit then none
  else
    match columnOfLetters? letters, rowOfDigits? digits with
    | some col, some row => some ⟨row, col⟩
    | _, _ => none

def ofText? (text : String) : Option Cell :=
  ofReference? text.toList

def columnText (col : Nat) : String :=
  String.ofList (columnLetters col)

def toText (cell : Cell) : String :=
  columnText cell.col ++ toString (cell.row + 1)

/-- The index moved by a signed offset, if it stays between zero and `maxIndex`. -/
def shiftIndex? (index : Nat) (offset : Int) : Option Nat :=
  let moved := (index : Int) + offset
  if 0 ≤ moved ∧ moved ≤ maxIndex then some moved.toNat else none

/-- The cell moved by signed offsets, if both indices stay in range. -/
def offset? (cell : Cell) (rows cols : Int) : Option Cell :=
  match shiftIndex? cell.row rows, shiftIndex? cell.col cols with
  | some row, some col => some ⟨row, col⟩
  | _, _ => none

def sum? (a b : Nat) : Option Nat :=
  if a + b < indexBound then some (a + b) else none

def writable? (index : Nat) : Option Nat :=
  if index ≤ maxIndex then some index else none

theorem sum?_bind_writable? (a b : Nat) :
    (sum? a b).bind writable? = if a + b ≤ maxIndex then some (a + b) else none := by
  by_cases fits : a + b < indexBound
  · rw [sum?, if_pos fits]
    rfl
  · have some_index : 0 < indexBound := by decide
    have large : ¬ a + b ≤ maxIndex := by
      unfold maxIndex
      omega
    rw [sum?, if_neg fits, if_neg large]
    rfl

/-- The cell moved down and right, if both sums may be written. -/
def advance? (cell : Cell) (rows cols : Nat) : Option Cell := do
  let row ← (sum? cell.row rows).bind writable?
  let col ← (sum? cell.col cols).bind writable?
  return ⟨row, col⟩

def add (cell by_ : Cell) : Cell :=
  ⟨cell.row + by_.row, cell.col + by_.col⟩

instance : Add Cell := ⟨add⟩

end Cell

end LinkedSheet
