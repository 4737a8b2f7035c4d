import LinkedSheet.Proofs.CellReference
import Mathlib.Data.List.Induction
import Mathlib.Data.Nat.Digits.Defs

/-!
The texts that are references. A text is one just when it is letters and then digits, and the
numbers that they spell are 64-bit numbers other than zero; the cell lies one row and one column
before these numbers. Writing the cell again gives the text in capital letters and without leading
zeros. So every cell in bounds has one such text, and no two cells have the same.
-/
namespace LinkedSheet.Cell
variable {letters digits : List Char} {c : Char} {col row digit : Nat}

def capitals : List Char :=
  ['A', 'B', 'C', 'D', 'E', 'F', 'G', 'H', 'I', 'J', 'K', 'L', 'M',
    'N', 'O', 'P', 'Q', 'R', 'S', 'T', 'U', 'V', 'W', 'X', 'Y', 'Z']

def decimals : List Char :=
  ['0', '1', '2', '3', '4', '5', '6', '7', '8', '9']

/-- The number that signs spell in place notation, the last one counting units, where the first sign
of the alphabet stands for `least`. -/
def numeral (alphabet : List Char) (least : Nat) (signs : List Char) : Nat :=
  Nat.ofDigits alphabet.length (signs.reverse.map fun c => alphabet.idxOf c + least)

def columnNumber (letters : List Char) : Nat :=
  numeral capitals 1 (letters.map Char.toUpper)

def rowNumber (digits : List Char) : Nat :=
  numeral decimals 0 digits

theorem numeral_append_singleton (alphabet : List Char) (least : Nat) (signs : List Char)
    (c : Char) :
    numeral alphabet least (signs ++ [c]) =
      numeral alphabet least signs * alphabet.length + (alphabet.idxOf c + least) := by
  rw [numeral, List.reverse_append, List.reverse_singleton, List.singleton_append, List.map_cons,
    Nat.ofDigits_cons, numeral, Nat.mul_comm, Nat.add_comm]

theorem isAlpha_iff : c.isAlpha = true ↔ 'A' ≤ c ∧ c ≤ 'Z' ∨ 'a' ≤ c ∧ c ≤ 'z' := by
  calc
    c.isAlpha = true ↔ c.isUpper = true ∨ c.isLower = true := Bool.or_eq_true_iff
    _ ↔ _ := or_congr decide_eq_true_iff
      (Bool.and_eq_true_iff.trans (and_congr decide_eq_true_iff decide_eq_true_iff))

theorem exists_eq_ofNat {first last : Char} (low : first ≤ c) (high : c ≤ last) :
    ∃ offset < last.toNat - first.toNat + 1, c = Char.ofNat (first.toNat + offset) := by
  rw [Char.le_def, UInt32.le_iff_toNat_le] at low high
  have sign : Char.ofNat c.toNat = c := Char.ofNat_toNat c
  obtain ⟨offset, number⟩ : ∃ offset, c.toNat = first.toNat + offset := Nat.exists_eq_add_of_le low
  refine ⟨offset, ?_, by rw [← number, sign]⟩
  change c.toNat ≤ last.toNat at high
  omega

theorem exists_letter_of_isAlpha (alphabetic : c.isAlpha = true) :
    ∃ digit < 26, c.toUpper = letter digit ∧ letterValue c = digit + 1 := by
  rcases isAlpha_iff.1 alphabetic with ⟨low, high⟩ | ⟨low, high⟩
  · obtain ⟨digit, small, rfl⟩ := exists_eq_ofNat low high
    change digit < 26 at small
    refine ⟨digit, small, ?_⟩
    interval_cases digit <;> exact ⟨rfl, rfl⟩
  · obtain ⟨digit, small, rfl⟩ := exists_eq_ofNat low high
    change digit < 26 at small
    refine ⟨digit, small, ?_⟩
    interval_cases digit <;> exact ⟨rfl, rfl⟩

theorem idxOf_letter (small : digit < 26) : capitals.idxOf (letter digit) = digit := by
  interval_cases digit <;> rfl

theorem columnNumber_append_singleton (letters : List Char) (c : Char) :
    columnNumber (letters ++ [c]) =
      columnNumber letters * 26 + (capitals.idxOf c.toUpper + 1) := by
  rw [columnNumber, List.map_append, List.map_singleton, numeral_append_singleton]
  rfl

theorem lettersValue_eq_columnNumber (alphabetic : ∀ c ∈ letters, c.isAlpha = true) :
    lettersValue letters = columnNumber letters := by
  induction letters using List.reverseRecOn with
  | nil => rfl
  | append_singleton front c ih =>
    rw [List.forall_mem_append, List.forall_mem_singleton] at alphabetic
    obtain ⟨digit, small, upper, value⟩ := exists_letter_of_isAlpha alphabetic.2
    rw [lettersValue_append_singleton, ih alphabetic.1, value, columnNumber_append_singleton, upper,
      idxOf_letter small]

theorem lettersValue_pos (some_letter : letters ≠ []) : 0 < lettersValue letters := by
  rcases List.eq_nil_or_concat letters with none_left | ⟨front, c, rfl⟩
  · exact absurd none_left some_letter
  · rw [List.concat_eq_append, lettersValue_append_singleton, letterValue]
    omega

theorem columnLetters_lettersValue (alphabetic : ∀ c ∈ letters, c.isAlpha = true)
    (some_letter : letters ≠ []) :
    columnLetters (lettersValue letters - 1) = letters.map Char.toUpper := by
  induction letters using List.reverseRecOn with
  | nil => exact absurd rfl some_letter
  | append_singleton front c ih =>
    rw [List.forall_mem_append, List.forall_mem_singleton] at alphabetic
    obtain ⟨digit, small, upper, value⟩ := exists_letter_of_isAlpha alphabetic.2
    have units : lettersValue (front ++ [c]) - 1 = lettersValue front * 26 + digit := by
      rw [lettersValue_append_singleton, value]
      omega
    rw [units, List.map_append, List.map_singleton, upper]
    rcases eq_or_ne front [] with rfl | more
    · rw [List.map_nil, List.nil_append, ← columnLetters_of_lt small]
      exact congrArg columnLetters (Nat.zero_add digit)
    · have positive := lettersValue_pos more
      have tens : (lettersValue front * 26 + digit) / 26 - 1 = lettersValue front - 1 := by omega
      have rest : (lettersValue front * 26 + digit) % 26 = digit := by omega
      rw [columnLetters_of_le (by omega), tens, rest, ih alphabetic.1 more]

theorem isDigit_iff : c.isDigit = true ↔ '0' ≤ c ∧ c ≤ '9' :=
  Bool.and_eq_true_iff.trans (and_congr decide_eq_true_iff decide_eq_true_iff)

theorem exists_digitChar_of_isDigit (decimal : c.isDigit = true) :
    ∃ digit < 10, c = Nat.digitChar digit ∧ c.toNat - '0'.toNat = digit := by
  obtain ⟨low, high⟩ := isDigit_iff.1 decimal
  obtain ⟨digit, small, rfl⟩ := exists_eq_ofNat low high
  change digit < 10 at small
  refine ⟨digit, small, ?_⟩
  interval_cases digit <;> exact ⟨rfl, rfl⟩

theorem idxOf_digitChar (small : digit < 10) : decimals.idxOf (Nat.digitChar digit) = digit := by
  interval_cases digit <;> rfl

theorem digitsValue_append_singleton (digits : List Char) (c : Char) :
    digitsValue (digits ++ [c]) = digitsValue digits * 10 + (c.toNat - '0'.toNat) := by
  rw [digitsValue, List.foldl_append]
  rfl

theorem digitsValue_eq_rowNumber (decimal : ∀ c ∈ digits, c.isDigit = true) :
    digitsValue digits = rowNumber digits := by
  induction digits using List.reverseRecOn with
  | nil => rfl
  | append_singleton front c ih =>
    rw [List.forall_mem_append, List.forall_mem_singleton] at decimal
    obtain ⟨digit, small, sign, value⟩ := exists_digitChar_of_isDigit decimal.2
    rw [digitsValue_append_singleton, ih decimal.1, value, rowNumber, rowNumber,
      numeral_append_singleton, sign, idxOf_digitChar small]
    rfl

theorem toDigits_foldl {value : Nat} (positive : 0 < value)
    (decimal : ∀ c ∈ digits, c.isDigit = true) :
    Nat.toDigits 10 (digits.foldl (fun value c => value * 10 + (c.toNat - '0'.toNat)) value) =
      Nat.toDigits 10 value ++ digits := by
  induction digits generalizing value with
  | nil => rw [List.foldl_nil, List.append_nil]
  | cons c rest ih =>
    rw [List.forall_mem_cons] at decimal
    obtain ⟨digit, small, sign, value⟩ := exists_digitChar_of_isDigit decimal.1
    rw [List.foldl_cons, value, ih (by omega) decimal.2, Nat.mul_comm,
      ← Nat.toDigits_append_toDigits (by decide) positive small, Nat.toDigits_of_lt_base small,
      List.append_assoc, List.singleton_append, sign]

theorem toDigits_digitsValue (decimal : ∀ c ∈ digits, c.isDigit = true)
    (positive : 1 ≤ digitsValue digits) :
    Nat.toDigits 10 (digitsValue digits) = digits.dropWhile (· == '0') := by
  induction digits with
  | nil => exact absurd positive (by decide)
  | cons c rest ih =>
    rw [List.forall_mem_cons] at decimal
    obtain ⟨digit, small, sign, value⟩ := exists_digitChar_of_isDigit decimal.1
    rcases Nat.eq_zero_or_pos digit with rfl | more
    · obtain rfl : c = '0' := sign
      exact ih decimal.2 positive
    · have first : ¬ (c == '0') = true := by simp [sign, more.ne']
      rw [digitsValue, List.foldl_cons, Nat.zero_mul, Nat.zero_add, value,
        toDigits_foldl more decimal.2, Nat.toDigits_of_lt_base small, List.dropWhile_cons,
        if_neg first, ← sign, List.singleton_append]

structure Spells (text : String) (letters digits : List Char) : Prop where
  toList_eq : text.toList = letters ++ digits
  some_letter : letters ≠ []
  some_digit : digits ≠ []
  alphabetic : ∀ c ∈ letters, 'A' ≤ c ∧ c ≤ 'Z' ∨ 'a' ≤ c ∧ c ≤ 'z'
  decimal : ∀ c ∈ digits, '0' ≤ c ∧ c ≤ '9'

variable {text : String} {cell : Cell}

theorem Spells.isAlpha (spelled : Spells text letters digits) : ∀ c ∈ letters, c.isAlpha = true :=
  fun c member => isAlpha_iff.2 (spelled.alphabetic c member)

theorem Spells.isDigit (spelled : Spells text letters digits) : ∀ c ∈ digits, c.isDigit = true :=
  fun c member => isDigit_iff.2 (spelled.decimal c member)

theorem columnOfLetters?_eq_some_iff :
    columnOfLetters? letters = some col ↔
      letters ≠ [] ∧ (∀ c ∈ letters, c.isAlpha = true) ∧ lettersValue letters < indexBound ∧
        col = lettersValue letters - 1 := by
  have written : ¬ (letters.isEmpty || !letters.all Char.isAlpha) = true ↔
      letters ≠ [] ∧ ∀ c ∈ letters, c.isAlpha = true := by simp
  rw [columnOfLetters?_eq, Option.ite_none_left_eq_some, Option.ite_none_right_eq_some,
    Option.some_inj, written, and_assoc, @eq_comm _ col]

theorem rowOfDigits?_eq_some_iff :
    rowOfDigits? digits = some row ↔
      1 ≤ digitsValue digits ∧ digitsValue digits < indexBound ∧ row = digitsValue digits - 1 := by
  rw [rowOfDigits?_eq, Option.ite_none_right_eq_some, Option.some_inj, and_assoc, @eq_comm _ row]

theorem exists_spells_of_ofText? (read : ofText? text = some cell) :
    ∃ letters digits, Spells text letters digits := by
  refine ⟨text.toList.takeWhile Char.isAlpha, text.toList.dropWhile Char.isAlpha, ?_⟩
  unfold ofText? ofReference? at read
  dsimp only at read
  split at read
  · cases read
  · rename_i whole
    split at read
    · rename_i col row column _
      obtain ⟨some_letter, alphabetic, _⟩ := columnOfLetters?_eq_some_iff.1 column
      have decimal : text.toList.dropWhile Char.isAlpha ≠ [] ∧
          ∀ c ∈ text.toList.dropWhile Char.isAlpha, c.isDigit = true := by simpa using whole
      exact {
        toList_eq := List.takeWhile_append_dropWhile.symm
        some_letter := some_letter
        some_digit := decimal.1
        alphabetic := fun c member => isAlpha_iff.1 (alphabetic c member)
        decimal := fun c member => isDigit_iff.1 (decimal.2 c member) }
    · cases read

theorem Spells.ofText?_eq_some_iff (spelled : Spells text letters digits) :
    ofText? text = some cell ↔
      columnOfLetters? letters = some cell.col ∧ rowOfDigits? digits = some cell.row := by
  obtain ⟨row, col⟩ := cell
  rw [ofText?, spelled.toList_eq, ofReference?_append spelled.isAlpha spelled.isDigit
    spelled.some_digit]
  cases columnOfLetters? letters <;> cases rowOfDigits? digits <;> simp [and_comm]

theorem lt_indexBound_iff {n : Nat} : n < indexBound ↔ n ≤ 2 ^ 64 - 1 := by
  unfold indexBound Word.bound
  omega

theorem Spells.ofText?_eq_some_iff_numbers (spelled : Spells text letters digits) :
    ofText? text = some cell ↔ columnNumber letters ≤ 2 ^ 64 - 1 ∧
      (1 ≤ rowNumber digits ∧ rowNumber digits ≤ 2 ^ 64 - 1) ∧
      cell.row = rowNumber digits - 1 ∧ cell.col = columnNumber letters - 1 := by
  rw [spelled.ofText?_eq_some_iff, columnOfLetters?_eq_some_iff, rowOfDigits?_eq_some_iff,
    lettersValue_eq_columnNumber spelled.isAlpha, digitsValue_eq_rowNumber spelled.isDigit,
    lt_indexBound_iff, lt_indexBound_iff]
  have some_letter := spelled.some_letter
  have alphabetic := spelled.isAlpha
  tauto

theorem Spells.toText_eq (spelled : Spells text letters digits) (read : ofText? text = some cell) :
    cell.toText = String.ofList (letters.map Char.toUpper ++ digits.dropWhile (· == '0')) := by
  obtain ⟨column, row⟩ := spelled.ofText?_eq_some_iff.1 read
  obtain ⟨some_letter, alphabetic, _, col⟩ := columnOfLetters?_eq_some_iff.1 column
  obtain ⟨positive, _, row⟩ := rowOfDigits?_eq_some_iff.1 row
  have next : cell.row + 1 = digitsValue digits := by omega
  rw [← String.toList_inj, String.toList_ofList, toList_toText, col, next,
    columnLetters_lettersValue alphabetic some_letter,
    toDigits_digitsValue spelled.isDigit positive]

/-- A text is the reference of a cell just when it is letters and then digits, and both spell 64-bit
numbers, the digits not zero; these are the column and the row, counted from one. The cell is
written with the same letters in capitals and the same digits without leading zeros. -/
theorem text_reads_iff_spells (text : String) (cell : Cell) :
    (ofText? text = some cell ↔
      ∃ letters digits, Spells text letters digits ∧ columnNumber letters ≤ 2 ^ 64 - 1 ∧
        (1 ≤ rowNumber digits ∧ rowNumber digits ≤ 2 ^ 64 - 1) ∧
        cell.row = rowNumber digits - 1 ∧ cell.col = columnNumber letters - 1) ∧
    ∀ letters digits, Spells text letters digits → ofText? text = some cell →
      cell.toText = String.ofList (letters.map Char.toUpper ++ digits.dropWhile (· == '0')) := by
  refine ⟨⟨fun read => ?_, ?_⟩, fun letters digits spelled read => spelled.toText_eq read⟩
  · obtain ⟨letters, digits, spelled⟩ := exists_spells_of_ofText? read
    exact ⟨letters, digits, spelled, spelled.ofText?_eq_some_iff_numbers.1 read⟩
  · rintro ⟨letters, digits, spelled, numbers⟩
    exact spelled.ofText?_eq_some_iff_numbers.2 numbers

theorem text_reads_iff_spells_leadingZeros :
    Spells "aB007" ['a', 'B'] ['0', '0', '7'] ∧ ofText? "aB007" = some ⟨6, 27⟩ ∧
      toText ⟨6, 27⟩ = "AB7" := by
  have alphabetic : ['a', 'B'].all Char.isAlpha = true := by decide
  have decimal : ['0', '0', '7'].all Char.isDigit = true := by decide
  have spelled : Spells "aB007" ['a', 'B'] ['0', '0', '7'] :=
    ⟨by decide, by decide, by decide,
      fun c member => isAlpha_iff.1 (List.all_eq_true.1 alphabetic c member),
      fun c member => isDigit_iff.1 (List.all_eq_true.1 decimal c member)⟩
  obtain ⟨reads, written⟩ := text_reads_iff_spells "aB007" ⟨6, 27⟩
  have read : ofText? "aB007" = some ⟨6, 27⟩ :=
    reads.2 ⟨_, _, spelled, by decide, by decide, by decide, by decide⟩
  exact ⟨spelled, read, written _ _ spelled read⟩

theorem spells_toText (cell : Cell) :
    Spells cell.toText (columnLetters cell.col) (Nat.toDigits 10 (cell.row + 1)) where
  toList_eq := toList_toText cell
  some_letter := columnLetters_ne_nil cell.col
  some_digit := Nat.toDigits_ne_nil
  alphabetic := fun c member => isAlpha_iff.1 (isAlpha_of_mem_columnLetters cell.col c member)
  decimal := fun c member => isDigit_iff.1 (isDigit_of_mem_toDigits (cell.row + 1) c member)

theorem Spells.unique {otherLetters otherDigits : List Char} (one : Spells text letters digits)
    (other : Spells text otherLetters otherDigits) :
    letters = otherLetters ∧ digits = otherDigits := by
  obtain ⟨front, back⟩ := takeWhile_dropWhile_letters one.isAlpha one.isDigit one.some_digit
  obtain ⟨otherFront, otherBack⟩ :=
    takeWhile_dropWhile_letters other.isAlpha other.isDigit other.some_digit
  have same : letters ++ digits = otherLetters ++ otherDigits :=
    one.toList_eq.symm.trans other.toList_eq
  rw [same] at front back
  exact ⟨front.symm.trans otherFront, back.symm.trans otherBack⟩

theorem inBounds_of_ofText?_toText {other : Cell} (read : ofText? cell.toText = some other) :
    cell.InBounds := by
  obtain ⟨column, row⟩ := (spells_toText cell).ofText?_eq_some_iff.1 read
  obtain ⟨_, _, colBound, _⟩ := columnOfLetters?_eq_some_iff.1 column
  obtain ⟨_, rowBound, _⟩ := rowOfDigits?_eq_some_iff.1 row
  rw [lettersValue_columnLetters] at colBound
  rw [digitsValue_toDigits] at rowBound
  unfold InBounds maxIndex
  omega

theorem toText_inj {other : Cell} : other.toText = cell.toText ↔ other = cell := by
  constructor
  · intro same
    have spelled := spells_toText other
    rw [same] at spelled
    obtain ⟨letters, digits⟩ := spelled.unique (spells_toText cell)
    have cols := congrArg lettersValue letters
    have rows := congrArg digitsValue digits
    rw [lettersValue_columnLetters, lettersValue_columnLetters] at cols
    rw [digitsValue_toDigits, digitsValue_toDigits] at rows
    exact congrArg₂ Cell.mk (Nat.succ.inj rows) (Nat.succ.inj cols)
  · rintro rfl
    rfl

/-- The reference of a cell reads back as that cell if both indices may be written, and not at all
if one of them is the last 64-bit number. Different cells have different references. -/
theorem toText_reads_back (cell : Cell) :
    (cell.row ≤ maxIndex ∧ cell.col ≤ maxIndex → ofText? cell.toText = some cell) ∧
    (cell.row = indexBound - 1 ∨ cell.col = indexBound - 1 → ofText? cell.toText = none) ∧
    ∀ other : Cell, other.toText = cell.toText ↔ other = cell := by
  refine ⟨fun within => ofText?_toText within, fun last => ?_, fun other => toText_inj⟩
  refine Option.eq_none_iff_forall_ne_some.2 fun other read => ?_
  have within := inBounds_of_ofText?_toText read
  have beyond : maxIndex < indexBound - 1 := by decide
  unfold InBounds at within
  omega

theorem toText_reads_back_lastCells :
    ofText? (toText ⟨maxIndex, maxIndex⟩) = some ⟨maxIndex, maxIndex⟩ ∧
    ofText? (toText ⟨0, indexBound - 1⟩) = none :=
  ⟨(toText_reads_back ⟨maxIndex, maxIndex⟩).1 ⟨le_rfl, le_rfl⟩,
    (toText_reads_back ⟨0, indexBound - 1⟩).2.1 (.inr rfl)⟩

end LinkedSheet.Cell
