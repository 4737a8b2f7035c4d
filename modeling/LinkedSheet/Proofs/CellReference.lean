import LinkedSheet.Proofs.RegionBounding
import Mathlib.Tactic.IntervalCases

/-!
References of cells read back. A column is written in letters, each a digit from one to twenty-six,
and a row in decimal digits, so that the letters end where the digits begin; the numbers read from
both are one more than the indices and fit into 64 bits as long as the cell is in bounds.
-/
namespace LinkedSheet.Cell
variable {col row digit : Nat} {letters digits : List Char}

theorem succ_lt_indexBound {index : Nat} (h : index ≤ maxIndex) : index + 1 < indexBound := by
  unfold maxIndex indexBound Word.bound at *
  omega

theorem isAlpha_letter (h : digit < 26) : (letter digit).isAlpha = true := by
  interval_cases digit <;> rfl

theorem letterValue_letter (h : digit < 26) : letterValue (letter digit) = digit + 1 := by
  interval_cases digit <;> rfl

theorem lettersValue_append_singleton (letters : List Char) (c : Char) :
    lettersValue (letters ++ [c]) = lettersValue letters * 26 + letterValue c := by
  rw [lettersValue, List.foldl_append]
  rfl

theorem columnLetters_of_lt (h : col < 26) : columnLetters col = [letter col] := by
  rw [columnLetters, if_pos h]

theorem columnLetters_of_le (h : 26 ≤ col) :
    columnLetters col = columnLetters (col / 26 - 1) ++ [letter (col % 26)] := by
  rw [columnLetters, if_neg (Nat.not_lt.2 h)]

theorem lettersValue_columnLetters (col : Nat) : lettersValue (columnLetters col) = col + 1 := by
  induction col using Nat.strong_induction_on with
  | _ col ih =>
    rcases Nat.lt_or_ge col 26 with small | large
    · rw [columnLetters_of_lt small]
      change 0 * 26 + letterValue (letter col) = col + 1
      rw [letterValue_letter small, Nat.zero_mul, Nat.zero_add]
    · have digit : col % 26 < 26 := Nat.mod_lt col (by decide)
      rw [columnLetters_of_le large, lettersValue_append_singleton, letterValue_letter digit,
        ih (col / 26 - 1) (by omega)]
      omega

theorem isAlpha_of_mem_columnLetters (col : Nat) : ∀ c ∈ columnLetters col, c.isAlpha = true := by
  induction col using Nat.strong_induction_on with
  | _ col ih =>
    rcases Nat.lt_or_ge col 26 with small | large
    · rw [columnLetters_of_lt small]
      exact List.forall_mem_singleton.2 (isAlpha_letter small)
    · have digit : col % 26 < 26 := Nat.mod_lt col (by decide)
      rw [columnLetters_of_le large, List.forall_mem_append]
      exact ⟨ih (col / 26 - 1) (by omega), List.forall_mem_singleton.2 (isAlpha_letter digit)⟩

theorem columnLetters_ne_nil (col : Nat) : columnLetters col ≠ [] := by
  rw [columnLetters]
  split <;> simp

theorem columnOfLetters?_columnLetters (h : col ≤ maxIndex) :
    columnOfLetters? (columnLetters col) = some col := by
  have alphabetic : (columnLetters col).all Char.isAlpha = true :=
    List.all_eq_true.2 (isAlpha_of_mem_columnLetters col)
  have fits : col + 1 < indexBound := succ_lt_indexBound h
  simp [columnOfLetters?_eq, columnLetters_ne_nil, alphabetic, lettersValue_columnLetters, fits]

theorem digitsValue_toDigits (n : Nat) : digitsValue (Nat.toDigits 10 n) = n := by
  have same : (fun value (c : Char) => value * 10 + (c.toNat - '0'.toNat)) =
      fun value c => 10 * value + (c.toNat - '0'.toNat) := by
    funext value c
    rw [Nat.mul_comm]
  calc
    digitsValue (Nat.toDigits 10 n) = Nat.ofDigitChars 10 (Nat.toDigits 10 n) 0 := by
      rw [digitsValue, same, Nat.ofDigitChars]
    _ = n := Nat.ofDigitChars_ten_toDigits

theorem rowOfDigits?_toDigits (h : row ≤ maxIndex) :
    rowOfDigits? (Nat.toDigits 10 (row + 1)) = some row := by
  have fits : row + 1 < indexBound := succ_lt_indexBound h
  simp [rowOfDigits?_eq, digitsValue_toDigits, fits]

theorem isAlpha_eq_false_of_isDigit {c : Char} (h : c.isDigit = true) : c.isAlpha = false := by
  have below : c.val ≤ '9'.val := of_decide_eq_true (Bool.and_eq_true_iff.1 h).2
  have upper : c.isUpper = false := decide_eq_false fun big =>
    absurd (UInt32.le_trans big.1 below) (by decide)
  have lower : c.isLower = false := Bool.and_eq_false_imp.2 fun big =>
    absurd (UInt32.le_trans (of_decide_eq_true big) below) (by decide)
  exact Bool.or_eq_false_iff.2 ⟨upper, lower⟩

theorem takeWhile_dropWhile_letters (alphabetic : ∀ c ∈ letters, c.isAlpha = true)
    (decimal : ∀ c ∈ digits, c.isDigit = true) (some_digit : digits ≠ []) :
    (letters ++ digits).takeWhile Char.isAlpha = letters ∧
      (letters ++ digits).dropWhile Char.isAlpha = digits := by
  obtain ⟨first, rest, rfl⟩ := List.exists_cons_of_ne_nil some_digit
  have ends : first.isAlpha = false :=
    isAlpha_eq_false_of_isDigit (decimal first List.mem_cons_self)
  constructor
  · rw [List.takeWhile_append_of_pos alphabetic, List.takeWhile_cons_of_neg (by simp [ends]),
      List.append_nil]
  · rw [List.dropWhile_append_of_pos alphabetic, List.dropWhile_cons_of_neg (by simp [ends])]

theorem ofReference?_append (alphabetic : ∀ c ∈ letters, c.isAlpha = true)
    (decimal : ∀ c ∈ digits, c.isDigit = true) (some_digit : digits ≠ []) :
    ofReference? (letters ++ digits) =
      match columnOfLetters? letters, rowOfDigits? digits with
      | some col, some row => some ⟨row, col⟩
      | _, _ => none := by
  obtain ⟨front, back⟩ := takeWhile_dropWhile_letters alphabetic decimal some_digit
  have filled : digits.isEmpty = false := List.isEmpty_eq_false_iff.2 some_digit
  have all : digits.all Char.isDigit = true := List.all_eq_true.2 decimal
  simp only [ofReference?, front, back, filled, all]
  rfl

theorem toList_toText (cell : Cell) :
    cell.toText.toList = columnLetters cell.col ++ Nat.toDigits 10 (cell.row + 1) := by
  rw [toText, String.toList_append, columnText, String.toList_ofList,
    Nat.toString_eq_ofList_toDigits, String.toList_ofList]

theorem isDigit_of_mem_toDigits (n : Nat) : ∀ c ∈ Nat.toDigits 10 n, c.isDigit = true :=
  fun _ member => Nat.isDigit_of_mem_toDigits (by decide) (by decide) member

theorem ofText?_toText {cell : Cell} (h : cell.InBounds) : ofText? cell.toText = some cell := by
  rw [ofText?, toList_toText, ofReference?_append (isAlpha_of_mem_columnLetters cell.col)
    (isDigit_of_mem_toDigits (cell.row + 1)) Nat.toDigits_ne_nil,
    columnOfLetters?_columnLetters h.2, rowOfDigits?_toDigits h.1]

end LinkedSheet.Cell
