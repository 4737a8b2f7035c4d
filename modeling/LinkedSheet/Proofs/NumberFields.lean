import LinkedSheet.Proofs.CellReference
import LinkedSheet.Proofs.FormulaGuard

/-!
Numbers in an export. Every number is shown as a plain decimal or as one of two words, and a plain
decimal reads as a number; so the minus in front of it starts no formula, and nothing in it has to
stand in quotes. What is written for the cell is what it shows.
-/
namespace LinkedSheet

variable {text digits fraction : List Char} {c : Char}

namespace Decimal

theorem unsigned_sign (negative : Bool) (decimal : c.isDigit = true) (rest : List Char) :
    unsigned (Display.sign negative ++ c :: rest) = c :: rest := by
  cases negative with
  | true => rfl
  | false =>
    change unsigned (c :: rest) = c :: rest
    unfold unsigned
    split
    · rename_i same
      obtain ⟨rfl, -⟩ := List.cons.inj same
      exact absurd decimal (by decide)
    · rename_i same
      obtain ⟨rfl, -⟩ := List.cons.inj same
      exact absurd decimal (by decide)
    · rfl

theorem isDecimal_digits (all : ∀ c ∈ digits, c.isDigit = true) (some_digit : digits ≠ []) :
    isDecimal digits = true := by
  have front : digits.takeWhile Char.isDigit = digits := List.takeWhile_eq_self_iff.2 all
  have back : digits.dropWhile Char.isDigit = [] := List.dropWhile_eq_nil_iff.2 all
  simp [isDecimal, front, back, some_digit, isExponent]

theorem isDecimal_point (all : ∀ c ∈ digits, c.isDigit = true) (some_digit : digits ≠ [])
    (rest : ∀ c ∈ fraction, c.isDigit = true) :
    isDecimal (digits ++ '.' :: fraction) = true := by
  have point : ¬ '.'.isDigit = true := by decide
  have front : (digits ++ '.' :: fraction).takeWhile Char.isDigit = digits := by
    rw [List.takeWhile_append_of_pos all, List.takeWhile_cons_of_neg point, List.append_nil]
  have back : (digits ++ '.' :: fraction).dropWhile Char.isDigit = '.' :: fraction := by
    rw [List.dropWhile_append_of_pos all, List.dropWhile_cons_of_neg point]
  have last : fraction.dropWhile Char.isDigit = [] := List.dropWhile_eq_nil_iff.2 rest
  simp [isDecimal, front, back, last, some_digit, isExponent]

end Decimal

namespace Display

/-- A sign or none, digits, and perhaps a point with more digits behind it. -/
inductive Plain : List Char → Prop
  | whole (negative : Bool) {digits : List Char} (all : ∀ c ∈ digits, c.isDigit = true)
      (some_digit : digits ≠ []) : Plain (sign negative ++ digits)
  | point (negative : Bool) {digits fraction : List Char} (all : ∀ c ∈ digits, c.isDigit = true)
      (some_digit : digits ≠ []) (rest : ∀ c ∈ fraction, c.isDigit = true) :
      Plain (sign negative ++ (digits ++ '.' :: fraction))

theorem Plain.isNumeral (plain : Plain text) : Decimal.isNumeral text = true := by
  unfold Decimal.isNumeral
  dsimp only
  cases plain with
  | whole negative all some_digit =>
    have numeral := Decimal.isDecimal_digits all some_digit
    obtain ⟨first, more, rfl⟩ := List.exists_cons_of_ne_nil some_digit
    rw [Decimal.unsigned_sign negative (all first List.mem_cons_self), numeral, Bool.true_or]
  | point negative all some_digit rest =>
    have numeral := Decimal.isDecimal_point all some_digit rest
    obtain ⟨first, more, rfl⟩ := List.exists_cons_of_ne_nil some_digit
    rw [List.cons_append] at numeral ⊢
    rw [Decimal.unsigned_sign negative (all first List.mem_cons_self), numeral, Bool.true_or]

def IsPlainSign (c : Char) : Prop :=
  c.isDigit = true ∨ c = '-' ∨ c = '.'

theorem IsPlainSign.isBlank_eq_false (plain : IsPlainSign c) : Text.isBlank c = false := by
  rcases plain with decimal | rfl | rfl
  · exact Text.isBlank_eq_false_of_isDigit decimal
  · rfl
  · rfl

theorem isPlainSign_of_mem_sign (negative : Bool) : ∀ c ∈ sign negative, IsPlainSign c := by
  cases negative with
  | true => exact List.forall_mem_singleton.2 (.inr (.inl rfl))
  | false => exact List.forall_mem_nil _

theorem Plain.isPlainSign (plain : Plain text) : ∀ c ∈ text, IsPlainSign c := by
  cases plain with
  | whole negative all some_digit =>
    simp only [List.forall_mem_append]
    exact ⟨isPlainSign_of_mem_sign negative, fun c member => .inl (all c member)⟩
  | point negative all some_digit rest =>
    simp only [List.forall_mem_append, List.forall_mem_cons]
    exact ⟨isPlainSign_of_mem_sign negative, fun c member => .inl (all c member),
      .inr (.inr rfl), fun c member => .inl (rest c member)⟩

theorem isDigit_of_mem_twoDigits {n : Nat} (small : n < 100) :
    ∀ c ∈ twoDigits n, c.isDigit = true := by
  have tens : n / 10 < 10 := by omega
  have ones : n % 10 < 10 := by omega
  simp [twoDigits, Nat.isDigit_digitChar, tens, ones]

theorem plain_ratio (negative : Bool) (num den : Nat) : Plain (ratio negative num den) := by
  unfold ratio
  split
  · exact .whole negative (Cell.isDigit_of_mem_toDigits _) Nat.toDigits_ne_nil
  · exact .point negative (Cell.isDigit_of_mem_toDigits _) Nat.toDigits_ne_nil
      (isDigit_of_mem_twoDigits (Nat.mod_lt _ (by decide)))

theorem toList_toString (n : Int) :
    (toString n).toList = sign (n < 0) ++ Nat.toDigits 10 n.natAbs := by
  cases n with
  | ofNat n =>
    change (toString n).toList = _
    rw [Nat.toString_eq_ofList_toDigits, String.toList_ofList]
    rfl
  | negSucc n =>
    change ("-" ++ toString (n + 1)).toList = _
    rw [String.toList_append, Nat.toString_eq_ofList_toDigits,
      String.toList_ofList (l := Nat.toDigits 10 (n + 1)), decide_eq_true (Int.negSucc_lt_zero n)]
    rfl

theorem plain_int (n : Int) : Plain (toString n).toList := by
  rw [toList_toString]
  exact .whole _ (Cell.isDigit_of_mem_toDigits _) Nat.toDigits_ne_nil

theorem plain_or_word {value : Value} (number : value.isText = false) :
    Plain value.display.toList ∨ value.display = "#NAN!" ∨ value.display = "#INF!" := by
  cases value with
  | int n => exact .inl (plain_int n)
  | float x =>
    change Plain (float x).toList ∨ float x = _ ∨ float x = _
    unfold float
    cases Binary64.ofFloat x with
    | notANumber => exact .inr (.inl rfl)
    | infinite negative => exact .inr (.inr rfl)
    | finite negative mantissa exponent =>
      rw [String.toList_ofList]
      exact .inl (plain_ratio negative _ _)
  | text s => cases number

end Display

namespace Export.Csv

theorem field_eq_self (ordinary : ∀ c ∈ text, ¬ IsSpecial c ∧ ¬ IsFormulaSign text c) :
    field text = text := by
  have harmless : isFormula text = false := by
    refine Bool.eq_false_iff.2 fun formula => ?_
    obtain ⟨front, c, rest, split, -, signed⟩ := isFormula_iff_goesOn.1 formula
    exact (ordinary c (split ▸ List.mem_append_right front List.mem_cons_self)).2 signed
  have unquoted : needsQuotes text = false :=
    needsQuotes_eq_false_iff.2 fun c member => (ordinary c member).1
  simp [field, guarded, harmless, unquoted]

theorem not_isSpecial_of_isPlainSign (plain : Display.IsPlainSign c) : ¬ IsSpecial c := by
  rintro (rfl | rfl | rfl | rfl) <;> simp [Display.IsPlainSign] at plain

theorem field_of_plain (plain : Display.Plain text) : field text = text := by
  have signs := plain.isPlainSign
  have trimmed : Text.trim text = text :=
    Text.trim_of_solid fun c member => (signs c member).isBlank_eq_false
  refine field_eq_self fun c member => ⟨not_isSpecial_of_isPlainSign (signs c member), ?_⟩
  have sign := signs c member
  rintro (rfl | rfl | rfl | ⟨rfl, refused⟩)
  · simp [Display.IsPlainSign] at sign
  · simp [Display.IsPlainSign] at sign
  · simp [Display.IsPlainSign] at sign
  · rw [trimmed, plain.isNumeral] at refused
    cases refused

theorem field_of_number {value : Value} (number : value.isText = false) :
    field value.display.toList = value.display.toList ∧
      '"' ∉ value.display.toList ∧ '\'' ∉ value.display.toList := by
  rcases Display.plain_or_word number with plain | word | word
  · refine ⟨field_of_plain plain, fun quote => ?_, fun apostrophe => ?_⟩
    · exact not_isSpecial_of_isPlainSign (plain.isPlainSign _ quote) (.inr (.inl rfl))
    · simpa [Display.IsPlainSign] using plain.isPlainSign _ apostrophe
  · rw [word]
    decide
  · rw [word]
    decide

/-- In an exported table, the field of a cell that holds a number is what the cell shows. -/
theorem numbers_of_render [Script.Engine] (table : Table)
    (small : ∀ extent, table.extent = some extent → extent.height * extent.width ≤ 1000000) :
    ∃ written, render table = .ok (String.ofList (written.flatMap record)) ∧
      match table.extent with
      | none => written = []
      | some extent =>
        List.Forall₂ (fun row fields =>
          List.Forall₂ (fun col text =>
            text = field (table.display ⟨row, col⟩).toList ∧
              ∀ value, table.get ⟨row, col⟩ = some value → value.isText = false →
                text = value.display.toList ∧ '"' ∉ text ∧ '\'' ∉ text)
            extent.colIndices fields) extent.rowIndices written := by
  cases occupied : table.extent with
  | none => exact ⟨[], render_of_none occupied, rfl⟩
  | some extent =>
    refine ⟨extent.rowIndices.map fun row =>
      extent.colIndices.map fun col => field (table.display ⟨row, col⟩).toList, ?_, ?_⟩
    · rw [render_of_small occupied (small extent occupied), List.flatMap_map]
      rfl
    · simp only [List.forall₂_map_right_iff, List.forall₂_same, true_and]
      intro row _ col _ value held number
      have shown : table.display ⟨row, col⟩ = value.display := by
        rw [Table.display, held]
        rfl
      obtain ⟨same, unquoted⟩ := field_of_number number
      rw [shown, same]
      exact ⟨rfl, unquoted⟩

def negativeNumbers : Table :=
  (Table.evaluate { Table.empty with operations :=
    [⟨1, .empty, .reference "A1", .block (.ofList (Function.rowEntries
      [[.int (-9223372036854775808), .float (Float.ofBits 0x8000000000000001)]])), none⟩] }).1

theorem get_negativeNumbers (col : Nat) (inside : col < 2) :
    ∃ value, negativeNumbers.get ⟨0, col⟩ = some value ∧ value.isText = false ∧
      value.display = ["-9223372036854775808", "-0.00"][col] := by
  have all : ∀ col, (inside : col < 2) → (negativeNumbers.get ⟨0, col⟩).any (fun value =>
      !value.isText && value.display == ["-9223372036854775808", "-0.00"][col]) = true := by
    decide +kernel
  simpa [Option.any_eq_true] using all col inside

theorem numbers_of_render_negativeNumbers :
    negativeNumbers.extent = some (.of ⟨0, 0⟩ ⟨0, 1⟩) ∧
      render negativeNumbers = .ok "-9223372036854775808,-0.00\n" := by
  have occupied : negativeNumbers.extent = some (.of ⟨0, 0⟩ ⟨0, 1⟩) := by decide +kernel
  obtain ⟨written, rendered, rows⟩ :=
    numbers_of_render negativeNumbers (by rw [occupied]; rintro _ ⟨⟩; decide)
  rw [occupied] at rows
  obtain ⟨least, held, number, shown⟩ := get_negativeNumbers 0 (by decide)
  obtain ⟨small, held', number', shown'⟩ := get_negativeNumbers 1 (by decide)
  obtain _ | ⟨_ | ⟨⟨-, first⟩, _ | ⟨⟨-, second⟩, ⟨⟩⟩⟩, ⟨⟩⟩ : List.Forall₂ _ [0] written := rows
  refine ⟨occupied, rendered.trans ?_⟩
  rw [(first least held number).1, (second small held' number').1, shown, shown']
  rfl

end Export.Csv

end LinkedSheet
