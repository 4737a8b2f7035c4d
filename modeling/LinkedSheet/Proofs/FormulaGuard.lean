import LinkedSheet.Proofs.SeparatedValues
import Mathlib.Data.List.TakeWhile

/-!
Formulas among the fields of an export. A spreadsheet program looks for the start of a formula
behind blanks, and a line feed or a carriage return is a blank to it; the apostrophe is set by what
stands behind spaces and tabs only. So a field that is read back is a formula just when the shown
text is one and its first character other than spaces and tabs is a line feed or a carriage return.
-/
namespace LinkedSheet.Export.Csv

variable {text front : List Char} {sign : Char → Prop}

def GoesOn (blanks : List Char) (sign : Char → Prop) (text : List Char) : Prop :=
  ∃ front c rest, text = front ++ c :: rest ∧ (∀ b ∈ front, b ∈ blanks) ∧ sign c

/-- The signs that start a formula; a minus does unless the trimmed field is a number. -/
def IsFormulaSign (field : List Char) (c : Char) : Prop :=
  c = '=' ∨ c = '+' ∨ c = '@' ∨ c = '-' ∧ Decimal.isNumeral (Text.trim field) = false

def StartsFormula (field : List Char) : Prop :=
  GoesOn [' ', '\t', '\r', '\n'] (IsFormulaSign field) field

def IsLineBreak (c : Char) : Prop :=
  c = '\r' ∨ c = '\n'

def StartsBlankLine (text : List Char) : Prop :=
  GoesOn [' ', '\t'] IsLineBreak text

theorem goesOn_leads_iff (solid : ∀ c, sign c → isLead c = false) :
    GoesOn [' ', '\t'] sign text ↔ ∃ c rest, text.dropWhile isLead = c :: rest ∧ sign c := by
  have leads (c : Char) : c ∈ [' ', '\t'] ↔ isLead c = true := by simp [isLead]
  simp only [GoesOn, leads]
  constructor
  · rintro ⟨front, c, rest, rfl, blank, signed⟩
    refine ⟨c, rest, ?_, signed⟩
    rw [List.dropWhile_append_of_pos blank, List.dropWhile_cons_of_neg (by simp [solid c signed])]
  · rintro ⟨c, rest, stop, signed⟩
    refine ⟨text.takeWhile isLead, c, rest, ?_, fun b => List.mem_takeWhile_imp, signed⟩
    rw [← stop, List.takeWhile_append_dropWhile]

theorem IsFormulaSign.not_lead {field : List Char} (c : Char) (signed : IsFormulaSign field c) :
    isLead c = false := by
  rcases signed with rfl | rfl | rfl | ⟨rfl, -⟩ <;> rfl

theorem IsLineBreak.not_lead (c : Char) (breaks : IsLineBreak c) : isLead c = false := by
  rcases breaks with rfl | rfl <;> rfl

theorem isFormula_iff_goesOn :
    isFormula text = true ↔ GoesOn [' ', '\t'] (IsFormulaSign text) text :=
  isFormula_iff.trans (goesOn_leads_iff IsFormulaSign.not_lead).symm

theorem isFormula_eq_false_of_startsBlankLine (line : StartsBlankLine text) :
    isFormula text = false := by
  refine Bool.eq_false_iff.2 fun formula => ?_
  obtain ⟨c, rest, stop, breaks⟩ := (goesOn_leads_iff IsLineBreak.not_lead).1 line
  obtain ⟨d, more, same, signed⟩ :=
    (goesOn_leads_iff IsFormulaSign.not_lead).1 (isFormula_iff_goesOn.1 formula)
  obtain ⟨rfl, -⟩ := List.cons.inj (stop.symm.trans same)
  rcases breaks with rfl | rfl <;> simp [IsFormulaSign] at signed

theorem leads_or_goesOn (blank : ∀ b ∈ front, b ∈ [' ', '\t', '\r', '\n']) :
    (∀ b ∈ front, b ∈ [' ', '\t']) ∨ StartsBlankLine front := by
  induction front with
  | nil => exact .inl (List.forall_mem_nil _)
  | cons c rest ih =>
    obtain ⟨first, others⟩ := List.forall_mem_cons.1 blank
    have kind : c ∈ [' ', '\t'] ∨ IsLineBreak c := by simpa [IsLineBreak, or_assoc] using first
    rcases kind with lead | breaks
    · rcases ih others with leads | ⟨front, d, after, rfl, leads, breaks⟩
      · exact .inl (List.forall_mem_cons.2 ⟨lead, leads⟩)
      · exact .inr ⟨c :: front, d, after, rfl, List.forall_mem_cons.2 ⟨lead, leads⟩, breaks⟩
    · exact .inr ⟨[], c, rest, rfl, List.forall_mem_nil _, breaks⟩

theorem GoesOn.append {blanks : List Char} (on : GoesOn blanks sign text) (more : List Char) :
    GoesOn blanks sign (text ++ more) := by
  obtain ⟨front, c, rest, rfl, blank, signed⟩ := on
  exact ⟨front, c, rest ++ more, by simp, blank, signed⟩

theorem isFormula_or_startsBlankLine (starts : StartsFormula text) :
    isFormula text = true ∨ StartsBlankLine text := by
  obtain ⟨front, c, rest, split, blank, signed⟩ := starts
  rcases leads_or_goesOn blank with leads | line
  · exact .inl (isFormula_iff_goesOn.2 ⟨front, c, rest, split, leads, signed⟩)
  · exact .inr (split ▸ line.append _)

theorem not_startsFormula_apostrophe (text : List Char) : ¬ StartsFormula ('\'' :: text) := by
  rintro ⟨front, c, rest, split, blank, signed⟩
  cases front with
  | nil =>
    obtain ⟨rfl, -⟩ := List.cons.inj split
    simp [IsFormulaSign] at signed
  | cons b front =>
    obtain ⟨rfl, -⟩ := List.cons.inj split
    exact absurd (blank _ List.mem_cons_self) (by decide)

theorem startsFormula_guarded_iff :
    StartsFormula (guarded text) ↔ StartsFormula text ∧ StartsBlankLine text := by
  unfold guarded
  cases formula : isFormula text with
  | true =>
    refine iff_of_false (not_startsFormula_apostrophe text) fun both => ?_
    rw [isFormula_eq_false_of_startsBlankLine both.2] at formula
    cases formula
  | false =>
    refine ⟨fun starts => ⟨starts, ?_⟩, fun both => both.1⟩
    exact (isFormula_or_startsBlankLine starts).resolve_left (by simp [formula])

/-- A reader of an exported table finds a formula in the field of a cell just when the cell shows
one that starts behind a line break. -/
theorem formulas_of_render [Script.Engine] (table : Table)
    (small : ∀ extent, table.extent = some extent → extent.height * extent.width ≤ 1000000) :
    ∃ text read, render table = .ok text ∧ records text.toList = some read ∧
      match table.extent with
      | none => read = []
      | some extent =>
        List.Forall₂ (fun row record =>
          List.Forall₂ (fun col field =>
            StartsFormula field ↔ StartsFormula (table.display ⟨row, col⟩).toList ∧
              StartsBlankLine (table.display ⟨row, col⟩).toList)
            extent.colIndices record) extent.rowIndices read := by
  cases occupied : table.extent with
  | none => exact ⟨"", [], render_of_none occupied, rfl, rfl⟩
  | some extent =>
    refine ⟨_, _, render_of_small occupied (small extent occupied),
      (congrArg records String.toList_ofList).trans (records_region table extent), ?_⟩
    simp only [List.forall₂_map_right_iff, List.forall₂_same]
    exact fun row _ col _ => startsFormula_guarded_iff

def lineBreakFormula : Table :=
  (Table.evaluate { Table.empty with operations :=
    [⟨1, .empty, .reference "A1", .block (.ofList (Function.rowEntries
      [[.text "\t=1+1", .text "\n=1+1"]])), none⟩] }).1

theorem extent_lineBreakFormula : lineBreakFormula.extent = some (.of ⟨0, 0⟩ ⟨0, 1⟩) := by
  decide +kernel

theorem formulas_of_render_lineBreakFormula :
    lineBreakFormula.extent = some (.of ⟨0, 0⟩ ⟨0, 1⟩) ∧
    ∃ text read, render lineBreakFormula = .ok text ∧ records text.toList = some read ∧
      List.Forall₂ (fun row record =>
        List.Forall₂ (fun col field =>
          StartsFormula field ↔ StartsFormula (lineBreakFormula.display ⟨row, col⟩).toList ∧
            StartsBlankLine (lineBreakFormula.display ⟨row, col⟩).toList)
          [0, 1] record) [0] read := by
  have occupied := extent_lineBreakFormula
  have whole := formulas_of_render lineBreakFormula (by rw [occupied]; rintro _ ⟨⟩; decide)
  rw [occupied] at whole
  exact ⟨occupied, whole⟩

theorem formula_behind_line_break :
    lineBreakFormula.display ⟨0, 1⟩ = "\n=1+1" ∧
    ∃ text, render lineBreakFormula = .ok text ∧
      records text.toList = some [["'\t=1+1".toList, "\n=1+1".toList]] ∧
      StartsFormula "\n=1+1".toList := by
  have shown : lineBreakFormula.display ⟨0, 1⟩ = "\n=1+1" := by decide +kernel
  have read : records (region lineBreakFormula (.of ⟨0, 0⟩ ⟨0, 1⟩)) =
      some [["'\t=1+1".toList, "\n=1+1".toList]] := by decide +kernel
  refine ⟨shown, _, render_of_small extent_lineBreakFormula (by decide), ?_, ?_⟩
  · rw [String.toList_ofList, read]
  · exact ⟨['\n'], '=', "1+1".toList, rfl, List.forall_mem_singleton.2 (by decide), .inl rfl⟩

end LinkedSheet.Export.Csv
