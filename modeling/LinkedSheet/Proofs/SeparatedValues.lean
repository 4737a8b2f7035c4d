import LinkedSheet.Export.Csv
import LinkedSheet.Proofs.TableExtent
import LinkedSheet.Script.Interpreter
import Mathlib.Data.List.Forall2

/-!
Reading comma-separated values back. A reader goes through a text character by character: fields end
at commas and records at line feeds, a field may stand in quotes, and a quote in such a field is
doubled. It refuses a quote or a carriage return outside of quotes, and anything but the end of the
field behind a closing quote.

What a table is exported as is read as one record for each row of its extent and one field for each
column. A field that reads as a formula stands behind an apostrophe; every other one is what the cell
shows.
-/
namespace LinkedSheet.Export.Csv

/-- Where a reader stands in a field. -/
inductive Spot where
  /-- In front of the field. -/
  | start
  | plain
  | quoted
  /-- Behind a quote in quotes, which closes the field or is the first one of two. -/
  | closing
deriving DecidableEq

structure Reader where
  spot : Spot
  /-- The field so far. -/
  field : List Char
  /-- The fields of the record before this one. -/
  fields : List (List Char)
  records : List (List (List Char))

namespace Reader

def between (fields : List (List Char)) (records : List (List (List Char))) : Reader :=
  ⟨.start, [], fields, records⟩

def add (reader : Reader) (spot : Spot) (c : Char) : Reader :=
  { reader with spot := spot, field := reader.field ++ [c] }

def endField (reader : Reader) : Reader :=
  between (reader.fields ++ [reader.field]) reader.records

def endRecord (reader : Reader) : Reader :=
  between [] (reader.records ++ [reader.fields ++ [reader.field]])

def step (reader : Reader) (c : Char) : Option Reader :=
  match reader.spot with
  | .quoted => some (if c = '"' then { reader with spot := .closing } else reader.add .quoted c)
  | spot =>
    if c = ',' then some reader.endField
    else if c = '\n' then some reader.endRecord
    else if c = '"' then
      match spot with
      | .start => some { reader with spot := .quoted }
      | .closing => some (reader.add .quoted '"')
      | _ => none
    else if c = '\r' ∨ spot = .closing then none
    else some (reader.add .plain c)

def finish (reader : Reader) : Option (List (List (List Char))) :=
  match reader.spot with
  | .quoted => none
  | .start => some (if reader.fields = [] then reader.records else reader.endRecord.records)
  | _ => some reader.endRecord.records

end Reader

def records (text : List Char) : Option (List (List (List Char))) := do
  (← text.foldlM Reader.step (.between [] [])).finish

open Reader

variable {c : Char} {text : List Char} {spot : Spot} {read : List Char}
  {fields : List (List Char)} {earlier : List (List (List Char))}

theorem step_comma (outside : spot ≠ .quoted) :
    step ⟨spot, read, fields, earlier⟩ ',' = some (between (fields ++ [read]) earlier) := by
  cases spot with
  | quoted => exact absurd rfl outside
  | _ => rfl

theorem step_newline (outside : spot ≠ .quoted) :
    step ⟨spot, read, fields, earlier⟩ '\n' =
      some (between [] (earlier ++ [fields ++ [read]])) := by
  cases spot with
  | quoted => exact absurd rfl outside
  | _ => rfl

def IsSpecial (c : Char) : Prop :=
  c = ',' ∨ c = '"' ∨ c = '\n' ∨ c = '\r'

theorem step_plain (ordinary : ¬ IsSpecial c) (inside : spot = .start ∨ spot = .plain) :
    step ⟨spot, read, fields, earlier⟩ c = some ⟨.plain, read ++ [c], fields, earlier⟩ := by
  simp only [IsSpecial, not_or] at ordinary
  obtain ⟨comma, quote, newline, carriage⟩ := ordinary
  rcases inside with rfl | rfl <;> simp [step, add, comma, quote, newline, carriage]

theorem foldlM_plain (read : List Char) (ordinary : ∀ c ∈ text, ¬ IsSpecial c)
    (inside : spot = .start ∨ spot = .plain) :
    ∃ last ≠ Spot.quoted, text.foldlM step ⟨spot, read, fields, earlier⟩ =
      some ⟨last, read ++ text, fields, earlier⟩ := by
  induction text generalizing spot read with
  | nil =>
    refine ⟨spot, ?_, by simp⟩
    rcases inside with rfl | rfl <;> simp
  | cons c text ih =>
    obtain ⟨first, others⟩ := List.forall_mem_cons.1 ordinary
    obtain ⟨last, outside, rest⟩ := ih (read ++ [c]) others (.inr rfl)
    refine ⟨last, outside, ?_⟩
    rw [List.foldlM_cons, step_plain first inside]
    simpa using rest

theorem foldlM_doubled (text read : List Char) :
    (text.flatMap fun c => if c = '"' then ['"', '"'] else [c]).foldlM step
        ⟨.quoted, read, fields, earlier⟩ =
      some ⟨.quoted, read ++ text, fields, earlier⟩ := by
  induction text generalizing read with
  | nil => simp
  | cons c text ih =>
    rw [List.flatMap_cons, List.foldlM_append]
    by_cases quote : c = '"'
    · subst quote
      simpa [step, add] using ih (read ++ ['"'])
    · simpa [step, add, quote] using ih (read ++ [c])

theorem foldlM_inQuotes (text : List Char) :
    (inQuotes text).foldlM step (between fields earlier) =
      some ⟨.closing, text, fields, earlier⟩ := by
  have opened : step (between fields earlier) '"' = some ⟨.quoted, [], fields, earlier⟩ := rfl
  have closed : step ⟨.quoted, text, fields, earlier⟩ '"' =
      some ⟨.closing, text, fields, earlier⟩ := rfl
  rw [inQuotes, List.cons_append, List.foldlM_cons, opened, Option.bind_eq_bind, Option.bind_some,
    List.foldlM_append, foldlM_doubled]
  simp [closed]

theorem needsQuotes_eq_false_iff : needsQuotes text = false ↔ ∀ c ∈ text, ¬ IsSpecial c := by
  simp [needsQuotes, IsSpecial, not_or, and_assoc]

theorem foldlM_field (fields : List (List Char)) (earlier : List (List (List Char)))
    (text : List Char) :
    ∃ last ≠ Spot.quoted, (field text).foldlM step (between fields earlier) =
      some ⟨last, guarded text, fields, earlier⟩ := by
  unfold field
  dsimp only
  cases quotes : needsQuotes (guarded text) with
  | true => exact ⟨.closing, by simp, foldlM_inQuotes _⟩
  | false =>
    simpa [between] using foldlM_plain [] (needsQuotes_eq_false_iff.1 quotes) (.inl rfl)

theorem foldlM_record (before : List (List Char)) {texts : List (List Char)}
    (some_field : texts ≠ []) :
    (record (texts.map field)).foldlM step (between before earlier) =
      some (between [] (earlier ++ [before ++ texts.map guarded])) := by
  induction texts generalizing before with
  | nil => exact absurd rfl some_field
  | cons text more ih =>
    obtain ⟨last, outside, first⟩ := foldlM_field before earlier text
    cases more with
    | nil => simp [record, first, step_newline outside]
    | cons next more =>
      have rest := ih (before ++ [guarded text]) (by simp)
      have split : record ((text :: next :: more).map field) =
          field text ++ ',' :: record ((next :: more).map field) := by
        simp [record, List.intercalate_cons_cons]
      rw [split, List.foldlM_append, first, Option.bind_eq_bind, Option.bind_some,
        List.foldlM_cons, step_comma outside, Option.bind_eq_bind, Option.bind_some, rest]
      simp

theorem foldlM_flatMap_record {rows : List (List (List Char))}
    (some_field : ∀ texts ∈ rows, texts ≠ []) :
    (rows.flatMap fun texts => record (texts.map field)).foldlM step (between [] earlier) =
      some (between [] (earlier ++ rows.map (·.map guarded))) := by
  induction rows generalizing earlier with
  | nil => simp
  | cons texts rows ih =>
    obtain ⟨first, others⟩ := List.forall_mem_cons.1 some_field
    rw [List.flatMap_cons, List.foldlM_append, foldlM_record [] first, Option.bind_eq_bind,
      Option.bind_some, ih others]
    simp

theorem records_flatMap_record {rows : List (List (List Char))}
    (some_field : ∀ texts ∈ rows, texts ≠ []) :
    records (rows.flatMap fun texts => record (texts.map field)) =
      some (rows.map (·.map guarded)) := by
  rw [records, foldlM_flatMap_record some_field]
  rfl

example : records "a,\"b\"\"\nc\"\n\n".toList = some [[['a'], ['b', '"', '\n', 'c']], [[]]] := by decide

example : records "a\"b\n".toList = none := by decide

/-- Whether a spreadsheet program would take a text for a formula: behind spaces and tabs it starts
like one, and if that is with a minus, the trimmed text is no number. -/
def ReadsAsFormula (text : List Char) : Prop :=
  ∃ c rest, text.dropWhile (fun c => c == ' ' || c == '\t') = c :: rest ∧
    (c = '=' ∨ c = '+' ∨ c = '@' ∨ c = '-' ∧ Decimal.isNumeral (Text.trim text) = false)

/-- A field is the text that a cell shows, behind an apostrophe if that reads as a formula. -/
def StandsFor (text field : List Char) : Prop :=
  (field = text ∨ field = '\'' :: text) ∧ (field = '\'' :: text ↔ ReadsAsFormula text)

theorem isFormula_iff : isFormula text = true ↔ ReadsAsFormula text := by
  have leads : isLead = fun c => c == ' ' || c == '\t' := rfl
  unfold isFormula ReadsAsFormula
  rw [leads]
  cases text.dropWhile fun c => c == ' ' || c == '\t' with
  | nil => simp
  | cons c rest => simp [or_assoc]

theorem standsFor_guarded (text : List Char) : StandsFor text (guarded text) := by
  unfold StandsFor guarded
  rw [← isFormula_iff]
  cases isFormula text <;> simp

section
variable [Script.Engine]

theorem render_of_none {table : Table} (blank : table.extent = none) : render table = .ok "" := by
  rw [render, Table.boundedExtent_of_none blank]

theorem render_of_small {table : Table} {extent : Region} (occupied : table.extent = some extent)
    (small : extent.height * extent.width ≤ 1000000) :
    render table = .ok (String.ofList (region table extent)) := by
  rw [render, Table.boundedExtent_of_small occupied small]

theorem records_region (table : Table) (extent : Region) :
    records (region table extent) = some (extent.rowIndices.map fun row =>
      extent.colIndices.map fun col => guarded (table.display ⟨row, col⟩).toList) := by
  have rows : region table extent = (extent.rowIndices.map fun row =>
      extent.colIndices.map fun col => (table.display ⟨row, col⟩).toList).flatMap
        fun texts => record (texts.map field) := by
    simp [region, List.flatMap_map, Function.comp_def]
  rw [rows, records_flatMap_record (by simp [extent.colIndices_ne_nil])]
  simp [Function.comp_def]

/-- What a table is exported as reads as one record for each row of its extent and one field for each
column, and every field stands for what its cell shows. -/
theorem records_of_render (table : Table)
    (small : ∀ extent, table.extent = some extent → extent.height * extent.width ≤ 1000000) :
    ∃ text read, render table = .ok text ∧ records text.toList = some read ∧
      match table.extent with
      | none => read = []
      | some extent =>
        List.Forall₂ (fun row record =>
          List.Forall₂ (fun col field => StandsFor (table.display ⟨row, col⟩).toList field)
            extent.colIndices record) extent.rowIndices read := by
  cases occupied : table.extent with
  | none => exact ⟨"", [], render_of_none occupied, rfl, rfl⟩
  | some extent =>
    refine ⟨_, _, render_of_small occupied (small extent occupied),
      (congrArg records String.toList_ofList).trans (records_region table extent), ?_⟩
    simp only [List.forall₂_map_right_iff, List.forall₂_same]
    exact fun row _ col _ => standsFor_guarded _

end

def guardedCells : Table :=
  (Table.evaluate { Table.empty with operations :=
    [⟨1, .empty, .reference "B2", .block (.ofList (Function.rowEntries
      [[.text " =1+1", .int (-4)], [.text "a,\"b\"\r\n", .text "\t-2\n", .text "@"]])),
      none⟩] }).1

theorem records_of_render_guardedCells :
    guardedCells.extent = some (.of ⟨1, 1⟩ ⟨2, 3⟩) ∧
    ∃ text read, render guardedCells = .ok text ∧ records text.toList = some read ∧
      List.Forall₂ (fun row record =>
        List.Forall₂ (fun col field => StandsFor (guardedCells.display ⟨row, col⟩).toList field)
          [1, 2, 3] record) [1, 2] read := by
  have occupied : guardedCells.extent = some (.of ⟨1, 1⟩ ⟨2, 3⟩) := by decide +kernel
  have small : ∀ extent, guardedCells.extent = some extent →
      extent.height * extent.width ≤ 1000000 := by
    rw [occupied]
    rintro _ ⟨⟩
    decide
  have whole := records_of_render guardedCells small
  rw [occupied] at whole
  exact ⟨occupied, whole⟩

end LinkedSheet.Export.Csv
