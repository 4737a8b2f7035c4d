import LinkedSheet.Export.Markdown
import LinkedSheet.Proofs.CellReference
import LinkedSheet.Proofs.TableExtent
import LinkedSheet.Script.Interpreter
import Mathlib.Data.List.Forall2
import Mathlib.Tactic.SplitIfs

/-!
Reading Markdown tables back. A line is cut at its bars, except at those right behind a backslash; a
field has one space on each side, and a bar behind a backslash in it stands for a bar.

Escaping makes no bar that cuts and hides none that should: a space stands in front of the bar behind
a field, so that a backslash at the end of a text escapes nothing, and no escaped text begins with a
bar, so that a backslash inside one stays what it is.
-/
namespace LinkedSheet.Export

theorem splitOn_flatMap_lines (texts : List (List Char)) :
    (texts.flatMap (· ++ ['\n'])).splitOn '\n' = texts.flatMap (·.splitOn '\n') ++ [[]] := by
  induction texts with
  | nil => rfl
  | cons text texts ih =>
    rw [List.flatMap_cons, List.append_assoc, List.singleton_append, List.splitOn_append_cons_self,
      ih, List.flatMap_cons, List.append_assoc]

theorem splitOn_lines {lines : List (List Char)} (whole : ∀ line ∈ lines, '\n' ∉ line) :
    (lines.flatMap (· ++ ['\n'])).splitOn '\n' = lines ++ [[]] := by
  have each : lines.map (·.splitOn '\n') = lines.map fun line => [line] :=
    List.map_congr_left fun line member => List.splitOn_eq_singleton (whole line member)
  rw [splitOn_flatMap_lines, List.flatMap_def, each, ← List.flatMap_def, List.flatMap_singleton']

namespace Markdown

/-- The parts of a text between its bars; `escaped` tells whether a backslash stands right in
front. -/
def parts (escaped : Bool) : List Char → List (List Char)
  | [] => [[]]
  | c :: rest =>
    if c = '|' ∧ escaped = false then [] :: parts false rest
    else (parts (c == '\\') rest).modifyHead (c :: ·)

def fields? (line : List Char) : Option (List (List Char)) :=
  match parts false line with
  | [] :: inner => if inner.getLast? = some [] then some inner.dropLast else none
  | _ => none

def unescape : List Char → List Char
  | '\\' :: '|' :: rest => '|' :: unescape rest
  | c :: rest => c :: unescape rest
  | [] => []

def content? : List Char → Option (List Char)
  | ' ' :: rest => if rest.getLast? = some ' ' then some (unescape rest.dropLast) else none
  | _ => none

def flattened (text : List Char) : List Char :=
  (text.map fun c => if c = '\n' then ' ' else c).filter (· ≠ '\r')

variable {c : Char} {text rest : List Char} {texts : List (List Char)}

theorem escape_cons (c : Char) (text : List Char) : escape (c :: text) = escapeChar c ++ escape text :=
  rfl

theorem escapeChar_cases (c : Char) :
    (c = '|' ∧ escapeChar c = ['\\', '|']) ∨ (c = '\n' ∧ escapeChar c = [' ']) ∨
      (c = '\r' ∧ escapeChar c = []) ∨
      ((c ≠ '|' ∧ c ≠ '\n' ∧ c ≠ '\r') ∧ escapeChar c = [c]) := by
  unfold escapeChar
  split_ifs <;> simp_all

theorem escape_of_plain (plain : ∀ c ∈ text, c ≠ '|' ∧ c ≠ '\n' ∧ c ≠ '\r') :
    escape text = text := by
  induction text with
  | nil => rfl
  | cons c text ih =>
    obtain ⟨⟨bar, newline, carriage⟩, others⟩ := List.forall_mem_cons.1 plain
    simp [escape_cons, escapeChar, bar, newline, carriage, ih others]

theorem flattened_of_plain (plain : ∀ c ∈ text, c ≠ '|' ∧ c ≠ '\n' ∧ c ≠ '\r') :
    flattened text = text := by
  induction text with
  | nil => rfl
  | cons c text ih =>
    obtain ⟨⟨-, newline, carriage⟩, others⟩ := List.forall_mem_cons.1 plain
    simpa [flattened, newline, carriage] using ih others

theorem newline_not_mem_escape (text : List Char) : '\n' ∉ escape text := by
  induction text with
  | nil => simp [escape]
  | cons c text ih =>
    rw [escape_cons, List.mem_append, not_or]
    refine ⟨?_, ih⟩
    rcases escapeChar_cases c with ⟨-, same⟩ | ⟨-, same⟩ | ⟨-, same⟩ | ⟨⟨-, newline, -⟩, same⟩ <;>
      rw [same]
    · decide
    · decide
    · decide
    · simpa using newline.symm

theorem head?_escape_ne (text : List Char) : (escape text).head? ≠ some '|' := by
  induction text with
  | nil => simp [escape]
  | cons c text ih =>
    rw [escape_cons]
    rcases escapeChar_cases c with ⟨-, same⟩ | ⟨-, same⟩ | ⟨-, same⟩ | ⟨⟨bar, -⟩, same⟩ <;> rw [same]
    · simp
    · simp
    · exact ih
    · simpa using bar

theorem unescape_cons (whole : c = '\\' → rest.head? ≠ some '|') :
    unescape (c :: rest) = c :: unescape rest := by
  conv_lhs => unfold unescape
  split <;> simp_all

theorem unescape_escape (text : List Char) : unescape (escape text) = flattened text := by
  induction text with
  | nil => rfl
  | cons c text ih =>
    rw [escape_cons]
    rcases escapeChar_cases c with ⟨rfl, same⟩ | ⟨rfl, same⟩ | ⟨rfl, same⟩ |
      ⟨⟨-, newline, carriage⟩, same⟩ <;> rw [same]
    · simpa [unescape, flattened] using ih
    · rw [List.singleton_append, unescape_cons (by simp), ih]
      simp [flattened]
    · simpa [flattened] using ih
    · rw [List.singleton_append, unescape_cons fun _ => head?_escape_ne text, ih]
      simp [flattened, newline, carriage]

def padded (text : List Char) : List Char :=
  ' ' :: escape text ++ [' ']

theorem content?_padded (text : List Char) : content? (padded text) = some (flattened text) := by
  simp [padded, content?, unescape_escape]

theorem parts_escape (escaped : Bool) (text rest : List Char) :
    parts escaped (escape text ++ ' ' :: '|' :: rest) =
      (escape text ++ [' ']) :: parts false rest := by
  induction text generalizing escaped with
  | nil => simp [escape, parts]
  | cons c text ih =>
    rw [escape_cons, List.append_assoc]
    rcases escapeChar_cases c with ⟨-, same⟩ | ⟨-, same⟩ | ⟨-, same⟩ | ⟨⟨bar, -⟩, same⟩ <;> rw [same]
    · simp [parts, ih]
    · simp [parts, ih]
    · exact ih escaped
    · simp [parts, bar, ih (c == '\\')]

theorem parts_cells (texts : List (List Char)) :
    parts false (texts.flatMap fun text => cell (escape text)) = texts.map padded ++ [[]] := by
  induction texts with
  | nil => rfl
  | cons text texts ih =>
    have first (rest : List Char) : parts false (cell (escape text) ++ rest) =
        padded text :: parts false rest := by
      simpa [cell, padded, parts] using
        congrArg (List.modifyHead (' ' :: ·)) (parts_escape false text rest)
    rw [List.flatMap_cons, first, ih, List.map_cons, List.cons_append]

theorem fields?_of_parts {line : List Char} {fields : List (List Char)}
    (cut : parts false line = fields ++ [[]]) : fields? ('|' :: line) = some fields := by
  simp [fields?, parts, cut]

def gridLine (texts : List (List Char)) : List Char :=
  '|' :: texts.flatMap fun text => cell (escape text)

theorem fields?_gridLine (texts : List (List Char)) :
    fields? (gridLine texts) = some (texts.map padded) :=
  fields?_of_parts (parts_cells texts)

theorem newline_not_mem_gridLine (texts : List (List Char)) : '\n' ∉ gridLine texts := by
  simp [gridLine, cell, newline_not_mem_escape]

def dashes (count : Nat) : List Char :=
  '|' :: (List.replicate count ['-', '-', '-', '|']).flatten

theorem fields?_dashes (count : Nat) :
    fields? (dashes count) = some (List.replicate count ['-', '-', '-']) := by
  refine fields?_of_parts ?_
  induction count with
  | zero => rfl
  | succ count ih => simp [List.replicate_succ, parts, ih]

theorem newline_not_mem_dashes (count : Nat) : '\n' ∉ dashes count := by
  simp [dashes, List.mem_flatten, List.mem_replicate]

theorem plain_columnLetters (col : Nat) :
    ∀ c ∈ Cell.columnLetters col, c ≠ '|' ∧ c ≠ '\n' ∧ c ≠ '\r' := by
  intro c member
  have letter := Cell.isAlpha_of_mem_columnLetters col c member
  refine ⟨?_, ?_, ?_⟩ <;> rintro rfl <;> cases letter

theorem plain_digits (n : Nat) : ∀ c ∈ Nat.toDigits 10 n, c ≠ '|' ∧ c ≠ '\n' ∧ c ≠ '\r' := by
  intro c member
  have digit := Nat.isDigit_of_mem_toDigits (by decide) (by decide) member
  refine ⟨?_, ?_, ?_⟩ <;> rintro rfl <;> cases digit

theorem headerLine_eq (columns : List Nat) :
    headerLine columns = gridLine ([' '] :: columns.map Cell.columnLetters) ++ ['\n'] := by
  have label : "|   |".toList = '|' :: cell (escape [' ']) := by decide
  change "|   |".toList ++ columns.flatMap (fun col => cell (Cell.columnLetters col)) ++ ['\n'] = _
  rw [label]
  simp [gridLine, List.flatMap_map, escape_of_plain (plain_columnLetters _)]

theorem delimiterLine_eq (columns : List Nat) :
    delimiterLine columns = dashes (columns.length + 1) ++ ['\n'] := by
  have label : "|---|".toList = '|' :: ['-', '-', '-', '|'] := by decide
  have dash : "---|".toList = ['-', '-', '-', '|'] := by decide
  change "|---|".toList ++ columns.flatMap (fun _ => "---|".toList) ++ ['\n'] = _
  rw [label, dash]
  simp [dashes, List.replicate_succ, List.flatMap_def, List.map_const']

theorem title_eq : title = "# Table".toList ++ ['\n', '\n'] := by decide

section
variable [Script.Engine]

def rowTexts (table : Table) (columns : List Nat) (row : Nat) : List (List Char) :=
  Nat.toDigits 10 (row + 1) :: columns.map fun col => (table.display ⟨row, col⟩).toList

theorem rowLine_eq (table : Table) (columns : List Nat) (row : Nat) :
    rowLine table columns row = gridLine (rowTexts table columns row) ++ ['\n'] := by
  simp [rowLine, gridLine, rowTexts, List.flatMap_map, escape_of_plain (plain_digits _)]

def gridLines (table : Table) (extent : Region) : List (List Char) :=
  "# Table".toList :: [] :: gridLine ([' '] :: extent.colIndices.map Cell.columnLetters) ::
    dashes (extent.colIndices.length + 1) ::
      extent.rowIndices.map fun row => gridLine (rowTexts table extent.colIndices row)

theorem flatMap_gridLines (table : Table) (extent : Region) :
    title ++ region table extent = (gridLines table extent).flatMap (· ++ ['\n']) := by
  have rows : rowLine table extent.colIndices =
      fun row => gridLine (rowTexts table extent.colIndices row) ++ ['\n'] :=
    funext (rowLine_eq table extent.colIndices)
  rw [title_eq, region, headerLine_eq, delimiterLine_eq, rows, gridLines]
  generalize "# Table".toList = first
  simp [List.flatMap_map]

theorem newline_not_mem_of_mem_gridLines {table : Table} {extent : Region} {line : List Char}
    (member : line ∈ gridLines table extent) : '\n' ∉ line := by
  simp only [gridLines, List.mem_cons, List.mem_map] at member
  rcases member with rfl | rfl | rfl | rfl | ⟨row, -, rfl⟩
  · decide
  · decide
  · exact newline_not_mem_gridLine _
  · exact newline_not_mem_dashes _
  · exact newline_not_mem_gridLine _

/-- What a table is written as has, behind the title, a header, a delimiter and a line for each row of
the extent; each of these lines has a label and a field for each column. A row has its number for a
label, and every field of it holds what the cell shows, on one line. -/
theorem grid_of_render (table : Table) (extent : Region) (occupied : table.extent = some extent)
    (small : extent.height * extent.width ≤ 1000000) :
    ∃ text header delimiter lines, render table = .ok text ∧
      text.toList.splitOn '\n' =
        "# Table".toList :: [] :: header :: delimiter :: lines ++ [[]] ∧
      (∀ line ∈ header :: delimiter :: lines, ∃ label cells,
        fields? line = some (label :: cells) ∧ cells.length = extent.width) ∧
      List.Forall₂ (fun row line => ∃ label cells, fields? line = some (label :: cells) ∧
        content? label = some (Nat.toDigits 10 (row + 1)) ∧
        List.Forall₂ (fun col cell =>
          content? cell = some (flattened (table.display ⟨row, col⟩).toList))
          extent.colIndices cells) extent.rowIndices lines := by
  have rendered : render table = .ok (String.ofList (title ++ region table extent)) := by
    rw [render, Table.boundedExtent_of_small occupied small]
  have width : extent.colIndices.length = extent.width := List.length_range'
  refine ⟨_, gridLine ([' '] :: extent.colIndices.map Cell.columnLetters),
    dashes (extent.colIndices.length + 1),
    extent.rowIndices.map fun row => gridLine (rowTexts table extent.colIndices row), rendered,
    ?_, ?_, ?_⟩
  · rw [String.toList_ofList, flatMap_gridLines]
    exact splitOn_lines fun line => newline_not_mem_of_mem_gridLines
  · have whole (label : List Char) (texts : List (List Char)) (all : texts.length = extent.width) :
        ∃ first cells, fields? (gridLine (label :: texts)) = some (first :: cells) ∧
          cells.length = extent.width :=
      ⟨padded label, texts.map padded, fields?_gridLine _, by simpa using all⟩
    simp only [List.forall_mem_cons, List.forall_mem_map]
    refine ⟨whole _ _ (by simpa using width), ⟨_, _, fields?_dashes _, by simpa using width⟩, ?_⟩
    exact fun row _ => whole _ _ (by simpa using width)
  · rw [List.forall₂_map_right_iff, List.forall₂_same]
    intro row _
    refine ⟨_, _, fields?_gridLine _, ?_, ?_⟩
    · rw [content?_padded, flattened_of_plain (plain_digits _)]
    · simp only [List.map_map, List.forall₂_map_right_iff, List.forall₂_same]
      exact fun col _ => content?_padded _

end

def barredCells : Table :=
  (Table.evaluate { Table.empty with operations :=
    [⟨1, .empty, .reference "C10", .block (.ofList (Function.rowEntries
      [[.text "x|y\\"], [.text "\\|\\\r|", .text "| 11 |\r\n|"]])), none⟩] }).1

theorem grid_of_render_barredCells :
    barredCells.extent = some (.of ⟨9, 2⟩ ⟨10, 3⟩) ∧
    ∃ text header delimiter lines, render barredCells = .ok text ∧
      text.toList.splitOn '\n' =
        "# Table".toList :: [] :: header :: delimiter :: lines ++ [[]] ∧
      (∀ line ∈ header :: delimiter :: lines, ∃ label cells,
        fields? line = some (label :: cells) ∧ cells.length = 2) ∧
      List.Forall₂ (fun row line => ∃ label cells, fields? line = some (label :: cells) ∧
        content? label = some (Nat.toDigits 10 (row + 1)) ∧
        List.Forall₂ (fun col cell =>
          content? cell = some (flattened (barredCells.display ⟨row, col⟩).toList))
          [2, 3] cells) [9, 10] lines := by
  have occupied : barredCells.extent = some (.of ⟨9, 2⟩ ⟨10, 3⟩) := by decide +kernel
  exact ⟨occupied, grid_of_render barredCells _ occupied (by decide)⟩

end Markdown

end LinkedSheet.Export
