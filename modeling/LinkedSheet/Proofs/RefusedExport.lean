import LinkedSheet.Proofs.FilePlaces
import LinkedSheet.Proofs.TableExtent

/-!
Exports of tables whose extent is too large. Both exports find that out when they make their text.
A Markdown file is opened with its text at hand, so that a refusal leaves all files as they were; a
file of comma-separated values is opened first, so that a refusal leaves it empty, whatever it held.
-/
namespace LinkedSheet

theorem Export.Csv.render_eq_error_iff [Script.Engine] {table : Table} {error : TableError} :
    render table = .error error ↔ table.boundedExtent = .error error := by
  unfold render
  rcases table.boundedExtent with fault | _ | extent <;> simp

theorem Export.Markdown.render_eq_error_iff [Script.Engine] {table : Table} {error : TableError} :
    render table = .error error ↔ table.boundedExtent = .error error := by
  unfold render
  rcases table.boundedExtent with fault | _ | extent <;> simp

namespace Table

open FileSystem

section
variable {σ : Type} [FileSystem (StateM σ)] {path text : String} {files others : σ}
  {error : TableError} {count : Nat}

theorem file_of_write_error {content : ByteArray}
    (failed : (Storing.file (FileSystem.write path content) : Storing (StateM σ) Unit).on files =
      (.error error, others)) : ∃ fault, error = .file fault := by
  rw [Storing.file_on] at failed
  rcases done : StateT.run (FileSystem.write path content : StateM σ _) files with
    ⟨fault | _, after⟩
  · rw [done] at failed
    cases failed
    exact ⟨fault, rfl⟩
  · rw [done] at failed
    cases failed

variable [Script.Engine] {table : Table}

theorem exportMarkdown_on :
    (table.exportMarkdown path : Storing (StateM σ) Unit).on files =
      match Export.Markdown.render table with
      | .error e => (.error e, files)
      | .ok text => (Storing.file (FileSystem.write path text.toUTF8)).on files := by
  unfold exportMarkdown
  rw [Storing.andThen_on, Storing.pass_on]
  cases Export.Markdown.render table <;> rfl

theorem exportCsv_on :
    (table.exportCsv path : Storing (StateM σ) Unit).on files =
      match StateT.run (FileSystem.write path ByteArray.empty : StateM σ _) files with
      | (.error fault, others) => (.error (.file fault), others)
      | (.ok (), others) =>
        match Export.Csv.render table with
        | .error e => (.error e, others)
        | .ok text => (Storing.file (FileSystem.write path text.toUTF8)).on others := by
  unfold exportCsv
  rw [Storing.andThen_on, Storing.file_on]
  rcases StateT.run (FileSystem.write path ByteArray.empty : StateM σ _) files with
    ⟨fault | ⟨⟩, others⟩
  · rfl
  · dsimp only [Except.mapError]
    rw [Storing.andThen_on, Storing.pass_on]
    cases Export.Csv.render table <;> rfl

theorem exportMarkdown_eq_error
    (failed : (table.exportMarkdown path : Storing (StateM σ) Unit).on files =
      (.error error, others)) :
    (∃ fault, error = .file fault) ∨ (table.boundedExtent = .error error ∧ others = files) := by
  rw [exportMarkdown_on] at failed
  cases rendered : Export.Markdown.render table with
  | error e =>
    rw [rendered] at failed
    cases failed
    exact .inr ⟨Export.Markdown.render_eq_error_iff.1 rendered, rfl⟩
  | ok text =>
    rw [rendered] at failed
    exact .inl (file_of_write_error failed)

theorem exportCsv_eq_error
    (failed : (table.exportCsv path : Storing (StateM σ) Unit).on files = (.error error, others)) :
    (∃ fault, error = .file fault) ∨ (table.boundedExtent = .error error ∧
      StateT.run (FileSystem.write path ByteArray.empty : StateM σ _) files = (.ok (), others)) := by
  rw [exportCsv_on] at failed
  rcases emptied : StateT.run (FileSystem.write path ByteArray.empty : StateM σ _) files with
    ⟨fault | ⟨⟩, after⟩
  · rw [emptied] at failed
    cases failed
    exact .inl ⟨fault, rfl⟩
  · rw [emptied] at failed
    dsimp only at failed
    cases rendered : Export.Csv.render table with
    | error e =>
      rw [rendered] at failed
      cases failed
      exact .inr ⟨Export.Csv.render_eq_error_iff.1 rendered, rfl⟩
    | ok text =>
      rw [rendered] at failed
      exact .inl (file_of_write_error failed)

/-- If the extent is too large, a Markdown export leaves all files as they were. An export of
comma-separated values leaves an empty file, so that only an empty file is what it was. -/
theorem files_of_refused_export [Lawful σ] (table : Table) (path : String) (files others : σ)
    (count : Nat) (sound : Lawful.Sound files) :
    ((table.exportMarkdown path : Storing (StateM σ) Unit).on files =
        (.error (.extentTooLarge count), others) → others = files) ∧
    ((table.exportCsv path : Storing (StateM σ) Unit).on files =
        (.error (.extentTooLarge count), others) →
      kindAt others path = some .file ∧ readAt others path = .ok ByteArray.empty ∧
        (readAt others path = readAt files path ↔ readAt files path = .ok ByteArray.empty)) := by
  constructor
  · intro failed
    rcases exportMarkdown_eq_error failed with ⟨fault, same⟩ | ⟨-, kept⟩
    · cases same
    · exact kept
  · intro failed
    rcases exportCsv_eq_error failed with ⟨fault, same⟩ | ⟨-, emptied⟩
    · cases same
    · have written := (Lawful.written sound emptied).2
      exact ⟨written.kind, written.read, by rw [written.read, eq_comm]⟩

end

def farApart : Table :=
  (evaluate { Table.empty with operations :=
    [⟨1, .empty, .reference "A1", .block (.scalar (.int 1)), none⟩,
      ⟨2, .empty, .reference "A1000001", .block (.scalar (.int 2)), none⟩] }).1

def oneByteFile : FileTree :=
  (FileTree.empty ["home"]).withFile ["home", "kept"] ⟨#[49]⟩

theorem boundedExtent_farApart : farApart.boundedExtent = .error (.extentTooLarge 1000001) := by
  have occupied : farApart.extent = some (.of ⟨0, 0⟩ ⟨1000000, 0⟩) := by decide +kernel
  exact boundedExtent_eq_error_iff.2 ⟨_, occupied, by decide, by decide⟩

theorem exportMarkdown_farApart :
    (farApart.exportMarkdown "kept" : Storing (StateM FileTree) Unit).on oneByteFile =
      (.error (.extentTooLarge 1000001), oneByteFile) := by
  rw [exportMarkdown_on, Export.Markdown.render_eq_error_iff.2 boundedExtent_farApart]

theorem exportCsv_farApart :
    (farApart.exportCsv "kept" : Storing (StateM FileTree) Unit).on oneByteFile =
      (.error (.extentTooLarge 1000001), oneByteFile.withFile ["home", "kept"] ByteArray.empty) := by
  have emptied : StateT.run (FileSystem.write "kept" ByteArray.empty : StateM FileTree _)
      oneByteFile = (.ok (), oneByteFile.withFile ["home", "kept"] ByteArray.empty) := by rfl
  rw [exportCsv_on, emptied, Export.Csv.render_eq_error_iff.2 boundedExtent_farApart]

theorem files_of_refused_export_farApart :
    Lawful.Sound oneByteFile ∧
    (∃ others, (farApart.exportMarkdown "kept" : Storing (StateM FileTree) Unit).on oneByteFile =
        (.error (.extentTooLarge 1000001), others) ∧ others = oneByteFile) ∧
    ∃ others, (farApart.exportCsv "kept" : Storing (StateM FileTree) Unit).on oneByteFile =
        (.error (.extentTooLarge 1000001), others) ∧
      kindAt others "kept" = some .file ∧ readAt others "kept" = .ok ByteArray.empty ∧
        (readAt others "kept" = readAt oneByteFile "kept" ↔
          readAt oneByteFile "kept" = .ok ByteArray.empty) := by
  have sound : Lawful.Sound oneByteFile := by
    intro name member
    obtain rfl : name = "home" := List.mem_singleton.1 member
    exact ⟨by decide, by decide, by decide, by decide⟩
  have refused (others : FileTree) :=
    files_of_refused_export farApart "kept" oneByteFile others 1000001 sound
  exact ⟨sound, ⟨_, exportMarkdown_farApart, (refused _).1 exportMarkdown_farApart⟩,
    _, exportCsv_farApart, (refused _).2 exportCsv_farApart⟩

theorem refused_export_empties_file :
    ∃ others, (farApart.exportCsv "kept" : Storing (StateM FileTree) Unit).on oneByteFile =
        (.error (.extentTooLarge 1000001), others) ∧
      readAt oneByteFile "kept" = .ok ⟨#[49]⟩ ∧ readAt others "kept" ≠ readAt oneByteFile "kept" := by
  have before : readAt oneByteFile "kept" = .ok ⟨#[49]⟩ := by rfl
  have after : readAt (oneByteFile.withFile ["home", "kept"] ByteArray.empty) "kept" =
      .ok ByteArray.empty := by rfl
  refine ⟨_, exportCsv_farApart, before, ?_⟩
  rw [before, after]
  decide

end Table

end LinkedSheet
