import LinkedSheet.FileSystem.Tree
import LinkedSheet.Proofs.SessionSteps
import LinkedSheet.Script.Interpreter

/-!
What callers ask of a session, and what a request that fails leaves. Every request but an evaluation
is a transaction, so that it leaves the table as it was; and if it fails for another reason than the
files themselves, it leaves all files as they were, provided that looking at files does not change
them.
-/
namespace LinkedSheet
variable {σ α β : Type} {files others : σ} {error : TableError}

/-- Looking at files changes none of them. -/
class FileSystem.LooksOnly (σ : Type) [FileSystem (StateM σ)] : Prop where
  canonical_files (path : String) (files : σ) :
    (StateT.run (FileSystem.canonical path : StateM σ _) files).2 = files
  kind?_files (path : String) (files : σ) :
    (StateT.run (FileSystem.kind? path : StateM σ _) files).2 = files
  size_files (path : String) (files : σ) :
    (StateT.run (FileSystem.size path : StateM σ _) files).2 = files
  read_files (path : String) (files : σ) :
    (StateT.run (FileSystem.read path : StateM σ _) files).2 = files

instance : FileSystem.LooksOnly FileTree where
  canonical_files _ _ := rfl
  kind?_files _ _ := rfl
  size_files _ _ := rfl
  read_files _ _ := rfl

namespace Storing

def Looks (action : Storing (StateM σ) α) : Prop :=
  ∀ files, (action.on files).2 = files

theorem Looks.pure (a : α) : Looks (Pure.pure a : Storing (StateM σ) α) :=
  fun _ => rfl

theorem Looks.pass (result : Except TableError α) :
    Looks (Storing.pass result : Storing (StateM σ) α) :=
  fun _ => rfl

theorem Looks.throw (e : TableError) : Looks (throw e : Storing (StateM σ) α) :=
  fun _ => rfl

theorem Looks.file {action : StateM σ (Except FileError α)}
    (looks : ∀ files, (action.run files).2 = files) : Looks (Storing.file action) := by
  intro files
  rw [file_on]
  exact looks files

theorem Looks.lift {action : StateM σ α} (looks : ∀ files, (action.run files).2 = files) :
    Looks (ExceptT.lift action) := by
  intro files
  rw [lift_on]
  exact looks files

theorem Looks.andThen {action : Storing (StateM σ) α} {rest : α → Storing (StateM σ) β}
    (first : Looks action) (later : ∀ a, Looks (rest a)) : Looks (action >>= rest) := by
  intro files
  have kept := first files
  rw [andThen_on]
  cases done : action.on files with
  | mk outcome others =>
    rw [done] at kept
    cases outcome with
    | error e => exact kept
    | ok a => exact (later a others).trans kept

end Storing

section Looking
variable [FileSystem (StateM σ)] [FileSystem.LooksOnly σ]

open FileSystem.LooksOnly

theorem Document.locate_files (path : String) (files : σ) :
    (StateT.run (Document.locate path : StateM σ String) files).2 = files := by
  unfold Document.locate
  rw [StateT.run_bind]
  have kept := kind?_files path files
  cases found : StateT.run (FileSystem.kind? path : StateM σ _) files with
  | mk kind others =>
    rw [found] at kept
    rcases kind with _ | kind | kind <;> exact kept

theorem Document.looks_readText (path kind : String) :
    Storing.Looks (Document.readText path kind : Storing (StateM σ) String) := by
  unfold Document.readText
  refine .andThen (.file (size_files path)) fun size => ?_
  split
  · exact .andThen (.throw _) fun _ => .andThen (.file (read_files path)) fun content => by
      split <;> first | exact .pure _ | exact .throw _
  · exact .andThen (.file (read_files path)) fun content => by
      split <;> first | exact .pure _ | exact .throw _

theorem Table.baseOf_files (path : String) (files : σ) :
    (StateT.run (baseOf path : StateM σ String) files).2 = files := by
  unfold baseOf
  rw [StateT.run_bind]
  have kept := canonical_files path files
  cases found : StateT.run (FileSystem.canonical path : StateM σ _) files with
  | mk place others =>
    rw [found] at kept
    cases place <;> exact kept

variable [Script.Engine] {table left : Table}

theorem Table.looks_loadFunctions (table : Table) (path : String) :
    Storing.Looks (table.loadFunctions path : Storing (StateM σ) (String × Table)) := by
  unfold Table.loadFunctions
  refine .andThen (.file (canonical_files path)) fun place => ?_
  refine .andThen (Document.looks_readText place _) fun source => ?_
  exact .andThen (.pass _) fun next => .pure _

theorem Table.looks_toDocument (table : Table) (base : String) :
    Storing.Looks (table.toDocument base : Storing (StateM σ) Document) := by
  unfold Table.toDocument
  exact .andThen (.lift (baseOf_files base)) fun place => .andThen (.pass _) fun _ => .pure _

theorem Session.files_of_saving_error {path : String}
    (failed : (saving table path).on files = (.error error, others))
    (other : ∀ fault, error ≠ .file fault) : others = files := by
  have located := Document.locate_files path files
  unfold saving at failed
  rw [Storing.andThen_on, Storing.lift_on, located] at failed
  dsimp only at failed
  generalize (StateT.run (Document.locate path : StateM σ String) files).1 = place at failed
  have kept := table.looks_toDocument (Table.directoryOf place) files
  rw [Storing.andThen_on] at failed
  cases described : (table.toDocument (Table.directoryOf place)).on files with
  | mk outcome looked =>
    rw [described] at kept failed
    dsimp only at kept
    subst kept
    cases outcome with
    | error e =>
      cases failed
      rfl
    | ok document =>
      dsimp only at failed
      rw [Storing.andThen_on, Document.save, Storing.andThen_on, Storing.pass_on] at failed
      cases written : document.text with
      | error e =>
        rw [written] at failed
        cases failed
        rfl
      | ok text =>
        rw [written] at failed
        dsimp only at failed
        rw [Storing.file_on] at failed
        cases done : StateT.run (FileSystem.write place text.toUTF8 : StateM σ _) looked with
        | mk answer after =>
          rw [done] at failed
          cases answer with
          | error fault =>
            cases failed
            exact absurd rfl (other fault)
          | ok _ => cases failed

end Looking

section
variable [Script.Engine] {table left : Table}

def Session.quietly (action : Session (StateM σ) α) : Session (StateM σ) Unit := do
  let _ ← action

theorem Session.quietly_on_eq_error {action : Session (StateM σ) α}
    (failed : (quietly action).on table files = ((.error error, left), others)) :
    action.on table files = ((.error error, left), others) := by
  unfold quietly at failed
  rw [andThen_on] at failed
  rcases done : action.on table files with ⟨⟨outcome | a, next⟩, changed⟩
  · rw [done] at failed
    cases failed
    rfl
  · rw [done] at failed
    cases failed

theorem Session.eq_of_committed_on {action : Session (StateM σ) α}
    {outcome : Except TableError (α × Table)} {after : σ}
    (transacts : action.on table files = (committed table outcome, after))
    (failed : action.on table files = ((.error error, left), others)) :
    outcome = .error error ∧ left = table ∧ others = after := by
  rw [transacts] at failed
  cases outcome with
  | ok done => cases failed
  | error e =>
    cases failed
    exact ⟨rfl, rfl, rfl⟩

end

/-- What callers ask of a session. -/
inductive Request [Script.Engine] where
  | add (op : Operation)
  | bind (selection : Selection) (anchor : Coordinate) (function : Function) (id : Option OpId)
  | bindSpec (selection : Selection) (anchor : Coordinate) (spec : FunctionSpec) (id : Option OpId)
  | setOrder (ids : List OpId)
  | loadFunctions (path : String)
  | saveAs (path : String)
  | save
  | evaluate

namespace Request

open Session

section
variable [Script.Engine] [FileSystem (StateM σ)] {table left : Table} {request : Request}

def session : Request → Session (StateM σ) Unit
  | add op => quietly (Session.add op)
  | bind selection anchor function id => quietly (Session.bind selection anchor function id)
  | bindSpec selection anchor spec id => quietly (Session.bindSpec selection anchor spec id)
  | setOrder ids => Session.setOrder ids
  | loadFunctions path => quietly (Session.loadFunctions path)
  | saveAs path => quietly (Session.saveAs path)
  | save => quietly Session.save
  | evaluate => Session.evaluate

theorem kept_of_error [FileSystem.LooksOnly σ] (transacts : request ≠ .evaluate)
    (failed : request.session.on table files = ((.error error, left), others)) :
    left = table ∧ ((∀ fault, error ≠ .file fault) → others = files) := by
  have saved (path : String)
      (failed : (Session.saveAs path).on table files = ((.error error, left), others)) :
      left = table ∧ ((∀ fault, error ≠ .file fault) → others = files) := by
    obtain ⟨fault, kept, same⟩ := eq_of_committed_on (saveAs_on path) failed
    exact ⟨kept, files_of_saving_error (Prod.ext fault same.symm)⟩
  cases request with
  | add op =>
    obtain ⟨-, kept, same⟩ := eq_of_committed_on (add_on op) (quietly_on_eq_error failed)
    exact ⟨kept, fun _ => same⟩
  | bind selection anchor function id =>
    have failed := quietly_on_eq_error failed
    obtain ⟨-, kept, same⟩ := eq_of_committed_on (bind_on selection anchor function id) failed
    exact ⟨kept, fun _ => same⟩
  | bindSpec selection anchor spec id =>
    have failed := quietly_on_eq_error failed
    obtain ⟨-, kept, same⟩ := eq_of_committed_on (bindSpec_on selection anchor spec id) failed
    exact ⟨kept, fun _ => same⟩
  | setOrder ids =>
    obtain ⟨-, kept, same⟩ := eq_of_committed_on (setOrder_on ids) failed
    exact ⟨kept, fun _ => same⟩
  | loadFunctions path =>
    obtain ⟨-, kept, same⟩ := eq_of_committed_on (loadFunctions_on path) (quietly_on_eq_error failed)
    exact ⟨kept, fun _ => same.trans (table.looks_loadFunctions path files)⟩
  | saveAs path => exact saved path (quietly_on_eq_error failed)
  | save =>
    have failed := quietly_on_eq_error failed
    rw [save_on] at failed
    split at failed
    · exact saved _ failed
    · cases failed
      exact ⟨rfl, fun _ => rfl⟩
  | evaluate => exact absurd rfl transacts

/-- A request that fails leaves the table as it was; if it fails because the table has no document,
or because no text holds its document, it also leaves all files as they were. -/
theorem failed_request_keeps_table_and_document [FileSystem.LooksOnly σ]
    (transacts : request ≠ .evaluate)
    (failed : request.session.on table files = ((.error error, left), others)) :
    left = table ∧
      ((∃ id, error = .notSerializable id) ∨ (∃ text, error = .unwritable text) →
        others = files) := by
  obtain ⟨kept, files_kept⟩ := kept_of_error transacts failed
  refine ⟨kept, fun reason => files_kept fun fault same => ?_⟩
  rcases reason with ⟨id, rfl⟩ | ⟨text, rfl⟩ <;> cases same

end

def closureTable : Table :=
  { Table.empty with operations :=
      [⟨1, .empty, .reference "A1", .closure fun _ _ => .ok Block.empty, none⟩] }

theorem failed_request_keeps_table_and_document_closure :
    ∃ left others, (saveAs "t.toml").session.on closureTable (FileTree.empty []) =
        ((.error (.notSerializable 1), left), others) ∧
      left = closureTable ∧ others = FileTree.empty [] := by
  have failed : (saveAs "t.toml").session.on closureTable (FileTree.empty []) =
      ((.error (.notSerializable 1), closureTable), FileTree.empty []) := by rfl
  have transacts : saveAs "t.toml" ≠ .evaluate := nofun
  obtain ⟨kept, unchanged⟩ := failed_request_keeps_table_and_document transacts failed
  exact ⟨_, _, failed, kept, unchanged (.inl ⟨1, rfl⟩)⟩

end Request

end LinkedSheet
