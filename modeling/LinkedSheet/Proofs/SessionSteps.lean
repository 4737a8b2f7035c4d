import LinkedSheet.Table.Session

/-!
Sessions step by step, for files that are a value. `on` says what a computation answers and what it
leaves. Binding, ordering, loading and saving are transactions: they answer and leave what the
computation of a new table gives, or an error and the table as it was (`committed`). An evaluation
leaves what `Table.evaluate` does, also when it fails.
-/
namespace LinkedSheet
variable {σ α β : Type} {files : σ}

namespace Storing

def on (action : Storing (StateM σ) α) (files : σ) : Except TableError α × σ :=
  action.run.run files

@[simp] theorem pure_on (a : α) : (pure a : Storing (StateM σ) α).on files = (.ok a, files) := rfl

@[simp] theorem throw_on (e : TableError) :
    (throw e : Storing (StateM σ) α).on files = (.error e, files) := rfl

@[simp] theorem pass_on (result : Except TableError α) :
    (pass result : Storing (StateM σ) α).on files = (result, files) := rfl

@[simp] theorem lift_on (action : StateM σ α) :
    on (ExceptT.lift action) files = (.ok (action.run files).1, (action.run files).2) := rfl

theorem file_on (action : StateM σ (Except FileError α)) :
    (file action).on files =
      ((action.run files).1.mapError TableError.file, (action.run files).2) := by
  cases done : StateT.run action files with
  | mk outcome others =>
    cases outcome <;> simp only [on, file, ExceptT.run_mk, StateT.run_bind, done] <;> rfl

theorem andThen_on (action : Storing (StateM σ) α) (rest : α → Storing (StateM σ) β) :
    (action >>= rest).on files =
      match action.on files with
      | (.ok a, others) => (rest a).on others
      | (.error e, others) => (.error e, others) := by
  cases done : StateT.run action.run files with
  | mk outcome others =>
    cases outcome <;> simp only [on, ExceptT.run_bind, StateT.run_bind, done] <;> rfl

end Storing

namespace Session
variable [Script.Engine] {table next : Table}

def on (action : Session (StateM σ) α) (table : Table) (files : σ) :
    (Except TableError α × Table) × σ :=
  (action.run.run table).run files

@[simp] theorem pure_on (a : α) :
    (pure a : Session (StateM σ) α).on table files = ((.ok a, table), files) := rfl

@[simp] theorem throw_on (e : TableError) :
    (throw e : Session (StateM σ) α).on table files = ((.error e, table), files) := rfl

@[simp] theorem set_on :
    (set next : Session (StateM σ) PUnit).on table files = ((.ok ⟨⟩, next), files) := rfl

@[simp] theorem get_andThen_on (rest : Table → Session (StateM σ) β) :
    (get >>= rest).on table files = (rest table).on table files := rfl

@[simp] theorem set_andThen_on (rest : PUnit → Session (StateM σ) β) :
    (set next >>= rest).on table files = (rest ⟨⟩).on next files := rfl

@[simp] theorem modify_andThen_on (change : Table → Table) (rest : PUnit → Session (StateM σ) β) :
    (modify change >>= rest).on table files = (rest ⟨⟩).on (change table) files := rfl

@[simp] theorem storing_on (action : Storing (StateM σ) α) :
    (storing action).on table files = (((action.on files).1, table), (action.on files).2) := rfl

theorem andThen_on (action : Session (StateM σ) α) (rest : α → Session (StateM σ) β) :
    (action >>= rest).on table files =
      match action.on table files with
      | ((.ok a, next), others) => (rest a).on next others
      | ((.error e, next), others) => ((.error e, next), others) := by
  cases done : StateT.run (action.run.run table) files with
  | mk left others =>
    rcases left with ⟨outcome | outcome, next⟩ <;>
      simp only [on, ExceptT.run_bind, StateT.run_bind, done] <;> rfl

theorem storing_andThen_on (action : Storing (StateM σ) α) (rest : α → Session (StateM σ) β) :
    (storing action >>= rest).on table files =
      match action.on files with
      | (.ok a, others) => (rest a).on table others
      | (.error e, others) => ((.error e, table), others) := by
  rw [andThen_on, storing_on]
  rcases action.on files with ⟨outcome | outcome, others⟩ <;> rfl

/-- A new table takes the place of the old one, unless there is an error instead. -/
def committed (table : Table) : Except TableError (α × Table) → Except TableError α × Table
  | .ok (a, next) => (.ok a, next)
  | .error e => (.error e, table)

theorem add_on (op : Operation) :
    (add op : Session (StateM σ) OpId).on table files =
      (committed table ((table.add op).map fun next => (op.id, next)), files) := by
  unfold add Table.add
  rw [get_andThen_on]
  split <;> rfl

theorem bind_on (selection : Selection) (anchor : Coordinate) (function : Function)
    (id : Option OpId) :
    (bind selection anchor function id : Session (StateM σ) OpId).on table files =
      (committed table (table.bind selection anchor function id), files) := by
  unfold bind Table.bind
  rw [get_andThen_on, add_on]
  dsimp only
  cases table.add ⟨id.getD table.nextId, selection, anchor, function, none⟩ <;> rfl

theorem bindSpec_on (selection : Selection) (anchor : Coordinate) (spec : FunctionSpec)
    (id : Option OpId) :
    (bindSpec selection anchor spec id : Session (StateM σ) OpId).on table files =
      (committed table (table.bindSpec selection anchor spec id), files) := by
  unfold bindSpec Table.bindSpec
  rw [get_andThen_on]
  cases spec.build table.custom with
  | error e => rfl
  | ok function =>
    dsimp only
    rw [add_on]
    cases table.add ⟨id.getD table.nextId, selection, anchor, function, some spec⟩ <;> rfl

theorem setOrder_on (ids : List OpId) :
    (setOrder ids : Session (StateM σ) Unit).on table files =
      (committed table ((table.setOrder ids).map fun next => ((), next)), files) := by
  unfold setOrder Table.setOrder
  rw [get_andThen_on]
  cases Schedule.orderFault? (table.operations.map Operation.id) [] ids <;> rfl

theorem rebuild_on (custom : Script.Engine.Program) :
    (rebuild custom : Session (StateM σ) Unit).on table files =
      (committed table ((Table.rebuilt custom table.operations).map fun operations =>
        ((), { table with operations := operations })), files) := by
  unfold rebuild pass
  rw [get_andThen_on, storing_andThen_on, Storing.pass_on]
  cases Table.rebuilt custom table.operations <;> rfl

theorem place_on (anchor : Cell) (entries : List (Cell × Value)) :
    (place anchor entries : Session (StateM σ) Unit).on table files =
      ((.ok (), { table with
          values := entries.foldl (fun values entry => values.insert (entry.1 + anchor) entry.2)
            table.values }), files) := by
  induction entries generalizing table with
  | nil => rfl
  | cons entry rest ih => rw [place, modify_andThen_on, ih, List.foldl_cons]

theorem apply_on (op : Operation) :
    (apply op : Session (StateM σ) Unit).on table files =
      (committed table ((table.apply op).map fun next => ((), next)), files) := by
  unfold apply pass Table.apply
  rw [get_andThen_on, storing_andThen_on, Storing.pass_on]
  cases op.selection.select table.sheet with
  | error e => rfl
  | ok input =>
    dsimp only [Except.mapError]
    rw [storing_andThen_on, Storing.pass_on]
    cases op.function.call table.sheet input with
    | error e => rfl
    | ok block =>
      dsimp only
      rw [storing_andThen_on, Storing.pass_on]
      cases op.anchor.resolve table.sheet with
      | error e => rfl
      | ok anchor =>
        dsimp only [Table.write]
        cases block.extent with
        | none => rfl
        | some relative =>
          dsimp only
          cases relative.offset? anchor.row anchor.col with
          | none => rfl
          | some region =>
            dsimp only
            rw [modify_andThen_on, place_on]
            rfl

theorem runAll_on (ids : List OpId) :
    (runAll ids : Session (StateM σ) Unit).on table files =
      (((table.run ids).2, (table.run ids).1), files) := by
  induction ids generalizing table with
  | nil => rfl
  | cons id rest ih =>
    unfold runAll pass
    rw [get_andThen_on, storing_andThen_on, Storing.pass_on]
    cases found : table.operation id with
    | error e => simp [Table.run, found]
    | ok op =>
      dsimp only
      rw [andThen_on, apply_on]
      cases applied : table.apply op with
      | error e => simp [Table.run, found, applied, committed, Except.map]
      | ok next => simp [Table.run, found, applied, committed, Except.map, ih]

theorem evaluate_on :
    (evaluate : Session (StateM σ) Unit).on table files =
      ((table.evaluate.2, table.evaluate.1), files) := by
  unfold evaluate pass Table.evaluate
  rw [get_andThen_on, storing_andThen_on, Storing.pass_on]
  cases table.schedule with
  | error e => rfl
  | ok sequence =>
    dsimp only
    rw [set_andThen_on, runAll_on]

variable [FileSystem (StateM σ)]

theorem loadFunctions_on (path : String) :
    (loadFunctions path : Session (StateM σ) String).on table files =
      (committed table ((table.loadFunctions path : Storing (StateM σ) _).on files).1,
        ((table.loadFunctions path : Storing (StateM σ) _).on files).2) := by
  unfold loadFunctions Table.loadFunctions
  rw [storing_andThen_on, Storing.andThen_on]
  rcases (Storing.file (FileSystem.canonical path)).on files with ⟨outcome | place, found⟩
  · rfl
  dsimp only
  rw [storing_andThen_on, Storing.andThen_on]
  rcases (Document.readText place "functions file").on found with ⟨outcome | source, read⟩
  · rfl
  dsimp only
  rw [get_andThen_on, Storing.andThen_on, Storing.pass_on]
  unfold Table.addFunctions
  by_cases known : table.functionFiles.contains place
  · rw [if_pos known, if_pos known]
    rfl
  rw [if_neg known, if_neg known]
  dsimp only
  cases Script.compileFunctions (table.sourceWith source) with
  | error e => rfl
  | ok custom =>
    dsimp only
    rw [andThen_on, rebuild_on]
    cases Table.rebuilt custom table.operations <;> rfl

def saving (table : Table) (path : String) : Storing (StateM σ) (String × Table) := do
  let path ← ExceptT.lift (Document.locate path)
  let document ← table.toDocument (Table.directoryOf path)
  document.save path
  return (path, { table with filePath := some path })

theorem saveAs_on (path : String) :
    (saveAs path : Session (StateM σ) String).on table files =
      (committed table ((saving table path).on files).1, ((saving table path).on files).2) := by
  unfold saveAs saving
  rw [storing_andThen_on, Storing.andThen_on, Storing.lift_on]
  generalize ((Document.locate path : StateM σ String).run files) = located
  dsimp only
  rw [get_andThen_on, storing_andThen_on, Storing.andThen_on]
  rcases (table.toDocument (Table.directoryOf located.1)).on located.2 with
    ⟨outcome | document, looked⟩
  · rfl
  dsimp only
  rw [storing_andThen_on, Storing.andThen_on]
  rcases (document.save located.1).on looked with ⟨outcome | _, written⟩ <;> rfl

theorem save_on :
    (save : Session (StateM σ) String).on table files =
      match table.filePath with
      | some path => (saveAs path).on table files
      | none => ((.error .noFilePath, table), files) := by
  unfold save
  rw [get_andThen_on]
  cases table.filePath <;> rfl

end Session

end LinkedSheet
