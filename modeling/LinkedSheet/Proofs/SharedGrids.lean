import Mathlib.Logic.Function.Basic
import LinkedSheet.Proofs.SessionHistory

/-!
Tables whose scripts read cells on their own. The values of a table are in a grid with an address.
Scripts are compiled in a context, which holds the address of the grid that its built-in functions
read, and every script keeps the context in which it was compiled, while the table gets a new one
with each functions file. Selections and positions read through the table instead.

`view` is the table without addresses. Every context of a table has the table's own address. If the
scripts that callers hand over ready-made come from such a context too, all scripts read what the
table holds, and the view of a shared table is the table that a session works on (`shows_foldl`).
-/
namespace LinkedSheet
variable [Script.Engine] {σ : Type}

def Function.program? : Function → Option Script.Engine.Program
  | .script program => some program
  | _ => none

def Request.program? : Request → Option Script.Engine.Program
  | .add op => op.function.program?
  | .bind _ _ function _ => function.program?
  | _ => none

/-- Where scripts are compiled: the grid that they read, and the custom functions. -/
structure Script.Context where
  grid : Nat
  custom : Engine.Program

/-- An operation, and the grid of the context that its function was compiled in. -/
structure Bound where
  operation : Operation
  grid : Nat

namespace Bound

def read (bound : Bound) (grids : Nat → Block) (cell : Cell) : Option Value :=
  (grids bound.grid).get? cell

def natives (bound : Bound) (grids : Nat → Block) : Script.Natives :=
  Script.Builtin.natives (bound.read grids)

def outcome (start : Script.Engine.Moment) : Except FunctionError Block :=
  match (Script.Engine.finish start).1 with
  | .ok d => d.toBlock.mapError .script
  | .error e => .error (.script e)

/-- Calls the function: a script reads its selection through the sheet, and single cells from the
grid that it keeps. -/
def call (bound : Bound) (grids : Nat → Block) (sheet : Sheet) (input : List Cell) :
    Except FunctionError Block :=
  match bound.operation.function with
  | .script program =>
    outcome (Script.Engine.start program (bound.natives grids)
      (Script.selectionVariables sheet input))
  | function => function.call sheet input

theorem outcome_start (program : Script.Engine.Program) (sheet : Sheet) (input : List Cell) :
    outcome (Script.Engine.start program (Script.Builtin.natives sheet.value)
      (Script.selectionVariables sheet input)) = (Function.script program).call sheet input := by
  unfold outcome Function.call Script.Engine.Program.block Script.Engine.Program.run
  dsimp only
  cases (Script.Engine.finish (Script.Engine.start program (Script.Builtin.natives sheet.value)
    (Script.selectionVariables sheet input))).1 with
  | error e => rfl
  | ok d =>
    dsimp only
    cases d.toBlock <;> rfl

theorem call_eq {bound : Bound} {grids : Nat → Block} {sheet : Sheet}
    (same : bound.operation.function.program?.isSome → bound.read grids = sheet.value)
    (input : List Cell) :
    bound.call grids sheet input = bound.operation.function.call sheet input := by
  unfold call
  cases function : bound.operation.function with
  | script program =>
    dsimp only
    rw [function] at same
    rw [natives, same rfl, outcome_start]
  | _ => rfl

/-- The operation with its function built anew in a context, if it has a declarative form. -/
def under (context : Script.Context) (bound : Bound) : Except TableError Bound :=
  match bound.operation.spec with
  | none => .ok bound
  | some spec =>
    match spec.build context.custom with
    | .ok function => .ok ⟨{ bound.operation with function := function }, context.grid⟩
    | .error e => .error (.function bound.operation.id bound.operation.function.name e)

def rebuilt (context : Script.Context) : List Bound → Except TableError (List Bound)
  | [] => .ok []
  | bound :: rest =>
    match bound.under context, rebuilt context rest with
    | .ok bound, .ok rest => .ok (bound :: rest)
    | .error e, _ => .error e
    | .ok _, .error e => .error e

theorem map_rebuilt (context : Script.Context) (bounds : List Bound) :
    (rebuilt context bounds).map (List.map operation) =
      Table.rebuilt context.custom (bounds.map operation) := by
  induction bounds with
  | nil => rfl
  | cons bound rest ih =>
    obtain ⟨⟨id, selection, anchor, function, _ | spec⟩, grid⟩ := bound
    · rw [List.map_cons, rebuilt, Table.rebuilt, ← ih]
      cases rebuilt context rest <;> rfl
    · rw [List.map_cons, rebuilt, Table.rebuilt, ← ih, under]
      dsimp only
      cases spec.build context.custom with
      | error e => rfl
      | ok function => cases rebuilt context rest <;> rfl

theorem grid_of_under {context : Script.Context} {bound built : Bound}
    (ok : bound.under context = .ok built) : built.grid = context.grid ∨ built = bound := by
  unfold under at ok
  split at ok
  · cases ok
    exact .inr rfl
  · split at ok
    · cases ok
      exact .inl rfl
    · cases ok

theorem grid_of_mem_rebuilt {context : Script.Context} {bounds built : List Bound}
    (ok : rebuilt context bounds = .ok built) :
    ∀ bound ∈ built, bound.grid = context.grid ∨ bound ∈ bounds := by
  induction bounds generalizing built with
  | nil =>
    cases ok
    simp
  | cons first rest ih =>
    unfold rebuilt at ok
    split at ok
    · rename_i bound more made later
      cases ok
      refine List.forall_mem_cons.2 ⟨?_, fun other member => ?_⟩
      · rcases grid_of_under made with grid | rfl
        · exact .inl grid
        · exact .inr List.mem_cons_self
      · exact (ih later other member).imp_right (List.mem_cons_of_mem _)
    · cases ok
    · cases ok

end Bound

structure SharedTable where
  /-- The grids by address, also those of other tables. -/
  grids : Nat → Block
  /-- The address of the table's own values. -/
  own : Nat
  regions : Std.TreeMap OpId Region
  bounds : List Bound
  order : List OpId
  context : Script.Context
  filePath : Option String
  functionFiles : List String
  customSource : Option String

namespace SharedTable
variable {shared next : SharedTable} {table : Table} {bound : Bound} {grids : Nat → Block}
  {op : Operation} {own grid : Nat}

def start (grids : Nat → Block) (own : Nat) : SharedTable where
  grids := Function.update grids own Block.empty
  own := own
  regions := {}
  bounds := []
  order := []
  context := ⟨own, Script.Engine.empty⟩
  filePath := none
  functionFiles := []
  customSource := none

def view (shared : SharedTable) : Table where
  values := shared.grids shared.own
  regions := shared.regions
  operations := shared.bounds.map Bound.operation
  order := shared.order
  custom := shared.context.custom
  filePath := shared.filePath
  functionFiles := shared.functionFiles
  customSource := shared.customSource

/-- The contexts of the table and of its scripts have captured the grid of the table's values. -/
structure Home (own : Nat) (shared : SharedTable) : Prop where
  values : shared.own = own
  context : shared.context.grid = own
  bounds : ∀ bound ∈ shared.bounds, bound.operation.function.program?.isSome → bound.grid = own

def add (shared : SharedTable) (op : Operation) (grid : Nat) : Except TableError SharedTable :=
  if shared.bounds.any fun other => other.operation.id == op.id then
    .error (.duplicateOperation op.id)
  else .ok { shared with bounds := shared.bounds ++ [⟨op, grid⟩] }

def setOrder (shared : SharedTable) (ids : List OpId) : Except TableError SharedTable :=
  match Schedule.orderFault? (shared.bounds.map (·.operation.id)) [] ids with
  | some fault => .error (.schedule fault)
  | none => .ok { shared with order := ids }

/-- Adds the text of a functions file. The new context captures the table's own grid. -/
def addFunctions (shared : SharedTable) (path source : String) : Except TableError SharedTable :=
  if shared.functionFiles.contains path then .ok shared
  else
    let joined := shared.view.sourceWith source
    match Script.compileFunctions joined with
    | .error e => .error (.functionsMalformed (.script e))
    | .ok custom =>
      match Bound.rebuilt ⟨shared.own, custom⟩ shared.bounds with
      | .error e => .error e
      | .ok bounds =>
        .ok { shared with
          bounds := bounds
          context := ⟨shared.own, custom⟩
          functionFiles := shared.functionFiles ++ [path]
          customSource := some joined }

theorem view_add (op : Operation) (grid : Nat) :
    (shared.add op grid).map view = shared.view.add op := by
  have same : (shared.view.operations.any fun other => other.id == op.id) =
      shared.bounds.any fun other => other.operation.id == op.id := by
    simp [view, Function.comp_def]
  unfold add Table.add
  rw [same]
  split
  · rfl
  · simp [Except.map, view]

theorem view_setOrder (ids : List OpId) :
    (shared.setOrder ids).map view = shared.view.setOrder ids := by
  have same : shared.view.operations.map Operation.id =
      shared.bounds.map (·.operation.id) := by
    simp [view, Function.comp_def]
  unfold setOrder Table.setOrder
  rw [same]
  cases Schedule.orderFault? (shared.bounds.map (·.operation.id)) [] ids <;> rfl

theorem view_addFunctions (path source : String) :
    (shared.addFunctions path source).map view = shared.view.addFunctions path source := by
  unfold addFunctions Table.addFunctions
  have known : shared.view.functionFiles = shared.functionFiles := rfl
  rw [known]
  split
  · rfl
  · dsimp only
    cases Script.compileFunctions (shared.view.sourceWith source) with
    | error e => rfl
    | ok custom =>
      have built := Bound.map_rebuilt ⟨shared.own, custom⟩ shared.bounds
      dsimp only at built ⊢
      have operations : shared.view.operations = shared.bounds.map Bound.operation := rfl
      rw [operations, ← built]
      cases Bound.rebuilt ⟨shared.own, custom⟩ shared.bounds <;> rfl

namespace Home

theorem add (home : shared.Home own) (captured : op.function.program?.isSome → grid = own)
    (ok : shared.add op grid = .ok next) : next.Home own := by
  unfold SharedTable.add at ok
  split at ok
  · cases ok
  · cases ok
    refine ⟨home.values, home.context, List.forall_mem_append.2 ⟨home.bounds, ?_⟩⟩
    exact List.forall_mem_singleton.2 captured

theorem setOrder (home : shared.Home own) {ids : List OpId}
    (ok : shared.setOrder ids = .ok next) : next.Home own := by
  unfold SharedTable.setOrder at ok
  split at ok
  · cases ok
  · cases ok
    exact ⟨home.values, home.context, home.bounds⟩

theorem addFunctions (home : shared.Home own) {path source : String}
    (ok : shared.addFunctions path source = .ok next) : next.Home own := by
  unfold SharedTable.addFunctions at ok
  split at ok
  · cases ok
    exact home
  · dsimp only at ok
    split at ok
    · cases ok
    · split at ok
      · cases ok
      · rename_i bounds built
        cases ok
        refine ⟨home.values, home.values, fun bound member script => ?_⟩
        rcases Bound.grid_of_mem_rebuilt built bound member with grid | kept
        · exact grid.trans home.values
        · exact home.bounds bound kept script

end Home

/-- The table with other values in its grid, which is the same one, and other regions. -/
def holding (shared : SharedTable) (table : Table) : SharedTable :=
  { shared with
    grids := Function.update shared.grids shared.own table.values
    regions := table.regions }

def find (shared : SharedTable) (id : OpId) : Except TableError Bound :=
  match shared.bounds.find? fun bound => bound.operation.id == id with
  | some bound => .ok bound
  | none => .error (.schedule (.unknown id))

/-- Runs one operation: selects, calls, resolves the anchor and writes into the table's grid. -/
def apply (shared : SharedTable) (bound : Bound) : Except TableError SharedTable :=
  match bound.operation.selection.select shared.view.sheet with
  | .error e => .error (.resolve bound.operation.id e)
  | .ok input =>
    match bound.call shared.grids shared.view.sheet input with
    | .error e => .error (.function bound.operation.id bound.operation.function.name e)
    | .ok block =>
      match bound.operation.anchor.resolve shared.view.sheet with
      | .error e => .error (.resolve bound.operation.id e)
      | .ok anchor =>
        match shared.view.write bound.operation.id anchor block with
        | .error e => .error (.resolve bound.operation.id e)
        | .ok table => .ok (shared.holding table)

def run (shared : SharedTable) : List OpId → SharedTable × Except TableError Unit
  | [] => (shared, .ok ())
  | id :: rest =>
    match shared.find id with
    | .error e => (shared, .error e)
    | .ok bound =>
      match shared.apply bound with
      | .error e => (shared, .error e)
      | .ok next => next.run rest

def cleared (shared : SharedTable) : SharedTable :=
  shared.holding shared.view.cleared

def evaluate (shared : SharedTable) : SharedTable × Except TableError Unit :=
  match shared.view.schedule with
  | .error e => (shared, .error e)
  | .ok sequence => shared.cleared.run sequence

theorem home_holding (home : shared.Home own) (table : Table) : (shared.holding table).Home own :=
  ⟨home.values, home.context, home.bounds⟩

theorem view_holding (table : Table) :
    (shared.holding table).view =
      { shared.view with values := table.values, regions := table.regions } := by
  simp [holding, view]

theorem view_cleared : shared.cleared.view = shared.view.cleared :=
  view_holding shared.view.cleared

theorem view_find (id : OpId) : (shared.find id).map Bound.operation = shared.view.operation id := by
  have operations : shared.view.operations = shared.bounds.map Bound.operation := rfl
  unfold find Table.operation Table.operation?
  rw [operations, List.find?_map, Function.comp_def]
  cases shared.bounds.find? fun bound => bound.operation.id == id <;> rfl

theorem mem_of_find {id : OpId} (found : shared.find id = .ok bound) : bound ∈ shared.bounds := by
  unfold find at found
  split at found
  · rename_i there
    cases found
    exact List.mem_of_find?_eq_some there
  · cases found

theorem read_eq (home : shared.Home own) (member : bound ∈ shared.bounds)
    (script : bound.operation.function.program?.isSome) :
    bound.read shared.grids = shared.view.get := by
  funext cell
  rw [Bound.read, home.bounds bound member script, ← home.values]
  rfl

theorem view_apply (home : shared.Home own) (member : bound ∈ shared.bounds) :
    (shared.apply bound).map view = shared.view.apply bound.operation := by
  unfold apply Table.apply
  cases bound.operation.selection.select shared.view.sheet with
  | error e => rfl
  | ok input =>
    dsimp only
    rw [Bound.call_eq (read_eq home member)]
    cases bound.operation.function.call shared.view.sheet input with
    | error e => rfl
    | ok block =>
      dsimp only
      cases bound.operation.anchor.resolve shared.view.sheet with
      | error e => rfl
      | ok anchor =>
        dsimp only
        cases written : shared.view.write bound.operation.id anchor block with
        | error e => rfl
        | ok table =>
          refine congrArg Except.ok ((view_holding table).trans ?_)
          rcases Table.write_eq_ok_iff.1 written with ⟨-, rfl⟩ | ⟨relative, region, -, -, rfl⟩ <;>
            rfl

theorem exists_holding_of_apply (ok : shared.apply bound = .ok next) :
    ∃ table, next = shared.holding table := by
  unfold apply at ok
  split at ok
  · cases ok
  · split at ok
    · cases ok
    · split at ok
      · cases ok
      · split at ok
        · cases ok
        · exact ⟨_, (Except.ok.inj ok).symm⟩

theorem home_apply (home : shared.Home own) (ok : shared.apply bound = .ok next) :
    next.Home own := by
  obtain ⟨table, rfl⟩ := exists_holding_of_apply ok
  exact home_holding home table

theorem run_shows (home : shared.Home own) (ids : List OpId) :
    (shared.run ids).1.Home own ∧ (shared.run ids).1.view = (shared.view.run ids).1 ∧
      (shared.run ids).2 = (shared.view.run ids).2 := by
  induction ids generalizing shared with
  | nil => exact ⟨home, rfl, rfl⟩
  | cons id rest ih =>
    rw [run, Table.run, ← view_find]
    cases found : shared.find id with
    | error e => exact ⟨home, rfl, rfl⟩
    | ok bound =>
      dsimp only [Except.map]
      rw [← view_apply home (mem_of_find found)]
      cases applied : shared.apply bound with
      | error e => exact ⟨home, rfl, rfl⟩
      | ok next => exact ih (home_apply home applied)

theorem home_cleared (home : shared.Home own) : shared.cleared.Home own :=
  home_holding home _

theorem evaluate_shows (home : shared.Home own) :
    shared.evaluate.1.Home own ∧ shared.evaluate.1.view = shared.view.evaluate.1 ∧
      shared.evaluate.2 = shared.view.evaluate.2 := by
  unfold evaluate Table.evaluate
  cases shared.view.schedule with
  | error e => exact ⟨home, rfl, rfl⟩
  | ok sequence =>
    rw [← view_cleared]
    exact run_shows (home_cleared home) sequence

/-- A request with the files that it meets. A ready-made function comes with the grid that its own
context has captured. -/
structure Step (σ : Type) where
  files : σ
  request : Request
  grid : Nat

namespace Step

def plain (step : Step σ) : σ × Request :=
  (step.files, step.request)

/-- A ready-made script of the step was compiled in a context with the grid of a table. -/
def Captures (own : Nat) (step : Step σ) : Prop :=
  step.request.program?.isSome → step.grid = own

instance (own : Nat) : DecidablePred (Captures (σ := σ) own) := fun step =>
  inferInstanceAs (Decidable (step.request.program?.isSome → step.grid = own))

end Step

def orKept (shared : SharedTable) : Except TableError SharedTable → SharedTable
  | .ok next => next
  | .error _ => shared

variable [FileSystem (StateM σ)]

/-- The table after a step. Saving only decides which document is the table's own. -/
def after (shared : SharedTable) (step : Step σ) : SharedTable :=
  match step.request with
  | .add op => shared.orKept (shared.add op step.grid)
  | .bind selection anchor function id =>
    shared.orKept
      (shared.add ⟨id.getD shared.view.nextId, selection, anchor, function, none⟩ step.grid)
  | .bindSpec selection anchor spec id =>
    match spec.build shared.context.custom with
    | .error _ => shared
    | .ok function =>
      shared.orKept
        (shared.add ⟨id.getD shared.view.nextId, selection, anchor, function, some spec⟩
          shared.context.grid)
  | .setOrder ids => shared.orKept (shared.setOrder ids)
  | .loadFunctions path =>
    match Session.functionsAt path step.files with
    | .ok (place, source) => shared.orKept (shared.addFunctions place source)
    | .error _ => shared
  | .saveAs _ | .save =>
    { shared with filePath := (Session.after shared.view step.plain).filePath }
  | .evaluate => shared.evaluate.1

/-- The table without addresses is a table of the library, and its scripts read its own values. -/
structure Shows (own : Nat) (shared : SharedTable) (table : Table) : Prop where
  home : shared.Home own
  view : shared.view = table

theorem shows_start (grids : Nat → Block) (own : Nat) :
    Shows own (start grids own) Table.empty := by
  refine ⟨⟨rfl, rfl, by simp [start]⟩, ?_⟩
  simp [SharedTable.view, start, Table.empty]

theorem shows_orKept {attempt : Except TableError SharedTable} (home : shared.Home own)
    (kept : ∀ next, attempt = .ok next → next.Home own) :
    Shows own (shared.orKept attempt) (shared.view.orKept (attempt.map SharedTable.view)) := by
  cases attempt with
  | error e => exact ⟨home, rfl⟩
  | ok next => exact ⟨kept next rfl, rfl⟩

theorem shows_add (home : shared.Home own) (captured : op.function.program?.isSome → grid = own) :
    Shows own (shared.orKept (shared.add op grid)) (shared.view.orKept (shared.view.add op)) := by
  rw [← view_add op grid]
  exact shows_orKept home fun next => home.add captured

theorem shows_saved {path : Option String} {step : σ × Request} (home : shared.Home own)
    (saved : Session.after shared.view step = { shared.view with filePath := path }) :
    Shows own { shared with filePath := (Session.after shared.view step).filePath }
      (Session.after shared.view step) := by
  rw [saved]
  exact ⟨⟨home.values, home.context, home.bounds⟩, rfl⟩

theorem shows_after (shows : Shows own shared table) {step : Step σ} (captures : step.Captures own) :
    Shows own (shared.after step) (Session.after table step.plain) := by
  obtain ⟨home, rfl⟩ := shows
  obtain ⟨files, request, grid⟩ := step
  dsimp only [Step.Captures] at captures
  dsimp only [Step.plain]
  cases request with
  | add op =>
    rw [Session.after_add]
    exact shows_add home captures
  | bind selection anchor function id =>
    have binds : (Request.bind selection anchor function id).Binds := trivial
    rw [Session.after_of_binds binds]
    exact shows_add home captures
  | bindSpec selection anchor spec id =>
    have binds : (Request.bindSpec selection anchor spec id).Binds := trivial
    rw [Session.after_of_binds binds, after, Table.offered]
    have custom : shared.view.custom = shared.context.custom := rfl
    dsimp only
    rw [custom]
    cases spec.build shared.context.custom with
    | error e => exact ⟨home, rfl⟩
    | ok function => exact shows_add home fun _ => home.context
  | setOrder ids =>
    rw [Session.after_setOrder, ← view_setOrder]
    exact shows_orKept home fun next => home.setOrder
  | loadFunctions path =>
    rw [Session.after_loadFunctions, after]
    dsimp only
    cases Session.functionsAt path files with
    | error e => exact ⟨home, rfl⟩
    | ok load =>
      dsimp only
      rw [← view_addFunctions]
      exact shows_orKept home fun next => home.addFunctions
  | saveAs path =>
    obtain ⟨document, saved⟩ : ∃ document, Session.after shared.view (files, .saveAs path) =
        { shared.view with filePath := document } := Session.after_saveAs path
    exact shows_saved home saved
  | save =>
    obtain ⟨document, saved⟩ : ∃ document, Session.after shared.view (files, .save) =
        { shared.view with filePath := document } := Session.after_save
    exact shows_saved home saved
  | evaluate =>
    rw [Session.after_evaluate]
    obtain ⟨kept, same, -⟩ := evaluate_shows home
    exact ⟨kept, same⟩

theorem shows_foldl (shows : Shows own shared table) {steps : List (Step σ)}
    (captures : ∀ step ∈ steps, step.Captures own) :
    Shows own (steps.foldl after shared) ((steps.map Step.plain).foldl Session.after table) := by
  induction steps generalizing shared table with
  | nil => exact shows
  | cons step rest ih =>
    obtain ⟨first, later⟩ := List.forall_mem_cons.1 captures
    exact ih (shows_after shows first) later

end SharedTable

end LinkedSheet
