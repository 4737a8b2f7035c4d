import LinkedSheet.FileSystem.Tree
import LinkedSheet.Proofs.TableOutputs
import LinkedSheet.Table.Storage

/-!
Sequences of calls on a table. A call that fails leaves the table as it was, except for an
evaluation, which keeps what was written before it failed. Declaring operations, ordering them and
loading functions changes no value and no region and keeps the ids of operations apart; what an
evaluation leaves is the table as it was, or what a part of its schedule has recorded.
-/
namespace LinkedSheet

theorem Storing.exists_of_bind_eq_ok {α β : Type} {files : FileTree} {first : Storing (StateM FileTree) α}
    {rest : α → Storing (StateM FileTree) β} {value : β}
    (ok : ((first >>= rest).run.run files).1 = .ok value) :
    ∃ middle others, ((rest middle).run.run others).1 = .ok value := by
  simp only [ExceptT.run_bind, StateT.run_bind] at ok
  cases done : first.run.run files with
  | mk outcome others =>
    rw [done] at ok
    cases outcome with
    | ok middle => exact ⟨middle, others, ok⟩
    | error e => cases ok

variable [Script.Engine]

/-- What callers do with a table. -/
inductive Call where
  | add (op : Operation)
  | bind (selection : Selection) (anchor : Coordinate) (function : Function) (id : Option OpId)
  | bindSpec (selection : Selection) (anchor : Coordinate) (spec : FunctionSpec) (id : Option OpId)
  | setOrder (ids : List OpId)
  /-- Loading a functions file, with all files as they are at that time. -/
  | loadFunctions (files : FileTree) (path : String)
  | evaluate
  /-- Running an operation, declared or not, outside of an evaluation. -/
  | apply (op : Operation)

namespace Table
variable {table next result : Table} {op : Operation} {selection : Selection} {anchor : Coordinate}
  {function : Function} {spec : FunctionSpec} {newId : Option OpId} {id : OpId} {ids : List OpId}
  {path source : String} {files : FileTree}

def orKept (table : Table) : Except TableError Table → Table
  | .ok next => next
  | .error _ => table

def loadFunctionsFrom (table : Table) (files : FileTree) (path : String) :
    Except TableError (String × Table) :=
  ((table.loadFunctions path : Storing (StateM FileTree) (String × Table)).run.run files).1

def after (table : Table) : Call → Table
  | .add op => table.orKept (table.add op)
  | .bind selection anchor function id =>
    table.orKept ((table.bind selection anchor function id).map Prod.snd)
  | .bindSpec selection anchor spec id =>
    table.orKept ((table.bindSpec selection anchor spec id).map Prod.snd)
  | .setOrder ids => table.orKept (table.setOrder ids)
  | .loadFunctions files path => table.orKept ((table.loadFunctionsFrom files path).map Prod.snd)
  | .evaluate => table.evaluate.1
  | .apply op => table.orKept (table.apply op)

/-- A step that changes no value and no region, and keeps the ids of operations apart. -/
structure Redeclares (table next : Table) : Prop where
  values : next.values = table.values
  regions : next.regions = table.regions
  distinct : (table.operations.map Operation.id).Nodup → (next.operations.map Operation.id).Nodup

theorem Redeclares.refl (table : Table) : table.Redeclares table :=
  ⟨rfl, rfl, fun distinct => distinct⟩

theorem Redeclares.get_eq (step : table.Redeclares next) : next.get = table.get := by
  funext cell
  rw [get, step.values, get]

theorem Redeclares.regionOf_eq (step : table.Redeclares next) :
    next.regionOf = table.regionOf := by
  funext id
  rw [regionOf, step.regions, regionOf]

theorem redeclares_add (ok : table.add op = .ok next) : table.Redeclares next := by
  unfold add at ok
  split at ok
  · cases ok
  · rename_i new
    cases ok
    refine ⟨rfl, rfl, fun distinct => ?_⟩
    have apart : ∀ other ∈ table.operations, ¬ other.id = op.id := by simpa using new
    have fresh : op.id ∉ table.operations.map Operation.id := by simpa using apart
    rw [List.map_append]
    exact distinct.append (List.nodup_singleton op.id) (by simpa using fresh)

theorem redeclares_bind (ok : table.bind selection anchor function newId = .ok (id, next)) :
    table.Redeclares next := by
  unfold bind at ok
  dsimp only at ok
  split at ok
  · rename_i added
    cases ok
    exact redeclares_add added
  · cases ok

theorem redeclares_bindSpec (ok : table.bindSpec selection anchor spec newId = .ok (id, next)) :
    table.Redeclares next := by
  unfold bindSpec at ok
  dsimp only at ok
  split at ok
  · cases ok
  · split at ok
    · rename_i added
      cases ok
      exact redeclares_add added
    · cases ok

theorem redeclares_setOrder (ok : table.setOrder ids = .ok next) : table.Redeclares next := by
  obtain ⟨_, _, rfl⟩ := setOrder_eq_ok_iff.1 ok
  exact ⟨rfl, rfl, fun distinct => distinct⟩

theorem map_id_rebuilt {custom : Script.Engine.Program} {operations rebuilt : List Operation}
    (ok : Table.rebuilt custom operations = .ok rebuilt) :
    rebuilt.map Operation.id = operations.map Operation.id := by
  induction operations generalizing rebuilt with
  | nil =>
    cases ok
    rfl
  | cons op rest ih =>
    unfold Table.rebuilt at ok
    split at ok
    · split at ok
      · rename_i others
        cases ok
        rw [List.map_cons, List.map_cons, ih others]
      · cases ok
    · split at ok
      · cases ok
      · split at ok
        · rename_i others
          cases ok
          rw [List.map_cons, List.map_cons, ih others]
        · cases ok

theorem redeclares_addFunctions (ok : table.addFunctions path source = .ok next) :
    table.Redeclares next := by
  unfold addFunctions at ok
  split at ok
  · cases ok
    exact .refl table
  · dsimp only at ok
    split at ok
    · cases ok
    · split at ok
      · cases ok
      · rename_i rebuilt
        cases ok
        refine ⟨rfl, rfl, fun distinct => ?_⟩
        rwa [map_id_rebuilt rebuilt]

theorem exists_addFunctions_of_loadFunctionsFrom
    (ok : table.loadFunctionsFrom files path = .ok (source, next)) :
    ∃ text, table.addFunctions source text = .ok next := by
  unfold loadFunctionsFrom loadFunctions at ok
  obtain ⟨place, files, ok⟩ := Storing.exists_of_bind_eq_ok ok
  obtain ⟨text, files, ok⟩ := Storing.exists_of_bind_eq_ok ok
  refine ⟨text, ?_⟩
  cases added : table.addFunctions place text with
  | error e =>
    rw [added] at ok
    cases ok
  | ok loaded =>
    rw [added] at ok
    cases ok
    exact added

theorem redeclares_orKept {attempt : Except TableError Table}
    (done : ∀ next, attempt = .ok next → table.Redeclares next) :
    table.Redeclares (table.orKept attempt) := by
  cases attempt with
  | ok next => exact done next rfl
  | error e => exact .refl table

theorem redeclares_after {call : Call} (other : call ≠ .evaluate)
    (declares : ∀ op, call ≠ .apply op) :
    table.Redeclares (table.after call) := by
  cases call with
  | add op => exact redeclares_orKept fun next ok => redeclares_add ok
  | bind selection anchor function id =>
    refine redeclares_orKept fun next ok => ?_
    obtain ⟨_, bound, rfl⟩ := Except.map_eq_ok_iff.1 ok
    exact redeclares_bind bound
  | bindSpec selection anchor spec id =>
    refine redeclares_orKept fun next ok => ?_
    obtain ⟨_, bound, rfl⟩ := Except.map_eq_ok_iff.1 ok
    exact redeclares_bindSpec bound
  | setOrder ids => exact redeclares_orKept fun next ok => redeclares_setOrder ok
  | loadFunctions files path =>
    refine redeclares_orKept fun next ok => ?_
    obtain ⟨_, loaded, rfl⟩ := Except.map_eq_ok_iff.1 ok
    obtain ⟨text, added⟩ := exists_addFunctions_of_loadFunctionsFrom loaded
    exact redeclares_addFunctions added
  | evaluate => exact absurd rfl other
  | apply op => exact absurd rfl (declares op)

theorem evaluate_cases (table : Table) :
    table.evaluate.1 = table ∨
      ∃ before after, table.schedule = .ok (before ++ after) ∧
        table.cleared.run before = (table.evaluate.1, .ok ()) := by
  cases done : table.evaluate with
  | mk left outcome =>
    cases outcome with
    | ok _ =>
      obtain ⟨sequence, scheduled, reached⟩ := evaluate_eq_ok_iff.1 done
      exact .inr ⟨sequence, [], by rwa [List.append_nil], reached⟩
    | error error =>
      rcases evaluate_eq_error_iff.1 done with ⟨_, same⟩ | ⟨sequence, scheduled, failed⟩
      · exact .inl same.symm
      · obtain ⟨before, id, after, rfl, reached, _⟩ := exists_of_run_eq_error failed
        exact .inr ⟨before, id :: after, scheduled, reached⟩

theorem holds_after_calls {P : Table → Prop} {calls : List Call} (start : P table)
    (declaring : ∀ table next, P table → table.Redeclares next → P next)
    (evaluating : ∀ table, P table → P table.evaluate.1)
    (applying : ∀ table op, Call.apply op ∈ calls → P table → P (table.orKept (table.apply op))) :
    P (calls.foldl after table) := by
  induction calls generalizing table with
  | nil => exact start
  | cons call rest ih =>
    have first : P (table.after call) := by
      by_cases evaluates : call = .evaluate
      · rw [evaluates]
        exact evaluating table start
      · by_cases applies : ∃ op, call = .apply op
        · obtain ⟨op, rfl⟩ := applies
          exact applying table op List.mem_cons_self start
        · exact declaring table _ start (redeclares_after evaluates (not_exists.1 applies))
    exact ih first fun table op member => applying table op (List.mem_cons_of_mem call member)

end Table

end LinkedSheet
