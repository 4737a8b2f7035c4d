import LinkedSheet.Proofs.CustomFunctions
import LinkedSheet.Proofs.SessionRequests
import LinkedSheet.Proofs.TableCalls

/-!
What holds of a table after any requests, failing ones included. Between requests the files may
change as they like; a request meets them as they are at its time.

Every request keeps a table `Consistent`: its lists repeat nothing, and its functions are those that
its declarative forms stand for in sight of its custom functions. The functions files and their text
are those of the loads that have succeeded (`LoadedBy`).
-/
namespace LinkedSheet

section
variable [Script.Engine] {σ : Type} {table next : Table} {files others : σ} {op : Operation}
  {path place source : String} {request : Request}

structure Table.Consistent (table : Table) : Prop where
  distinct : (table.operations.map Operation.id).Nodup
  order_distinct : table.order.Nodup
  order_declared : ∀ id ∈ table.order, id ∈ table.operations.map Operation.id
  files_distinct : table.functionFiles.Nodup
  compiled : Script.contextOf table.customSource = .ok table.custom
  areBuilt : table.AreBuilt

namespace Table

theorem consistent_empty : empty.Consistent where
  distinct := List.nodup_nil
  order_distinct := List.nodup_nil
  order_declared := by simp [empty]
  files_distinct := List.nodup_nil
  compiled := rfl
  areBuilt := by simp [AreBuilt, empty]

namespace Consistent

theorem add (consistent : table.Consistent) (isBuilt : op.IsBuilt table.custom)
    (ok : table.add op = .ok next) : next.Consistent := by
  have areBuilt := areBuilt_add consistent.areBuilt isBuilt ok
  have distinct := (redeclares_add ok).distinct consistent.distinct
  obtain ⟨_, rfl⟩ := add_eq_ok_iff.1 ok
  refine { consistent with distinct := distinct, order_declared := ?_, areBuilt := areBuilt }
  intro id member
  rw [List.map_append]
  exact List.mem_append_left _ (consistent.order_declared id member)

theorem setOrder (consistent : table.Consistent) {ids : List OpId}
    (ok : table.setOrder ids = .ok next) : next.Consistent := by
  obtain ⟨listed, distinct, rfl⟩ := setOrder_eq_ok_iff.1 ok
  exact { consistent with order_distinct := distinct, order_declared := listed }

theorem addFunctions (consistent : table.Consistent)
    (ok : table.addFunctions path source = .ok next) : next.Consistent := by
  rw [addFunctions_eq consistent.areBuilt] at ok
  split at ok
  · cases ok
    exact consistent
  · rename_i new
    split at ok
    · cases ok
    · rename_i custom compiled
      cases ok
      have ids : (table.withFunctions custom path source).operations.map Operation.id =
          table.operations.map Operation.id := by
        simp [withFunctions, Function.comp_def]
      refine ⟨ids ▸ consistent.distinct, consistent.order_distinct,
        fun id member => ids ▸ consistent.order_declared id member, ?_, compiled,
        areBuilt_withFunctions consistent.areBuilt⟩
      have fresh : path ∉ table.functionFiles := by simpa using new
      exact consistent.files_distinct.append (List.nodup_singleton path) (by simpa using fresh)

theorem evaluate (consistent : table.Consistent) : table.evaluate.1.Consistent := by
  unfold Table.evaluate
  cases table.schedule with
  | error e => exact consistent
  | ok sequence =>
    dsimp only
    rw [run_frame]
    exact { consistent with }

theorem orKept (consistent : table.Consistent) {attempt : Except TableError Table}
    (done : ∀ next, attempt = .ok next → next.Consistent) : (table.orKept attempt).Consistent := by
  cases attempt with
  | ok next => exact done next rfl
  | error e => exact consistent

end Consistent

/-- The operation that a request binds, if its function can be built. -/
def offered (table : Table) : Request → Option Operation
  | .bind selection anchor function id =>
    some ⟨id.getD table.nextId, selection, anchor, function, none⟩
  | .bindSpec selection anchor spec id =>
    match spec.build table.custom with
    | .ok function => some ⟨id.getD table.nextId, selection, anchor, function, some spec⟩
    | .error _ => none
  | _ => none

theorem isBuilt_of_offered (offers : table.offered request = some op) :
    op.IsBuilt table.custom := by
  intro spec declared
  cases request with
  | bind => cases offers; cases declared
  | bindSpec selection anchor form id =>
    cases built : form.build table.custom with
    | error e => simp [offered, built] at offers
    | ok function =>
      simp only [offered, built, Option.some.injEq] at offers
      subst offers
      cases declared
      exact built
  | _ => cases offers

theorem nextId_withFunctions {custom : Script.Engine.Program} :
    (table.withFunctions custom path source).nextId = table.nextId := by
  have ids : (table.withFunctions custom path source).operations.map Operation.id =
      table.operations.map Operation.id := by
    simp [withFunctions, Function.comp_def]
  rw [nextId, nextId, ids]

theorem offered_withFunctions {custom : Script.Engine.Program} :
    (table.withFunctions custom path source).offered request =
      (table.offered request).map (Operation.under custom) := by
  have known : (table.withFunctions custom path source).custom = custom := rfl
  cases request with
  | bind => simp [offered, nextId_withFunctions, Operation.under]
  | bindSpec selection anchor spec id =>
    cases built : spec.build table.custom with
    | error e =>
      have again : spec.build custom = .error e := FunctionSpec.build_eq_error_iff.1 built
      simp [offered, known, built, again]
    | ok function =>
      obtain ⟨other, again⟩ := FunctionSpec.exists_build custom built
      simp [offered, known, built, again, nextId_withFunctions, Operation.under]
  | _ => rfl

end Table

def Request.Binds : Request → Prop
  | bind .. => True
  | bindSpec .. => True
  | _ => False

namespace Session

theorem committed_snd {α : Type} {outcome : Except TableError (α × Table)} :
    (committed table outcome).2 = table.orKept (outcome.map Prod.snd) := by
  cases outcome <;> rfl

theorem quietly_on_table {α : Type} (action : Session (StateM σ) α) :
    ((quietly action).on table files).1.2 = (action.on table files).1.2 := by
  unfold quietly
  rw [andThen_on]
  rcases action.on table files with ⟨⟨outcome | a, next⟩, changed⟩ <;> rfl

variable [FileSystem (StateM σ)]

def after (table : Table) (step : σ × Request) : Table :=
  (step.2.session.on table step.1).1.2

theorem after_add : after table (files, .add op) = table.orKept (table.add op) := by
  rw [after, Request.session, quietly_on_table, add_on]
  cases added : table.add op <;> simp [committed, Table.orKept, Except.map]

theorem after_of_binds (binds : request.Binds) :
    after table (files, request) =
      match table.offered request with
      | none => table
      | some op => table.orKept (table.add op) := by
  cases request with
  | bind selection anchor function id =>
    rw [after, Request.session, quietly_on_table, bind_on]
    simp only [committed_snd, Table.bind, Table.offered]
    cases table.add ⟨id.getD table.nextId, selection, anchor, function, none⟩ <;> rfl
  | bindSpec selection anchor spec id =>
    rw [after, Request.session, quietly_on_table, bindSpec_on]
    simp only [committed_snd, Table.bindSpec, Table.offered]
    cases spec.build table.custom with
    | error e => rfl
    | ok function =>
      dsimp only
      cases table.add ⟨id.getD table.nextId, selection, anchor, function, some spec⟩ <;> rfl
  | _ => exact absurd binds id

theorem after_setOrder (ids : List OpId) :
    after table (files, .setOrder ids) = table.orKept (table.setOrder ids) := by
  rw [after, Request.session, setOrder_on]
  cases table.setOrder ids <;> rfl

theorem after_evaluate : after table (files, .evaluate) = table.evaluate.1 := by
  rw [after, Request.session, evaluate_on]

theorem saving_table {saved : String × Table}
    (ok : (saving table path : Storing (StateM σ) _).on files = (.ok saved, others)) :
    saved.2 = { table with filePath := some saved.1 } := by
  unfold saving at ok
  rw [Storing.andThen_on, Storing.lift_on] at ok
  dsimp only at ok
  rw [Storing.andThen_on] at ok
  split at ok
  · rw [Storing.andThen_on] at ok
    split at ok
    · cases ok
      rfl
    · cases ok
  · cases ok

theorem after_saveAs (path : String) :
    ∃ own, after table (files, .saveAs path) = { table with filePath := own } := by
  rw [after, Request.session, quietly_on_table, saveAs_on]
  cases done : (saving table path : Storing (StateM σ) _).on files with
  | mk outcome others =>
    cases outcome with
    | error e => exact ⟨table.filePath, rfl⟩
    | ok saved => exact ⟨some saved.1, saving_table done⟩

theorem after_save : ∃ own, after table (files, .save) = { table with filePath := own } := by
  rw [after, Request.session, quietly_on_table, save_on]
  cases own : table.filePath with
  | none => exact ⟨table.filePath, rfl⟩
  | some path =>
    obtain ⟨next, saved⟩ : ∃ next, after table (files, .saveAs path) =
        { table with filePath := next } := after_saveAs path
    rw [after, Request.session, quietly_on_table] at saved
    exact ⟨next, saved⟩

def functionsAt (path : String) (files : σ) : Except TableError (String × String) :=
  Storing.on (do
    let place ← Storing.file (FileSystem.canonical path)
    let source ← Document.readText place "functions file"
    return (place, source)) files |>.1

theorem loadFunctions_answer (path : String) :
    ((table.loadFunctions path : Storing (StateM σ) _).on files).1 =
      (functionsAt path files).bind fun found =>
        (table.addFunctions found.1 found.2).map fun next => (found.1, next) := by
  unfold functionsAt Table.loadFunctions
  rw [Storing.andThen_on, Storing.andThen_on]
  rcases (Storing.file (FileSystem.canonical path)).on files with ⟨outcome | place, found⟩
  · rfl
  dsimp only
  rw [Storing.andThen_on, Storing.andThen_on]
  rcases (Document.readText place "functions file").on found with ⟨outcome | source, read⟩
  · rfl
  dsimp only
  rw [Storing.andThen_on, Storing.pass_on]
  cases added : table.addFunctions place source <;> simp [Except.bind, Except.map, added]

theorem after_loadFunctions (path : String) :
    after table (files, .loadFunctions path) =
      match functionsAt path files with
      | .ok (place, source) => table.orKept (table.addFunctions place source)
      | .error _ => table := by
  rw [after, Request.session, quietly_on_table, loadFunctions_on, loadFunctions_answer,
    committed_snd]
  cases functionsAt path files with
  | error e => rfl
  | ok found =>
    dsimp only [Except.bind]
    cases table.addFunctions found.1 found.2 <;> rfl

theorem consistent_after (consistent : table.Consistent) (step : σ × Request)
    (whole : ∀ op, step.2 ≠ .add op) : (after table step).Consistent := by
  obtain ⟨files, request⟩ := step
  have binding (binds : request.Binds) : (after table (files, request)).Consistent := by
    rw [after_of_binds binds]
    cases offers : table.offered request with
    | none => exact consistent
    | some op =>
      exact consistent.orKept fun next => consistent.add (Table.isBuilt_of_offered offers)
  cases request with
  | add op => exact absurd rfl (whole op)
  | bind => exact binding trivial
  | bindSpec => exact binding trivial
  | setOrder ids =>
    rw [after_setOrder]
    exact consistent.orKept fun next => consistent.setOrder
  | loadFunctions path =>
    rw [after_loadFunctions]
    split
    · exact consistent.orKept fun next => consistent.addFunctions
    · exact consistent
  | saveAs path =>
    obtain ⟨own, saved⟩ : ∃ own, after table (files, .saveAs path) =
        { table with filePath := own } := after_saveAs path
    rw [saved]
    exact { consistent with }
  | save =>
    obtain ⟨own, saved⟩ : ∃ own, after table (files, .save) = { table with filePath := own } :=
      after_save
    rw [saved]
    exact { consistent with }
  | evaluate =>
    rw [after_evaluate]
    exact consistent.evaluate

theorem loadFunctions_answer_of_areBuilt (areBuilt : table.AreBuilt) (path : String) :
    ((loadFunctions path).on table files).1.1 =
      ((loadFunctions path).on { table with operations := [] } files).1.1 := by
  have bare : ({ table with operations := [] } : Table).AreBuilt := by
    intro op member
    cases member
  rw [loadFunctions_on, loadFunctions_on, loadFunctions_answer, loadFunctions_answer]
  cases functionsAt path files with
  | error e => rfl
  | ok found =>
    dsimp only [Except.bind]
    rw [Table.addFunctions_eq areBuilt, Table.addFunctions_eq bare]
    dsimp only
    split
    · rfl
    · have same : ({ table with operations := [] } : Table).sourceWith found.2 =
          table.sourceWith found.2 := rfl
      rw [same]
      cases Script.compileFunctions (table.sourceWith found.2) <;> rfl

theorem binding_keeps (areBuilt : table.AreBuilt) (binds : request.Binds) (files : σ) :
    (after table (files, request)).functionFiles = table.functionFiles ∧
      (after table (files, request)).customSource = table.customSource ∧
      (after table (files, request)).AreBuilt := by
  rw [after_of_binds binds]
  cases offers : table.offered request with
  | none => exact ⟨rfl, rfl, areBuilt⟩
  | some op =>
    dsimp only
    cases added : table.add op with
    | error e => exact ⟨rfl, rfl, areBuilt⟩
    | ok next =>
      have built := Table.areBuilt_add areBuilt (Table.isBuilt_of_offered offers) added
      obtain ⟨_, rfl⟩ := Table.add_eq_ok_iff.1 added
      exact ⟨rfl, rfl, built⟩

theorem after_binding_loadFunctions (areBuilt : table.AreBuilt) (binds : request.Binds)
    (path : String) :
    after (after table (files, request)) (others, .loadFunctions path) =
      after (after table (others, .loadFunctions path)) (files, request) := by
  have bound (custom : Script.Engine.Program) (place source : String) :
      (after table (files, request)).withFunctions custom place source =
        after (table.withFunctions custom place source) (files, request) := by
    rw [after_of_binds binds, after_of_binds binds, Table.offered_withFunctions]
    cases table.offered request with
    | none => rfl
    | some op =>
      dsimp only [Option.map]
      rw [Table.add_withFunctions]
      cases table.add op <;> rfl
  obtain ⟨same_files, same_source, built⟩ := binding_keeps areBuilt binds files
  rw [after_loadFunctions, after_loadFunctions]
  cases functionsAt path others with
  | error e => rfl
  | ok found =>
    obtain ⟨place, source⟩ := found
    dsimp only
    have same_joined : (after table (files, request)).sourceWith source = table.sourceWith source := by
      rw [Table.sourceWith, Table.sourceWith, same_source]
    rw [Table.addFunctions_eq areBuilt, Table.addFunctions_eq built, same_files, same_joined]
    split
    · rfl
    · cases Script.compileFunctions (table.sourceWith source) with
      | error e => rfl
      | ok custom => exact bound custom place source

def joined : List String → Option String
  | [] => none
  | text :: texts => some ("\n\n".intercalate (text :: texts))

theorem joined_append_singleton {texts : List String} (known : table.customSource = joined texts) :
    some (table.sourceWith source) = joined (texts ++ [source]) := by
  cases texts with
  | nil => simp [Table.sourceWith, known, joined]
  | cons text texts =>
    have apart := String.intercalate_append_of_ne_nil (l := text :: texts) (m := [source])
      (s := "\n\n") (by simp) (by simp)
    simp only [Table.sourceWith, known, joined, List.cons_append] at apart ⊢
    rw [apart, String.intercalate_singleton]

/-- A step has asked for a functions file and found it, by its own path and with its text. -/
def Found (step : σ × Request) (load : String × String) : Prop :=
  ∃ path, step.2 = .loadFunctions path ∧ functionsAt path step.1 = .ok load

/-- The functions files of a table are those that some of the steps have found, in the sequence of
these steps and with the texts of their time. -/
def LoadedBy (steps : List (σ × Request)) (table : Table) : Prop :=
  ∃ chosen loads, chosen.Sublist steps ∧ List.Forall₂ Found chosen loads ∧
    table.functionFiles = loads.map Prod.fst ∧
    table.customSource = joined (loads.map Prod.snd)

theorem files_of_add (ok : table.add op = .ok next) :
    next.functionFiles = table.functionFiles ∧ next.customSource = table.customSource := by
  obtain ⟨_, rfl⟩ := Table.add_eq_ok_iff.1 ok
  exact ⟨rfl, rfl⟩

theorem files_after (other : ∀ path, request ≠ .loadFunctions path) :
    (after table (files, request)).functionFiles = table.functionFiles ∧
      (after table (files, request)).customSource = table.customSource := by
  have added (op : Operation) : (table.orKept (table.add op)).functionFiles = table.functionFiles ∧
      (table.orKept (table.add op)).customSource = table.customSource := by
    cases done : table.add op with
    | error e => exact ⟨rfl, rfl⟩
    | ok next => exact files_of_add done
  have binding (binds : request.Binds) :
      (after table (files, request)).functionFiles = table.functionFiles ∧
        (after table (files, request)).customSource = table.customSource := by
    rw [after_of_binds binds]
    cases table.offered request with
    | none => exact ⟨rfl, rfl⟩
    | some op => exact added op
  cases request with
  | add op =>
    rw [after_add]
    exact added op
  | bind => exact binding trivial
  | bindSpec => exact binding trivial
  | setOrder ids =>
    rw [after_setOrder, Table.setOrder]
    cases Schedule.orderFault? (table.operations.map Operation.id) [] ids <;> exact ⟨rfl, rfl⟩
  | loadFunctions path => exact absurd rfl (other path)
  | saveAs path =>
    obtain ⟨own, saved⟩ : ∃ own, after table (files, .saveAs path) =
        { table with filePath := own } := after_saveAs path
    rw [saved]
    exact ⟨rfl, rfl⟩
  | save =>
    obtain ⟨own, saved⟩ : ∃ own, after table (files, .save) = { table with filePath := own } :=
      after_save
    rw [saved]
    exact ⟨rfl, rfl⟩
  | evaluate =>
    rw [after_evaluate, Table.evaluate]
    cases table.schedule with
    | error e => exact ⟨rfl, rfl⟩
    | ok sequence =>
      dsimp only
      rw [Table.run_frame]
      exact ⟨rfl, rfl⟩

theorem files_of_addFunctions (ok : table.addFunctions place source = .ok next) :
    (place ∈ table.functionFiles ∧ next = table) ∨
      next.functionFiles = table.functionFiles ++ [place] ∧
        next.customSource = some (table.sourceWith source) := by
  unfold Table.addFunctions at ok
  split at ok
  · rename_i known
    cases ok
    exact .inl ⟨by simpa using known, rfl⟩
  · dsimp only at ok
    split at ok
    · cases ok
    · split at ok
      · cases ok
      · cases ok
        exact .inr ⟨rfl, rfl⟩

theorem loadedBy_after {steps : List (σ × Request)} (loaded : LoadedBy steps table)
    (step : σ × Request) : LoadedBy (steps ++ [step]) (after table step) := by
  obtain ⟨chosen, loads, part, found, names, texts⟩ := loaded
  have kept : chosen.Sublist (steps ++ [step]) := part.trans (List.sublist_append_left steps [step])
  obtain ⟨files, request⟩ := step
  by_cases other : ∀ path, request ≠ .loadFunctions path
  · obtain ⟨same_files, same_source⟩ :
        (after table (files, request)).functionFiles = table.functionFiles ∧
          (after table (files, request)).customSource = table.customSource := files_after other
    exact ⟨chosen, loads, kept, found, same_files.trans names, same_source.trans texts⟩
  · obtain ⟨path, asks⟩ := not_forall.1 other
    obtain rfl := not_not.1 asks
    rw [after_loadFunctions]
    cases read : functionsAt path files with
    | error e => exact ⟨chosen, loads, kept, found, names, texts⟩
    | ok load =>
      obtain ⟨place, source⟩ := load
      dsimp only
      cases done : table.addFunctions place source with
      | error e => exact ⟨chosen, loads, kept, found, names, texts⟩
      | ok next =>
        rcases files_of_addFunctions done with ⟨_, rfl⟩ | ⟨more_files, more_source⟩
        · exact ⟨chosen, loads, kept, found, names, texts⟩
        · refine ⟨chosen ++ [(files, .loadFunctions path)], loads ++ [(place, source)],
            part.append (List.Sublist.refl _), ?_, ?_, ?_⟩
          · exact List.rel_append found (.cons ⟨path, rfl, read⟩ .nil)
          · rw [List.map_append, ← names]
            exact more_files
          · rw [List.map_append]
            exact more_source.trans (joined_append_singleton texts)

theorem functionFiles_subset_after (step : σ × Request) :
    table.functionFiles ⊆ (after table step).functionFiles := by
  obtain ⟨files, request⟩ := step
  by_cases other : ∀ path, request ≠ .loadFunctions path
  · rw [(files_after other).1]
    exact List.Subset.refl _
  · obtain ⟨path, asks⟩ := not_forall.1 other
    obtain rfl := not_not.1 asks
    rw [after_loadFunctions]
    split
    · rename_i place source read
      cases done : table.addFunctions place source with
      | error e => exact List.Subset.refl _
      | ok next =>
        rcases files_of_addFunctions done with ⟨_, rfl⟩ | ⟨more_files, _⟩
        · exact List.Subset.refl _
        · change table.functionFiles ⊆ next.functionFiles
          rw [more_files]
          exact List.subset_append_left _ _
    · exact List.Subset.refl _

theorem mem_of_loadFunctions_answer
    (answered : ((loadFunctions path).on table files).1.1 = .ok place) :
    place ∈ (after table (files, .loadFunctions path)).functionFiles := by
  rw [loadFunctions_on, loadFunctions_answer] at answered
  rw [after_loadFunctions]
  cases read : functionsAt path files with
  | error e =>
    rw [read] at answered
    cases answered
  | ok load =>
    obtain ⟨found, source⟩ := load
    rw [read] at answered
    dsimp only [Except.bind] at answered ⊢
    cases done : table.addFunctions found source with
    | error e =>
      rw [done] at answered
      cases answered
    | ok next =>
      rw [done] at answered
      cases answered
      rcases files_of_addFunctions done with ⟨known, rfl⟩ | ⟨more_files, _⟩
      · exact known
      · change place ∈ next.functionFiles
        rw [more_files]
        exact List.mem_append_right _ (List.mem_singleton_self place)

theorem consistent_foldl {steps : List (σ × Request)} (start : table.Consistent)
    (whole : ∀ step ∈ steps, ∀ op, step.2 ≠ .add op) : (steps.foldl after table).Consistent := by
  induction steps generalizing table with
  | nil => exact start
  | cons step rest ih =>
    refine ih (consistent_after start step (whole step List.mem_cons_self)) ?_
    exact fun other member => whole other (List.mem_cons_of_mem _ member)

theorem loadedBy_foldl (steps : List (σ × Request)) :
    LoadedBy steps (steps.foldl after Table.empty) := by
  induction steps using List.reverseRecOn with
  | nil => exact ⟨[], [], .slnil, .nil, rfl, rfl⟩
  | append_singleton steps step ih =>
    rw [List.foldl_append]
    exact loadedBy_after ih step

theorem functionFiles_subset_foldl (steps : List (σ × Request)) :
    table.functionFiles ⊆ (steps.foldl after table).functionFiles := by
  induction steps generalizing table with
  | nil => exact List.Subset.refl _
  | cons step rest ih => exact List.Subset.trans (functionFiles_subset_after step) ih

/-- After any requests on an empty table it is consistent, its functions files are those that loads
have found and answered with, and their joined text is the custom functions. What a load answers
then does not depend on the operations, and a file is loaded before or after an operation has been
bound with the same result. -/
theorem consistent_after_requests (steps : List (σ × Request))
    (whole : ∀ step ∈ steps, ∀ op, step.2 ≠ .add op) :
    let table := steps.foldl after Table.empty
    table.Consistent ∧ LoadedBy steps table ∧
      (∀ before files path place rest, steps = before ++ (files, .loadFunctions path) :: rest →
        ((loadFunctions path).on (before.foldl after Table.empty) files).1.1 = .ok place →
        place ∈ table.functionFiles) ∧
      (∀ path (files : σ), ((loadFunctions path).on table files).1.1 =
        ((loadFunctions path).on { table with operations := [] } files).1.1) ∧
      ∀ request path (files others : σ), request.Binds →
        after (after table (files, request)) (others, .loadFunctions path) =
          after (after table (others, .loadFunctions path)) (files, request) := by
  intro table
  have consistent : table.Consistent := consistent_foldl Table.consistent_empty whole
  refine ⟨consistent, loadedBy_foldl steps, ?_, ?_, ?_⟩
  · intro before files path place rest split answered
    have found := mem_of_loadFunctions_answer answered
    have reached : table = rest.foldl after
        (after (before.foldl after Table.empty) (files, .loadFunctions path)) := by
      simp only [table, split, List.foldl_append, List.foldl_cons]
    rw [reached]
    exact functionFiles_subset_foldl rest found
  · exact fun path files => loadFunctions_answer_of_areBuilt consistent.areBuilt path
  · exact fun request path files others binds =>
      after_binding_loadFunctions consistent.areBuilt binds path

end Session

end

namespace Session

def helperFiles : FileTree :=
  ⟨[], [(["h.rhai"], some "fn twice(x) \x7b x * 2 \x7d".toUTF8), ([], none)]⟩

def helperSteps : List (FileTree × Request) :=
  [(helperFiles, .bindSpec .empty (.reference "A1") (.script "1 + 1") none),
    (helperFiles, .loadFunctions "h.rhai"), (helperFiles, .loadFunctions "none.rhai"),
    (helperFiles, .setOrder [7]), (helperFiles, .evaluate), (helperFiles, .saveAs "t.toml")]

theorem consistent_after_requests_helperSteps :
    (∀ step ∈ helperSteps, ∀ op, step.2 ≠ .add op) ∧
      (helperSteps.foldl after Table.empty).Consistent ∧
      "/h.rhai" ∈ (helperSteps.foldl after Table.empty).functionFiles := by
  have whole : ∀ step ∈ helperSteps, ∀ op, step.2 ≠ .add op := by
    simp [helperSteps]
  obtain ⟨consistent, -, loaded, -⟩ := consistent_after_requests helperSteps whole
  have answered : ((loadFunctions "h.rhai").on ((helperSteps.take 1).foldl after Table.empty)
      helperFiles).1.1 = .ok "/h.rhai" := by decide +kernel
  exact ⟨whole, consistent,
    loaded (helperSteps.take 1) helperFiles "h.rhai" "/h.rhai" (helperSteps.drop 2) rfl answered⟩

end Session

end LinkedSheet
