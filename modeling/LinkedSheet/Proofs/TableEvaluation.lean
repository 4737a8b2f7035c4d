import LinkedSheet.Proofs.OperationSchedule
import LinkedSheet.Proofs.TableRun

/-!
Evaluating a table. An evaluation that succeeds has run every operation behind all that it depends
on, even where the explicit order decides, since resolving fails without their regions. One that
fails outside the order for want of a region has run the operation that should have written it, and
its function has emitted nothing.
-/
namespace LinkedSheet.Table
section
variable [Script.Engine] {table result : Table}

/-- After some operations of an evaluation, the function of the next one emits an empty block. -/
def EmitsNothing (table : Table) (before : List OpId) (id : OpId) : Prop :=
  ∃ state op input block, table.cleared.run before = (state, .ok ()) ∧
    table.operation? id = some op ∧ op.selection.select state.sheet = .ok input ∧
    op.function.call state.sheet input = .ok block ∧ block.isEmpty = true

theorem schedule_eq_ok_iff {sequence : List OpId} :
    table.schedule = .ok sequence ↔
      LinkedSheet.schedule table.operations table.order = .ok sequence := by
  unfold schedule
  cases LinkedSheet.schedule table.operations table.order <;> simp

theorem evaluate_eq_ok_iff :
    table.evaluate = (result, .ok ()) ↔
      ∃ sequence, table.schedule = .ok sequence ∧
        table.cleared.run sequence = (result, .ok ()) := by
  unfold evaluate
  cases table.schedule <;> simp

theorem schedule_ne_resolve {id : OpId} {e : ResolveError} :
    table.schedule ≠ .error (.resolve id e) := by
  unfold schedule
  cases LinkedSheet.schedule table.operations table.order <;> simp

theorem evaluate_eq_error_iff {error : TableError} :
    table.evaluate = (result, .error error) ↔
      (table.schedule = .error error ∧ table = result) ∨
      ∃ sequence, table.schedule = .ok sequence ∧
        table.cleared.run sequence = (result, .error error) := by
  unfold evaluate
  cases table.schedule <;> simp [and_comm]

theorem operations_evaluate (table : Table) : table.evaluate.1.operations = table.operations := by
  unfold evaluate
  cases table.schedule with
  | error e => rfl
  | ok sequence =>
    dsimp only
    rw [run_frame]
    rfl

theorem setOrder_eq_ok_iff {ids : List OpId} :
    table.setOrder ids = .ok result ↔
      (∀ id ∈ ids, id ∈ table.operations.map Operation.id) ∧ ids.Nodup ∧
        result = { table with order := ids } := by
  rw [← and_assoc, ← Schedule.orderFault?_nil_eq_none_iff]
  unfold setOrder
  cases Schedule.orderFault? (table.operations.map Operation.id) [] ids <;> simp [eq_comm]

theorem regionOf_cleared (table : Table) (id : OpId) : table.cleared.regionOf id = none := by
  simp [cleared, regionOf]

theorem mem_of_regionOf_run {ids : List OpId} {id : OpId}
    (reached : table.cleared.run ids = (result, .ok ())) (there : (result.regionOf id).isSome) :
    id ∈ ids := by
  by_contra new
  rw [regionOf_run_of_not_mem reached new, regionOf_cleared] at there
  cases there

theorem exists_apply_of_run {before after : List OpId} {id : OpId}
    (reached : table.run (before ++ id :: after) = (result, .ok ())) :
    ∃ state op next, table.run before = (state, .ok ()) ∧ table.operation? id = some op ∧
      state.apply op = .ok next ∧ next.run after = (result, .ok ()) := by
  obtain ⟨state, first, rest⟩ := run_append_eq_ok_iff.1 reached
  obtain ⟨op, next, found, applied, last⟩ := run_cons_eq_ok_iff.1 rest
  rw [operation?_run first] at found
  exact ⟨state, op, next, first, found, applied, last⟩

theorem operation?_isSome_of_run {ids : List OpId} {id : OpId}
    (reached : table.run ids = (result, .ok ())) (member : id ∈ ids) :
    (table.operation? id).isSome := by
  obtain ⟨before, after, rfl⟩ := List.append_of_mem member
  obtain ⟨_, op, _, _, found, _⟩ := exists_apply_of_run reached
  rw [found]
  rfl

theorem nodup_of_schedule {sequence : List OpId}
    (distinct : (table.operations.map Operation.id).Nodup)
    (ok : table.schedule = .ok sequence) : sequence.Nodup :=
  (admissible_of_schedule distinct (schedule_eq_ok_iff.1 ok)).perm.nodup_iff.2 distinct

theorem dependencies_of_run {sequence : List OpId} (nodup : sequence.Nodup)
    (reached : table.cleared.run sequence = (result, .ok ())) {op : Operation}
    (found : table.operation? op.id = some op) (member : op.id ∈ sequence) {id : OpId}
    (depends : id ∈ op.dependencies) :
    sequence.idxOf id < sequence.idxOf op.id ∧ (result.regionOf id).isSome := by
  obtain ⟨before, after, rfl⟩ := List.append_of_mem member
  obtain ⟨state, other, next, first, same, applied, last⟩ := exists_apply_of_run reached
  obtain rfl : op = other := Option.some.inj (found.symm.trans same)
  have there := regionOf_isSome_of_apply applied depends
  have earlier := mem_of_regionOf_run first there
  have later : id ∉ op.id :: after :=
    fun again => (List.nodup_append.1 nodup).2.2 id earlier id again rfl
  obtain ⟨between, run, rest⟩ := run_append_eq_ok_iff.1 reached
  obtain rfl : state = between := congrArg Prod.fst (first.symm.trans run)
  refine ⟨(idxOf_lt_idxOf_iff nodup).2 earlier, ?_⟩
  rwa [regionOf_run_of_not_mem rest later]

theorem emitsNothing_of_regionOf_eq_none {before after : List OpId} {id : OpId}
    (reached : table.cleared.run (before ++ id :: after) = (result, .ok ())) (once : id ∉ after)
    (missing : result.regionOf id = none) : table.EmitsNothing before id := by
  obtain ⟨state, op, next, first, found, applied, last⟩ := exists_apply_of_run reached
  obtain ⟨input, block, anchor, selected, called, _, written⟩ := apply_eq_ok_iff.1 applied
  rw [regionOf_run_of_not_mem last once, ← operation?_id found,
    regionOf_write_eq_none_iff written] at missing
  exact ⟨state, op, input, block, first, found, selected, called, missing⟩

/-- An evaluation that succeeds has run every operation, those of the order too, behind all that it
depends on, and all of these have regions. If an operation outside the order misses a region, the
operation that it depends on has run before and has emitted nothing. -/
theorem dependencies_of_evaluate (table : Table)
    (distinct : (table.operations.map Operation.id).Nodup) :
    (∀ result, table.evaluate = (result, .ok ()) →
      ∃ sequence, table.schedule = .ok sequence ∧
        ∀ op ∈ table.operations, ∀ id ∈ op.dependencies,
          sequence.idxOf id < sequence.idxOf op.id ∧ (result.regionOf id).isSome) ∧
    ∀ result id missing,
      table.evaluate = (result, .error (.resolve id (.unresolvedOperation missing))) →
      id ∉ table.order →
        ∃ before between after,
          table.schedule = .ok (before ++ missing :: between ++ id :: after) ∧
          table.cleared.run (before ++ missing :: between) = (result, .ok ()) ∧
          table.EmitsNothing before missing := by
  constructor
  · intro result ok
    obtain ⟨sequence, scheduled, reached⟩ := evaluate_eq_ok_iff.1 ok
    refine ⟨sequence, scheduled, fun op present id depends => ?_⟩
    have admissible := admissible_of_schedule distinct (schedule_eq_ok_iff.1 scheduled)
    exact dependencies_of_run (nodup_of_schedule distinct scheduled) reached
      (operation?_of_mem distinct present)
      (admissible.perm.mem_iff.2 (List.mem_map_of_mem present)) depends
  · intro result id missing failed outside
    rcases evaluate_eq_error_iff.1 failed with ⟨unscheduled, _⟩ | ⟨sequence, scheduled, failed⟩
    · exact absurd unscheduled schedule_ne_resolve
    have nodup := nodup_of_schedule distinct scheduled
    have admissible := admissible_of_schedule distinct (schedule_eq_ok_iff.1 scheduled)
    obtain ⟨prior, last, after, rfl, reached, cause⟩ := exists_of_run_eq_error failed
    obtain ⟨op, found, applied⟩ : ∃ op, result.operation? last = some op ∧
        result.apply op = .error (.resolve id (.unresolvedOperation missing)) := by
      rcases cause with undeclared | applied
      · unfold operation at undeclared
        split at undeclared <;> cases undeclared
      · exact applied
    obtain ⟨rfl, depends, gone⟩ := mem_dependencies_of_apply_unresolved applied
    obtain rfl := operation?_id found
    rw [operation?_run reached] at found
    have present : op ∈ table.operations := List.mem_of_find?_eq_some found
    have behind := admissible.behind_dependencies op present outside missing depends
    have earlier := (idxOf_lt_idxOf_iff nodup).1 behind
    obtain ⟨before, between, rfl⟩ := List.append_of_mem earlier
    have once : missing ∉ between := by
      have front := (List.nodup_append.1 nodup).1
      exact (List.nodup_cons.1 (List.nodup_append.1 front).2.1).1
    exact ⟨before, between, after, scheduled, reached,
      emitsNothing_of_regionOf_eq_none reached once gone⟩

end

def countedBlock (rows : List (List Value)) : Table :=
  { empty with
    operations :=
      [⟨2, .operationRegion 1, .base (.fixed 0) (.fixed 1), .count, some .count⟩,
        ⟨1, .empty, .base (.fixed 0) (.fixed 0), .block (Block.ofList (Function.rowEntries rows)),
          some (.rawInput rows)⟩] }

theorem dependencies_of_evaluate_countedBlock :
    (countedBlock [[.int 7]]).evaluate.2 = .ok () ∧
    ((countedBlock [[.int 7]]).evaluate.1.regionOf 1).isSome ∧
    (countedBlock []).evaluate.2 = .error (.resolve 2 (.unresolvedOperation 1)) ∧
    ∃ before, (countedBlock []).EmitsNothing before 1 := by
  have filled : (countedBlock [[.int 7]]).evaluate.2 = .ok () := by decide +kernel
  have hollow : (countedBlock []).evaluate.2 = .error (.resolve 2 (.unresolvedOperation 1)) := by
    decide +kernel
  have distinct : ∀ rows, ((countedBlock rows).operations.map Operation.id).Nodup := by
    intro rows
    simp [countedBlock]
  obtain ⟨sequence, _, all⟩ :=
    (dependencies_of_evaluate (countedBlock [[.int 7]]) (distinct _)).1 _ (Prod.ext rfl filled)
  obtain ⟨before, _, _, _, _, empty⟩ :=
    (dependencies_of_evaluate (countedBlock []) (distinct _)).2 _ 2 1 (Prod.ext rfl hollow)
      (by simp [countedBlock, empty])
  refine ⟨filled, ?_, hollow, before, empty⟩
  exact (all _ List.mem_cons_self 1 (by decide +kernel)).2

end LinkedSheet.Table
