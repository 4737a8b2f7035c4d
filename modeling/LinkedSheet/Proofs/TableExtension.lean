import LinkedSheet.Proofs.TableEvaluation

/-!
Adding an operation to a table that evaluates. An operation that depends on declared ones only runs
last, whatever the order, and finds what the evaluation without it has left; so the larger table
evaluates to what applying the operation afterwards gives.
-/
namespace LinkedSheet.Table
section
variable [Script.Engine] {table result : Table} {operations : List Operation} {op : Operation} {id : OpId}
  {anchor : Cell} {block : Block} {ids : List OpId}

/-- The table after an operation has been applied, and what came of it; a failure leaves it as it
was. -/
def applied (table : Table) (op : Operation) : Table × Except TableError Unit :=
  match table.apply op with
  | .ok result => (result, .ok ())
  | .error error => (table, .error error)

def withOperations (table : Table) (operations : List Operation) : Table :=
  { table with operations := operations }

theorem run_withOperations
    (agree : ∀ id ∈ ids, (table.withOperations operations).operation? id = table.operation? id) :
    (table.withOperations operations).run ids =
      ((table.run ids).1.withOperations operations, (table.run ids).2) := by
  have reached : (table.withOperations operations).run ids =
      ((table.withOperations operations).withContents (table.run ids).1, (table.run ids).2) :=
    run_withContents agree
  have frame : (table.run ids).1.withOperations operations =
      (table.withOperations operations).withContents (table.run ids).1 := by
    rw [run_frame]
    rfl
  rw [reached, frame]

theorem operation?_append_of_isSome (found : (table.operation? id).isSome) :
    (table.withOperations (table.operations ++ [op])).operation? id = table.operation? id := by
  obtain ⟨other, found⟩ := Option.isSome_iff_exists.1 found
  unfold operation? at found ⊢
  rw [withOperations, List.find?_append, found]
  rfl

theorem operation?_append_self (new : ∀ other ∈ table.operations, other.id ≠ op.id) :
    (table.withOperations (table.operations ++ [op])).operation? op.id = some op := by
  have absent : table.operations.find? (fun other => other.id == op.id) = none := by
    rw [List.find?_eq_none]
    intro other member
    simpa using new other member
  simp [operation?, withOperations, List.find?_append, absent]

theorem run_singleton (found : table.operation? op.id = some op) :
    table.run [op.id] = table.applied op := by
  unfold applied
  cases done : table.apply op <;> simp [run, operation, found, done]

theorem applied_withOperations :
    (table.withOperations operations).applied op =
      ((table.applied op).1.withOperations operations, (table.applied op).2) := by
  have same : (table.withOperations operations).apply op =
      (table.apply op).map (table.withOperations operations).withContents :=
    show ((table.withOperations operations).withContents table).apply op = _ from
      apply_withContents
  unfold applied
  rw [same]
  cases done : table.apply op with
  | error e => rfl
  | ok next =>
    rw [apply_frame done]
    rfl

theorem regionOf_applied_of_ne (ne : id ≠ op.id) :
    (table.applied op).1.regionOf id = table.regionOf id := by
  unfold applied
  cases done : table.apply op with
  | error e => rfl
  | ok next => exact regionOf_apply_of_ne done ne

theorem add_eq_ok (new : ∀ other ∈ table.operations, other.id ≠ op.id) :
    table.add op = .ok (table.withOperations (table.operations ++ [op])) := by
  have absent : (table.operations.any fun other => other.id == op.id) = false := by
    simpa using new
  simp [add, absent, withOperations]

/-- A new operation that depends on declared ones is scheduled last, and evaluating with it is
evaluating without it and then applying it: the results and errors are the same, and no region of
another operation changes. -/
theorem evaluate_add (table evaluated : Table) (op : Operation)
    (ok : table.evaluate = (evaluated, .ok ()))
    (new : ∀ other ∈ table.operations, other.id ≠ op.id)
    (known : ∀ id ∈ op.dependencies, id ∈ table.operations.map Operation.id) :
    ∃ extended sequence, table.add op = .ok extended ∧ table.schedule = .ok sequence ∧
      extended.schedule = .ok (sequence ++ [op.id]) ∧
      extended.evaluate.2 = (evaluated.applied op).2 ∧
      extended.evaluate.1.values = (evaluated.applied op).1.values ∧
      extended.evaluate.1.regions = (evaluated.applied op).1.regions ∧
      ∀ id, id ≠ op.id → extended.evaluate.1.regionOf id = evaluated.regionOf id := by
  obtain ⟨sequence, scheduled, reached⟩ := evaluate_eq_ok_iff.1 ok
  have fresh : op.id ∉ table.operations.map Operation.id := by
    intro member
    obtain ⟨other, present, same⟩ := List.mem_map.1 member
    exact new other present same
  have later : (table.withOperations (table.operations ++ [op])).schedule =
      .ok (sequence ++ [op.id]) :=
    schedule_eq_ok_iff.2 (schedule_append (schedule_eq_ok_iff.1 scheduled) fresh known)
  have agree : ∀ id ∈ sequence,
      (table.cleared.withOperations (table.operations ++ [op])).operation? id =
        table.cleared.operation? id := by
    intro id member
    exact operation?_append_of_isSome (operation?_isSome_of_run reached member)
  have self : (evaluated.withOperations (table.operations ++ [op])).operation? op.id = some op :=
    operation?_append_self new
  have outcome : (table.withOperations (table.operations ++ [op])).evaluate =
      ((evaluated.applied op).1.withOperations (table.operations ++ [op]),
        (evaluated.applied op).2) := by
    calc
      _ = (table.cleared.withOperations (table.operations ++ [op])).run (sequence ++ [op.id]) := by
        rw [evaluate, later]
        rfl
      _ = (evaluated.withOperations (table.operations ++ [op])).run [op.id] := by
        rw [run_append, run_withOperations agree, reached]
      _ = _ := by rw [run_singleton self, applied_withOperations]
  refine ⟨_, sequence, add_eq_ok new, scheduled, later, ?_⟩
  rw [outcome]
  exact ⟨rfl, rfl, rfl, fun id ne => regionOf_applied_of_ne ne⟩

end

def recount : Operation :=
  ⟨3, .operationRegion 2, .offset (.operationCorner 2 .bottomLeft) 1 0, .count, some .count⟩

theorem evaluate_add_recount :
    (countedBlock [[.int 7]]).evaluate.2 = .ok () ∧
    (∀ other ∈ (countedBlock [[.int 7]]).operations, other.id ≠ recount.id) ∧
    (∀ id ∈ recount.dependencies, id ∈ (countedBlock [[.int 7]]).operations.map Operation.id) ∧
    ∃ extended, (countedBlock [[.int 7]]).add recount = .ok extended ∧
      extended.schedule = .ok [1, 2, 3] ∧ extended.evaluate.2 = .ok () := by
  have filled : (countedBlock [[.int 7]]).evaluate.2 = .ok () := by decide +kernel
  have new : ∀ other ∈ (countedBlock [[.int 7]]).operations, other.id ≠ recount.id := by
    simp [countedBlock, recount]
  have known : ∀ id ∈ recount.dependencies,
      id ∈ (countedBlock [[.int 7]]).operations.map Operation.id := by
    decide +kernel
  have scheduled : (countedBlock [[.int 7]]).schedule = .ok [1, 2] := by decide +kernel
  obtain ⟨extended, sequence, added, same, last, outcome, _⟩ :=
    evaluate_add (countedBlock [[.int 7]]) _ recount (Prod.ext rfl filled) new known
  rw [scheduled] at same
  cases same
  refine ⟨filled, new, known, extended, added, last, outcome.trans ?_⟩
  decide +kernel

end LinkedSheet.Table
