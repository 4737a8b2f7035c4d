import LinkedSheet.Proofs.TableEvaluation

/-!
What a failed evaluation leaves. Without a schedule, the table stays as it was. With one, the first
operation that fails leaves no trace: the operations before it, kept as a table of their own in the
order in which they ran, have a schedule and evaluate to just what the failed evaluation left. They
have one because each of them has found the regions that it depends on, so that none of them
depends on an operation that was left out.
-/
namespace LinkedSheet

section
variable [Script.Engine] {operations : List Operation} {order : List OpId}

theorem schedule_of_all_ordered (declared : Declared operations order)
    (all : ∀ op ∈ operations, op.id ∈ order) : schedule operations order = .ok order := by
  have rest : unordered operations order = [] := by
    rw [List.eq_nil_iff_forall_not_mem]
    intro id member
    obtain ⟨listed, outside⟩ := mem_unordered.1 member
    obtain ⟨op, present, rfl⟩ := List.mem_map.1 listed
    exact outside (all op present)
  rw [schedule_of_declared declared, rest, Schedule.greedy_nil, Except.map, List.append_nil]

end

namespace Table
section
variable [Script.Engine] {table left : Table} {ids sequence : List OpId} {id : OpId} {error : TableError}

/-- The operations that a list names, in the sequence of their declaration, with the list as the
order in which they run. -/
def keeping (table : Table) (ids : List OpId) : Table :=
  { table with
    operations := table.operations.filter fun op => ids.contains op.id
    order := ids }

theorem operation?_keeping (member : id ∈ ids) :
    (table.keeping ids).operation? id = table.operation? id := by
  unfold operation? keeping
  rw [List.find?_filter]
  congr 1
  funext op
  by_cases same : op.id = id <;> simp [same, member]

theorem schedule_keeping (distinct : (table.operations.map Operation.id).Nodup) (nodup : ids.Nodup)
    (reached : table.cleared.run ids = (left, .ok ())) :
    (table.keeping ids).schedule = .ok ids := by
  have kept : ∀ op, op ∈ (table.keeping ids).operations ↔ op ∈ table.operations ∧ op.id ∈ ids := by
    simp [keeping]
  have listed : ∀ id ∈ ids, id ∈ (table.keeping ids).operations.map Operation.id := by
    intro id member
    obtain ⟨op, found⟩ := Option.isSome_iff_exists.1 (operation?_isSome_of_run reached member)
    obtain rfl := operation?_id found
    exact List.mem_map_of_mem ((kept op).2 ⟨List.mem_of_find?_eq_some found, member⟩)
  have closed : ∀ op ∈ (table.keeping ids).operations, ∀ id ∈ op.dependencies, id ∈ ids := by
    intro op present id depends
    obtain ⟨declared, member⟩ := (kept op).1 present
    have earlier := (dependencies_of_run nodup reached (operation?_of_mem distinct declared) member
      depends).1
    exact List.idxOf_lt_length_iff.1 (earlier.trans (List.idxOf_lt_length_of_mem member))
  have declared : Declared (table.keeping ids).operations ids :=
    ⟨listed, nodup, fun op present id depends => listed id (closed op present id depends)⟩
  exact schedule_eq_ok_iff.2
    (schedule_of_all_ordered declared fun op present => ((kept op).1 present).2)

theorem evaluate_keeping (distinct : (table.operations.map Operation.id).Nodup) (nodup : ids.Nodup)
    (reached : table.cleared.run ids = (left, .ok ())) (values : Block)
    (regions : Std.TreeMap OpId Region) :
    { table.keeping ids with values := values, regions := regions }.evaluate =
      ((table.keeping ids).withContents left, .ok ()) := by
  have scheduled := schedule_keeping distinct nodup reached
  have run : ((table.keeping ids).withContents table.cleared).run ids =
      ((table.keeping ids).withContents (table.cleared.run ids).1, (table.cleared.run ids).2) :=
    run_withContents fun id member => operation?_keeping member
  rw [reached] at run
  exact evaluate_eq_ok_iff.2 ⟨ids, scheduled, run⟩

theorem exists_of_run_cleared_eq_error (listed : ∀ id ∈ sequence, (table.operation? id).isSome)
    (failed : table.cleared.run sequence = (left, .error error)) :
    ∃ before id after op, sequence = before ++ id :: after ∧ table.operation? id = some op ∧
      table.cleared.run before = (left, .ok ()) ∧ left.apply op = .error error := by
  obtain ⟨before, id, after, rfl, reached, undeclared | ⟨op, found, applied⟩⟩ :=
    exists_of_run_eq_error failed
  · have present : (left.operation? id).isSome := by
      rw [operation?_run reached]
      exact listed id (by simp)
    obtain ⟨op, found⟩ := Option.isSome_iff_exists.1 present
    simp [operation, found] at undeclared
  · rw [operation?_run reached] at found
    exact ⟨before, id, after, op, rfl, found, reached, applied⟩

/-- An evaluation without a schedule changes nothing. One that fails at an operation of the schedule
leaves the values and regions to which the table of the operations before it evaluates, whatever
that table holds. -/
theorem evaluate_error_leaves_front (table : Table)
    (distinct : (table.operations.map Operation.id).Nodup) :
    (∀ error, table.schedule = .error error → table.evaluate = (table, .error error)) ∧
    ∀ sequence left error, table.schedule = .ok sequence →
      table.evaluate = (left, .error error) →
        ∃ before id after op, sequence = before ++ id :: after ∧ table.operation? id = some op ∧
          table.cleared.run before = (left, .ok ()) ∧ left.apply op = .error error ∧
          ∀ values regions, ∃ rebuilt,
            { table.keeping before with values := values, regions := regions }.evaluate =
              (rebuilt, .ok ()) ∧
            rebuilt.values = left.values ∧ rebuilt.regions = left.regions := by
  constructor
  · intro error unscheduled
    exact evaluate_eq_error_iff.2 (.inl ⟨unscheduled, rfl⟩)
  · intro sequence left error scheduled failed
    have run : table.cleared.run sequence = (left, .error error) := by
      rcases evaluate_eq_error_iff.1 failed with ⟨unscheduled, _⟩ | ⟨other, same, run⟩
      · rw [scheduled] at unscheduled
        cases unscheduled
      · rw [scheduled] at same
        cases same
        exact run
    have listed : ∀ id ∈ sequence, (table.operation? id).isSome := by
      intro id member
      have admissible := admissible_of_schedule distinct (schedule_eq_ok_iff.1 scheduled)
      obtain ⟨op, present, rfl⟩ := List.mem_map.1 (admissible.perm.subset member)
      rw [operation?_of_mem distinct present]
      rfl
    obtain ⟨before, id, after, op, rfl, found, reached, applied⟩ :=
      exists_of_run_cleared_eq_error listed run
    have nodup : before.Nodup :=
      (List.nodup_append.1 (nodup_of_schedule distinct scheduled)).1
    exact ⟨before, id, after, op, rfl, found, reached, applied, fun values regions =>
      ⟨_, evaluate_keeping distinct nodup reached values regions, rfl, rfl⟩⟩

end

def spoiled : Table :=
  { empty with
    values := .scalar (.text "left over")
    operations :=
      [⟨2, .operationRegion 1, .reference "B1", .count, some .count⟩,
        ⟨3, .range "A1:A1", .operationCorner 2 .topRight, .reduction .average, some .average⟩,
        ⟨1, .empty, .reference "A1", .block (.scalar (.text "n/a")), none⟩,
        ⟨4, .empty, .reference "D1", .count, some .count⟩] }

def knotted : Table :=
  { spoiled with operations := knot }

theorem evaluate_error_leaves_front_spoiled :
    (spoiled.operations.map Operation.id).Nodup ∧ spoiled.schedule = .ok [1, 2, 3, 4] ∧
    spoiled.evaluate.2 = .error (.function 3 "Average" (.textInput "Average" ⟨0, 0⟩)) ∧
    (∃ before id after rebuilt, [1, 2, 3, 4] = before ++ id :: after ∧
      (spoiled.keeping before).evaluate = (rebuilt, .ok ()) ∧
      rebuilt.values = spoiled.evaluate.1.values ∧
      rebuilt.regions = spoiled.evaluate.1.regions) ∧
    (knotted.operations.map Operation.id).Nodup ∧
    knotted.schedule = .error (.schedule (.circular [2, 3, 2])) ∧
    knotted.evaluate = (knotted, .error (.schedule (.circular [2, 3, 2]))) := by
  have distinct : (spoiled.operations.map Operation.id).Nodup := by decide
  have apart : (knotted.operations.map Operation.id).Nodup := by decide
  have scheduled : spoiled.schedule = .ok [1, 2, 3, 4] := by decide +kernel
  have unscheduled : knotted.schedule = .error (.schedule (.circular [2, 3, 2])) := by
    decide +kernel
  have failed : spoiled.evaluate.2 =
      .error (.function 3 "Average" (.textInput "Average" ⟨0, 0⟩)) := by
    decide +kernel
  obtain ⟨before, id, after, _, split, _, _, _, rebuilds⟩ :=
    (evaluate_error_leaves_front spoiled distinct).2 _ _ _ scheduled (Prod.ext rfl failed)
  obtain ⟨rebuilt, ok, values, regions⟩ := rebuilds spoiled.values spoiled.regions
  exact ⟨distinct, scheduled, failed, ⟨before, id, after, rebuilt, split, ok, values, regions⟩,
    apart, unscheduled, (evaluate_error_leaves_front knotted apart).1 _ unscheduled⟩

end Table

end LinkedSheet
