import LinkedSheet.Proofs.TableEvaluation

/-!
Making a part of a schedule the order. A sequence that begins as the schedule does, at least as far
as the order went, may take the place of the order: what has been pinned is what the greedy choice
had made there, and the operations that are left wait for the same ones as before. So the schedule
stays as it was, and an evaluation leaves the same values and regions.
-/
namespace LinkedSheet

section
variable [Script.Engine] {operations : List Operation} {order front sequence : List OpId}

theorem unordered_append :
    unordered operations (order ++ front) =
      (unordered operations order).filter fun id => !front.contains id := by
  simp [unordered, List.filter_filter, Bool.and_comm]

theorem waitsFor_append {a b : OpId} :
    WaitsFor operations (order ++ front) a b ↔
      WaitsFor operations order a b ∧ a ∉ front ∧ b ∉ front := by
  simp only [WaitsFor, List.mem_append, not_or]
  grind

theorem declared_of_prefix {pinned : List OpId} (distinct : (operations.map Operation.id).Nodup)
    (ok : schedule operations order = .ok sequence) (front : pinned <+: sequence) :
    Declared operations pinned := by
  have perm := (admissible_of_schedule distinct ok).perm
  refine ⟨fun id member => perm.subset (front.subset member), ?_,
    (declared_of_schedule ok).dependencies_declared⟩
  exact (perm.nodup_iff.2 distinct).sublist front.sublist

theorem schedule_of_prefix {pinned : List OpId} (distinct : (operations.map Operation.id).Nodup)
    (ok : schedule operations order = .ok sequence) (front : pinned <+: sequence)
    (long : order.length ≤ pinned.length) : schedule operations pinned = .ok sequence := by
  have declared := declared_of_prefix distinct ok front
  obtain ⟨rest, rfl, run⟩ := exists_greedyRun_of_schedule ok
  obtain ⟨taken, rfl⟩ : order <+: pinned :=
    List.prefix_of_prefix_length_le (List.prefix_append order rest) front long
  obtain ⟨left, rfl⟩ := (List.prefix_append_right_inj order).1 front
  have later := run.drop (distinct.filter _)
  rw [← unordered_append] at later
  have waits : ∀ id ∈ unordered operations (order ++ taken), ∀ next,
      (Schedule.restricted order (dependencyGraph operations)).Leads id next ∧
          next ∉ taken.reverse ++ order ↔
        (Schedule.restricted (order ++ taken) (dependencyGraph operations)).Leads id next ∧
          next ∉ order ++ taken := by
    intro id member next
    have outside := (mem_unordered.1 member).2
    simp only [leads_restricted_iff distinct, waitsFor_append, List.mem_append, List.mem_reverse,
      not_or] at outside ⊢
    tauto
  rw [schedule_of_declared declared, (later.congr waits).eq_ok]
  simp [Except.map]

end

namespace Table
variable [Script.Engine] {table other : Table} {sequence : List OpId}

theorem evaluate_of_same_schedule (same : other.operations = table.operations)
    (scheduled : table.schedule = .ok sequence) (too : other.schedule = .ok sequence) :
    other.evaluate = (other.withContents table.evaluate.1, table.evaluate.2) := by
  have agree : ∀ id ∈ sequence, other.operation? id = table.cleared.operation? id := by
    intro id _
    unfold operation?
    rw [same]
    rfl
  have run : (other.withContents table.cleared).run sequence =
      (other.withContents (table.cleared.run sequence).1, (table.cleared.run sequence).2) :=
    run_withContents agree
  simp only [evaluate, scheduled, too]
  exact run

end Table

/-- What begins as the schedule does, at least as far as the order goes, can be made the order: the
schedule is the same, and evaluating has the same result and leaves the same values and regions,
whatever the table has come to hold in between. -/
theorem schedule_pinned [Script.Engine] (operations : List Operation) (order sequence pinned : List OpId)
    (distinct : (operations.map Operation.id).Nodup)
    (ok : schedule operations order = .ok sequence) (front : pinned <+: sequence)
    (long : order.length ≤ pinned.length) :
    schedule operations pinned = .ok sequence ∧
    ∀ table later : Table, table.operations = operations → table.order = order →
      later.operations = operations →
        ∃ fixed, later.setOrder pinned = .ok fixed ∧ fixed.schedule = .ok sequence ∧
          fixed.evaluate.2 = table.evaluate.2 ∧
          fixed.evaluate.1.values = table.evaluate.1.values ∧
          fixed.evaluate.1.regions = table.evaluate.1.regions := by
  have again := schedule_of_prefix distinct ok front long
  refine ⟨again, ?_⟩
  rintro table later rfl rfl same
  have declared := declared_of_schedule again
  have scheduled : table.schedule = .ok sequence := Table.schedule_eq_ok_iff.2 ok
  have too : ({ later with order := pinned } : Table).schedule = .ok sequence :=
    Table.schedule_eq_ok_iff.2 (same ▸ again)
  have outcome : ({ later with order := pinned } : Table).evaluate =
      (Table.withContents { later with order := pinned } table.evaluate.1, table.evaluate.2) :=
    Table.evaluate_of_same_schedule same scheduled too
  refine ⟨{ later with order := pinned }, ?_, too, ?_⟩
  · exact Table.setOrder_eq_ok_iff.2
      ⟨same ▸ declared.order_declared, declared.order_nodup, rfl⟩
  · rw [outcome]
    exact ⟨rfl, rfl, rfl⟩

def countsTable : Table :=
  { Table.empty with operations := counts, order := [4] }

theorem schedule_pinned_counts :
    (counts.map Operation.id).Nodup ∧ schedule counts [4] = .ok [4, 2, 1, 3] ∧
    [4, 2, 1] <+: [4, 2, 1, 3] ∧ schedule counts [4, 2, 1] = .ok [4, 2, 1, 3] ∧
    ∃ fixed, countsTable.evaluate.1.setOrder [4, 2, 1] = .ok fixed ∧
      fixed.evaluate.2 = .ok () ∧ fixed.evaluate.1.values = countsTable.evaluate.1.values := by
  have distinct : (counts.map Operation.id).Nodup := by decide
  have ok : schedule counts [4] = .ok [4, 2, 1, 3] := by decide +kernel
  have front : [4, 2, 1] <+: [4, 2, 1, 3] := by decide
  have evaluated : countsTable.evaluate.2 = .ok () := by decide +kernel
  obtain ⟨again, pinned⟩ :=
    schedule_pinned counts [4] [4, 2, 1, 3] [4, 2, 1] distinct ok front (by decide)
  obtain ⟨fixed, ordered, _, outcome, values, _⟩ :=
    pinned countsTable countsTable.evaluate.1 rfl rfl countsTable.operations_evaluate
  exact ⟨distinct, ok, front, again, fixed, ordered, outcome.trans evaluated, values⟩

end LinkedSheet
