import LinkedSheet.Proofs.BlockPlacement
import LinkedSheet.Proofs.TableEvaluation
import Mathlib

/-!
What an evaluation leaves. A run that succeeds has recorded one output after the other, each emitted
on the table that the ones before had made. So every cell holds the value of the last output that
covers it, the region of an operation is the one around its last output, and nothing is left of what
the table held before the evaluation.
-/
namespace LinkedSheet.Table
section
variable [Script.Engine] {table result : Table} {output : Output} {outputs before after : List Output} {id : OpId}
  {ids : List OpId} {cell : Cell} {value : Value}

def EmitsAll (table : Table) : List Output → Prop
  | [] => True
  | output :: rest =>
    (∃ op, table.operation? output.id = some op ∧ table.Emits op output) ∧ output.InBounds ∧
      (table.record output).EmitsAll rest

theorem emitsAll_append :
    table.EmitsAll (before ++ after) ↔
      table.EmitsAll before ∧ (before.foldl record table).EmitsAll after := by
  induction before generalizing table with
  | nil => simp [EmitsAll]
  | cons output rest ih => simp only [List.cons_append, EmitsAll, ih, List.foldl_cons, and_assoc]

theorem run_eq_ok_iff_emitsAll :
    table.run ids = (result, .ok ()) ↔
      ∃ outputs, outputs.map Output.id = ids ∧ table.EmitsAll outputs ∧
        result = outputs.foldl record table := by
  induction ids generalizing table with
  | nil =>
    constructor
    · intro reached
      cases reached
      exact ⟨[], rfl, trivial, rfl⟩
    · rintro ⟨outputs, none, _, rfl⟩
      rw [List.map_eq_nil_iff.1 none]
      rfl
  | cons id rest ih =>
    rw [run_cons_eq_ok_iff]
    constructor
    · rintro ⟨op, next, found, applied, reached⟩
      obtain ⟨output, emits, within, rfl⟩ := apply_eq_ok_iff_emits.1 applied
      obtain ⟨outputs, rfl, all, rfl⟩ := ih.1 reached
      obtain rfl : output.id = id := emits.1.symm.trans (operation?_id found)
      exact ⟨output :: outputs, rfl, ⟨⟨op, found, emits⟩, within, all⟩, rfl⟩
    · rintro ⟨outputs, ids, all, rfl⟩
      obtain ⟨output, others, rfl, rfl, rfl⟩ := List.map_eq_cons_iff.1 ids
      obtain ⟨⟨op, found, emits⟩, within, all⟩ := all
      exact ⟨op, table.record output, found, apply_eq_ok_iff_emits.2 ⟨output, emits, within, rfl⟩,
        ih.2 ⟨others, rfl, all, rfl⟩⟩

theorem get_foldl_record :
    (outputs.foldl record table).get cell =
      (outputs.reverse.findSome? (·.value? cell)).or (table.get cell) := by
  induction outputs generalizing table with
  | nil => rfl
  | cons output rest ih =>
    rw [List.foldl_cons, ih, get_record, List.reverse_cons, List.findSome?_append, Option.or_assoc,
      List.findSome?_singleton]

theorem get_foldl_record_eq_some_iff (empty : table.get cell = none) :
    (outputs.foldl record table).get cell = some value ↔
      ∃ before output after, outputs = before ++ output :: after ∧
        output.value? cell = some value ∧ ∀ later ∈ after, cell ∉ later.cells := by
  rw [get_foldl_record, empty, Option.or_none, List.findSome?_eq_some_iff]
  simp only [Output.value?_eq_none_iff]
  constructor
  · rintro ⟨after, output, before, reversed, written, last⟩
    refine ⟨before.reverse, output, after.reverse, ?_, written, by simpa using last⟩
    simpa using congrArg List.reverse reversed
  · rintro ⟨before, output, after, rfl, written, last⟩
    exact ⟨after.reverse, output, before.reverse, by simp, written, by simpa using last⟩

theorem get_foldl_record_eq_none_iff (empty : table.get cell = none) :
    (outputs.foldl record table).get cell = none ↔ ∀ output ∈ outputs, cell ∉ output.cells := by
  rw [get_foldl_record, empty, Option.or_none, List.findSome?_eq_none_iff]
  simp only [List.mem_reverse, Output.value?_eq_none_iff]

theorem regionOf_foldl_record_of_not_mem (new : id ∉ outputs.map Output.id) :
    (outputs.foldl record table).regionOf id = table.regionOf id := by
  induction outputs generalizing table with
  | nil => rfl
  | cons output rest ih =>
    rw [List.map_cons, List.mem_cons, not_or] at new
    rw [List.foldl_cons, ih new.2, regionOf_record, if_neg (Ne.symm new.1)]

theorem regionOf_foldl_record (last : output.id ∉ after.map Output.id) :
    ((before ++ output :: after).foldl record table).regionOf output.id = output.region? := by
  rw [List.foldl_append, List.foldl_cons, regionOf_foldl_record_of_not_mem last, regionOf_record,
    if_pos rfl]

theorem get_cleared (table : Table) (cell : Cell) : table.cleared.get cell = none := by
  simp [get, cleared, Block.empty]

/-- Whatever a table held, an evaluation that succeeds leaves in each cell the value of the last
output, in the sequence of the schedule, that covers the cell, and nothing in the cells that no
output covers. The region of an operation is the one around its last output, and there is none
exactly if its block is empty; operations that are not scheduled have none. -/
theorem evaluate_last_outputs (table result : Table) (ok : table.evaluate = (result, .ok ())) :
    ∃ outputs : List Output, table.schedule = .ok (outputs.map Output.id) ∧
      (∀ before output after, outputs = before ++ output :: after →
        ∃ state op, table.cleared.run (before.map Output.id) = (state, .ok ()) ∧
          table.operation? output.id = some op ∧ state.Emits op output) ∧
      (∀ cell value, result.get cell = some value ↔
        ∃ before output after, outputs = before ++ output :: after ∧
          output.value? cell = some value ∧ ∀ later ∈ after, cell ∉ later.cells) ∧
      (∀ cell, result.get cell = none ↔ ∀ output ∈ outputs, cell ∉ output.cells) ∧
      (∀ before output after, outputs = before ++ output :: after →
        output.id ∉ after.map Output.id →
          result.regionOf output.id = Region.bounding output.cells ∧
            (result.regionOf output.id = none ↔ output.block.isEmpty = true)) ∧
      ∀ id, id ∉ outputs.map Output.id → result.regionOf id = none := by
  obtain ⟨sequence, scheduled, reached⟩ := evaluate_eq_ok_iff.1 ok
  obtain ⟨outputs, rfl, all, rfl⟩ := run_eq_ok_iff_emitsAll.1 reached
  refine ⟨outputs, scheduled, ?_, fun cell value => ?_, fun cell => ?_, ?_, fun id new => ?_⟩
  · rintro before output after rfl
    obtain ⟨first, ⟨op, found, emits⟩, _⟩ := emitsAll_append.1 all
    have run : table.cleared.run (before.map Output.id) =
        (before.foldl record table.cleared, .ok ()) :=
      run_eq_ok_iff_emitsAll.2 ⟨before, rfl, first, rfl⟩
    rw [operation?_run run] at found
    exact ⟨_, op, run, found, emits⟩
  · exact get_foldl_record_eq_some_iff (table.get_cleared cell)
  · exact get_foldl_record_eq_none_iff (table.get_cleared cell)
  · rintro before output after rfl last
    rw [regionOf_foldl_record last]
    exact ⟨rfl, Output.region?_eq_none_iff⟩
  · rw [regionOf_foldl_record_of_not_mem new, regionOf_cleared]

end

def overlapping : Table :=
  { empty with
    values := Block.ofList [(⟨4, 4⟩, .text "left over")]
    regions := ({} : Std.TreeMap OpId Region).insert 3 (.single ⟨4, 4⟩)
    operations :=
      [⟨1, .empty, .reference "A1", .block (.ofList [(⟨0, 0⟩, .int 1), (⟨0, 1⟩, .int 2)]), none⟩,
        ⟨2, .empty, .reference "B1", .block (.scalar (.int 9)), none⟩,
        ⟨3, .empty, .reference "C1", .block .empty, none⟩] }

theorem evaluate_last_outputs_overlapping :
    overlapping.evaluate.2 = .ok () ∧
    ∃ outputs : List Output, outputs.map Output.id = [1, 2, 3] ∧
      (∃ before output after, outputs = before ++ output :: after ∧
        output.value? ⟨0, 1⟩ = some (.int 9) ∧ ∀ later ∈ after, ⟨0, 1⟩ ∉ later.cells) ∧
      (∀ output ∈ outputs, ⟨4, 4⟩ ∉ output.cells) ∧
      ∃ output ∈ outputs, output.id = 3 ∧ output.block.isEmpty = true := by
  have ok : overlapping.evaluate.2 = .ok () := by decide +kernel
  have written : overlapping.evaluate.1.get ⟨0, 1⟩ = some (.int 9) := by cbv
  have blank : overlapping.evaluate.1.get ⟨4, 4⟩ = none := by cbv
  have none_left : overlapping.evaluate.1.regionOf 3 = none := by decide +kernel
  have order : overlapping.schedule = .ok [1, 2, 3] := by decide +kernel
  obtain ⟨outputs, scheduled, _, values, nothing, regions, _⟩ :=
    evaluate_last_outputs overlapping _ (Prod.ext rfl ok)
  have ids : outputs.map Output.id = [1, 2, 3] := Except.ok.inj (scheduled.symm.trans order)
  obtain ⟨first, rest, rfl, _, tail⟩ := List.map_eq_cons_iff.1 ids
  obtain ⟨second, rest, rfl, _, tail⟩ := List.map_eq_cons_iff.1 tail
  obtain ⟨third, rest, rfl, id, tail⟩ := List.map_eq_cons_iff.1 tail
  obtain rfl := List.map_eq_nil_iff.1 tail
  have empty := (regions [first, second] third [] rfl (by simp)).2
  rw [id] at empty
  exact ⟨ok, _, ids, (values ⟨0, 1⟩ (.int 9)).1 written, (nothing ⟨4, 4⟩).1 blank, third,
    by simp, id, empty.1 none_left⟩

end LinkedSheet.Table
