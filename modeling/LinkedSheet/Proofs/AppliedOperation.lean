import LinkedSheet.Proofs.BlockPlacement
import LinkedSheet.Proofs.SessionSteps
import LinkedSheet.Script.Interpreter
import Mathlib.Order.Bounds.Defs

/-!
Applying one operation in place. Whatever the table holds, the operation either fails and leaves
values and regions as they are, or has written what it emits: its cells, and its region in place of
the one it had. No other cell or region changes, and of what can be emitted only a block that would
reach out of bounds is refused.
-/
namespace LinkedSheet

namespace Table
variable [Script.Engine] {table left : Table} {output : Output}

/-- A table that holds an output, and otherwise what another table holds. -/
structure Holds (table left : Table) (output : Output) : Prop where
  cells : ∀ relative value, output.block[relative]? = some value →
    left.get (relative + output.anchor) = some value
  other_cells : ∀ cell, (∀ relative ∈ output.block.keys, relative + output.anchor ≠ cell) →
    left.get cell = table.get cell
  /-- The region is the least one that holds all cells of the output. -/
  region : output.block.isEmpty = false → ∃ region, left.regionOf output.id = some region ∧
    IsLeast {outer | ∀ relative ∈ output.block.keys, outer.contains (relative + output.anchor)}
      region
  no_region : output.block.isEmpty = true → left.regionOf output.id = none
  other_regions : ∀ id, id ≠ output.id → left.regionOf id = table.regionOf id

theorem holds_record (table : Table) (output : Output) :
    table.Holds (table.record output) output where
  cells relative value held := by
    rw [get_record, Output.value?_eq_some_iff.2 ⟨relative, rfl, held⟩, Option.some_or]
  other_cells cell apart := by
    have uncovered : cell ∉ output.cells := by simpa [Output.cells] using apart
    rw [get_record, Output.value?_eq_none_iff.2 uncovered, Option.none_or]
  region filled := by
    have some_region : output.region? ≠ none := by simp [Output.region?_eq_none_iff, filled]
    obtain ⟨region, around⟩ := Option.ne_none_iff_exists'.1 some_region
    have least : ∀ outer, region ≤ outer ↔
        ∀ relative ∈ output.block.keys, outer.contains (relative + output.anchor) := fun outer => by
      rw [Region.bounding_le_iff around, Output.cells, List.forall_mem_map]
    refine ⟨region, ?_, (least region).1 fun _ inside => inside, fun outer => (least outer).2⟩
    rw [regionOf_record, if_pos rfl, around]
  no_region empty := by
    rw [regionOf_record, if_pos rfl, Output.region?_eq_none_iff.2 empty]
  other_regions id other := by
    rw [regionOf_record, if_neg other.symm]

end Table

namespace Session

section
variable [Script.Engine] {σ : Type}

theorem apply_on_eq_ok {table left : Table} {op : Operation} {files : σ}
    (applied : (apply op : Session (StateM σ) Unit).on table files = ((.ok (), left), files)) :
    ∃ output, table.Emits op output ∧ left = table.record output := by
  rw [apply_on] at applied
  cases outcome : table.apply op with
  | error e =>
    rw [outcome] at applied
    cases applied
  | ok next =>
    rw [outcome] at applied
    cases applied
    obtain ⟨output, emits, _, recorded⟩ := Table.apply_eq_ok_iff_emits.1 outcome
    exact ⟨output, emits, recorded⟩

/-- An operation that fails leaves values and regions as they are. One that succeeds has written
what it emits, and changed no other cell and no other region. If selection, function and anchor
succeed, the operation is refused exactly when a cell of the block would come to stand behind the
last row or column, and otherwise succeeds. -/
theorem apply_keeps_or_writes (table : Table) (op : Operation) (files : σ) :
    ∃ outcome left, (apply op : Session (StateM σ) Unit).on table files =
        ((outcome, left), files) ∧
      ((∃ error, outcome = .error error ∧
          left.values = table.values ∧ left.regions = table.regions) ∨
        outcome = .ok () ∧ ∃ output, table.Emits op output ∧ table.Holds left output) ∧
      ∀ output, table.Emits op output →
        ((∃ rows cols,
            outcome = .error (.resolve op.id (.outOfBounds output.anchor rows cols))) ↔
          ∃ relative ∈ output.block.keys,
            Cell.maxIndex < relative.row + output.anchor.row ∨
              Cell.maxIndex < relative.col + output.anchor.col) ∧
        (outcome = .ok () ↔
          ∀ relative ∈ output.block.keys,
            relative.row + output.anchor.row ≤ Cell.maxIndex ∧
              relative.col + output.anchor.col ≤ Cell.maxIndex) := by
  simp only [← Output.not_inBounds_iff, ← Output.inBounds_iff_keys]
  cases applied : table.apply op with
  | error e =>
    refine ⟨.error e, table, by rw [apply_on, applied]; rfl, .inl ⟨e, rfl, rfl, rfl⟩,
      fun output emits => ?_⟩
    rcases Table.apply_cases_of_emits emits with ⟨_, recorded⟩ | ⟨outside, rows, cols, refused⟩
    · rw [applied] at recorded
      cases recorded
    · rw [applied] at refused
      cases refused
      exact ⟨iff_of_true ⟨rows, cols, rfl⟩ outside, iff_of_false nofun outside⟩
  | ok next =>
    obtain ⟨output, emits, _, rfl⟩ := Table.apply_eq_ok_iff_emits.1 applied
    refine ⟨.ok (), table.record output, by rw [apply_on, applied]; rfl,
      .inr ⟨rfl, output, emits, table.holds_record output⟩, fun other emits => ?_⟩
    rcases Table.apply_cases_of_emits emits with ⟨within, _⟩ | ⟨_, rows, cols, refused⟩
    · exact ⟨iff_of_false nofun (not_not_intro within), iff_of_true rfl within⟩
    · rw [applied] at refused
      cases refused

end

def overrunning : Operation :=
  ⟨2, .empty, .base (.fixed 0) (.fixed Cell.maxIndex),
    .block (.ofList [(⟨0, 0⟩, .int 1), (⟨0, 1⟩, .int 2)]), none⟩

def writtenBefore : Table :=
  { Table.empty with
    values := Block.ofList [(⟨4, 4⟩, .text "left over")]
    regions := ({} : Std.TreeMap OpId Region).insert 2 (.single ⟨4, 4⟩) }

theorem apply_keeps_or_writes_overrunning :
    ∃ rows cols left, (apply overrunning : Session (StateM Unit) Unit).on writtenBefore () =
        ((.error (.resolve 2 (.outOfBounds ⟨0, Cell.maxIndex⟩ rows cols)), left), ()) ∧
      left.get ⟨4, 4⟩ = some (.text "left over") ∧ left.regionOf 2 = some (.single ⟨4, 4⟩) := by
  have emits : writtenBefore.Emits overrunning
      ⟨2, ⟨0, Cell.maxIndex⟩, .ofList [(⟨0, 0⟩, .int 1), (⟨0, 1⟩, .int 2)]⟩ :=
    ⟨rfl, [], rfl, rfl, rfl⟩
  have held : writtenBefore.get ⟨4, 4⟩ = some (.text "left over") := by rfl
  have recorded : writtenBefore.regionOf 2 = some (.single ⟨4, 4⟩) := by decide +kernel
  obtain ⟨outcome, left, done, kept, refused⟩ := apply_keeps_or_writes writtenBefore overrunning ()
  obtain ⟨rows, cols, rfl⟩ := (refused _ emits).1.2 ⟨⟨0, 1⟩, by decide +kernel, .inr (by decide)⟩
  rcases kept with ⟨_, _, values, regions⟩ | ⟨succeeded, _⟩
  · refine ⟨rows, cols, left, done, ?_, ?_⟩
    · rwa [Table.get, values]
    · rwa [Table.regionOf, regions]
  · cases succeeded

end Session

end LinkedSheet
