import LinkedSheet.Proofs.CellReference
import LinkedSheet.Proofs.TableCalls

/-!
Bounds of tables. The bound of an index is checked once, on the region around a block that is about
to be written; that region ends where the farthest cells come to stand, so none of the sums that
place the cells passes `Cell.maxIndex`. What is written, in whatever sequence, stays in bounds, and
a cell in bounds is named by a reference that reads back.
-/
namespace LinkedSheet.Table
section
variable [Script.Engine] {table next result state : Table} {op : Operation} {output : Output} {ids : List OpId}

/-- Populated cells and the last corners of recorded regions are in bounds. -/
structure Bounded (table : Table) : Prop where
  cells : ∀ cell, (table.get cell).isSome → cell.InBounds
  regions : ∀ id region, table.regionOf id = some region → region.bottomRight.InBounds

theorem bounded_cleared (table : Table) : table.cleared.Bounded := by
  constructor
  · intro cell there
    rw [get_cleared] at there
    cases there
  · intro id region recorded
    rw [regionOf_cleared] at recorded
    cases recorded

theorem Bounded.record (h : table.Bounded) (within : output.InBounds) :
    (table.record output).Bounded := by
  constructor
  · intro cell there
    rcases isSome_get_record.1 there with written | before
    · exact within cell written
    · exact h.cells cell before
  · intro id region recorded
    rw [regionOf_record] at recorded
    split at recorded
    · exact (Output.inBounds_iff recorded).1 within
    · exact h.regions id region recorded

theorem Bounded.apply (h : table.Bounded) (ok : table.apply op = .ok result) : result.Bounded := by
  obtain ⟨output, _, within, rfl⟩ := apply_eq_ok_iff_emits.1 ok
  exact h.record within

theorem Bounded.run (h : table.Bounded) (reached : table.run ids = (state, .ok ())) :
    state.Bounded := by
  induction ids generalizing table with
  | nil =>
    cases reached
    exact h
  | cons id rest ih =>
    obtain ⟨op, next, _, applied, reached⟩ := run_cons_eq_ok_iff.1 reached
    exact ih (h.apply applied) reached

theorem Bounded.evaluate (h : table.Bounded) : table.evaluate.1.Bounded := by
  rcases table.evaluate_cases with same | ⟨before, after, _, reached⟩
  · rwa [same]
  · exact table.bounded_cleared.run reached

theorem Bounded.redeclares (h : table.Bounded) (step : table.Redeclares next) : next.Bounded := by
  constructor
  · rw [step.get_eq]
    exact h.cells
  · rw [step.regionOf_eq]
    exact h.regions

theorem Bounded.orKept (h : table.Bounded) (op : Operation) :
    (table.orKept (table.apply op)).Bounded := by
  cases applied : table.apply op with
  | ok next => exact h.apply applied
  | error e => exact h

theorem bounded_after_calls (calls : List Call) : (calls.foldl after empty).Bounded :=
  holds_after_calls (bounded_cleared empty) (fun _ _ h step => h.redeclares step)
    (fun _ h => h.evaluate) fun _ op _ h => h.orKept op

/-- After any calls, populated cells are in bounds and their references read back, and so are the
corners of recorded regions, which lie in order. Whatever an operation emits on a table: either the
indices of all its cells are 64-bit numbers and it is recorded, or it is refused, because one of
them would pass `Cell.maxIndex`. -/
theorem in_bounds_after_calls (calls : List Call) :
    (∀ cell value, (calls.foldl after empty).get cell = some value →
      (cell.row ≤ Cell.maxIndex ∧ cell.col ≤ Cell.maxIndex) ∧
        Cell.ofText? cell.toText = some cell) ∧
    (∀ id region, (calls.foldl after empty).regionOf id = some region →
      (region.topLeft.row ≤ region.bottomRight.row ∧
        region.topLeft.col ≤ region.bottomRight.col) ∧
      ∀ corner, (region.corner corner).row ≤ Cell.maxIndex ∧
        (region.corner corner).col ≤ Cell.maxIndex) ∧
    ∀ (state : Table) (op : Operation) (output : Output), state.Emits op output →
      ((∀ relative ∈ output.block.keys, relative.row + output.anchor.row < Cell.indexBound ∧
          relative.col + output.anchor.col < Cell.indexBound) ∧
        state.apply op = .ok (state.record output)) ∨
      ((∃ relative ∈ output.block.keys, Cell.maxIndex < relative.row + output.anchor.row ∨
          Cell.maxIndex < relative.col + output.anchor.col) ∧
        ∃ rows cols,
          state.apply op = .error (.resolve op.id (.outOfBounds output.anchor rows cols))) := by
  have bounded := bounded_after_calls calls
  refine ⟨fun cell value held => ?_, fun id region recorded => ?_, fun state op output emits => ?_⟩
  · have within := bounded.cells cell (Option.isSome_of_eq_some held)
    exact ⟨within, Cell.ofText?_toText within⟩
  · obtain ⟨rowBound, colBound⟩ := bounded.regions id region recorded
    refine ⟨⟨region.row_le, region.col_le⟩, fun corner => ?_⟩
    cases corner with
    | topLeft => exact ⟨region.row_le.trans rowBound, region.col_le.trans colBound⟩
    | topRight => exact ⟨region.row_le.trans rowBound, colBound⟩
    | bottomLeft => exact ⟨rowBound, region.col_le.trans colBound⟩
    | bottomRight => exact ⟨rowBound, colBound⟩
  · rcases apply_cases_of_emits emits with ⟨within, recorded⟩ | ⟨outside, refused⟩
    · refine .inl ⟨fun relative member => ?_, recorded⟩
      obtain ⟨rowBound, colBound⟩ := within _ (List.mem_map_of_mem member)
      have last : Cell.maxIndex < Cell.indexBound := by decide
      exact ⟨rowBound.trans_lt last, colBound.trans_lt last⟩
    · exact .inr ⟨Output.not_inBounds_iff.1 outside, refused⟩

end

def spilling : Operation :=
  ⟨2, .empty, .base (.fixed Cell.maxIndex) (.fixed 0),
    .block (.ofList [(⟨0, 0⟩, .int 1), (⟨2, 0⟩, .int 2)]), none⟩

def atLastRow : List Call :=
  [.apply ⟨1, .empty, .base (.fixed Cell.maxIndex) (.fixed 2), .block (.scalar (.int 7)), none⟩,
    .apply spilling,
    .apply ⟨3, .empty, .base (.fixed (Cell.maxIndex + 1)) (.fixed 0), .block (.scalar (.int 8)),
      none⟩]

theorem in_bounds_after_calls_atLastRow :
    (atLastRow.foldl after empty).get ⟨Cell.maxIndex, 2⟩ = some (.int 7) ∧
    Cell.ofText? (Cell.toText ⟨Cell.maxIndex, 2⟩) = some ⟨Cell.maxIndex, 2⟩ ∧
    (atLastRow.foldl after empty).regionOf 1 = some (.single ⟨Cell.maxIndex, 2⟩) ∧
    (∀ corner, ((Region.single ⟨Cell.maxIndex, 2⟩).corner corner).row ≤ Cell.maxIndex) ∧
    (atLastRow.foldl after empty).regionOf 2 = none ∧
    (atLastRow.foldl after empty).regionOf 3 = none ∧
    ∃ rows cols, (atLastRow.foldl after empty).apply spilling =
      .error (.resolve 2 (.outOfBounds ⟨Cell.maxIndex, 0⟩ rows cols)) := by
  have held : (atLastRow.foldl after empty).get ⟨Cell.maxIndex, 2⟩ = some (.int 7) := by cbv
  have recorded : (atLastRow.foldl after empty).regionOf 1 =
      some (.single ⟨Cell.maxIndex, 2⟩) := by decide +kernel
  have second : (atLastRow.foldl after empty).regionOf 2 = none := by decide +kernel
  have third : (atLastRow.foldl after empty).regionOf 3 = none := by decide +kernel
  obtain ⟨cells, regions, emitted⟩ := in_bounds_after_calls atLastRow
  have emits : (atLastRow.foldl after empty).Emits spilling
      ⟨2, ⟨Cell.maxIndex, 0⟩, .ofList [(⟨0, 0⟩, .int 1), (⟨2, 0⟩, .int 2)]⟩ :=
    ⟨rfl, [], rfl, rfl, rfl⟩
  refine ⟨held, (cells _ _ held).2, recorded, fun corner => ((regions _ _ recorded).2 corner).1,
    second, third, ?_⟩
  rcases emitted _ _ _ emits with ⟨fits, _⟩ | ⟨_, refused⟩
  · exact absurd (fits ⟨2, 0⟩ (by decide +kernel)).1 (by decide)
  · exact refused

end LinkedSheet.Table
