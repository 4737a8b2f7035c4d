import LinkedSheet.Proofs.TableCalls

/-!
Recorded regions and populated cells. As long as no operation runs twice between two clearings,
every populated cell lies in a recorded region, and every recorded region has a populated cell on
each of its edges, however often its cells have been overwritten since. So the extent, which is made
of the populated cells alone, is the least region that holds the recorded ones.
-/
namespace LinkedSheet.Table
section
variable [Script.Engine] {table state : Table} {output : Output} {outputs : List Output} {ids : List OpId}

/-- A region has a populated cell in its first and last row and in its first and last column. -/
def Touches (table : Table) (region : Region) : Prop :=
  ∀ axis side, ∃ cell, region.contains cell ∧ cell.along axis = region.edge axis side ∧
    (table.get cell).isSome

/-- The recorded regions hold all populated cells and have some on every edge. -/
structure Covered (table : Table) : Prop where
  held : ∀ cell, (table.get cell).isSome →
    ∃ id region, table.regionOf id = some region ∧ region.contains cell
  touched : ∀ id region, table.regionOf id = some region → table.Touches region

/-- The extent is the least region that holds the recorded ones, and each of these has a populated
cell on every edge. -/
structure Framed (table : Table) : Prop where
  extent_eq_none_iff : table.extent = none ↔ ∀ id, table.regionOf id = none
  extent_le_iff : ∀ extent other, table.extent = some extent →
    (extent ≤ other ↔ ∀ id region, table.regionOf id = some region → region ≤ other)
  touched : ∀ id region, table.regionOf id = some region → table.Touches region

theorem mem_keys_values_iff {cell : Cell} : cell ∈ table.values.keys ↔ (table.get cell).isSome := by
  rw [Std.TreeMap.mem_keys, Std.TreeMap.mem_iff_isSome_getElem?]
  rfl

theorem Covered.framed (h : table.Covered) : table.Framed := by
  have populated : ∀ id region, table.regionOf id = some region →
      ∃ cell, (table.get cell).isSome := by
    intro id region recorded
    obtain ⟨cell, _, _, there⟩ := h.touched id region recorded .row .first
    exact ⟨cell, there⟩
  refine ⟨?_, fun extent other around => ?_, h.touched⟩
  · rw [extent, Block.extent, Region.bounding_eq_none_iff, List.eq_nil_iff_forall_not_mem]
    simp only [mem_keys_values_iff]
    constructor
    · intro blank id
      rw [Option.eq_none_iff_forall_ne_some]
      intro region recorded
      obtain ⟨cell, there⟩ := populated id region recorded
      exact blank cell there
    · intro unrecorded cell there
      obtain ⟨id, region, recorded, _⟩ := h.held cell there
      rw [unrecorded id] at recorded
      cases recorded
  · rw [Region.bounding_le_iff around]
    simp only [mem_keys_values_iff]
    constructor
    · intro holds id region recorded
      refine Region.le_iff_edges.2 fun axis => ?_
      obtain ⟨first, _, atFirst, there⟩ := h.touched id region recorded axis .first
      obtain ⟨last, _, atLast, thereToo⟩ := h.touched id region recorded axis .last
      have lower := (Region.contains_iff.1 (holds first there) axis).1
      have upper := (Region.contains_iff.1 (holds last thereToo) axis).2
      exact ⟨lower.trans_eq atFirst, atLast.symm.trans_le upper⟩
    · intro within cell there
      obtain ⟨id, region, recorded, inside⟩ := h.held cell there
      exact within id region recorded cell inside

theorem covered_cleared (table : Table) : table.cleared.Covered := by
  constructor
  · intro cell there
    rw [get_cleared] at there
    cases there
  · intro id region recorded
    rw [regionOf_cleared] at recorded
    cases recorded

theorem Touches.record {region : Region} (h : table.Touches region) (output : Output) :
    (table.record output).Touches region := by
  intro axis side
  obtain ⟨cell, inside, atEdge, there⟩ := h axis side
  exact ⟨cell, inside, atEdge, isSome_get_record.2 (.inr there)⟩

theorem Covered.record (h : table.Covered) (new : table.regionOf output.id = none) :
    (table.record output).Covered := by
  constructor
  · intro cell there
    rcases isSome_get_record.1 there with written | before
    · cases around : output.region? with
      | none =>
        rw [Output.region?_eq_none_iff, ← Output.cells_eq_nil_iff] at around
        rw [around] at written
        cases written
      | some region =>
        refine ⟨output.id, region, ?_, Region.contains_of_bounding around written⟩
        rw [regionOf_record, if_pos rfl, around]
    · obtain ⟨id, region, recorded, inside⟩ := h.held cell before
      have other : output.id ≠ id := by
        rintro rfl
        rw [new] at recorded
        cases recorded
      refine ⟨id, region, ?_, inside⟩
      rw [regionOf_record, if_neg other, recorded]
  · intro id region recorded
    rw [regionOf_record] at recorded
    split at recorded
    · intro axis side
      obtain ⟨cell, member, atEdge⟩ := Region.exists_along_eq_edge recorded axis side
      exact ⟨cell, Region.contains_of_bounding recorded member, atEdge,
        isSome_get_record.2 (.inl member)⟩
    · exact (h.touched id region recorded).record output

theorem Covered.foldl_record (h : table.Covered) (distinct : (outputs.map Output.id).Nodup)
    (new : ∀ output ∈ outputs, table.regionOf output.id = none) :
    (outputs.foldl Table.record table).Covered := by
  induction outputs generalizing table with
  | nil => exact h
  | cons output rest ih =>
    obtain ⟨apart, distinct⟩ := List.nodup_cons.1 distinct
    refine ih (h.record (new output List.mem_cons_self)) distinct fun other member => ?_
    have different : output.id ≠ other.id := by
      intro same
      exact apart (same ▸ List.mem_map_of_mem member)
    rw [regionOf_record, if_neg different]
    exact new other (List.mem_cons_of_mem output member)

theorem covered_of_run (distinct : ids.Nodup)
    (reached : table.cleared.run ids = (state, .ok ())) : state.Covered := by
  obtain ⟨outputs, rfl, _, rfl⟩ := run_eq_ok_iff_emitsAll.1 reached
  exact table.covered_cleared.foldl_record distinct fun output _ => table.regionOf_cleared output.id

theorem covered_of_schedule {before after : List OpId}
    (distinct : (table.operations.map Operation.id).Nodup)
    (scheduled : table.schedule = .ok (before ++ after))
    (reached : table.cleared.run before = (state, .ok ())) : state.Covered :=
  covered_of_run (List.nodup_append.1 (nodup_of_schedule distinct scheduled)).1 reached

/-- What declarations and evaluations keep: the ids of operations are apart, and what the last
evaluation has left is covered. -/
structure Evaluated (table : Table) : Prop where
  distinct : (table.operations.map Operation.id).Nodup
  covered : table.Covered

theorem Evaluated.redeclares {next : Table} (h : table.Evaluated) (step : table.Redeclares next) :
    next.Evaluated := by
  refine ⟨step.distinct h.distinct, ⟨?_, ?_⟩⟩
  · rw [step.get_eq, step.regionOf_eq]
    exact h.covered.held
  · unfold Touches
    rw [step.get_eq, step.regionOf_eq]
    exact h.covered.touched

theorem Evaluated.evaluate (h : table.Evaluated) : table.evaluate.1.Evaluated := by
  refine ⟨by rw [operations_evaluate]; exact h.distinct, ?_⟩
  rcases table.evaluate_cases with same | ⟨before, after, scheduled, reached⟩
  · rw [same]
    exact h.covered
  · exact covered_of_schedule h.distinct scheduled reached

/-- After any calls but applications outside of an evaluation, and between any two operations of an
evaluation that follows, the extent is the least region that holds the recorded ones, there is none
exactly if no region is recorded, and every recorded region has a populated cell in its first and
last row and column. -/
theorem framed_after_calls (calls : List Call) (indirect : ∀ op, Call.apply op ∉ calls) :
    (calls.foldl after empty).Framed ∧
    ∀ before rest state, (calls.foldl after empty).schedule = .ok (before ++ rest) →
      (calls.foldl after empty).cleared.run before = (state, .ok ()) → state.Framed := by
  have evaluated : (calls.foldl after empty).Evaluated :=
    holds_after_calls ⟨List.nodup_nil, covered_cleared empty⟩ (fun _ _ h step => h.redeclares step)
      (fun _ h => h.evaluate) fun _ op member => absurd member (indirect op)
  refine ⟨evaluated.covered.framed, fun before rest state scheduled reached => ?_⟩
  exact (covered_of_schedule evaluated.distinct scheduled reached).framed

end

def overwrites : List Call :=
  [.bindSpec .empty (.reference "A1") (.rawInput [[.int 1, .int 2]]) none,
    .bind .empty (.operationCorner 1 .topRight) (.block (.scalar (.text "n/a"))) none,
    .loadFunctions (.empty []) "functions.rhai",
    .evaluate,
    .bindSpec (.operationRegion 1) (.base .lastRow (.fixed 4)) .average (some 3),
    .setOrder [1],
    .evaluate]

theorem framed_after_calls_overwrites :
    (∀ op, Call.apply op ∉ overwrites) ∧
    (overwrites.foldl after empty).Framed ∧
    (overwrites.foldl after empty).extent = some (.of ⟨0, 0⟩ ⟨0, 1⟩) ∧
    (overwrites.foldl after empty).schedule = .ok ([1] ++ [2, 3]) ∧
    ∃ state, (overwrites.foldl after empty).cleared.run [1] = (state, .ok ()) ∧ state.Framed := by
  have indirect : ∀ op, Call.apply op ∉ overwrites := by simp [overwrites]
  have extent : (overwrites.foldl after empty).extent = some (.of ⟨0, 0⟩ ⟨0, 1⟩) := by
    decide +kernel
  have scheduled : (overwrites.foldl after empty).schedule = .ok ([1] ++ [2, 3]) := by
    decide +kernel
  have ok : ((overwrites.foldl after empty).cleared.run [1]).2 = .ok () := by decide +kernel
  obtain ⟨framed, between⟩ := framed_after_calls overwrites indirect
  exact ⟨indirect, framed, extent, scheduled, _, Prod.ext rfl ok,
    between [1] [2, 3] _ scheduled (Prod.ext rfl ok)⟩

end LinkedSheet.Table
