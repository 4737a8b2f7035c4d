import LinkedSheet.Proofs.RegionReads
import LinkedSheet.Table
import Mathlib.Data.List.Nodup

/-!
Applying operations, one and several. `apply_eq_ok_iff` and `write_eq_ok_iff` say all that a step
does when it succeeds, and a run is taken apart into steps; what a step keeps, a run keeps. Regions
of operations that do not run stay as they are, and a step leaves a region of its own operation
exactly if its function has written something.
-/
namespace LinkedSheet

namespace Block

theorem extent_eq_none_iff {block : Block} : block.extent = none ↔ block.isEmpty = true := by
  rw [← Std.TreeMap.isEmpty_keys, extent]
  cases block.keys <;> simp [Region.bounding]

end Block

namespace Table
variable [Script.Engine] {table result state : Table} {op : Operation} {id other : OpId} {anchor : Cell}
  {block : Block} {error : TableError} {ids first second : List OpId}

theorem write_eq_ok_iff :
    table.write id anchor block = .ok result ↔
      (block.extent = none ∧ result = { table with regions := table.regions.erase id }) ∨
      ∃ relative region, block.extent = some relative ∧
        relative.offset? anchor.row anchor.col = some region ∧
        result = { table with
          regions := table.regions.insert id region
          values := Block.writeAt anchor block table.values } := by
  cases extent : block.extent with
  | none => simp [write, extent, eq_comm]
  | some relative =>
    cases moved : relative.offset? anchor.row anchor.col <;> simp [write, extent, moved, eq_comm]

theorem regionOf_write_self (ok : table.write id anchor block = .ok result) :
    result.regionOf id = block.extent.bind fun relative =>
      relative.offset? anchor.row anchor.col := by
  rcases write_eq_ok_iff.1 ok with ⟨nothing, rfl⟩ | ⟨relative, region, extent, moved, rfl⟩
  · simp [regionOf, nothing]
  · simp [regionOf, extent, moved]

theorem regionOf_write_of_ne (ok : table.write id anchor block = .ok result) (ne : other ≠ id) :
    result.regionOf other = table.regionOf other := by
  rcases write_eq_ok_iff.1 ok with ⟨_, rfl⟩ | ⟨relative, region, _, _, rfl⟩
  · simp [regionOf, Std.TreeMap.getElem?_erase, ne.symm]
  · simp [regionOf, Std.TreeMap.getElem?_insert, ne.symm]

theorem regionOf_write_eq_none_iff (ok : table.write id anchor block = .ok result) :
    result.regionOf id = none ↔ block.isEmpty = true := by
  rw [regionOf_write_self ok, ← Block.extent_eq_none_iff]
  rcases write_eq_ok_iff.1 ok with ⟨nothing, _⟩ | ⟨relative, region, extent, moved, _⟩
  · simp [nothing]
  · simp [extent, moved]

theorem apply_eq_ok_iff :
    table.apply op = .ok result ↔
      ∃ input block anchor, op.selection.select table.sheet = .ok input ∧
        op.function.call table.sheet input = .ok block ∧
        op.anchor.resolve table.sheet = .ok anchor ∧
        table.write op.id anchor block = .ok result := by
  unfold apply
  cases op.selection.select table.sheet with
  | error e => simp
  | ok input =>
    cases called : op.function.call table.sheet input with
    | error e => simp [called]
    | ok block =>
      cases op.anchor.resolve table.sheet with
      | error e => simp [called]
      | ok anchor =>
        cases written : table.write op.id anchor block <;> simp [called, written]

theorem regionOf_isSome_of_apply (ok : table.apply op = .ok result)
    (depends : id ∈ op.dependencies) : (table.regionOf id).isSome := by
  obtain ⟨input, block, anchor, selected, _, resolved, _⟩ := apply_eq_ok_iff.1 ok
  rcases Operation.mem_dependencies.1 depends with selects | anchors
  · exact (op.selection.readsRegions table.sheet).present input selected id selects
  · exact (op.anchor.readsRegions table.sheet).present anchor resolved id anchors

theorem mem_dependencies_of_apply_unresolved
    (failed : table.apply op = .error (.resolve id (.unresolvedOperation other))) :
    op.id = id ∧ other ∈ op.dependencies ∧ table.regionOf other = none := by
  unfold apply at failed
  split at failed
  · rename_i fault selected
    cases failed
    have found := (op.selection.readsRegions table.sheet).missing other selected
    exact ⟨rfl, Operation.mem_dependencies.2 (.inl found.1), found.2⟩
  · split at failed
    · cases failed
    · split at failed
      · rename_i fault resolved
        cases failed
        have found := (op.anchor.readsRegions table.sheet).missing other resolved
        exact ⟨rfl, Operation.mem_dependencies.2 (.inr found.1), found.2⟩
      · rename_i anchor _
        split at failed
        · rename_i block _ _ _ fault written
          cases failed
          unfold write at written
          split at written
          · cases written
          · split at written <;> cases written
        · cases failed

theorem regionOf_apply_of_ne (ok : table.apply op = .ok result) (ne : other ≠ op.id) :
    result.regionOf other = table.regionOf other := by
  obtain ⟨_, _, _, _, _, _, written⟩ := apply_eq_ok_iff.1 ok
  exact regionOf_write_of_ne written ne

theorem apply_frame (ok : table.apply op = .ok result) :
    result = { table with values := result.values, regions := result.regions } := by
  obtain ⟨_, _, _, _, _, _, written⟩ := apply_eq_ok_iff.1 ok
  rcases write_eq_ok_iff.1 written with ⟨_, rfl⟩ | ⟨_, _, _, _, rfl⟩ <;> rfl

theorem run_cons_eq_ok_iff :
    table.run (id :: ids) = (result, .ok ()) ↔
      ∃ op next, table.operation? id = some op ∧ table.apply op = .ok next ∧
        next.run ids = (result, .ok ()) := by
  cases found : table.operation? id with
  | none => simp [run, operation, found]
  | some op =>
    cases applied : table.apply op <;> simp [run, operation, found, applied]

theorem run_append :
    table.run (first ++ second) =
      match table.run first with
      | (state, .ok _) => state.run second
      | (state, .error error) => (state, .error error) := by
  induction first generalizing table with
  | nil => simp [run]
  | cons id rest ih =>
    cases found : table.operation? id with
    | none => simp [run, operation, found]
    | some op =>
      cases applied : table.apply op with
      | error e => simp [run, operation, found, applied]
      | ok next => simpa [run, operation, found, applied] using ih

theorem run_append_eq_ok_iff :
    table.run (first ++ second) = (result, .ok ()) ↔
      ∃ between, table.run first = (between, .ok ()) ∧ between.run second = (result, .ok ()) := by
  rw [run_append]
  split
  · rename_i between _ eq
    simp [eq]
  · rename_i between e eq
    simp [eq]

theorem exists_of_run_eq_error (failed : table.run ids = (state, .error error)) :
    ∃ before id after, ids = before ++ id :: after ∧ table.run before = (state, .ok ()) ∧
      (state.operation id = .error error ∨
        ∃ op, state.operation? id = some op ∧ state.apply op = .error error) := by
  induction ids generalizing table with
  | nil => simp [run] at failed
  | cons id rest ih =>
    cases found : table.operation id with
    | error e =>
      simp only [run, found, Prod.mk.injEq, Except.error.injEq] at failed
      obtain ⟨rfl, rfl⟩ := failed
      exact ⟨[], id, rest, rfl, rfl, .inl found⟩
    | ok op =>
      have declared : table.operation? id = some op := by
        unfold operation at found
        split at found <;> simp_all
      cases applied : table.apply op with
      | error e =>
        simp only [run, found, applied, Prod.mk.injEq, Except.error.injEq] at failed
        obtain ⟨rfl, rfl⟩ := failed
        exact ⟨[], id, rest, rfl, rfl, .inr ⟨op, declared, applied⟩⟩
      | ok next =>
        simp only [run, found, applied] at failed
        obtain ⟨before, other, after, rfl, reached, cause⟩ := ih failed
        exact ⟨id :: before, other, after, rfl,
          run_cons_eq_ok_iff.2 ⟨op, next, declared, applied, reached⟩, cause⟩

theorem run_frame :
    (table.run ids).1 =
      { table with values := (table.run ids).1.values, regions := (table.run ids).1.regions } := by
  induction ids generalizing table with
  | nil => rfl
  | cons id rest ih =>
    cases found : table.operation id with
    | error e => simp [run, found]
    | ok op =>
      cases applied : table.apply op with
      | error e => simp [run, found, applied]
      | ok next =>
        have step := apply_frame applied
        simp only [run, found, applied]
        rw [ih, step]

theorem operation?_id (found : table.operation? id = some op) : op.id = id := by
  simpa using List.find?_some found

theorem operation?_of_mem (distinct : (table.operations.map Operation.id).Nodup)
    (member : op ∈ table.operations) : table.operation? op.id = some op := by
  cases found : table.operation? op.id with
  | none => simpa using List.find?_eq_none.1 found op member
  | some other =>
    have same := List.inj_on_of_nodup_map distinct (List.mem_of_find?_eq_some found) member
      (operation?_id found)
    rw [same]

theorem operation?_run (reached : table.run ids = (state, .ok ())) (id : OpId) :
    state.operation? id = table.operation? id := by
  have frame : (table.run ids).1 = { table with
      values := (table.run ids).1.values, regions := (table.run ids).1.regions } := run_frame
  rw [reached] at frame
  dsimp only at frame
  rw [frame]
  rfl

theorem regionOf_run_of_not_mem (reached : table.run ids = (state, .ok ())) (new : id ∉ ids) :
    state.regionOf id = table.regionOf id := by
  induction ids generalizing table with
  | nil => simp_all [run]
  | cons head tail ih =>
    obtain ⟨op, next, found, applied, rest⟩ := run_cons_eq_ok_iff.1 reached
    rw [List.mem_cons, not_or] at new
    rw [ih rest new.2]
    exact regionOf_apply_of_ne applied (operation?_id found ▸ new.1)

def withContents (table contents : Table) : Table :=
  { table with values := contents.values, regions := contents.regions }

theorem write_withContents :
    (table.withContents state).write id anchor block =
      (state.write id anchor block).map table.withContents := by
  unfold write
  cases block.extent with
  | none => rfl
  | some relative => cases moved : relative.offset? anchor.row anchor.col <;> simp [moved] <;> rfl

theorem apply_withContents :
    (table.withContents state).apply op = (state.apply op).map table.withContents := by
  have sheet : (table.withContents state).sheet = state.sheet := rfl
  unfold apply
  rw [sheet]
  cases op.selection.select state.sheet with
  | error e => rfl
  | ok input =>
    cases called : op.function.call state.sheet input with
    | error e => simp [called]; rfl
    | ok block =>
      cases op.anchor.resolve state.sheet with
      | error e => simp [called]; rfl
      | ok anchor =>
        cases written : state.write op.id anchor block with
        | error e => simp [called, write_withContents, written]; rfl
        | ok next => simp [called, write_withContents, written]; rfl

theorem run_withContents (agree : ∀ id ∈ ids, table.operation? id = state.operation? id) :
    (table.withContents state).run ids =
      (table.withContents (state.run ids).1, (state.run ids).2) := by
  induction ids generalizing state with
  | nil => rfl
  | cons id rest ih =>
    have same : (table.withContents state).operation? id = state.operation? id :=
      agree id List.mem_cons_self
    cases found : state.operation? id with
    | none => simp [run, operation, found, same]
    | some op =>
      cases applied : state.apply op with
      | error e => simp [run, operation, found, same, apply_withContents, applied, Except.map]
      | ok next =>
        have still : ∀ id ∈ rest, table.operation? id = next.operation? id := by
          intro other member
          rw [apply_frame applied]
          exact agree other (List.mem_cons_of_mem id member)
        simpa [run, operation, found, same, apply_withContents, applied, Except.map]
          using ih still

end Table

end LinkedSheet
