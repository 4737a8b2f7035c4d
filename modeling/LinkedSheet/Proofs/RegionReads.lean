import LinkedSheet.Operation

/-!
Which regions positions and selections read. What `dependencies` lists is what resolving needs: if
it succeeds, every listed operation has a region, and if a region is missing, it is one of a listed
operation. Both are carried through the resolution of a coordinate or a selection step by step.
-/
namespace LinkedSheet

/-- A result that needs the regions of the listed operations, and no other ones. -/
structure ReadsRegions {α : Type} (sheet : Sheet) (ids : List OpId)
    (result : Except ResolveError α) : Prop where
  present : ∀ value, result = .ok value → ∀ id ∈ ids, (sheet.region id).isSome
  missing : ∀ id, result = .error (.unresolvedOperation id) → id ∈ ids ∧ sheet.region id = none

namespace ReadsRegions
variable {α β : Type} {sheet : Sheet} {ids others : List OpId}

theorem of_ok (value : α) : ReadsRegions sheet [] (.ok value) := by
  refine ⟨fun _ _ id member => ?_, fun id failed => ?_⟩
  · cases member
  · cases failed

theorem of_error {error : ResolveError} (other : ∀ id, error ≠ .unresolvedOperation id) :
    ReadsRegions sheet ids (.error error : Except ResolveError α) := by
  refine ⟨fun _ ok => ?_, fun id failed => ?_⟩
  · cases ok
  · cases failed
    exact absurd rfl (other id)

theorem of_region {id : OpId} {region : Region} (found : sheet.region id = some region)
    (value : α) : ReadsRegions sheet [id] (.ok value) := by
  refine ⟨fun _ _ other member => ?_, fun other failed => ?_⟩
  · rw [List.mem_singleton.1 member, found]
    rfl
  · cases failed

theorem of_no_region {id : OpId} (found : sheet.region id = none) :
    ReadsRegions sheet [id] (.error (.unresolvedOperation id) : Except ResolveError α) := by
  refine ⟨fun _ ok => ?_, fun other failed => ?_⟩
  · cases ok
  · cases failed
    exact ⟨List.mem_singleton_self id, found⟩

theorem bind {first : Except ResolveError α} {next : α → Except ResolveError β}
    (h : ReadsRegions sheet ids first) (onward : ∀ value, ReadsRegions sheet others (next value)) :
    ReadsRegions sheet (ids ++ others) (first >>= next) := by
  cases first with
  | error e =>
    refine ⟨fun _ ok => ?_, fun id failed => ?_⟩
    · cases ok
    · cases failed
      have found := h.missing id rfl
      exact ⟨List.mem_append_left others found.1, found.2⟩
  | ok value =>
    refine ⟨fun result ok id member => ?_, fun id failed => ?_⟩
    · rcases List.mem_append.1 member with earlier | later
      · exact h.present value rfl id earlier
      · exact (onward value).present result ok id later
    · have found := (onward value).missing id failed
      exact ⟨List.mem_append_right ids found.1, found.2⟩

theorem bind_none {first : Except ResolveError α} {next : α → Except ResolveError β}
    (h : ReadsRegions sheet ids first) (onward : ∀ value, ReadsRegions sheet [] (next value)) :
    ReadsRegions sheet ids (first >>= next) := by
  simpa using h.bind onward

end ReadsRegions

theorem Ordinate.readsRegions (sheet : Sheet) (ordinate : Ordinate) :
    ReadsRegions sheet ordinate.dependencies (ordinate.resolve sheet) := by
  cases ordinate with
  | fixed index => exact .of_ok index
  | lastRow =>
    simp only [resolve]
    split
    · exact .of_ok _
    · exact .of_error (by simp)
  | lastCol =>
    simp only [resolve]
    split
    · exact .of_ok _
    · exact .of_error (by simp)
  | operationEdge id axis edge =>
    simp only [resolve]
    split
    · rename_i found
      exact .of_region found _
    · rename_i found
      exact .of_no_region found

theorem Coordinate.readsRegions (sheet : Sheet) (coordinate : Coordinate) :
    ReadsRegions sheet coordinate.dependencies (coordinate.resolve sheet) := by
  induction coordinate with
  | base row col =>
    refine (row.readsRegions sheet).bind fun rowIndex => ?_
    exact (col.readsRegions sheet).bind_none fun colIndex => .of_ok (Cell.mk rowIndex colIndex)
  | reference text =>
    simp only [resolve]
    split
    · exact .of_ok _
    · exact .of_error (by simp)
  | offset inner rows cols ih =>
    refine ih.bind_none fun base => ?_
    split
    · exact .of_ok _
    · exact .of_error (by simp)
  | operationCorner id corner =>
    simp only [resolve]
    split
    · rename_i found
      exact .of_region found _
    · rename_i found
      exact .of_no_region found

theorem Selection.region_readsRegions (sheet : Sheet) (selection : Selection) :
    ReadsRegions sheet selection.dependencies (selection.region sheet) := by
  cases selection with
  | empty => exact .of_ok none
  | box upperLeft lowerRight =>
    refine (upperLeft.readsRegions sheet).bind fun a => ?_
    exact (lowerRight.readsRegions sheet).bind_none fun b => .of_ok (some (Region.of a b))
  | range text =>
    simp only [region]
    split
    · exact .of_ok _
    · exact .of_error (by simp)
  | column col fromRow toRow =>
    simp only [region]
    split
    · exact .of_error (by simp)
    · split
      · exact .of_error (by simp)
      · cases toRow with
        | some ordinate => exact (ordinate.readsRegions sheet).bind_none fun last => .of_ok _
        | none => cases sheet.extent <;> exact .of_ok _
  | operationRegion id =>
    simp only [region]
    split
    · rename_i found
      exact .of_region found _
    · rename_i found
      exact .of_no_region found

theorem Selection.readsRegions (sheet : Sheet) (selection : Selection) :
    ReadsRegions sheet selection.dependencies (selection.select sheet) := by
  refine (selection.region_readsRegions sheet).bind_none fun found => ?_
  cases found with
  | none => exact .of_ok []
  | some region =>
    dsimp only
    split
    · exact .of_error (by simp)
    · exact .of_ok region.cells

theorem mem_sortedSet_insert {id other : Nat} {ids : List Nat} :
    other ∈ sortedSet.insert id ids ↔ other = id ∨ other ∈ ids := by
  induction ids with
  | nil => simp [sortedSet.insert]
  | cons head tail ih =>
    unfold sortedSet.insert
    split
    · simp
    · split
      · rename_i same
        simp [same]
      · rw [List.mem_cons, ih, List.mem_cons]
        exact or_left_comm

theorem mem_sortedSet {id : Nat} {ids : List Nat} : id ∈ sortedSet ids ↔ id ∈ ids := by
  induction ids with
  | nil => simp [sortedSet]
  | cons head tail ih =>
    change id ∈ sortedSet.insert head (sortedSet tail) ↔ _
    rw [mem_sortedSet_insert, ih, List.mem_cons]

theorem Operation.mem_dependencies [Script.Engine] {op : Operation} {id : OpId} :
    id ∈ op.dependencies ↔ id ∈ op.selection.dependencies ∨ id ∈ op.anchor.dependencies := by
  rw [dependencies, mem_sortedSet, List.mem_append]

end LinkedSheet
