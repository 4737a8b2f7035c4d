import LinkedSheet.Proofs.RegionReads
import Mathlib.Data.List.Basic
import Mathlib.Data.List.Find

/-!
Sheets that agree on what a position or a selection reads. `dependencies` is exact: whatever else
differs, two sheets with the same extent and the same regions of the listed operations give the same
result, and a result other than an error needs a region of every listed operation. The extent counts
only where `readsExtent` says so: for the last populated row or column, and for a column without an
end. Of the functions, all but scripts and closures read nothing but the selected cells.
-/
namespace LinkedSheet

namespace Ordinate

def readsExtent : Ordinate → Bool
  | lastRow => true
  | lastCol => true
  | _ => false

end Ordinate

namespace Coordinate

def readsExtent : Coordinate → Bool
  | base row col => row.readsExtent || col.readsExtent
  | offset inner _ _ => inner.readsExtent
  | _ => false

end Coordinate

namespace Selection

def readsExtent : Selection → Bool
  | box upperLeft lowerRight => upperLeft.readsExtent || lowerRight.readsExtent
  | column _ _ toRow => (toRow.map Ordinate.readsExtent).getD true
  | _ => false

end Selection

/-- Two sheets have the same regions of some operations and, if it is asked for, the same extent. -/
structure Sheet.Agree (sheet other : Sheet) (extent : Bool) (ids : List OpId) : Prop where
  extent_eq : extent = true → sheet.extent = other.extent
  region_eq : ∀ id ∈ ids, sheet.region id = other.region id

namespace Sheet.Agree
variable {sheet other : Sheet} {extent more : Bool} {ids others : List OpId}

theorem left (h : sheet.Agree other (extent || more) (ids ++ others)) :
    sheet.Agree other extent ids :=
  ⟨fun asked => h.extent_eq (by rw [asked, Bool.true_or]),
    fun id member => h.region_eq id (List.mem_append_left others member)⟩

theorem right (h : sheet.Agree other (extent || more) (ids ++ others)) :
    sheet.Agree other more others :=
  ⟨fun asked => h.extent_eq (by rw [asked, Bool.or_true]),
    fun id member => h.region_eq id (List.mem_append_right ids member)⟩

theorem region_singleton {id : OpId} (h : sheet.Agree other extent [id]) :
    sheet.region id = other.region id :=
  h.region_eq id (List.mem_singleton_self id)

end Sheet.Agree

section
variable {sheet other : Sheet}

theorem Ordinate.resolve_congr {ordinate : Ordinate}
    (h : sheet.Agree other ordinate.readsExtent ordinate.dependencies) :
    ordinate.resolve sheet = ordinate.resolve other := by
  cases ordinate with
  | fixed index => rfl
  | lastRow => simp only [resolve, h.extent_eq rfl]
  | lastCol => simp only [resolve, h.extent_eq rfl]
  | operationEdge id axis edge => simp only [resolve, h.region_singleton]

theorem Coordinate.resolve_congr {coordinate : Coordinate}
    (h : sheet.Agree other coordinate.readsExtent coordinate.dependencies) :
    coordinate.resolve sheet = coordinate.resolve other := by
  induction coordinate with
  | base row col =>
    simp only [resolve, Ordinate.resolve_congr h.left, Ordinate.resolve_congr h.right]
  | reference text => rfl
  | offset inner rows cols ih => simp only [resolve, ih h]
  | operationCorner id corner => simp only [resolve, h.region_singleton]

theorem Selection.region_congr {selection : Selection}
    (h : sheet.Agree other selection.readsExtent selection.dependencies) :
    selection.region sheet = selection.region other := by
  cases selection with
  | empty => rfl
  | box upperLeft lowerRight =>
    simp only [region, Coordinate.resolve_congr h.left, Coordinate.resolve_congr h.right]
  | range text => rfl
  | column col fromRow toRow =>
    cases toRow with
    | none => simp only [region, h.extent_eq rfl]
    | some ordinate =>
      have last : ordinate.resolve sheet = ordinate.resolve other := Ordinate.resolve_congr h
      simp only [region, last]
  | operationRegion id => simp only [region, h.region_singleton]

theorem Selection.select_congr {selection : Selection}
    (h : sheet.Agree other selection.readsExtent selection.dependencies) :
    selection.select sheet = selection.select other := by
  simp only [select, region_congr h]

end

namespace Function

def readsInputOnly [Script.Engine] : Function → Bool
  | script _ => false
  | closure _ => false
  | _ => true

end Function

section
variable {sheet other : Sheet} {input : List Cell}

theorem Reduction.call_congr (reduction : Reduction)
    (same : ∀ cell ∈ input, sheet.value cell = other.value cell) :
    reduction.call sheet input = reduction.call other input := by
  have texts : (input.find? fun cell => ((sheet.value cell).map Value.isText).getD false) =
      input.find? fun cell => ((other.value cell).map Value.isText).getD false :=
    List.find?_congr fun cell member => by rw [same cell member]
  have values : (input.filterMap fun cell => (sheet.value cell).bind Value.number?) =
      input.filterMap fun cell => (other.value cell).bind Value.number? :=
    List.filterMap_congr fun cell member => by rw [same cell member]
  simp only [call, numbers, texts, values]

theorem Function.call_congr [Script.Engine] {function : Function} (only : function.readsInputOnly = true)
    (same : ∀ cell ∈ input, sheet.value cell = other.value cell) :
    function.call sheet input = function.call other input := by
  cases function with
  | block values => rfl
  | reduction r => exact r.call_congr same
  | count =>
    have populated : (input.filter fun cell => (sheet.value cell).isSome) =
        input.filter fun cell => (other.value cell).isSome :=
      List.filter_congr fun cell member => by rw [same cell member]
    simp only [call, counted, populated]
  | copy =>
    cases around : Region.bounding input with
    | none => simp only [call, copied, around]
    | some region =>
      simp only [call, copied, around]
      congr 2
      exact List.filterMap_congr fun cell member => by rw [same cell member]
  | script program => cases only
  | closure f => cases only

end

/-- What is read is decided by the extent and the regions of the listed operations, and there is a
result only if all of these have a region. -/
structure ExactlyReads {α : Type} (ids : List OpId) (read : Sheet → Except ResolveError α) :
    Prop where
  decided : ∀ sheet other : Sheet, sheet.extent = other.extent →
    (∀ id ∈ ids, sheet.region id = other.region id) → read sheet = read other
  needed : ∀ sheet value, read sheet = .ok value → ∀ id ∈ ids, (sheet.region id).isSome

theorem ExactlyReads.of_congr {α : Type} {extent : Bool} {ids : List OpId}
    {read : Sheet → Except ResolveError α}
    (congr : ∀ {sheet other : Sheet}, sheet.Agree other extent ids → read sheet = read other)
    (reads : ∀ sheet, ReadsRegions sheet ids (read sheet)) : ExactlyReads ids read where
  decided _ _ extent regions := congr ⟨fun _ => extent, regions⟩
  needed sheet := (reads sheet).present

/-- The dependencies of ordinates, coordinates and selections are exact: resolving is decided by the
extent and by the regions of the listed operations, and succeeds only if all of them have one. -/
theorem dependencies_exact :
    (∀ ordinate : Ordinate, ExactlyReads ordinate.dependencies ordinate.resolve) ∧
    (∀ coordinate : Coordinate, ExactlyReads coordinate.dependencies coordinate.resolve) ∧
    ∀ selection : Selection, ExactlyReads selection.dependencies selection.region ∧
      ExactlyReads selection.dependencies selection.select := by
  refine ⟨fun ordinate => ?_, fun coordinate => ?_, fun selection => ⟨?_, ?_⟩⟩
  · exact .of_congr Ordinate.resolve_congr ordinate.readsRegions
  · exact .of_congr Coordinate.resolve_congr coordinate.readsRegions
  · exact .of_congr Selection.region_congr selection.region_readsRegions
  · exact .of_congr Selection.select_congr selection.readsRegions

def belowRegion : Selection :=
  .box (.offset (.offset (.operationCorner 7 .bottomLeft) 2 0) (-1) 0)
    (.base .lastRow (.operationEdge 7 .col .first))

def sheetAround (value : Option Value) (others : Region) : Sheet where
  value _ := value
  extent := some (.of ⟨0, 0⟩ ⟨5, 4⟩)
  region id := some (if id = 7 then .of ⟨1, 1⟩ ⟨3, 2⟩ else others)

theorem dependencies_exact_belowRegion :
    (sheetAround none (.single ⟨9, 9⟩)).region 8 ≠
      (sheetAround (some (.int 1)) (.single ⟨0, 0⟩)).region 8 ∧
    belowRegion.select (sheetAround none (.single ⟨9, 9⟩)) =
      belowRegion.select (sheetAround (some (.int 1)) (.single ⟨0, 0⟩)) ∧
    belowRegion.select (sheetAround none (.single ⟨9, 9⟩)) = .ok [⟨4, 1⟩, ⟨5, 1⟩] ∧
    ∀ id ∈ belowRegion.dependencies, ((sheetAround none (.single ⟨9, 9⟩)).region id).isSome := by
  have selected : belowRegion.select (sheetAround none (.single ⟨9, 9⟩)) =
      .ok [⟨4, 1⟩, ⟨5, 1⟩] := by rfl
  have shared : ∀ id ∈ belowRegion.dependencies,
      (sheetAround none (.single ⟨9, 9⟩)).region id =
        (sheetAround (some (.int 1)) (.single ⟨0, 0⟩)).region id := by decide
  have exact := (dependencies_exact.2.2 belowRegion).2
  exact ⟨by decide, exact.decided _ _ rfl shared, selected, exact.needed _ _ selected⟩

end LinkedSheet
