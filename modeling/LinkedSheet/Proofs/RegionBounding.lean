import LinkedSheet.Region
import Mathlib.Order.MinMax
import Mathlib.Tactic.Tauto

/-!
Regions as sets of cells. A region lies within another one if that one holds all its cells, which
is a comparison of edges. What `bounding` makes of a list of cells is the least region that holds
them all, so every edge of it is the index of one of them, and moving the cells moves it along;
`offset?` is that move, refused where a cell would come to stand beyond `Cell.maxIndex`.
-/
namespace LinkedSheet

namespace Cell

/-- The index of a cell on an axis. -/
def along (cell : Cell) : Axis → Nat
  | .row => cell.row
  | .col => cell.col

@[simp] theorem add_row (cell by_ : Cell) : (cell + by_).row = cell.row + by_.row := rfl

@[simp] theorem add_col (cell by_ : Cell) : (cell + by_).col = cell.col + by_.col := rfl

def InBounds (cell : Cell) : Prop :=
  cell.row ≤ maxIndex ∧ cell.col ≤ maxIndex

theorem InBounds.of_le {cell other : Cell} (within : other.InBounds) (rows : cell.row ≤ other.row)
    (cols : cell.col ≤ other.col) : cell.InBounds :=
  ⟨rows.trans within.1, cols.trans within.2⟩

theorem advance?_eq_some_iff {cell moved : Cell} {rows cols : Nat} :
    cell.advance? rows cols = some moved ↔
      (cell + ⟨rows, cols⟩).InBounds ∧ moved = cell + ⟨rows, cols⟩ := by
  simp only [advance?, sum?_bind_writable?]
  change _ ↔ (cell.row + rows ≤ maxIndex ∧ cell.col + cols ≤ maxIndex) ∧
    moved = ⟨cell.row + rows, cell.col + cols⟩
  by_cases down : cell.row + rows ≤ maxIndex <;>
    by_cases across : cell.col + cols ≤ maxIndex <;> simp [down, across, eq_comm]

end Cell

namespace Region
variable {region inner outer other : Region} {cell by_ : Cell} {cells : List Cell}

/-- A region lies within one that holds all its cells. -/
instance : LE Region := ⟨fun inner outer => ∀ cell, inner.contains cell → outer.contains cell⟩

theorem contains_iff :
    region.contains cell ↔
      ∀ axis, region.edge axis .first ≤ cell.along axis ∧
        cell.along axis ≤ region.edge axis .last := by
  simp only [contains, Bool.and_eq_true, decide_eq_true_eq]
  constructor
  · rintro ⟨⟨⟨top, bottom⟩, left⟩, right⟩ axis
    cases axis with
    | row => exact ⟨top, bottom⟩
    | col => exact ⟨left, right⟩
  · intro within
    exact ⟨⟨within .row, (within .col).1⟩, (within .col).2⟩

theorem edge_first_le_last (region : Region) (axis : Axis) :
    region.edge axis .first ≤ region.edge axis .last := by
  cases axis with
  | row => exact region.row_le
  | col => exact region.col_le

theorem contains_topLeft (region : Region) : region.contains region.topLeft :=
  contains_iff.2 fun axis => by
    have ordered := region.edge_first_le_last axis
    cases axis <;> exact ⟨le_rfl, ordered⟩

theorem contains_bottomRight (region : Region) : region.contains region.bottomRight :=
  contains_iff.2 fun axis => by
    have ordered := region.edge_first_le_last axis
    cases axis <;> exact ⟨ordered, le_rfl⟩

theorem le_iff_edges :
    inner ≤ outer ↔
      ∀ axis, outer.edge axis .first ≤ inner.edge axis .first ∧
        inner.edge axis .last ≤ outer.edge axis .last := by
  constructor
  · intro within axis
    have first := (contains_iff.1 (within _ inner.contains_topLeft) axis).1
    have last := (contains_iff.1 (within _ inner.contains_bottomRight) axis).2
    cases axis <;> exact ⟨first, last⟩
  · intro edges cell inside
    refine contains_iff.2 fun axis => ?_
    have around := edges axis
    have between := contains_iff.1 inside axis
    omega

theorem eq_of_le_of_le (below : inner ≤ outer) (above : outer ≤ inner) : inner = outer := by
  have edges : ∀ axis side, inner.edge axis side = outer.edge axis side := fun axis side => by
    have shrinks := le_iff_edges.1 below axis
    have grows := le_iff_edges.1 above axis
    cases side <;> omega
  obtain ⟨⟨_, _⟩, ⟨_, _⟩, _, _⟩ := inner
  obtain ⟨⟨_, _⟩, ⟨_, _⟩, _, _⟩ := outer
  cases edges .row .first
  cases edges .row .last
  cases edges .col .first
  cases edges .col .last
  rfl

theorem single_le_iff : single cell ≤ region ↔ region.contains cell := by
  have self : ∀ axis edge, (single cell).edge axis edge = cell.along axis := by
    intro axis edge
    cases axis <;> cases edge <;> simp [single, of, edge, Cell.along]
  simp only [le_iff_edges, contains_iff, self]

theorem edge_cover_first (region : Region) (cell : Cell) (axis : Axis) :
    (region.cover cell).edge axis .first = min (region.edge axis .first) (cell.along axis) := by
  cases axis <;> rfl

theorem edge_cover_last (region : Region) (cell : Cell) (axis : Axis) :
    (region.cover cell).edge axis .last = max (region.edge axis .last) (cell.along axis) := by
  cases axis <;> rfl

theorem cover_le_iff : region.cover cell ≤ outer ↔ region ≤ outer ∧ outer.contains cell := by
  simp only [le_iff_edges, contains_iff, edge_cover_first, edge_cover_last, ← forall_and]
  refine forall_congr' fun axis => ?_
  omega

theorem foldl_cover_le_iff :
    cells.foldl cover region ≤ outer ↔ region ≤ outer ∧ ∀ cell ∈ cells, outer.contains cell := by
  induction cells generalizing region with
  | nil => simp
  | cons cell rest ih =>
    rw [List.foldl_cons, ih, cover_le_iff, List.forall_mem_cons]
    tauto

theorem bounding_eq_none_iff : bounding cells = none ↔ cells = [] := by
  cases cells <;> simp [bounding]

theorem bounding_le_iff (bounded : bounding cells = some region) :
    region ≤ outer ↔ ∀ cell ∈ cells, outer.contains cell := by
  cases cells with
  | nil => cases bounded
  | cons cell rest =>
    cases bounded
    rw [foldl_cover_le_iff, single_le_iff, List.forall_mem_cons]

theorem bounding_eq_some_iff :
    bounding cells = some region ↔
      cells ≠ [] ∧ ∀ outer, region ≤ outer ↔ ∀ cell ∈ cells, outer.contains cell := by
  constructor
  · intro bounded
    refine ⟨fun empty => ?_, fun outer => bounding_le_iff bounded⟩
    rw [bounding_eq_none_iff.2 empty] at bounded
    cases bounded
  · rintro ⟨some_cell, least⟩
    cases around : bounding cells with
    | none => exact absurd (bounding_eq_none_iff.1 around) some_cell
    | some other =>
      have same (outer : Region) : other ≤ outer ↔ region ≤ outer :=
        (bounding_le_iff around).trans (least outer).symm
      rw [eq_of_le_of_le ((same region).2 fun _ inside => inside)
        ((same other).1 fun _ inside => inside)]

theorem contains_of_bounding (bounded : bounding cells = some region) (member : cell ∈ cells) :
    region.contains cell :=
  (bounding_le_iff bounded).1 (fun _ inside => inside) cell member

theorem edge_foldl_cover (region : Region) (cells : List Cell) (axis : Axis) (side : Edge) :
    (cells.foldl cover region).edge axis side = region.edge axis side ∨
      ∃ cell ∈ cells, cell.along axis = (cells.foldl cover region).edge axis side := by
  induction cells generalizing region with
  | nil => exact .inl rfl
  | cons cell rest ih =>
    rw [List.foldl_cons]
    rcases ih (region.cover cell) with same | ⟨other, member, reached⟩
    · have grown : (region.cover cell).edge axis side = region.edge axis side ∨
          (region.cover cell).edge axis side = cell.along axis := by
        cases side with
        | first => rw [edge_cover_first]; exact min_choice _ _
        | last => rw [edge_cover_last]; exact max_choice _ _
      rcases grown with kept | moved
      · exact .inl (same.trans kept)
      · exact .inr ⟨cell, List.mem_cons_self, (same.trans moved).symm⟩
    · exact .inr ⟨other, List.mem_cons_of_mem cell member, reached⟩

theorem exists_along_eq_edge (bounded : bounding cells = some region) (axis : Axis) (side : Edge) :
    ∃ cell ∈ cells, cell.along axis = region.edge axis side := by
  cases cells with
  | nil => cases bounded
  | cons cell rest =>
    cases bounded
    rcases edge_foldl_cover (single cell) rest axis side with same | ⟨other, member, reached⟩
    · refine ⟨cell, List.mem_cons_self, ?_⟩
      rw [same]
      cases axis <;> cases side <;> simp [single, of, edge, Cell.along]
    · exact ⟨other, List.mem_cons_of_mem cell member, reached⟩

theorem inBounds_iff_of_bounding (bounded : bounding cells = some region) :
    region.bottomRight.InBounds ↔ ∀ cell ∈ cells, cell.InBounds := by
  constructor
  · intro within cell member
    have inside := contains_iff.1 (contains_of_bounding bounded member)
    exact within.of_le (inside .row).2 (inside .col).2
  · intro within
    obtain ⟨lowest, member, row⟩ := exists_along_eq_edge bounded .row .last
    obtain ⟨rightmost, other, col⟩ := exists_along_eq_edge bounded .col .last
    exact ⟨row.symm.trans_le (within lowest member).1, col.symm.trans_le (within rightmost other).2⟩

def shift (region : Region) (by_ : Cell) : Region where
  topLeft := region.topLeft + by_
  bottomRight := region.bottomRight + by_
  row_le := Nat.add_le_add_right region.row_le by_.row
  col_le := Nat.add_le_add_right region.col_le by_.col

theorem of_topLeft_bottomRight (region : Region) :
    of region.topLeft region.bottomRight = region := by
  obtain ⟨⟨_, _⟩, ⟨_, _⟩, rows, cols⟩ := region
  simp only [of, Region.mk.injEq, Cell.mk.injEq]
  exact ⟨⟨min_eq_left rows, min_eq_left cols⟩, max_eq_right rows, max_eq_right cols⟩

theorem offset?_eq_some_iff {rows cols : Nat} :
    region.offset? rows cols = some other ↔
      (region.shift ⟨rows, cols⟩).bottomRight.InBounds ∧ other = region.shift ⟨rows, cols⟩ := by
  have rebuilt : of (region.topLeft + ⟨rows, cols⟩) (region.bottomRight + ⟨rows, cols⟩) =
      region.shift ⟨rows, cols⟩ := (region.shift ⟨rows, cols⟩).of_topLeft_bottomRight
  simp only [offset?, Option.bind_eq_bind, Option.pure_def, Option.bind_eq_some_iff,
    Cell.advance?_eq_some_iff, Option.some_inj]
  constructor
  · rintro ⟨_, ⟨-, rfl⟩, _, ⟨within, rfl⟩, rfl⟩
    exact ⟨within, rebuilt⟩
  · rintro ⟨within, rfl⟩
    exact ⟨_, ⟨within.of_le (Nat.add_le_add_right region.row_le rows)
      (Nat.add_le_add_right region.col_le cols), rfl⟩, _, ⟨within, rfl⟩, rebuilt⟩

theorem shift_cover (region : Region) (cell by_ : Cell) :
    (region.cover cell).shift by_ = (region.shift by_).cover (cell + by_) := by
  simp only [shift, cover, Region.mk.injEq]
  constructor
  · exact congrArg₂ Cell.mk (Nat.add_min_add_right ..).symm (Nat.add_min_add_right ..).symm
  · exact congrArg₂ Cell.mk (Nat.add_max_add_right ..).symm (Nat.add_max_add_right ..).symm

theorem shift_single (cell by_ : Cell) : (single cell).shift by_ = single (cell + by_) := by
  simp only [shift, single, of, min_self, max_self]

theorem shift_foldl_cover (region : Region) (cells : List Cell) (by_ : Cell) :
    (cells.foldl cover region).shift by_ =
      (cells.map (· + by_)).foldl cover (region.shift by_) := by
  induction cells generalizing region with
  | nil => rfl
  | cons cell rest ih => rw [List.foldl_cons, List.map_cons, List.foldl_cons, ih, shift_cover]

theorem bounding_map_add (cells : List Cell) (by_ : Cell) :
    bounding (cells.map (· + by_)) = (bounding cells).map (·.shift by_) := by
  cases cells with
  | nil => rfl
  | cons cell rest =>
    rw [List.map_cons, bounding, bounding, Option.map_some, shift_foldl_cover, shift_single]

end Region

end LinkedSheet
