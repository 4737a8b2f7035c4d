import LinkedSheet.Table
import Mathlib.Order.MinMax

/-!
Extents that are small enough to list all their cells. The number of cells is kept exactly up to the
largest count, so that comparing it with a smaller bound compares the product of the sides.
-/
namespace LinkedSheet

namespace Region
variable {region : Region} {bound : Nat}

theorem height_pos (region : Region) : 0 < region.height :=
  Nat.succ_pos _

theorem width_pos (region : Region) : 0 < region.width :=
  Nat.succ_pos _

theorem cellCount_eq (region : Region) :
    region.cellCount = min (region.height * region.width) countLimit := by
  have height := region.height_pos
  have width := region.width_pos
  have limit : 0 < countLimit := by decide
  unfold cellCount rowCount colCount
  by_cases tall : countLimit < region.height
  · have rows : min region.height countLimit = countLimit := min_eq_right (Nat.le_of_lt tall)
    have saturated : countLimit ≤ countLimit * min region.width countLimit :=
      Nat.le_mul_of_pos_right _ (by omega)
    have product : region.height ≤ region.height * region.width :=
      Nat.le_mul_of_pos_right _ width
    rw [rows]
    omega
  · by_cases wide : countLimit < region.width
    · have cols : min region.width countLimit = countLimit := min_eq_right (Nat.le_of_lt wide)
      have saturated : countLimit ≤ min region.height countLimit * countLimit :=
        Nat.le_mul_of_pos_left _ (by omega)
      have product : region.width ≤ region.height * region.width :=
        Nat.le_mul_of_pos_left _ height
      rw [cols]
      omega
    · rw [min_eq_left (Nat.not_lt.1 tall), min_eq_left (Nat.not_lt.1 wide)]

theorem cellCount_le_iff (below : bound < countLimit) :
    region.cellCount ≤ bound ↔ region.height * region.width ≤ bound := by
  rw [cellCount_eq]
  omega

theorem cellLimit_lt_cellCount_iff :
    cellLimit < region.cellCount ↔ 1000000 < region.height * region.width := by
  have exact : region.cellCount ≤ 1000000 ↔ region.height * region.width ≤ 1000000 :=
    cellCount_le_iff (by decide)
  rw [← Nat.not_le, ← Nat.not_le]
  exact not_congr exact

theorem colIndices_ne_nil (region : Region) : region.colIndices ≠ [] := by
  simp [colIndices, width]

end Region

namespace Table
variable [Script.Engine] {table : Table} {region : Region} {error : TableError}

theorem boundedExtent_of_none (blank : table.extent = none) : table.boundedExtent = .ok none := by
  rw [boundedExtent, blank]

theorem boundedExtent_of_small (occupied : table.extent = some region)
    (small : region.height * region.width ≤ 1000000) :
    table.boundedExtent = .ok (some region) := by
  rw [boundedExtent, occupied]
  exact if_neg (mt Region.cellLimit_lt_cellCount_iff.1 (Nat.not_lt.2 small))

theorem boundedExtent_eq_error_iff :
    table.boundedExtent = .error error ↔
      ∃ region, table.extent = some region ∧ 1000000 < region.height * region.width ∧
        error = .extentTooLarge region.cellCount := by
  cases occupied : table.extent with
  | none => simp [boundedExtent, occupied]
  | some region =>
    by_cases large : cellLimit < region.cellCount
    · have product := Region.cellLimit_lt_cellCount_iff.1 large
      simp [boundedExtent, occupied, large, product, eq_comm]
    · have product := mt Region.cellLimit_lt_cellCount_iff.2 large
      simp [boundedExtent, occupied, large, product]

end Table

end LinkedSheet
