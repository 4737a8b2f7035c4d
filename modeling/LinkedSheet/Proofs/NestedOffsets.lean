import LinkedSheet.Script.Interpreter
import LinkedSheet.Table
import Mathlib.Algebra.Group.Prod
import Mathlib.Algebra.Ring.Int.Defs
import Mathlib.Tactic.Tauto

/-!
Positions moved by offsets inside offsets. The offsets add up in exact integers, from the innermost
one outwards, and the position resolves just when every sum on the way lies between zero and the
last index that may be written. The first sum that does not is reported with the position before it,
which may itself be out of bounds if nothing has moved it yet.
-/
namespace LinkedSheet

namespace Cell

def spot (cell : Cell) : Int × Int :=
  (cell.row, cell.col)

def Within (spot : Int × Int) : Prop :=
  (0 ≤ spot.1 ∧ spot.1 ≤ maxIndex) ∧ 0 ≤ spot.2 ∧ spot.2 ≤ maxIndex

instance (spot : Int × Int) : Decidable (Within spot) :=
  inferInstanceAs (Decidable (_ ∧ _))

variable {cell moved : Cell} {move : Int × Int}

theorem spot_inj : cell.spot = moved.spot ↔ cell = moved := by
  obtain ⟨row, col⟩ := cell
  obtain ⟨otherRow, otherCol⟩ := moved
  rw [spot, spot, Prod.mk.injEq, Cell.mk.injEq, Int.natCast_inj, Int.natCast_inj]

theorem shiftIndex?_eq_some_iff {index shifted : Nat} {offset : Int} :
    shiftIndex? index offset = some shifted ↔
      (shifted : Int) = index + offset ∧ 0 ≤ index + offset ∧ index + offset ≤ maxIndex := by
  unfold shiftIndex?
  dsimp only
  rw [Option.ite_none_right_eq_some, Option.some_inj]
  omega

theorem offset?_eq_some_iff :
    cell.offset? move.1 move.2 = some moved ↔
      moved.spot = cell.spot + move ∧ Within (cell.spot + move) := by
  have both : cell.offset? move.1 move.2 = some moved ↔
      shiftIndex? cell.row move.1 = some moved.row ∧
        shiftIndex? cell.col move.2 = some moved.col := by
    obtain ⟨row, col⟩ := moved
    unfold offset?
    cases shiftIndex? cell.row move.1 <;> cases shiftIndex? cell.col move.2 <;> simp
  rw [both, shiftIndex?_eq_some_iff, shiftIndex?_eq_some_iff, Prod.ext_iff]
  simp only [spot, Within, Prod.fst_add, Prod.snd_add]
  tauto

theorem exists_spot_of_within {spot : Int × Int} (within : Within spot) :
    ∃ cell : Cell, cell.spot = spot :=
  ⟨⟨spot.1.toNat, spot.2.toNat⟩,
    Prod.ext (Int.toNat_of_nonneg within.1.1) (Int.toNat_of_nonneg within.2.1)⟩

theorem offset?_eq_none_iff :
    cell.offset? move.1 move.2 = none ↔ ¬ Within (cell.spot + move) := by
  constructor
  · intro stuck within
    obtain ⟨moved, sum⟩ := exists_spot_of_within within
    rw [offset?_eq_some_iff.2 ⟨sum, within⟩] at stuck
    cases stuck
  · intro outside
    exact Option.eq_none_iff_forall_ne_some.2 fun moved reached =>
      outside (offset?_eq_some_iff.1 reached).2

end Cell

namespace Coordinate

open Cell (spot spot_inj Within)

def innermost : Coordinate → Coordinate
  | offset inner _ _ => inner.innermost
  | position => position

def moves : Coordinate → List (Int × Int)
  | offset inner rows cols => inner.moves ++ [(rows, cols)]
  | _ => []

theorem foldl_offset_moves (position : Coordinate) :
    (∀ inner rows cols, position.innermost ≠ offset inner rows cols) ∧
      position.moves.foldl (fun inner move => offset inner move.1 move.2) position.innermost =
        position := by
  induction position with
  | offset inner rows cols ih =>
    refine ⟨ih.1, ?_⟩
    rw [moves, List.foldl_append, innermost, ih.2]
    rfl
  | _ => exact ⟨by simp [innermost], rfl⟩

def step (cell : Cell) (move : Int × Int) : Except ResolveError Cell :=
  match cell.offset? move.1 move.2 with
  | some moved => .ok moved
  | none => .error (.outOfBounds cell move.1 move.2)

theorem resolve_eq_foldlM (sheet : Sheet) (position : Coordinate) :
    position.resolve sheet =
      position.innermost.resolve sheet >>= fun base => position.moves.foldlM step base := by
  induction position with
  | offset inner rows cols ih =>
    rw [resolve, ih, innermost, bind_assoc]
    refine bind_congr fun base => ?_
    rw [moves, List.foldlM_append]
    refine bind_congr fun cell => ?_
    exact (bind_pure _).symm
  | _ => exact (bind_pure _).symm

variable {base moved : Cell} {move : Int × Int} {moves : List (Int × Int)}

theorem step_of_within (within : Within (base.spot + move)) :
    ∃ moved : Cell, step base move = .ok moved ∧ moved.spot = base.spot + move := by
  obtain ⟨moved, sum⟩ := Cell.exists_spot_of_within within
  refine ⟨moved, ?_, sum⟩
  rw [step, Cell.offset?_eq_some_iff.2 ⟨sum, within⟩]

theorem step_of_not_within (outside : ¬ Within (base.spot + move)) :
    step base move = .error (.outOfBounds base move.1 move.2) := by
  rw [step, Cell.offset?_eq_none_iff.2 outside]

def StaysWithin (base : Cell) (moves : List (Int × Int)) : Prop :=
  ∀ k < moves.length, Within (base.spot + (moves.take (k + 1)).sum)

instance (base : Cell) (moves : List (Int × Int)) : Decidable (StaysWithin base moves) :=
  inferInstanceAs (Decidable (∀ k < moves.length, _))

theorem staysWithin_cons (sum : moved.spot = base.spot + move) :
    StaysWithin base (move :: moves) ↔ Within (base.spot + move) ∧ StaysWithin moved moves := by
  unfold StaysWithin
  rw [List.length_cons, Nat.forall_lt_succ_left]
  simp [sum, add_assoc]

theorem exists_foldlM_step (stays : StaysWithin base moves) :
    ∃ cell : Cell, moves.foldlM step base = .ok cell ∧ cell.spot = base.spot + moves.sum := by
  induction moves generalizing base with
  | nil => exact ⟨base, rfl, by simp⟩
  | cons move moves ih =>
    have within : Within (base.spot + move) := by simpa using stays 0 (by simp)
    obtain ⟨moved, stepped, sum⟩ := step_of_within within
    obtain ⟨cell, reached, total⟩ := ih ((staysWithin_cons sum).1 stays).2
    refine ⟨cell, ?_, by rw [total, sum, List.sum_cons, add_assoc]⟩
    rw [List.foldlM_cons, stepped]
    exact reached

theorem exists_foldlM_step_error (leaves : ¬ StaysWithin base moves) :
    ∃ k rows cols, moves[k]? = some (rows, cols) ∧ StaysWithin base (moves.take k) ∧
      ¬ Within (base.spot + (moves.take (k + 1)).sum) ∧
      ∃ before : Cell, before.spot = base.spot + (moves.take k).sum ∧
        moves.foldlM step base = .error (.outOfBounds before rows cols) := by
  induction moves generalizing base with
  | nil => exact absurd (fun k bound => absurd bound (Nat.not_lt_zero k)) leaves
  | cons move moves ih =>
    by_cases within : Within (base.spot + move)
    -- the first sum that leaves the bounds is one of those from the moved cell on
    · obtain ⟨moved, stepped, sum⟩ := step_of_within within
      obtain ⟨k, rows, cols, here, stays, outside, before, start, failed⟩ :=
        ih fun stays => leaves ((staysWithin_cons sum).2 ⟨within, stays⟩)
      refine ⟨k + 1, rows, cols, here, ?_, ?_, before, ?_, ?_⟩
      · exact (staysWithin_cons sum).2 ⟨within, stays⟩
      · rwa [List.take_succ_cons, List.sum_cons, ← add_assoc, ← sum]
      · rw [start, sum, List.take_succ_cons, List.sum_cons, add_assoc]
      · rw [List.foldlM_cons, stepped]
        exact failed
    · refine ⟨0, move.1, move.2, rfl, ?_, by simpa using within, base, by simp, ?_⟩
      · exact fun k bound => absurd bound (Nat.not_lt_zero k)
      · rw [List.foldlM_cons, step_of_not_within within]
        rfl

/-- A position whose innermost one resolves to a cell, anywhere at all, resolves just when all sums
of that cell and the offsets around it, from the innermost one outwards, are within bounds. It is
then the last sum; otherwise the first sum out of bounds is reported, by the position and the two
offsets that lead to it. -/
theorem resolve_moved (sheet : Sheet) (position : Coordinate) {base : Cell}
    (resolved : position.innermost.resolve sheet = .ok base) :
    (StaysWithin base position.moves →
      ∃ cell : Cell, position.resolve sheet = .ok cell ∧
        cell.spot = base.spot + position.moves.sum) ∧
    (¬ StaysWithin base position.moves →
      ∃ k rows cols, position.moves[k]? = some (rows, cols) ∧
        StaysWithin base (position.moves.take k) ∧
        ¬ Within (base.spot + (position.moves.take (k + 1)).sum) ∧
        ∃ before : Cell, before.spot = base.spot + (position.moves.take k).sum ∧
          position.resolve sheet = .error (.outOfBounds before rows cols)) := by
  have run : position.resolve sheet = position.moves.foldlM step base := by
    rw [resolve_eq_foldlM, resolved]
    rfl
  rw [run]
  exact ⟨exists_foldlM_step, exists_foldlM_step_error⟩

def behindLastRow : Coordinate :=
  offset (offset (offset (.base (.fixed (Cell.indexBound - 1)) (.fixed 3)) (-1) 2) 0 (-5)) 1 0

theorem resolve_moved_behindLastRow :
    behindLastRow.innermost.resolve Table.empty.sheet = .ok ⟨Cell.indexBound - 1, 3⟩ ∧
    ¬ StaysWithin ⟨Cell.indexBound - 1, 3⟩ behindLastRow.moves ∧
    behindLastRow.resolve Table.empty.sheet = .error (.outOfBounds ⟨Cell.maxIndex, 0⟩ 1 0) := by
  have resolved : behindLastRow.innermost.resolve Table.empty.sheet =
      .ok ⟨Cell.indexBound - 1, 3⟩ := rfl
  have leaves : ¬ StaysWithin ⟨Cell.indexBound - 1, 3⟩ behindLastRow.moves := by decide
  obtain ⟨k, rows, cols, here, stays, outside, before, start, failed⟩ :=
    (resolve_moved Table.empty.sheet behindLastRow resolved).2 leaves
  refine ⟨resolved, leaves, failed.trans ?_⟩
  match k with
  | 0 => exact absurd (by decide) outside
  | 1 => exact absurd (by decide) outside
  | 2 =>
    have last : before.spot = spot ⟨Cell.maxIndex, 0⟩ := start
    cases here
    rw [spot_inj.1 last]

end Coordinate

end LinkedSheet
