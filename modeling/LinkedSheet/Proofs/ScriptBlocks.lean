import LinkedSheet.Function
import LinkedSheet.Proofs.BlockPlacement
import LinkedSheet.Script.Interpreter

/-!
Blocks from the results of scripts. A result is laid out as its parts with their positions, and the
block consists of the parts that cells can hold; unit leaves its position free, and any other part
refuses the whole result. Rows of values come to the block of a fixed input with these rows, less
the elements that unit stands for.
-/
namespace LinkedSheet.Script

namespace Datum

/-- Whether a cell can hold the value: a number, a truth value or a text. -/
def isStorable : Datum → Bool
  | int _ => true
  | float _ => true
  | bool _ => true
  | text _ => true
  | _ => false

def isRefused (d : Datum) : Bool :=
  !d.isUnit && !d.isStorable

theorem exists_toValue_of_isStorable {d : Datum} (storable : d.isStorable = true) :
    ∃ value, d.toValue = .ok value := by
  cases d with
  | int | float | bool | text => exact ⟨_, rfl⟩
  | _ => cases storable

theorem toValue_of_not_isStorable {d : Datum} (unstorable : d.isStorable = false) :
    d.toValue = .error (.unstorable d.typeName) := by
  cases d with
  | int | float | bool | text => cases unstorable
  | _ => rfl

theorem not_isUnit_of_isStorable {d : Datum} (storable : d.isStorable = true) :
    d.isUnit = false := by
  cases d with
  | unit => cases storable
  | _ => rfl

theorem toValue_ofValue (value : Value) : (ofValue value).toValue = .ok value := by
  cases value <;> rfl

theorem isRefused_ofCell (value : Option Value) : (ofCell value).isRefused = false := by
  rcases value with _ | _ | _ | _ <;> rfl

end Datum

namespace Layout

def stored? (part : Cell × Datum) : Option (Cell × Value) :=
  part.2.toValue.toOption.map fun value => (part.1, value)

theorem putAll_eq (parts : List (Cell × Datum)) (block : Block) :
    putAll parts block =
      match parts.find? fun part => part.2.isRefused with
      | some part => .error (.unstorable part.2.typeName)
      | none => .ok ((parts.filterMap stored?).foldl
          (fun block entry => block.insert entry.1 entry.2) block) := by
  induction parts generalizing block with
  | nil => rfl
  | cons part rest ih =>
    obtain ⟨cell, d⟩ := part
    rw [putAll, List.find?_cons, List.filterMap_cons]
    cases storable : d.isStorable with
    | true =>
      obtain ⟨value, stored⟩ := Datum.exists_toValue_of_isStorable storable
      have kept : d.isRefused = false := by simp [Datum.isRefused, storable]
      have entry : stored? (cell, d) = some (cell, value) := by rw [stored?, stored]; rfl
      simp only [Datum.not_isUnit_of_isStorable storable, stored, kept, entry, ih,
        List.foldl_cons, Bool.false_eq_true, if_false]
    | false =>
      have unstored := Datum.toValue_of_not_isStorable storable
      have no_entry : stored? (cell, d) = none := by rw [stored?, unstored]; rfl
      cases blank : d.isUnit with
      | true =>
        have kept : d.isRefused = false := by simp [Datum.isRefused, blank]
        simp only [kept, no_entry, ih, if_true]
      | false =>
        have refused : d.isRefused = true := by simp [Datum.isRefused, blank, storable]
        simp only [unstored, refused, Bool.false_eq_true, if_false]

theorem toBlock_eq (d : Datum) :
    d.toBlock =
      match (positions d).find? fun part => part.2.isRefused with
      | some part => .error (.unstorable part.2.typeName)
      | none => .ok (Block.ofList ((positions d).filterMap stored?)) :=
  putAll_eq (positions d) Block.empty

def parts : Datum → List Datum
  | .array items => items.toList
  | d => [d]

theorem map_snd_row (index : Nat) (d : Datum) : (row index d).map (·.2) = parts d := by
  cases d with
  | array items => exact (List.map_map ..).trans (List.zipIdx_map_fst 0 items.toList)
  | _ => rfl

theorem map_snd_positions (items : Array Datum) :
    (positions (.array items)).map (·.2) = items.toList.flatMap parts := by
  rw [positions, List.map_flatMap]
  simp only [map_snd_row]
  conv_rhs => rw [← List.zipIdx_map_fst 0 items.toList, List.flatMap_map]

theorem toBlock_eq_error_iff {items : Array Datum} :
    (∃ typeName, (Datum.array items).toBlock = .error (.unstorable typeName)) ↔
      ∃ item ∈ items, ∃ part ∈ parts item, part.isRefused = true := by
  have found : ((positions (.array items)).find? fun part => part.2.isRefused).isSome ↔
      ∃ item ∈ items, ∃ part ∈ parts item, part.isRefused = true := by
    calc
      _ ↔ ∃ part ∈ (positions (.array items)).map (·.2), part.isRefused = true := by
        simp only [List.find?_isSome, List.mem_map, exists_exists_and_eq_and]
      _ ↔ ∃ part, (∃ item ∈ items, part ∈ parts item) ∧ part.isRefused = true := by
        simp only [map_snd_positions, List.mem_flatMap, Array.mem_def]
      _ ↔ _ := by grind
  rw [← found, toBlock_eq]
  cases (positions (.array items)).find? fun part => part.2.isRefused with
  | some part => simp
  | none => simp

def grid (rows : List (List Datum)) : Datum :=
  .array (rows.map fun row => .array row.toArray).toArray

def entries {α : Type} (rows : List (List α)) : List (Cell × α) :=
  rows.zipIdx.flatMap fun row => row.1.zipIdx.map fun item => (⟨row.2, item.2⟩, item.1)

theorem rowEntries_eq (rows : List (List Value)) : Function.rowEntries rows = entries rows := rfl

theorem positions_grid (rows : List (List Datum)) : positions (grid rows) = entries rows := by
  rw [grid, positions, entries, List.zipIdx_map, List.flatMap_map]
  rfl

section
variable {α β : Type}

theorem entries_map (f : α → β) (rows : List (List α)) :
    entries (rows.map (·.map f)) = (entries rows).map fun entry => (entry.1, f entry.2) := by
  simp only [entries, List.zipIdx_map, List.flatMap_map, List.map_flatMap, List.map_map,
    Function.comp_def, Prod.map, id]

theorem mem_entries {rows : List (List α)} {cell : Cell} {a : α} :
    (cell, a) ∈ entries rows ↔ rows[cell.row]?.bind (·[cell.col]?) = some a := by
  simp only [entries, List.mem_flatMap, List.mem_map, Prod.exists, List.mem_zipIdx_iff_getElem?,
    Prod.mk.injEq, Option.bind_eq_some_iff]
  constructor
  · rintro ⟨items, row, here, _, col, there, rfl, rfl⟩
    exact ⟨items, here, there⟩
  · rintro ⟨items, here, there⟩
    exact ⟨items, cell.row, here, a, cell.col, there, rfl, rfl⟩

theorem pairwise_zipIdx (items : List α) : items.zipIdx.Pairwise fun a b => a.2 ≠ b.2 := by
  have indices : (items.zipIdx.map (·.2)).Pairwise (· ≠ ·) := by
    rw [List.zipIdx_map_snd]
    exact List.nodup_range'
  exact List.pairwise_map.1 indices

theorem pairwise_entries (rows : List (List α)) :
    (entries rows).Pairwise fun a b => a.1 ≠ b.1 := by
  rw [entries, List.pairwise_flatMap]
  constructor
  · rintro ⟨items, row⟩ _
    rw [List.pairwise_map]
    exact (pairwise_zipIdx items).imp fun apart same => apart (congrArg Cell.col same)
  · refine (pairwise_zipIdx rows).imp fun {upper lower} apart => ?_
    intro entry here other there same
    obtain ⟨_, _, rfl⟩ := List.mem_map.1 here
    obtain ⟨_, _, rfl⟩ := List.mem_map.1 there
    exact apart (congrArg Cell.row same)

end

theorem stored?_ofCell (cell : Cell) (value : Option Value) :
    stored? (cell, Datum.ofCell value) = value.map fun value => (cell, value) := by
  rcases value with _ | value
  · rfl
  · exact congrArg (fun stored => (Except.toOption stored).map fun value => (cell, value))
      (Datum.toValue_ofValue value)

theorem toBlock_grid_ofCell (rows : List (List (Option Value))) :
    (grid (rows.map (·.map Datum.ofCell))).toBlock =
      .ok (Block.ofList (Block.populated (entries rows))) := by
  have unrefused : ((entries rows).map fun entry => (entry.1, Datum.ofCell entry.2)).find?
      (fun part => part.2.isRefused) = none := by
    rw [List.find?_eq_none, List.forall_mem_map]
    intro entry _
    rw [Datum.isRefused_ofCell]
    exact Bool.false_ne_true
  rw [toBlock_eq, positions_grid, entries_map, unrefused, List.filterMap_map, Block.populated]
  simp only [Function.comp_def, stored?_ofCell]

def emptiedAt (emptied : Cell → Bool) (rows : List (List Value)) : List (List (Option Value)) :=
  rows.mapIdx fun row items => items.mapIdx fun col value =>
    if emptied ⟨row, col⟩ then none else some value

theorem getElem?_emptiedAt (emptied : Cell → Bool) (rows : List (List Value)) (cell : Cell) :
    (emptiedAt emptied rows)[cell.row]?.bind (·[cell.col]?) =
      (rows[cell.row]?.bind (·[cell.col]?)).map fun value =>
        if emptied cell then none else some value := by
  rw [emptiedAt, List.getElem?_mapIdx]
  cases rows[cell.row]? with
  | none => rfl
  | some items => exact List.getElem?_mapIdx

theorem map_emptiedAt (emptied : Cell → Bool) (rows : List (List Value)) :
    (emptiedAt emptied rows).map (·.map Datum.ofCell) =
      rows.mapIdx fun row items => items.mapIdx fun col value =>
        if emptied ⟨row, col⟩ then .unit else .ofValue value := by
  simp only [emptiedAt, List.mapIdx_eq_zipIdx_map, List.map_map, Function.comp_def,
    apply_ite Datum.ofCell]
  rfl

theorem toBlock_grid_ofValue (rows : List (List Value)) :
    (grid (rows.map (·.map Datum.ofValue))).toBlock =
      .ok (Block.ofList (Function.rowEntries rows)) := by
  have filled : rows.map (·.map Datum.ofValue) =
      (rows.map (·.map some)).map (·.map Datum.ofCell) := by
    simp only [List.map_map, Function.comp_def]
    rfl
  have all : Block.populated (entries (rows.map (·.map some))) = entries rows := by
    rw [entries_map, Block.populated, List.filterMap_map]
    exact List.filterMap_some
  rw [filled, toBlock_grid_ofCell, all, rowEntries_eq]

theorem exists_toBlock_emptiedAt (emptied : Cell → Bool) (rows : List (List Value)) :
    ∃ block, (grid ((emptiedAt emptied rows).map (·.map Datum.ofCell))).toBlock = .ok block ∧
      ∀ cell, block[cell]? =
        if emptied cell then none else (Block.ofList (Function.rowEntries rows))[cell]? := by
  refine ⟨_, toBlock_grid_ofCell _, fun cell => Option.ext fun value => ?_⟩
  rw [rowEntries_eq, Block.getElem?_ofList_populated (pairwise_entries _), mem_entries,
    getElem?_emptiedAt]
  by_cases empty : emptied cell = true
  · simp only [if_pos empty]
    cases rows[cell.row]?.bind (·[cell.col]?) <;> simp
  · rw [if_neg empty, Block.getElem?_ofList_eq_some_iff (pairwise_entries rows), mem_entries]
    simp only [if_neg empty]
    cases rows[cell.row]?.bind (·[cell.col]?) <;> simp

theorem exists_toBlock_scalar {d : Datum} (storable : d.isStorable = true) :
    ∃ value, d.toValue = .ok value ∧ d.toBlock = .ok (Block.scalar value) ∧
      (Datum.array #[d]).toBlock = .ok (Block.scalar value) ∧
      (Datum.array #[.array #[d]]).toBlock = .ok (Block.scalar value) := by
  cases d with
  | int | float | bool | text => exact ⟨_, rfl, rfl, rfl, rfl⟩
  | _ => cases storable

end Layout

/-- Rows of values that a script gives come to the block that a fixed input of these rows emits, and
unit in place of any of them takes away the entries at these positions and no other ones. A value
that a cell can hold may as well stand in an array, or in an array of an array. An array is refused
exactly if an element of it, or of one of its arrays, is neither unit nor a value that a cell can
hold; arrays within inner arrays are refused like that. -/
theorem blocks_of_results [Engine] :
    (∀ (rows : List (List Value)) (custom : Engine.Program) (sheet : Sheet) (input : List Cell),
      ∃ function block, (FunctionSpec.rawInput rows).build custom = .ok function ∧
        function.call sheet input = .ok block ∧
        (Layout.grid (rows.map (·.map Datum.ofValue))).toBlock = .ok block ∧
        ∀ emptied : Cell → Bool, ∃ rest,
          (Layout.grid (rows.mapIdx fun row items => items.mapIdx fun col value =>
            if emptied ⟨row, col⟩ then .unit else .ofValue value)).toBlock = .ok rest ∧
          ∀ cell, rest[cell]? = if emptied cell then none else block[cell]?) ∧
    (∀ d : Datum, d.isStorable = true → ∃ value, d.toValue = .ok value ∧
      d.toBlock = .ok (Block.scalar value) ∧
      (Datum.array #[d]).toBlock = .ok (Block.scalar value) ∧
      (Datum.array #[.array #[d]]).toBlock = .ok (Block.scalar value)) ∧
    ∀ items : Array Datum,
      (∃ typeName, (Datum.array items).toBlock = .error (.unstorable typeName)) ↔
        ∃ item ∈ items, ∃ part ∈ Layout.parts item, part.isRefused = true := by
  refine ⟨fun rows custom sheet input => ⟨_, _, rfl, rfl, Layout.toBlock_grid_ofValue rows,
    fun emptied => ?_⟩, fun d => Layout.exists_toBlock_scalar,
    fun items => Layout.toBlock_eq_error_iff⟩
  rw [← Layout.map_emptiedAt]
  exact Layout.exists_toBlock_emptiedAt emptied rows

theorem blocks_of_results_ragged :
    (∃ block, (Layout.grid [[.int 1, .unit], [], [.int 3]]).toBlock = .ok block ∧
      block[(⟨0, 0⟩ : Cell)]? = some (.int 1) ∧ block[(⟨0, 1⟩ : Cell)]? = none ∧
      block[(⟨2, 0⟩ : Cell)]? = some (.int 3)) ∧
    (Datum.array #[.array #[.bool true]]).toBlock = (Datum.bool true).toBlock ∧
    ∃ typeName, (Datum.array #[.int 1, .array #[.unit, .char 'c']]).toBlock =
      .error (.unstorable typeName) := by
  obtain ⟨rows, scalars, refusals⟩ := blocks_of_results
  obtain ⟨_, _, built, called, _, emptied⟩ := rows [[.int 1, .text "two"], [], [.int 3]]
    Program.empty Table.empty.sheet []
  cases built
  cases called
  obtain ⟨rest, laid, entries⟩ := emptied fun cell => cell = ⟨0, 1⟩
  obtain ⟨value, _, alone, _, nested⟩ := scalars (.bool true) rfl
  refine ⟨⟨rest, laid, ?_, ?_, ?_⟩, nested.trans alone.symm, (refusals _).2 ?_⟩
  · exact (entries ⟨0, 0⟩).trans (by rfl)
  · exact (entries ⟨0, 1⟩).trans (by rfl)
  · exact (entries ⟨2, 0⟩).trans (by rfl)
  · exact ⟨.array #[.unit, .char 'c'], by simp, .char 'c', by simp [Layout.parts], rfl⟩

end LinkedSheet.Script
