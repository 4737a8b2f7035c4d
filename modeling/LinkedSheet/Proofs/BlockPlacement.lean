import LinkedSheet.Proofs.RegionBounding
import LinkedSheet.Proofs.TableRun

/-!
Placed blocks. What an operation emits is a block and the cell where it is anchored; applying the
operation records that output, or refuses it if a cell of it would come to stand out of bounds.
Recording says all about the table that follows: a cell of the output holds its value, every other
cell what it held before, and the operation's region is the one around the cells of the output.
-/
namespace LinkedSheet

/-- What an operation emits: a block, and the cell where it is anchored. -/
structure Output where
  id : OpId
  anchor : Cell
  block : Block

namespace Output

def cells (output : Output) : List Cell :=
  output.block.keys.map (· + output.anchor)

def value? (output : Output) (cell : Cell) : Option Value :=
  (output.block.toList.find? fun entry => entry.1 + output.anchor = cell).map (·.2)

def region? (output : Output) : Option Region :=
  Region.bounding output.cells

def InBounds (output : Output) : Prop :=
  ∀ cell ∈ output.cells, cell.InBounds

end Output

namespace Cell

theorem add_right_cancel {a b by_ : Cell} (h : a + by_ = b + by_) : a = b := by
  obtain ⟨ar, ac⟩ := a
  obtain ⟨br, bc⟩ := b
  have rows : ar + by_.row = br + by_.row := congrArg row h
  have cols : ac + by_.col = bc + by_.col := congrArg col h
  rw [Nat.add_right_cancel rows, Nat.add_right_cancel cols]

end Cell

namespace Block

theorem pairwise_toList (block : Block) : block.toList.Pairwise fun a b => a.1 ≠ b.1 :=
  Std.TreeMap.distinct_keys_toList.imp fun apart same => apart (Cell.compare_eq_eq.2 same)

theorem getElem?_foldl_insert {anchor cell : Cell} {entries : List (Cell × Value)} {values : Block}
    (apart : entries.Pairwise fun a b => a.1 ≠ b.1) :
    (entries.foldl (fun values entry => values.insert (entry.1 + anchor) entry.2) values)[cell]? =
      ((entries.find? fun entry => entry.1 + anchor = cell).map (·.2)).or values[cell]? := by
  induction entries generalizing values with
  | nil => rfl
  | cons entry rest ih =>
    obtain ⟨different, apart⟩ := List.pairwise_cons.1 apart
    simp only [List.foldl_cons, ih apart, Std.TreeMap.getElem?_insert, Cell.compare_eq_eq]
    by_cases here : entry.1 + anchor = cell
    · have others : rest.find? (fun entry => entry.1 + anchor = cell) = none := by
        rw [List.find?_eq_none]
        intro other member again
        have same := Cell.add_right_cancel (here.trans (of_decide_eq_true again).symm)
        exact different other member same
      simp [here, others]
    · simp [here]

theorem ofList_eq (entries : List (Cell × Value)) :
    ofList entries = Std.TreeMap.ofList entries := by
  have inserted (block : Block) :
      entries.foldl (fun block entry => block.insert entry.1 entry.2) block =
        block.insertMany entries := by
    induction entries generalizing block with
    | nil => rw [Std.TreeMap.insertMany_nil, List.foldl_nil]
    | cons entry rest ih => rw [Std.TreeMap.insertMany_cons, List.foldl_cons, ih]
  rw [Std.TreeMap.ofList_eq_insertMany_empty, ← inserted]
  rfl

theorem getElem?_ofList_eq_some_iff {cell : Cell} {value : Value} {entries : List (Cell × Value)}
    (apart : entries.Pairwise fun a b => a.1 ≠ b.1) :
    (ofList entries)[cell]? = some value ↔ (cell, value) ∈ entries := by
  have differ : entries.Pairwise fun a b => ¬ compare a.1 b.1 = .eq :=
    apart.imp fun different => mt Cell.compare_eq_eq.1 different
  have held {value : Value} (listed : (cell, value) ∈ entries) :
      (ofList entries)[cell]? = some value := by
    rw [ofList_eq]
    exact Std.TreeMap.getElem?_ofList_of_mem (Cell.compare_eq_eq.2 rfl) differ listed
  refine ⟨fun found => ?_, held⟩
  by_cases listed : cell ∈ entries.map Prod.fst
  · obtain ⟨⟨_, other⟩, member, rfl⟩ := List.mem_map.1 listed
    rw [held member] at found
    rwa [← Option.some.inj found]
  · have absent : (entries.map Prod.fst).contains cell = false := by
      rw [List.contains_eq_mem, decide_eq_false listed]
    rw [ofList_eq, Std.TreeMap.getElem?_ofList_of_contains_eq_false absent] at found
    cases found

def populated (entries : List (Cell × Option Value)) : List (Cell × Value) :=
  entries.filterMap fun entry => entry.2.map fun value => (entry.1, value)

theorem getElem?_ofList_populated {cell : Cell} {value : Value}
    {entries : List (Cell × Option Value)} (apart : entries.Pairwise fun a b => a.1 ≠ b.1) :
    (ofList (populated entries))[cell]? = some value ↔ (cell, some value) ∈ entries := by
  have differ : (populated entries).Pairwise fun a b => a.1 ≠ b.1 := by
    rw [populated, List.pairwise_filterMap]
    refine apart.imp fun {a b} different entry here other there => ?_
    obtain ⟨_, _, rfl⟩ := Option.map_eq_some_iff.1 here
    obtain ⟨_, _, rfl⟩ := Option.map_eq_some_iff.1 there
    exact different
  rw [getElem?_ofList_eq_some_iff differ, populated, List.mem_filterMap]
  constructor
  · rintro ⟨⟨_, _⟩, member, found⟩
    obtain ⟨_, rfl, same⟩ := Option.map_eq_some_iff.1 found
    cases same
    exact member
  · intro member
    exact ⟨_, member, rfl⟩

end Block

namespace Output
variable {output : Output} {cell : Cell} {value : Value}

theorem value?_eq_some_iff :
    output.value? cell = some value ↔
      ∃ relative, relative + output.anchor = cell ∧ output.block[relative]? = some value := by
  rw [value?, Option.map_eq_some_iff]
  constructor
  · rintro ⟨⟨relative, _⟩, found, rfl⟩
    exact ⟨relative, by simpa using List.find?_some found,
      Std.TreeMap.mem_toList_iff_getElem?_eq_some.1 (List.mem_of_find?_eq_some found)⟩
  · rintro ⟨relative, here, held⟩
    have member := Std.TreeMap.mem_toList_iff_getElem?_eq_some.2 held
    cases found : output.block.toList.find? fun entry => entry.1 + output.anchor = cell with
    | none => simpa [here] using List.find?_eq_none.1 found _ member
    | some entry =>
      have there : entry.1 + output.anchor = cell := by simpa using List.find?_some found
      have same : entry.1 = relative := Cell.add_right_cancel (there.trans here.symm)
      have other := Std.TreeMap.mem_toList_iff_getElem?_eq_some.1
        (List.mem_of_find?_eq_some found)
      rw [same, held] at other
      exact ⟨entry, rfl, (Option.some.inj other).symm⟩

theorem value?_eq_none_iff : output.value? cell = none ↔ cell ∉ output.cells := by
  have covered : (∃ value, output.value? cell = some value) ↔ cell ∈ output.cells := by
    simp only [value?_eq_some_iff, cells, List.mem_map, Std.TreeMap.mem_keys,
      Std.TreeMap.mem_iff_isSome_getElem?, Option.isSome_iff_exists]
    grind
  rw [← covered, Option.eq_none_iff_forall_ne_some, not_exists]

theorem isSome_value?_iff : (output.value? cell).isSome ↔ cell ∈ output.cells := by
  rw [Option.isSome_iff_ne_none, ne_eq, value?_eq_none_iff, not_not]

theorem cells_eq_nil_iff : output.cells = [] ↔ output.block.isEmpty = true := by
  rw [cells, List.map_eq_nil_iff, ← Std.TreeMap.isEmpty_keys, List.isEmpty_iff]

theorem region?_eq_none_iff : output.region? = none ↔ output.block.isEmpty = true := by
  rw [region?, Region.bounding_eq_none_iff, cells_eq_nil_iff]

theorem inBounds_iff {region : Region} (around : output.region? = some region) :
    output.InBounds ↔ region.bottomRight.InBounds :=
  (Region.inBounds_iff_of_bounding around).symm

theorem inBounds_iff_keys :
    output.InBounds ↔ ∀ relative ∈ output.block.keys,
      relative.row + output.anchor.row ≤ Cell.maxIndex ∧
        relative.col + output.anchor.col ≤ Cell.maxIndex := by
  rw [InBounds, cells, List.forall_mem_map]
  rfl

theorem not_inBounds_iff :
    ¬ output.InBounds ↔ ∃ relative ∈ output.block.keys,
      Cell.maxIndex < relative.row + output.anchor.row ∨
        Cell.maxIndex < relative.col + output.anchor.col := by
  simp only [inBounds_iff_keys, not_forall, exists_prop, not_and_or, Nat.not_le]

end Output

namespace Table
variable [Script.Engine] {table result : Table} {op : Operation} {output : Output} {id : OpId} {anchor cell : Cell}
  {block : Block}

/-- The table with an output written, and its region in place of the one that the operation had. -/
def record (table : Table) (output : Output) : Table :=
  { table with
    values := Block.writeAt output.anchor output.block table.values
    regions :=
      match output.region? with
      | some region => table.regions.insert output.id region
      | none => table.regions.erase output.id }

def Emits (table : Table) (op : Operation) (output : Output) : Prop :=
  op.id = output.id ∧ ∃ input, op.selection.select table.sheet = .ok input ∧
    op.function.call table.sheet input = .ok output.block ∧
    op.anchor.resolve table.sheet = .ok output.anchor

theorem write_eq_ok_iff_record :
    table.write id anchor block = .ok result ↔
      (Output.mk id anchor block).InBounds ∧ result = table.record ⟨id, anchor, block⟩ := by
  have moved : (Output.mk id anchor block).region? = block.extent.map (·.shift anchor) :=
    Region.bounding_map_add block.keys anchor
  rw [write_eq_ok_iff]
  cases extent : block.extent with
  | none =>
    have empty : block.toList = [] := by
      rw [← List.isEmpty_iff, Std.TreeMap.isEmpty_toList]
      exact Block.extent_eq_none_iff.1 extent
    have nowhere : (Output.mk id anchor block).cells = [] :=
      Output.cells_eq_nil_iff.2 (Block.extent_eq_none_iff.1 extent)
    rw [extent] at moved
    simp [record, moved, Output.InBounds, nowhere, Block.writeAt, empty]
  | some relative =>
    rw [extent] at moved
    simp [record, moved, Output.inBounds_iff moved, Region.offset?_eq_some_iff, and_assoc]

theorem apply_eq_ok_iff_emits :
    table.apply op = .ok result ↔
      ∃ output, table.Emits op output ∧ output.InBounds ∧ result = table.record output := by
  simp only [apply_eq_ok_iff, write_eq_ok_iff_record]
  constructor
  · rintro ⟨input, block, anchor, selected, called, resolved, within, rfl⟩
    exact ⟨⟨op.id, anchor, block⟩, ⟨rfl, input, selected, called, resolved⟩, within, rfl⟩
  · rintro ⟨⟨_, anchor, block⟩, ⟨rfl, input, selected, called, resolved⟩, within, rfl⟩
    exact ⟨input, block, anchor, selected, called, resolved, within, rfl⟩

theorem exists_write_eq_error (outside : ¬ (Output.mk id anchor block).InBounds) :
    ∃ rows cols, table.write id anchor block = .error (.outOfBounds anchor rows cols) := by
  cases written : table.write id anchor block with
  | ok result => exact absurd (write_eq_ok_iff_record.1 written).1 outside
  | error e =>
    unfold write at written
    split at written
    · cases written
    · split at written
      · cases written
        exact ⟨_, _, rfl⟩
      · cases written

theorem apply_of_emits (emits : table.Emits op output) :
    table.apply op =
      (table.write output.id output.anchor output.block).mapError (.resolve op.id) := by
  obtain ⟨same, input, selected, called, resolved⟩ := emits
  rw [← same]
  unfold apply
  simp only [selected, called, resolved]
  cases table.write op.id output.anchor output.block <;> rfl

theorem apply_cases_of_emits (emits : table.Emits op output) :
    (output.InBounds ∧ table.apply op = .ok (table.record output)) ∨
      ¬ output.InBounds ∧ ∃ rows cols,
        table.apply op = .error (.resolve op.id (.outOfBounds output.anchor rows cols)) := by
  by_cases within : output.InBounds
  · exact .inl ⟨within, apply_eq_ok_iff_emits.2 ⟨output, emits, within, rfl⟩⟩
  · obtain ⟨rows, cols, refused⟩ : ∃ rows cols,
        table.write output.id output.anchor output.block =
          .error (.outOfBounds output.anchor rows cols) := exists_write_eq_error within
    refine .inr ⟨within, rows, cols, ?_⟩
    rw [apply_of_emits emits, refused]
    rfl

theorem get_record : (table.record output).get cell = (output.value? cell).or (table.get cell) :=
  Block.getElem?_foldl_insert output.block.pairwise_toList

theorem isSome_get_record :
    ((table.record output).get cell).isSome ↔ cell ∈ output.cells ∨ (table.get cell).isSome := by
  rw [get_record, Option.isSome_or, Bool.or_eq_true, Output.isSome_value?_iff]

theorem regionOf_record :
    (table.record output).regionOf id =
      if output.id = id then output.region? else table.regionOf id := by
  cases around : output.region? with
  | none => simp [regionOf, record, around, Std.TreeMap.getElem?_erase]
  | some region => simp [regionOf, record, around, Std.TreeMap.getElem?_insert]

end Table

end LinkedSheet
