import LinkedSheet.Proofs.SheetAgreement
import LinkedSheet.Proofs.TableFailure
import LinkedSheet.Proofs.TableOutputs

/-!
Operations that may change places. Two operations are independent on a table if neither reads what
the other one writes, no cell is written by both, and neither looks at the extent. Each of them then
emits the same output before and after the other has been applied, and two outputs that share no cell
may be recorded one way or the other. So applying them in either sequence leaves tables that are
alike: no cell and no region tells them apart. What is alike stays alike in everything that runs
afterwards, so an order may be changed by exchanging independent neighbours again and again.
-/
namespace LinkedSheet

namespace Operation

/-- Whether an operation looks at nothing but the cells of its selection and the regions that it
depends on. -/
def IsLocal [Script.Engine] (op : Operation) : Prop :=
  op.selection.readsExtent = false ∧ op.anchor.readsExtent = false ∧
    op.function.readsInputOnly = true

end Operation

namespace Table
variable [Script.Engine] {table other third state : Table} {op a b : Operation} {output first second : Output}
  {ids before after : List OpId}

theorem apply_map_unit (same : table.sheet = other.sheet) (op : Operation) :
    (table.apply op).map (fun _ => ()) = (other.apply op).map fun _ => () := by
  unfold apply
  rw [same]
  cases op.selection.select other.sheet with
  | error e => rfl
  | ok input =>
    cases called : op.function.call other.sheet input with
    | error e => simp only [called]
    | ok block =>
      cases op.anchor.resolve other.sheet with
      | error e => simp only [called]
      | ok anchor =>
        simp only [called, write]
        cases block.extent with
        | none => rfl
        | some relative =>
          cases moved : relative.offset? anchor.row anchor.col <;> simp [moved, Except.map]

/-- The same operations, and nothing different in any cell or about any region. -/
structure Alike (table other : Table) : Prop where
  operations_eq : table.operations = other.operations
  get_eq : table.get = other.get
  regionOf_eq : table.regionOf = other.regionOf

namespace Alike

theorem refl (table : Table) : table.Alike table :=
  ⟨rfl, rfl, rfl⟩

theorem symm (h : table.Alike other) : other.Alike table :=
  ⟨h.operations_eq.symm, h.get_eq.symm, h.regionOf_eq.symm⟩

theorem trans (h : table.Alike other) (also : other.Alike third) : table.Alike third :=
  ⟨h.operations_eq.trans also.operations_eq, h.get_eq.trans also.get_eq,
    h.regionOf_eq.trans also.regionOf_eq⟩

theorem keys_eq (h : table.Alike other) : table.values.keys = other.values.keys :=
  (Std.TreeMap.Equiv.of_forall_constGet?_eq fun cell => congrFun h.get_eq cell).keys_eq

theorem sheet_eq (h : table.Alike other) : table.sheet = other.sheet := by
  simp only [sheet, extent, Block.extent, h.get_eq, h.regionOf_eq, h.keys_eq]

theorem record (h : table.Alike other) (output : Output) :
    (table.record output).Alike (other.record output) := by
  refine ⟨h.operations_eq, ?_, ?_⟩
  · funext cell
    rw [get_record, get_record, h.get_eq]
  · funext id
    rw [regionOf_record, regionOf_record, h.regionOf_eq]

theorem emits (h : table.Alike other) (emits : table.Emits op output) : other.Emits op output := by
  unfold Emits at emits ⊢
  rwa [← h.sheet_eq]

theorem apply_cases (h : table.Alike other) (op : Operation) :
    (∃ next too, table.apply op = .ok next ∧ other.apply op = .ok too ∧ next.Alike too) ∨
      ∃ error, table.apply op = .error error ∧ other.apply op = .error error := by
  cases done : table.apply op with
  | ok next =>
    obtain ⟨output, emits, within, rfl⟩ := apply_eq_ok_iff_emits.1 done
    exact .inl ⟨_, _, rfl, apply_eq_ok_iff_emits.2 ⟨output, h.emits emits, within, rfl⟩,
      h.record output⟩
  | error e =>
    have same := apply_map_unit h.sheet_eq op
    rw [done] at same
    exact .inr ⟨e, rfl, Except.map_eq_error_iff.1 same.symm⟩

end Alike

def SameOutcome (one two : Table × Except TableError Unit) : Prop :=
  one.2 = two.2 ∧ one.1.Alike two.1

theorem SameOutcome.trans {one two three : Table × Except TableError Unit}
    (h : SameOutcome one two) (also : SameOutcome two three) : SameOutcome one three :=
  ⟨h.1.trans also.1, h.2.trans also.2⟩

theorem SameOutcome.symm {one two : Table × Except TableError Unit} (h : SameOutcome one two) :
    SameOutcome two one :=
  ⟨h.1.symm, h.2.symm⟩

theorem Alike.run (h : table.Alike other) (ids : List OpId) :
    SameOutcome (table.run ids) (other.run ids) := by
  induction ids generalizing table other with
  | nil => exact ⟨rfl, h⟩
  | cons id rest ih =>
    have same : table.operation id = other.operation id := by
      unfold operation operation?
      rw [h.operations_eq]
    cases found : other.operation id with
    | error e => simpa only [Table.run, same, found] using ⟨rfl, h⟩
    | ok op =>
      rcases h.apply_cases op with ⟨next, too, done, also, alike⟩ | ⟨e, failed, also⟩
      · simpa only [Table.run, same, found, done, also] using ih alike
      · simpa only [Table.run, same, found, failed, also] using ⟨rfl, h⟩

def selected (table : Table) (op : Operation) : List Cell :=
  (op.selection.select table.sheet).toOption.getD []

def output? (table : Table) (op : Operation) : Option Output := do
  let input ← (op.selection.select table.sheet).toOption
  let block ← (op.function.call table.sheet input).toOption
  let anchor ← (op.anchor.resolve table.sheet).toOption
  return ⟨op.id, anchor, block⟩

def written (table : Table) (op : Operation) : List Cell :=
  ((table.output? op).map Output.cells).getD []

theorem written_of_emits (emits : table.Emits op output) : table.written op = output.cells := by
  obtain ⟨same, input, select, called, resolved⟩ := emits
  simp [written, output?, select, called, resolved, Except.toOption, Output.cells]

theorem Emits.record (emits : table.Emits op output) (only : op.IsLocal)
    (unread : first.id ∉ op.dependencies)
    (unselected : ∀ cell ∈ first.cells, cell ∉ table.selected op) :
    (table.record first).Emits op output := by
  obtain ⟨same, input, select, called, resolved⟩ := emits
  obtain ⟨selectsLocally, anchorsLocally, callsLocally⟩ := only
  have regions : ∀ id ∈ op.dependencies, (table.record first).regionOf id = table.regionOf id := by
    intro id depends
    have different : first.id ≠ id := fun same => unread (same ▸ depends)
    rw [regionOf_record, if_neg different]
  have selects : (table.record first).sheet.Agree table.sheet op.selection.readsExtent
      op.selection.dependencies :=
    ⟨fun asked => absurd (selectsLocally.symm.trans asked) Bool.false_ne_true,
      fun id member => regions id (Operation.mem_dependencies.2 (.inl member))⟩
  have anchors : (table.record first).sheet.Agree table.sheet op.anchor.readsExtent
      op.anchor.dependencies :=
    ⟨fun asked => absurd (anchorsLocally.symm.trans asked) Bool.false_ne_true,
      fun id member => regions id (Operation.mem_dependencies.2 (.inr member))⟩
  have values : ∀ cell ∈ input, (table.record first).sheet.value cell = table.sheet.value cell := by
    intro cell member
    have apart : cell ∉ first.cells := by
      intro covered
      exact unselected cell covered (by simpa [selected, select, Except.toOption] using member)
    exact get_record.trans (by rw [Output.value?_eq_none_iff.2 apart, Option.none_or]; rfl)
  exact ⟨same, input, (Selection.select_congr selects).trans select,
    (Function.call_congr callsLocally values).trans called,
    (Coordinate.resolve_congr anchors).trans resolved⟩

theorem alike_record_record (distinct : first.id ≠ second.id)
    (apart : ∀ cell ∈ first.cells, cell ∉ second.cells) :
    ((table.record first).record second).Alike ((table.record second).record first) := by
  refine ⟨rfl, ?_, ?_⟩
  · funext cell
    simp only [get_record]
    by_cases covered : cell ∈ first.cells
    · have free := Output.value?_eq_none_iff.2 (apart cell covered)
      rw [free, Option.none_or, Option.none_or]
    · have free := Output.value?_eq_none_iff.2 covered
      rw [free, Option.none_or, Option.none_or]
  · funext id
    simp only [regionOf_record]
    by_cases one : first.id = id
    · have two : second.id ≠ id := fun same => distinct (one.trans same.symm)
      simp only [if_pos one, if_neg two]
    · simp only [if_neg one]

/-- Two operations that have nothing to do with one another on a table, and both of which it lets
run. -/
structure Independent (table : Table) (a b : Operation) : Prop where
  distinct : a.id ≠ b.id
  first_local : a.IsLocal
  second_local : b.IsLocal
  second_unread : b.id ∉ a.dependencies
  first_unread : a.id ∉ b.dependencies
  first_applies : ∃ next, table.apply a = .ok next
  second_applies : ∃ next, table.apply b = .ok next
  written_apart : ∀ cell ∈ table.written a, cell ∉ table.written b
  first_unselected : ∀ cell ∈ table.written a, cell ∉ table.selected b
  second_unselected : ∀ cell ∈ table.written b, cell ∉ table.selected a

theorem Independent.exchange (h : table.Independent a b) :
    ∃ afterA afterB ab ba, table.apply a = .ok afterA ∧ table.apply b = .ok afterB ∧
      afterA.apply b = .ok ab ∧ afterB.apply a = .ok ba ∧ ab.Alike ba := by
  obtain ⟨_, applied⟩ := h.first_applies
  obtain ⟨first, emits, within, rfl⟩ := apply_eq_ok_iff_emits.1 applied
  obtain ⟨_, also⟩ := h.second_applies
  obtain ⟨second, emitsToo, withinToo, rfl⟩ := apply_eq_ok_iff_emits.1 also
  have written := h.written_apart
  have unselected := h.first_unselected
  have unselectedToo := h.second_unselected
  rw [written_of_emits emits] at written unselected
  rw [written_of_emits emitsToo] at written unselectedToo
  have later : (table.record first).Emits b second :=
    emitsToo.record h.second_local (emits.1 ▸ h.first_unread) unselected
  have laterToo : (table.record second).Emits a first :=
    emits.record h.first_local (emitsToo.1 ▸ h.second_unread) unselectedToo
  refine ⟨_, _, _, _, applied, also, apply_eq_ok_iff_emits.2 ⟨second, later, withinToo, rfl⟩,
    apply_eq_ok_iff_emits.2 ⟨first, laterToo, within, rfl⟩, alike_record_record ?_ written⟩
  rw [← emits.1, ← emitsToo.1]
  exact h.distinct

theorem Independent.run (h : table.Independent a b) (found : table.operation? a.id = some a)
    (too : table.operation? b.id = some b) (after : List OpId) :
    SameOutcome (table.run (a.id :: b.id :: after)) (table.run (b.id :: a.id :: after)) := by
  obtain ⟨afterA, afterB, ab, ba, first, second, third, fourth, alike⟩ := h.exchange
  have still : afterA.operation? b.id = some b := by
    rw [apply_frame first]
    exact too
  have stillToo : afterB.operation? a.id = some a := by
    rw [apply_frame second]
    exact found
  have outcome := alike.run after
  simpa only [Table.run, operation, found, too, first, second, still, stillToo, third, fourth]
    using outcome

/-- The second order has two neighbours of the first one exchanged, which are independent on what an
evaluation by the first one has come to in front of them. -/
def Exchange (table : Table) (first second : List OpId) : Prop :=
  ∃ before a b after state, first = before ++ a.id :: b.id :: after ∧
    second = before ++ b.id :: a.id :: after ∧
    table.operation? a.id = some a ∧ table.operation? b.id = some b ∧
    table.cleared.run before = (state, .ok ()) ∧ state.Independent a b

theorem Exchange.perm {first second : List OpId} (h : table.Exchange first second) :
    first.Perm second := by
  obtain ⟨before, a, b, after, _, rfl, rfl, _⟩ := h
  exact (List.Perm.swap b.id a.id after).append_left before

theorem Exchange.run {first second : List OpId} (h : table.Exchange first second) :
    SameOutcome (table.cleared.run first) (table.cleared.run second) := by
  obtain ⟨before, a, b, after, state, rfl, rfl, found, too, reached, independent⟩ := h
  rw [run_append, run_append, reached]
  exact independent.run ((operation?_run reached a.id).trans found)
    ((operation?_run reached b.id).trans too) after

theorem perm_and_run_of_exchanges {first second : List OpId}
    (exchanged : Relation.ReflTransGen table.Exchange first second) :
    first.Perm second ∧ SameOutcome (table.cleared.run first) (table.cleared.run second) := by
  induction exchanged with
  | refl => exact ⟨.refl first, (Alike.refl table.cleared).run first⟩
  | tail _ last ih => exact ⟨ih.1.trans last.perm, ih.2.trans last.run⟩

theorem schedule_of_full_order {operations : List Operation} {order : List OpId}
    (listed : ∀ id ∈ order, id ∈ operations.map Operation.id) (nodup : order.Nodup)
    (full : ∀ op ∈ operations, op.id ∈ order) :
    LinkedSheet.schedule operations order =
      match Schedule.unknownDependency? (operations.map Operation.id)
        (dependencyGraph operations) with
      | some id => .error (.unknown id)
      | none => .ok order := by
  cases unknown : Schedule.unknownDependency? (operations.map Operation.id)
      (dependencyGraph operations) with
  | none =>
    rw [Schedule.unknownDependency?_eq_none_iff] at unknown
    exact schedule_of_all_ordered
      ⟨listed, nodup, fun op present => unknown _ (List.mem_map_of_mem present)⟩ full
  | some id =>
    have sound : Schedule.orderFault? (operations.map Operation.id) [] order = none :=
      Schedule.orderFault?_nil_eq_none_iff.2 ⟨listed, nodup⟩
    change Schedule.compute (dependencyGraph operations) order = _
    simp only [Schedule.compute, keys_dependencyGraph, sound, unknown]

theorem evaluate_full_order {order : List OpId}
    (listed : ∀ id ∈ order, id ∈ table.operations.map Operation.id) (nodup : order.Nodup)
    (full : ∀ op ∈ table.operations, op.id ∈ order) :
    SameOutcome ({ table with order := order } : Table).evaluate
      (match Schedule.unknownDependency? (table.operations.map Operation.id)
          (dependencyGraph table.operations) with
        | some id => (table, .error (.schedule (.unknown id)))
        | none => table.cleared.run order) := by
  have scheduled := schedule_of_full_order listed nodup full
  unfold evaluate schedule
  rw [scheduled]
  cases Schedule.unknownDependency? (table.operations.map Operation.id)
      (dependencyGraph table.operations) with
  | some id => exact ⟨rfl, rfl, rfl, rfl⟩
  | none =>
    have alike : (Table.cleared { table with order := order }).Alike table.cleared := ⟨rfl, rfl, rfl⟩
    exact alike.run order

end Table

/-- Two operations that are independent on a table may be applied in either sequence: both succeed,
and the tables in the end agree in every cell and every region. So two orders of all operations that
come from one another by exchanging such neighbours evaluate alike. -/
theorem exchange_independent [Script.Engine] :
    (∀ (table : Table) (a b : Operation), table.Independent a b →
      ∃ afterA afterB ab ba, table.apply a = .ok afterA ∧ table.apply b = .ok afterB ∧
        afterA.apply b = .ok ab ∧ afterB.apply a = .ok ba ∧ ab.Alike ba) ∧
    ∀ (table one : Table) (first second : List OpId), table.setOrder first = .ok one →
      (∀ op ∈ table.operations, op.id ∈ first) →
      Relation.ReflTransGen table.Exchange first second →
        ∃ two, table.setOrder second = .ok two ∧ Table.SameOutcome one.evaluate two.evaluate := by
  refine ⟨fun table a b independent => independent.exchange, ?_⟩
  intro table one first second ordered full exchanged
  obtain ⟨listed, nodup, rfl⟩ := Table.setOrder_eq_ok_iff.1 ordered
  obtain ⟨perm, outcome⟩ := Table.perm_and_run_of_exchanges exchanged
  have listedToo : ∀ id ∈ second, id ∈ table.operations.map Operation.id :=
    fun id member => listed id (perm.mem_iff.2 member)
  have nodupToo : second.Nodup := perm.nodup_iff.1 nodup
  have fullToo : ∀ op ∈ table.operations, op.id ∈ second :=
    fun op present => perm.mem_iff.1 (full op present)
  refine ⟨_, Table.setOrder_eq_ok_iff.2 ⟨listedToo, nodupToo, rfl⟩, ?_⟩
  have here := Table.evaluate_full_order listed nodup full
  have there := Table.evaluate_full_order listedToo nodupToo fullToo
  cases unknown : Schedule.unknownDependency? (table.operations.map Operation.id)
      (dependencyGraph table.operations) with
  | some id =>
    rw [unknown] at here there
    exact here.trans there.symm
  | none =>
    rw [unknown] at here there
    exact (here.trans outcome).trans there.symm

def countBlock : Operation :=
  ⟨2, .operationRegion 1, .reference "C1", .count, some .count⟩

def copyBlock : Operation :=
  ⟨3, .operationRegion 1, .offset (.operationCorner 1 .topRight) 0 1, .copy, some .copy⟩

def besideBlock : Table :=
  { Table.empty with
    operations :=
      [⟨1, .empty, .reference "A1",
          .block (.ofList [(⟨0, 0⟩, .int 4), (⟨1, 0⟩, .text "four")]), none⟩,
        countBlock, copyBlock, ⟨4, .empty, .reference "A1", .block .empty, none⟩] }

theorem exchange_independent_besideBlock :
    (besideBlock.cleared.run [1]).1.Independent countBlock copyBlock ∧
    (∃ counted both, (besideBlock.cleared.run [1]).1.apply countBlock = .ok counted ∧
      counted.apply copyBlock = .ok both) ∧
    besideBlock.Exchange [1, 2, 3, 4] [1, 3, 2, 4] ∧
    ∃ one two, besideBlock.setOrder [1, 2, 3, 4] = .ok one ∧
      besideBlock.setOrder [1, 3, 2, 4] = .ok two ∧ Table.SameOutcome one.evaluate two.evaluate := by
  have applies : ∀ op : Operation, ((besideBlock.cleared.run [1]).1.apply op).isOk = true →
      ∃ next, (besideBlock.cleared.run [1]).1.apply op = .ok next := by
    intro op ok
    cases applied : (besideBlock.cleared.run [1]).1.apply op with
    | ok next => exact ⟨next, rfl⟩
    | error e => simp [applied, Except.isOk, Except.toBool] at ok
  have independent : (besideBlock.cleared.run [1]).1.Independent countBlock copyBlock :=
    { distinct := by decide
      first_local := ⟨rfl, rfl, rfl⟩
      second_local := ⟨rfl, rfl, rfl⟩
      second_unread := by decide
      first_unread := by decide
      first_applies := applies countBlock (by decide +kernel)
      second_applies := applies copyBlock (by decide +kernel)
      written_apart := by decide +kernel
      first_unselected := by decide +kernel
      second_unselected := by decide +kernel }
  have reached : besideBlock.cleared.run [1] = ((besideBlock.cleared.run [1]).1, .ok ()) :=
    Prod.ext rfl (by decide +kernel)
  have exchange : besideBlock.Exchange [1, 2, 3, 4] [1, 3, 2, 4] :=
    ⟨[1], countBlock, copyBlock, [4], _, rfl, rfl, rfl, rfl, reached, independent⟩
  obtain ⟨counted, _, both, _, first, _, second, _, _⟩ :=
    exchange_independent.1 _ countBlock copyBlock independent
  have ordered : besideBlock.setOrder [1, 2, 3, 4] = .ok { besideBlock with order := [1, 2, 3, 4] } :=
    rfl
  obtain ⟨two, orderedToo, outcome⟩ := exchange_independent.2 besideBlock _ [1, 2, 3, 4] [1, 3, 2, 4]
    ordered (by decide) (.single exchange)
  exact ⟨independent, ⟨counted, both, first, second⟩, exchange, _, two, ordered, orderedToo, outcome⟩

end LinkedSheet
