import LinkedSheet.Document.Reader
import LinkedSheet.Document.Writer
import LinkedSheet.Proofs.TomlTables

/-!
The tables that positions, selections, functions and operations are written as, and that these are
read back from them.
-/
namespace LinkedSheet
open Toml

variable {path : List String} {name : String} {line : Nat} {fields : Fields}

namespace Toml.Fields.Hold

variable {rest : List (String × Literal)}

theorem nil (hold : fields.Hold []) : fields = [] := by
  cases hold
  rfl

theorem string {s : String} (hold : fields.Hold ((name, .string s) :: rest)) :
    ∃ line more, fields = (name, .scalar line (.string s)) :: more ∧ Fields.Hold more rest := by
  obtain _ | ⟨⟨same, holds⟩, hold⟩ := hold
  rename_i field more
  obtain ⟨_, _⟩ := field
  cases same
  cases holds
  exact ⟨_, _, rfl, hold⟩

theorem integer {n : Int} (hold : fields.Hold ((name, .integer n) :: rest)) :
    ∃ line more, fields = (name, .scalar line (.integer n)) :: more ∧ Fields.Hold more rest := by
  obtain _ | ⟨⟨same, holds⟩, hold⟩ := hold
  rename_i field more
  obtain ⟨_, _⟩ := field
  cases same
  cases holds
  exact ⟨_, _, rfl, hold⟩

end Toml.Fields.Hold

theorem Ordinate.grows (path : List String) (name : String) (o : Ordinate) :
    Grows path [name] [o.part (path ++ [name])] fun added =>
      ∃ item, added = [(name, item)] ∧ Ordinate.ofItem item = .ok o := by
  cases o with
  | fixed index =>
    refine (Grows.table Grows.nil (by simp)).mono ?_
    rintro _ ⟨line, held, _, rfl, hold, rfl⟩
    obtain ⟨_, _, rfl, value⟩ := hold.string
    obtain ⟨_, _, rfl, none⟩ := value.integer
    obtain rfl := none.nil
    exact ⟨_, rfl, rfl⟩
  | lastRow =>
    refine (Grows.table Grows.nil (by simp)).mono ?_
    rintro _ ⟨line, held, _, rfl, hold, rfl⟩
    obtain ⟨_, _, rfl, none⟩ := hold.string
    obtain rfl := none.nil
    exact ⟨_, rfl, rfl⟩
  | lastCol =>
    refine (Grows.table Grows.nil (by simp)).mono ?_
    rintro _ ⟨line, held, _, rfl, hold, rfl⟩
    obtain ⟨_, _, rfl, none⟩ := hold.string
    obtain rfl := none.nil
    exact ⟨_, rfl, rfl⟩
  | operationEdge id axis edge =>
    refine (Grows.table Grows.nil (by simp)).mono ?_
    rintro _ ⟨line, held, _, rfl, hold, rfl⟩
    obtain ⟨_, _, rfl, values⟩ := hold.string
    obtain ⟨_, _, rfl, names⟩ := values.integer
    obtain ⟨_, _, rfl, last⟩ := names.string
    obtain ⟨_, _, rfl, none⟩ := last.string
    obtain rfl := none.nil
    refine ⟨_, rfl, ?_⟩
    cases axis <;> cases edge <;> rfl

namespace Coordinate

variable {first second : Nat} {row col inner : Item}

theorem ofItem_base {r c : Ordinate} (row_read : Ordinate.ofItem row = .ok r)
    (col_read : Ordinate.ofItem col = .ok c) :
    ofItem (.table first .header [("type", .scalar second (.string "Base")), ("row", row),
      ("col", col)]) = .ok (.base r c) := by
  rw [ofItem]
  simp [kind, kinds, Item.kind, Item.content, Content.slot, Content.build, Content.firstFault,
    Slot.fault, Slot.required, row_read, col_read, Fields.remove, bind, Except.bind, pure,
    Except.pure, List.lookup]

theorem ofItem_offset {position : Coordinate} {rows cols : Int} {third fourth : Nat}
    (read : ofItem inner = .ok position) :
    ofItem (.table first .header [("type", .scalar second (.string "Offset")),
      ("row_offset", .scalar third (.integer rows)), ("col_offset", .scalar fourth (.integer cols)),
      ("inner", inner)]) = .ok (.offset position rows cols) := by
  have inside (found : Option Item) :
      found.attach.map (fun inner => ofItem inner.1) = found.map ofItem := by
    cases found <;> rfl
  rw [ofItem]
  simp [inside, kind, kinds, Item.kind, Item.content, Content.slot, Content.build,
    Content.firstFault, Slot.fault, Slot.required, Slot.optional, Item.integer, read,
    Fields.remove, bind, Except.bind, pure, Except.pure, List.lookup]

theorem ofItem_reference {text : String} {third : Nat} :
    ofItem (.table first .header [("type", .scalar second (.string "Cell")),
      ("cell", .scalar third (.string text))]) = .ok (.reference text) := by
  rw [ofItem]
  rfl

theorem ofItem_operationCorner {id : Nat} {corner : Corner} {third fourth : Nat} :
    ofItem (.table first .header [("type", .scalar second (.string "OpCorner")),
      ("op_id", .scalar third (.integer id)), ("corner", .scalar fourth (.string corner.label))]) =
      .ok (.operationCorner id corner) := by
  rw [ofItem]
  cases corner <;> rfl

theorem grows (path : List String) (name : String) (position : Coordinate) :
    Grows path [name] (position.parts (path ++ [name])) fun added =>
      ∃ item, added = [(name, item)] ∧ ofItem item = .ok position := by
  induction position generalizing path name with
  | base row col =>
    have children := (Ordinate.grows (path ++ [name]) "row" row).append
      (Ordinate.grows (path ++ [name]) "col" col) (by simp)
    refine (Grows.table children (by simp)).mono ?_
    rintro _ ⟨line, held, _, rfl, hold, _, _, rfl, ⟨row_item, rfl, row_read⟩, col_item, rfl,
      col_read⟩
    obtain ⟨_, _, rfl, none⟩ := hold.string
    obtain rfl := none.nil
    exact ⟨_, rfl, ofItem_base row_read col_read⟩
  | reference text =>
    refine (Grows.table Grows.nil (by simp)).mono ?_
    rintro _ ⟨line, held, _, rfl, hold, rfl⟩
    obtain ⟨_, _, rfl, value⟩ := hold.string
    obtain ⟨_, _, rfl, none⟩ := value.string
    obtain rfl := none.nil
    exact ⟨_, rfl, ofItem_reference⟩
  | offset inner rows cols ih =>
    refine (Grows.table (ih (path ++ [name]) "inner") (by simp)).mono ?_
    rintro _ ⟨line, held, _, rfl, hold, inner_item, rfl, read⟩
    obtain ⟨_, _, rfl, values⟩ := hold.string
    obtain ⟨_, _, rfl, last⟩ := values.integer
    obtain ⟨_, _, rfl, none⟩ := last.integer
    obtain rfl := none.nil
    exact ⟨_, rfl, ofItem_offset read⟩
  | operationCorner id corner =>
    refine (Grows.table Grows.nil (by simp)).mono ?_
    rintro _ ⟨line, held, _, rfl, hold, rfl⟩
    obtain ⟨_, _, rfl, values⟩ := hold.string
    obtain ⟨_, _, rfl, last⟩ := values.integer
    obtain ⟨_, _, rfl, none⟩ := last.string
    obtain rfl := none.nil
    exact ⟨_, rfl, ofItem_operationCorner⟩

end Coordinate

namespace Toml

theorem Item.list_ok {α : Type} {read : Item → Reading α} {items : List Item} {values : List α}
    {ofTables : Bool} (each : List.Forall₂ (fun item value => read item = .ok value) items values) :
    Item.list read (.array line ofTables items) = .ok values := by
  change items.mapM read = .ok values
  induction each with
  | nil => rfl
  | cons found _ ih =>
    rw [List.mapM_cons, found, ih]
    rfl

theorem Item.Holds.list {α : Type} {read : Item → Reading α} {literal : α → Literal}
    {item : Item} {values : List α}
    (each : ∀ value ∈ values, ∀ item : Item, item.Holds (literal value) → read item = .ok value)
    (holds : item.Holds (.array (values.map literal))) : Item.list read item = .ok values := by
  obtain _ | _ | _ | ⟨line, all⟩ := holds
  apply Item.list_ok
  rw [List.forall₂_map_right_iff] at all
  induction all with
  | nil => exact .nil
  | cons first _ ih =>
    exact .cons (each _ List.mem_cons_self _ first)
      (ih fun value member => each value (List.mem_cons_of_mem _ member))

theorem Fields.Hold.array {literals : List Literal} {more : List (String × Literal)}
    (hold : fields.Hold ((name, .array literals) :: more)) :
    ∃ item others, fields = (name, item) :: others ∧ item.Holds (.array literals) ∧
      Fields.Hold others more := by
  obtain _ | ⟨⟨same, holds⟩, hold⟩ := hold
  rename_i field others
  obtain ⟨_, item⟩ := field
  cases same
  exact ⟨item, others, rfl, holds, hold⟩

theorem Item.whole_ok {κ α : Type} {kind : Item → Reading κ} {read : Item → Reading α} {item : Item}
    {k : κ} {value : α} (known : kind item = .ok k) (found : read item = .ok value) :
    Item.whole kind read item = .ok value := by
  rw [Item.whole, known, found]
  rfl

end Toml

theorem Value.ofItem_holds {item : Item} {value : Value} (holds : item.Holds value.literal) :
    Value.ofItem item = .ok value := by
  cases value <;> cases holds <;> rfl

namespace FunctionSpec

theorem grows (path : List String) (name : String) (spec : FunctionSpec) :
    Grows path [name] [spec.part (path ++ [name])] fun added =>
      ∃ item, added = [(name, item)] ∧ Item.whole kind ofItem item = .ok spec := by
  cases spec with
  | rawInput rows =>
    refine (Grows.table Grows.nil (by simp)).mono ?_
    rintro _ ⟨line, held, _, rfl, hold, rfl⟩
    obtain ⟨_, _, rfl, value⟩ := hold.string
    obtain ⟨item, _, rfl, holds, none⟩ := value.array
    obtain rfl := none.nil
    have read : Item.list (Item.list Value.ofItem) item = .ok rows :=
      Item.Holds.list (fun row _ item holds => Item.Holds.list
        (fun value _ item holds => Value.ofItem_holds holds) holds) holds
    refine ⟨_, rfl, Item.whole_ok rfl ?_⟩
    simp [ofItem, kind, kinds, Item.kind, Item.content, Content.slot, Content.build,
      Content.firstFault, Slot.fault, Slot.required, read, Fields.remove, bind, Except.bind, pure,
      Except.pure, List.lookup, FunctionSpec.name]
  | script source =>
    refine (Grows.table Grows.nil (by simp)).mono ?_
    rintro _ ⟨line, held, _, rfl, hold, rfl⟩
    obtain ⟨_, _, rfl, value⟩ := hold.string
    obtain ⟨_, _, rfl, none⟩ := value.string
    obtain rfl := none.nil
    exact ⟨_, rfl, rfl⟩
  | _ =>
    refine (Grows.table Grows.nil (by simp)).mono ?_
    rintro _ ⟨line, held, _, rfl, hold, rfl⟩
    obtain ⟨_, _, rfl, none⟩ := hold.string
    obtain rfl := none.nil
    exact ⟨_, rfl, rfl⟩

end FunctionSpec

namespace Selection

theorem ofItem_box {first second : Nat} {upper lower : Item} {u l : Coordinate}
    (upper_read : Coordinate.ofItem upper = .ok u) (lower_read : Coordinate.ofItem lower = .ok l) :
    ofItem (.table first .header [("type", .scalar second (.string "Box")), ("upper_left", upper),
      ("lower_right", lower)]) = .ok (.box u l) := by
  simp [ofItem, kind, kinds, Item.kind, Item.content, Content.slot, Content.build,
    Content.firstFault, Slot.fault, Slot.required, upper_read, lower_read, Fields.remove, bind,
    Except.bind, pure, Except.pure, List.lookup]

theorem ofItem_column {first second third fourth : Nat} {col : String} {fromRow : Nat} {row : Item}
    {o : Ordinate} (read : Ordinate.ofItem row = .ok o) :
    ofItem (.table first .header [("type", .scalar second (.string "Column")),
      ("col", .scalar third (.string col)), ("from_row", .scalar fourth (.integer fromRow)),
      ("to_row", row)]) = .ok (.column col fromRow (some o)) := by
  have natural : Item.natural "usize" (.scalar fourth (.integer fromRow)) = .ok fromRow := rfl
  simp [ofItem, kind, kinds, Item.kind, Item.content, Content.slot, Content.build,
    Content.firstFault, Slot.fault, Slot.required, Slot.optional, read, natural, Item.string,
    Fields.remove, bind, Except.bind, pure, Except.pure, List.lookup]

theorem grows (path : List String) (name : String) {selection : Selection}
    (other : selection ≠ .empty) :
    Grows path [name] (selection.parts (path ++ [name])) fun added =>
      ∃ item, added = [(name, item)] ∧ ofItem item = .ok selection := by
  cases selection with
  | empty => exact absurd rfl other
  | box upperLeft lowerRight =>
    have children := (Coordinate.grows (path ++ [name]) "upper_left" upperLeft).append
      (Coordinate.grows (path ++ [name]) "lower_right" lowerRight) (by simp)
    refine (Grows.table children (by simp)).mono ?_
    rintro _ ⟨line, held, _, rfl, hold, _, _, rfl, ⟨upper, rfl, upper_read⟩, lower, rfl, lower_read⟩
    obtain ⟨_, _, rfl, none⟩ := hold.string
    obtain rfl := none.nil
    exact ⟨_, rfl, ofItem_box upper_read lower_read⟩
  | range text =>
    refine (Grows.table Grows.nil (by simp)).mono ?_
    rintro _ ⟨line, held, _, rfl, hold, rfl⟩
    obtain ⟨_, _, rfl, value⟩ := hold.string
    obtain ⟨_, _, rfl, none⟩ := value.string
    obtain rfl := none.nil
    exact ⟨_, rfl, rfl⟩
  | column col fromRow toRow =>
    cases toRow with
    | none =>
      refine (Grows.table Grows.nil (by simp)).mono ?_
      rintro _ ⟨line, held, _, rfl, hold, rfl⟩
      obtain ⟨_, _, rfl, values⟩ := hold.string
      obtain ⟨_, _, rfl, last⟩ := values.string
      obtain ⟨_, _, rfl, none⟩ := last.integer
      obtain rfl := none.nil
      exact ⟨_, rfl, rfl⟩
    | some row =>
      refine (Grows.table (Ordinate.grows (path ++ [name]) "to_row" row) (by simp)).mono ?_
      rintro _ ⟨line, held, _, rfl, hold, item, rfl, read⟩
      obtain ⟨_, _, rfl, values⟩ := hold.string
      obtain ⟨_, _, rfl, last⟩ := values.string
      obtain ⟨_, _, rfl, none⟩ := last.integer
      obtain rfl := none.nil
      exact ⟨_, rfl, ofItem_column read⟩
  | operationRegion id =>
    refine (Grows.table Grows.nil (by simp)).mono ?_
    rintro _ ⟨line, held, _, rfl, hold, rfl⟩
    obtain ⟨_, _, rfl, value⟩ := hold.string
    obtain ⟨_, _, rfl, none⟩ := value.integer
    obtain rfl := none.nil
    exact ⟨_, rfl, rfl⟩

theorem whole_ok {item : Item} {selection : Selection} (read : ofItem item = .ok selection) :
    Item.whole kind ofItem item = .ok selection := by
  cases known : kind item with
  | error fault =>
    rw [ofItem, known] at read
    cases read
  | ok k => exact Item.whole_ok known read

end Selection

theorem Coordinate.whole_ok {item : Item} {position : Coordinate}
    (read : ofItem item = .ok position) :
    Item.whole kind ofItem item = .ok position := by
  cases known : kind item with
  | error fault =>
    rw [ofItem, known] at read
    cases read
  | ok k => exact Item.whole_ok known read

namespace Declaration

theorem grows (d : Declaration) :
    ∃ names, (["id"] ++ names).Nodup ∧ Grows ["operations"] names
      (d.selection.parts ["operations", "input_selection"] ++
        d.function.part ["operations", "function"] ::
          d.anchor.parts ["operations", "output_anchor"]) fun added =>
      ∃ selection function anchor,
        added = selection ++ [("function", function), ("output_anchor", anchor)] ∧
        (selection = [] ∧ d.selection = .empty ∨
          ∃ item, selection = [("input_selection", item)] ∧
            Selection.ofItem item = .ok d.selection) ∧
        Item.whole FunctionSpec.kind FunctionSpec.ofItem function = .ok d.function ∧
        Coordinate.ofItem anchor = .ok d.anchor := by
  have last := (FunctionSpec.grows ["operations"] "function" d.function).append
    (Coordinate.grows ["operations"] "output_anchor" d.anchor) (by simp)
  by_cases empty : d.selection = .empty
  · refine ⟨["function", "output_anchor"], by simp, ?_⟩
    rw [empty]
    refine last.mono ?_
    rintro _ ⟨_, _, rfl, ⟨function, rfl, function_read⟩, anchor, rfl, anchor_read⟩
    exact ⟨[], function, anchor, rfl, .inl ⟨rfl, rfl⟩, function_read, anchor_read⟩
  · refine ⟨["input_selection", "function", "output_anchor"], by simp, ?_⟩
    refine ((Selection.grows ["operations"] "input_selection" empty).append last (by simp)).mono ?_
    rintro _ ⟨_, _, rfl, ⟨item, rfl, read⟩, _, _, rfl, ⟨function, rfl, function_read⟩, anchor, rfl,
      anchor_read⟩
    exact ⟨_, function, anchor, rfl, .inr ⟨item, rfl, read⟩, function_read, anchor_read⟩

theorem isElement (d : Declaration) :
    IsElement "operations" d.parts fun item => ofItem item = .ok d := by
  obtain ⟨names, distinct, grows⟩ := d.grows
  refine ⟨[("id", .ofNat d.id)], names, _, _, rfl, distinct, grows, ?_⟩
  rintro line held _ hold ⟨selection, function, anchor, rfl, selected, function_read, anchor_read⟩
  obtain ⟨third, _, rfl, none⟩ := hold.integer
  obtain rfl := none.nil
  have natural : Item.natural "u64" (.scalar third (.integer d.id)) = .ok d.id := rfl
  have anchor_whole := Coordinate.whole_ok anchor_read
  obtain ⟨id, selection_d, function_d, anchor_d⟩ := d
  rcases selected with ⟨rfl, same⟩ | ⟨item, rfl, read⟩
  · dsimp only at same natural function_read anchor_whole
    subst same
    simp [ofItem, content, Content.slot, Content.build, Content.firstFault, Slot.fault,
      Slot.required, Slot.optional, natural, function_read, anchor_whole, bind, Except.bind, pure,
      Except.pure, List.lookup]
  · have whole := Selection.whole_ok read
    dsimp only at whole natural function_read anchor_whole
    simp [ofItem, content, Content.slot, Content.build, Content.firstFault, Slot.fault,
      Slot.required, Slot.optional, natural, whole, function_read, anchor_whole, bind, Except.bind,
      pure, Except.pure, List.lookup]

end Declaration

end LinkedSheet
