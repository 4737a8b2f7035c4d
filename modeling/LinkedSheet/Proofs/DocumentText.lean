import LinkedSheet.Proofs.DocumentTables

/-!
Every document whose numbers fit is written, and read back as it was.
-/
namespace LinkedSheet
open Toml

variable {path : List String}

def Value.Signed : Value → Prop
  | int n => Word.fits n = true
  | _ => True

instance : DecidablePred Value.Signed
  | .int n => inferInstanceAs (Decidable (Word.fits n = true))
  | .float _ | .text _ => .isTrue trivial

namespace Coordinate

def Signed : Coordinate → Prop
  | offset inner rows cols => Word.fits rows = true ∧ Word.fits cols = true ∧ inner.Signed
  | _ => True

instance decidableSigned : DecidablePred Signed
  | offset inner rows cols =>
    have := decidableSigned inner
    inferInstanceAs (Decidable (Word.fits rows = true ∧ Word.fits cols = true ∧ inner.Signed))
  | base .. | reference _ | operationCorner .. => .isTrue trivial

end Coordinate

def Selection.Signed : Selection → Prop
  | box upperLeft lowerRight => upperLeft.Signed ∧ lowerRight.Signed
  | _ => True

instance : DecidablePred Selection.Signed
  | .box upperLeft lowerRight =>
    inferInstanceAs (Decidable (upperLeft.Signed ∧ lowerRight.Signed))
  | .empty | .range _ | .column .. | .operationRegion _ => .isTrue trivial

def FunctionSpec.Signed : FunctionSpec → Prop
  | rawInput rows => ∀ row ∈ rows, ∀ value ∈ row, value.Signed
  | _ => True

instance : DecidablePred FunctionSpec.Signed
  | .rawInput rows => inferInstanceAs (Decidable (∀ row ∈ rows, ∀ value ∈ row, value.Signed))
  | .average | .sum | .min | .max | .count | .copy | .script _ => .isTrue trivial

structure Declaration.Signed (d : Declaration) : Prop where
  selection : d.selection.Signed
  function : d.function.Signed
  anchor : d.anchor.Signed

def Document.Signed (d : Document) : Prop :=
  ∀ op ∈ d.operations, op.Signed

namespace Toml

theorem fits_ofNat {n : Nat} (small : n ≤ Document.numberLimit) : (Literal.ofNat n).Fits := by
  refine .integer ?_
  unfold Document.numberLimit Word.signBound at small
  unfold Word.fits Word.signBound
  rw [Bool.and_eq_true, decide_eq_true_eq, decide_eq_true_eq]
  omega

def documentNames : List String :=
  ["functions", "order", "operations", "id", "input_selection", "function", "output_anchor", "type",
    "val", "op_id", "axis", "edge", "row", "col", "cell", "inner", "row_offset", "col_offset",
    "corner", "upper_left", "lower_right", "range", "from_row", "to_row", "values", "source"]

theorem isBare_of_documentNames : ∀ name ∈ documentNames, IsBare name := by
  simp [documentNames, IsBare, isBareChar]

structure IsPath (path : List String) : Prop where
  some_name : path ≠ []
  named : ∀ name ∈ path, name ∈ documentNames

theorem IsPath.append (isPath : IsPath path) {name : String} (named : name ∈ documentNames) :
    IsPath (path ++ [name]) where
  some_name := by simp
  named other member := by
    rcases List.mem_append.1 member with member | member
    · exact isPath.named other member
    · rwa [List.mem_singleton.1 member]

def NamedFits (field : String × Literal) : Prop := field.1 ∈ documentNames ∧ field.2.Fits

theorem NamedFits.fits {written : List (String × Literal)}
    (fits : ∀ field ∈ written, NamedFits field) : ∀ field ∈ written, FieldFits field :=
  fun field member => ⟨isBare_of_documentNames _ (fits field member).1, (fits field member).2⟩

theorem fits_part {inArray : Bool} {written : List (String × Literal)} (isPath : IsPath path)
    (fits : ∀ field ∈ written, NamedFits field) : (⟨inArray, path, written⟩ : Part).Fits where
  some_name := isPath.some_name
  bare name member := isBare_of_documentNames name (isPath.named name member)
  fields := NamedFits.fits fits

theorem fits_tagged {tag : String} {written : List (String × Literal)} (isPath : IsPath path)
    (fits : ∀ field ∈ written, NamedFits field) : (Part.tagged path tag written).Fits :=
  fits_part isPath (List.forall_mem_cons.2 ⟨⟨by simp [documentNames], .string tag⟩, fits⟩)

end Toml

theorem Ordinate.part_fits (isPath : IsPath path) {o : Ordinate} (fits : o.fits = true) :
    (o.part path).Fits := by
  cases o with
  | fixed index =>
    have small : index ≤ Document.numberLimit := by simpa [Ordinate.fits] using fits
    refine fits_tagged isPath ?_
    exact List.forall_mem_singleton.2 ⟨by simp [documentNames], fits_ofNat small⟩
  | lastRow => exact fits_tagged isPath (by simp)
  | lastCol => exact fits_tagged isPath (by simp)
  | operationEdge id axis edge =>
    have small : id ≤ Document.numberLimit := by simpa [Ordinate.fits] using fits
    refine fits_tagged isPath ?_
    simp only [List.forall_mem_cons, NamedFits]
    exact ⟨⟨by simp [documentNames], fits_ofNat small⟩, ⟨by simp [documentNames], .string _⟩,
      ⟨by simp [documentNames], .string _⟩, by simp⟩

theorem Coordinate.parts_fit (isPath : IsPath path) {position : Coordinate}
    (fits : position.fits = true) (signed : position.Signed) :
    ∀ part ∈ position.parts path, part.Fits := by
  induction position generalizing path with
  | base row col =>
    obtain ⟨row_fits, col_fits⟩ : row.fits = true ∧ col.fits = true := by
      simpa [Coordinate.fits] using fits
    simp only [Coordinate.parts, List.forall_mem_cons]
    exact ⟨fits_tagged isPath (by simp),
      Ordinate.part_fits (isPath.append (by simp [documentNames])) row_fits,
      Ordinate.part_fits (isPath.append (by simp [documentNames])) col_fits, by simp⟩
  | reference text =>
    simp only [Coordinate.parts, List.forall_mem_cons]
    refine ⟨fits_tagged isPath ?_, by simp⟩
    exact List.forall_mem_singleton.2 ⟨by simp [documentNames], .string text⟩
  | offset inner rows cols ih =>
    obtain ⟨rows_fit, cols_fit, signed⟩ := signed
    simp only [Coordinate.parts, List.forall_mem_cons]
    refine ⟨fits_tagged isPath ?_, ih (isPath.append (by simp [documentNames])) fits signed⟩
    simp only [List.forall_mem_cons, NamedFits]
    exact ⟨⟨by simp [documentNames], .integer rows_fit⟩,
      ⟨by simp [documentNames], .integer cols_fit⟩, by simp⟩
  | operationCorner id corner =>
    have small : id ≤ Document.numberLimit := by simpa [Coordinate.fits] using fits
    simp only [Coordinate.parts, List.forall_mem_cons]
    refine ⟨fits_tagged isPath ?_, by simp⟩
    simp only [List.forall_mem_cons, NamedFits]
    exact ⟨⟨by simp [documentNames], fits_ofNat small⟩, ⟨by simp [documentNames], .string _⟩,
      by simp⟩

theorem Selection.parts_fit (isPath : IsPath path) {selection : Selection}
    (fits : selection.fits = true) (signed : selection.Signed) :
    ∀ part ∈ selection.parts path, part.Fits := by
  cases selection with
  | empty => simp [Selection.parts]
  | box upperLeft lowerRight =>
    obtain ⟨upper_fits, lower_fits⟩ : upperLeft.fits = true ∧ lowerRight.fits = true := by
      simpa [Selection.fits] using fits
    simp only [Selection.parts, List.forall_mem_cons, List.forall_mem_append]
    exact ⟨fits_tagged isPath (by simp),
      Coordinate.parts_fit (isPath.append (by simp [documentNames])) upper_fits signed.1,
      Coordinate.parts_fit (isPath.append (by simp [documentNames])) lower_fits signed.2⟩
  | range text =>
    simp only [Selection.parts, List.forall_mem_cons]
    refine ⟨fits_tagged isPath ?_, by simp⟩
    exact List.forall_mem_singleton.2 ⟨by simp [documentNames], .string text⟩
  | column col fromRow toRow =>
    obtain ⟨small, row_fits⟩ : fromRow ≤ Document.numberLimit ∧
        (toRow.map Ordinate.fits).getD true = true := by
      simpa [Selection.fits] using fits
    have header : (Part.tagged path "Column"
        [("col", .string col), ("from_row", .ofNat fromRow)]).Fits := by
      refine fits_tagged isPath ?_
      simp only [List.forall_mem_cons, NamedFits]
      exact ⟨⟨by simp [documentNames], .string _⟩, ⟨by simp [documentNames], fits_ofNat small⟩,
        by simp⟩
    cases toRow with
    | none => simpa [Selection.parts] using header
    | some row =>
      simp only [Selection.parts, List.forall_mem_cons]
      exact ⟨header, Ordinate.part_fits (isPath.append (by simp [documentNames])) row_fits, by simp⟩
  | operationRegion id =>
    have small : id ≤ Document.numberLimit := by simpa [Selection.fits] using fits
    simp only [Selection.parts, List.forall_mem_cons]
    refine ⟨fits_tagged isPath ?_, by simp⟩
    exact List.forall_mem_singleton.2 ⟨by simp [documentNames], fits_ofNat small⟩

theorem Value.literal_fits {value : Value} (signed : value.Signed) : value.literal.Fits := by
  cases value with
  | int n => exact .integer signed
  | float x => exact .float x
  | text s => exact .string s

theorem FunctionSpec.part_fits (isPath : IsPath path) {spec : FunctionSpec}
    (signed : spec.Signed) : (spec.part path).Fits := by
  cases spec with
  | rawInput rows =>
    refine fits_tagged isPath ?_
    have each : ∀ item ∈ rows.map fun row => Literal.array (row.map Value.literal), item.Fits := by
      simp only [List.forall_mem_map]
      intro row member
      refine .array ?_
      simp only [List.forall_mem_map]
      exact fun value inside => Value.literal_fits (signed row member value inside)
    exact List.forall_mem_singleton.2 ⟨by simp [documentNames], .array each⟩
  | script source =>
    refine fits_tagged isPath ?_
    exact List.forall_mem_singleton.2 ⟨by simp [documentNames], .string source⟩
  | _ => exact fits_tagged isPath (by simp)

theorem Declaration.parts_fit {d : Declaration} (fits : d.fits = true) (signed : d.Signed) :
    ∀ part ∈ d.parts, part.Fits := by
  obtain ⟨⟨small, selection_fits⟩, anchor_fits⟩ :
      (d.id ≤ Document.numberLimit ∧ d.selection.fits = true) ∧ d.anchor.fits = true := by
    simpa [Declaration.fits] using fits
  have isPath : IsPath ["operations"] := ⟨by simp, by simp [documentNames]⟩
  simp only [Declaration.parts, List.forall_mem_cons, List.forall_mem_append]
  refine ⟨fits_part isPath ?_,
    Selection.parts_fit (isPath.append (by simp [documentNames])) selection_fits signed.selection,
    FunctionSpec.part_fits (isPath.append (by simp [documentNames])) signed.function,
    Coordinate.parts_fit (isPath.append (by simp [documentNames])) anchor_fits signed.anchor⟩
  exact List.forall_mem_singleton.2 ⟨by simp [documentNames], fits_ofNat small⟩

namespace Document

theorem fields_fit {d : Document} (small : ∀ id ∈ d.order, id ≤ numberLimit) :
    ∀ field ∈ d.fields, FieldFits field := by
  have list {name : String} (named : name ∈ documentNames) {items : List Literal}
      (each : ∀ item ∈ items, item.Fits) : ∀ field ∈ listField name items, NamedFits field := by
    unfold listField
    split
    · simp
    · exact List.forall_mem_singleton.2 ⟨named, .array each⟩
  refine NamedFits.fits ?_
  simp only [fields, List.forall_mem_append]
  refine ⟨⟨list (by simp [documentNames]) ?_, list (by simp [documentNames]) ?_⟩, ?_⟩
  · simpa using fun path _ => Literal.Fits.string path
  · simp only [List.forall_mem_map]
    exact fun id member => fits_ofNat (small id member)
  · split
    · exact List.forall_mem_singleton.2 ⟨by simp [documentNames], .array (by simp)⟩
    · simp

theorem fits_order {d : Document} (fits : d.fits = true) : ∀ id ∈ d.order, id ≤ numberLimit := by
  unfold Document.fits at fits
  rw [Bool.and_eq_true, List.all_eq_true] at fits
  exact fun id member => of_decide_eq_true (fits.1 id member)

theorem parts_fit {d : Document} (fits : d.fits = true) (signed : d.Signed) :
    ∀ part ∈ d.operations.flatMap Declaration.parts, part.Fits := by
  unfold Document.fits at fits
  rw [Bool.and_eq_true, List.all_eq_true, List.all_eq_true] at fits
  intro part member
  obtain ⟨op, inside, member⟩ := List.mem_flatMap.1 member
  exact Declaration.parts_fit (fits.2 op inside) (signed op inside) part member

def ReadsList {α : Type} (name : String) (read : Item → Reading α) (values : List α)
    (fields : Fields) : Prop :=
  fields = [] ∧ values = [] ∨ ∃ item, fields = [(name, item)] ∧ Item.list read item = .ok values

theorem exists_listField {α : Type} {name : String} {read : Item → Reading α} {values : List α}
    {literal : α → Literal} {fields : Fields} {rest : List (String × Literal)}
    (each : ∀ value ∈ values, ∀ item : Item, item.Holds (literal value) → read item = .ok value)
    (hold : fields.Hold (listField name (values.map literal) ++ rest)) :
    ∃ front more, fields = front ++ more ∧ ReadsList name read values front ∧
      Fields.Hold more rest := by
  unfold listField at hold
  cases values with
  | nil => exact ⟨[], fields, rfl, .inl ⟨rfl, rfl⟩, hold⟩
  | cons value values =>
    obtain ⟨item, more, rfl, holds, hold⟩ := hold.array
    exact ⟨[(name, item)], more, rfl, .inr ⟨item, rfl, holds.list each⟩, hold⟩

theorem ofFields_append {functions order operations : Fields} {d : Document}
    (functions_read : ReadsList "functions" (Item.string "path string") d.functions functions)
    (order_read : ReadsList "order" (Item.natural "u64") d.order order)
    (operations_read : ReadsList "operations" Declaration.ofItem d.operations operations) :
    ofFields (functions ++ (order ++ operations)) = .ok d := by
  obtain ⟨functions_d, order_d, operations_d⟩ := d
  dsimp only at functions_read order_read operations_read
  rcases functions_read with ⟨rfl, rfl⟩ | ⟨_, rfl, functions_list⟩ <;>
  rcases order_read with ⟨rfl, rfl⟩ | ⟨_, rfl, order_list⟩ <;>
  rcases operations_read with ⟨rfl, rfl⟩ | ⟨_, rfl, operations_list⟩ <;>
  simp [ofFields, Content.slot, Content.build, Content.firstFault, Slot.fault, Slot.optional,
    List.lookup, bind, Except.bind, pure, Except.pure, *]

theorem string_of_holds (path : String) (item : Item) (holds : item.Holds (.string path)) :
    Item.string "path string" item = .ok path := by
  cases holds
  rfl

theorem natural_of_holds (n : Nat) (item : Item) (holds : item.Holds (.ofNat n)) :
    Item.natural "u64" item = .ok n := by
  cases holds
  rfl

theorem fields_names (d : Document) :
    (d.fields.map Prod.fst).Sublist ["functions", "order", "operations"] := by
  have list (name : String) (items : List Literal) :
      ((listField name items).map Prod.fst).Sublist [name] := by
    unfold listField
    split <;> simp
  unfold fields
  rw [List.map_append, List.map_append]
  refine ((list _ _).append (list _ _)).append ?_
  split <;> simp

theorem lacks_operations {d : Document} (some_operation : d.operations ≠ []) :
    "operations" ∉ d.fields.map Prod.fst := by
  have list {name : String} (items : List Literal) (other : "operations" ≠ name) :
      "operations" ∉ (listField name items).map Prod.fst := by
    unfold listField
    split <;> simp [other]
  simp only [fields, List.map_append, List.mem_append, not_or]
  exact ⟨⟨list _ (by simp), list _ (by simp)⟩, by simp [some_operation]⟩

theorem ofText_write {d : Document} (fits : d.fits = true) (signed : d.Signed) :
    ofText none (Toml.write d.fields (d.operations.flatMap Declaration.parts)) = .ok d := by
  obtain ⟨start, sections, start_holds, sections_hold, read⟩ :=
    read_write (fields_fit (fits_order fits)) (parts_fit fits signed)
  obtain ⟨held, hold, added⟩ := fill_holds start_holds (d.fields_names.nodup (by simp))
  have held_names := hold.map_fst
  rw [fields, List.append_assoc] at hold
  obtain ⟨functions, _, rfl, functions_read, hold⟩ :=
    exists_listField (fun path _ => string_of_holds path) hold
  obtain ⟨order, empty, rfl, order_read, hold⟩ :=
    exists_listField (fun id _ => natural_of_holds id) hold
  have decoded : ∃ operations, ReadsList "operations" Declaration.ofItem d.operations operations ∧
      addSections sections (functions ++ (order ++ empty)) =
        .ok (functions ++ (order ++ operations)) := by
    by_cases none : d.operations = []
    · rw [none] at hold sections_hold
      obtain ⟨item, _, rfl, holds, rest⟩ := hold.array
      obtain rfl := rest.nil
      cases sections_hold
      refine ⟨_, .inr ⟨item, rfl, ?_⟩, rfl⟩
      rw [none]
      cases holds with
      | array _ all => cases all; rfl
    · rw [if_neg (by simpa using none)] at hold
      obtain rfl := hold.nil
      have lacks : Fields.Lacks (functions ++ (order ++ [])) "operations" := by
        rw [Fields.Lacks, held_names]
        exact lacks_operations none
      obtain ⟨line, items, all, step⟩ :=
        exists_array none (fun op _ => op.isElement) lacks sections_hold
      refine ⟨_, .inr ⟨.array line true items, rfl, Item.list_ok all⟩, ?_⟩
      simpa using step
  obtain ⟨operations, operations_read, step⟩ := decoded
  have read : Toml.read none (Toml.write d.fields (d.operations.flatMap Declaration.parts)) =
      .ok (functions ++ (order ++ operations)) := by
    rw [read, added]
    exact step
  rw [ofText, read]
  dsimp only
  rw [ofFields_append functions_read order_read operations_read]

end Document

end LinkedSheet
