import LinkedSheet.Proofs.OpenedTable
import LinkedSheet.Proofs.TomlNesting

/-!
Which saved documents are loaded again. A document of any size and any nesting is saved, and one is
loaded only if its text has at most 1048576 bytes and every path of names in it is shorter than 80.
Every position around another position adds a name to the paths of the tables inside.
-/
namespace LinkedSheet

open Toml FileSystem

variable {path : List String} {limit levels : Nat}

@[simp] theorem Toml.Part.tagged_path {tag : String} {written : List (String × Literal)} :
    (Part.tagged path tag written).path = path := rfl

@[simp] theorem Ordinate.part_path (o : Ordinate) : (o.part path).path = path := by
  cases o <;> rfl

@[simp] theorem FunctionSpec.part_path (spec : FunctionSpec) : (spec.part path).path = path := rfl

namespace Coordinate

/-- The number of names by which the tables of a position lengthen its path. -/
def nesting : Coordinate → Nat
  | base .. => 1
  | reference _ => 0
  | offset inner _ _ => inner.nesting + 1
  | operationCorner .. => 0

theorem short_iff {position : Coordinate} :
    (∀ part ∈ position.parts path, part.path.length < limit) ↔
      path.length + position.nesting < limit := by
  induction position generalizing path with
  | base row col =>
    simp [parts, nesting]
    omega
  | reference text => simp [parts, nesting]
  | offset inner rows cols ih =>
    simp [parts, nesting, ih]
    omega
  | operationCorner id corner => simp [parts, nesting]

end Coordinate

namespace Selection

def nesting : Selection → Nat
  | empty => 0
  | box upperLeft lowerRight => max upperLeft.nesting lowerRight.nesting + 1
  | range _ => 0
  | column _ _ toRow => if toRow.isSome then 1 else 0
  | operationRegion _ => 0

theorem short_iff {selection : Selection} (path : List String) (short : path.length < limit) :
    (∀ part ∈ selection.parts path, part.path.length < limit) ↔
      path.length + selection.nesting < limit := by
  cases selection with
  | empty => simpa [parts, nesting] using short
  | box upperLeft lowerRight =>
    simp only [parts, List.forall_mem_cons, List.forall_mem_append, Coordinate.short_iff, nesting,
      Part.tagged_path, List.length_append, List.length_singleton]
    omega
  | range text => simp [parts, nesting]
  | column col fromRow toRow =>
    cases toRow with
    | none => simp [parts, nesting]
    | some ordinate =>
      simp [parts, nesting]
      omega
  | operationRegion id => simp [parts, nesting]

end Selection

namespace Declaration

/-- The number of names in the longest path of a declaration that is not too long for its name. -/
def nesting (d : Declaration) : Nat :=
  max d.selection.nesting d.anchor.nesting + 2

theorem short_iff {d : Declaration} (room : 2 < limit) :
    (∀ part ∈ d.parts, part.path.length < limit) ↔ d.nesting < limit := by
  simp only [parts, List.forall_mem_cons, List.forall_mem_append, Coordinate.short_iff,
    Selection.short_iff ["operations", "input_selection"] room, nesting,
    FunctionSpec.part_path, List.length_cons, List.length_nil]
  omega

end Declaration

theorem Toml.fieldsWithin_tagged {tag : String} {written : List (String × Literal)}
    (within : FieldsWithin levels written) :
    FieldsWithin levels (Part.tagged path tag written).fields :=
  List.forall_mem_cons.2 ⟨.string levels tag, within⟩

theorem Ordinate.part_within (o : Ordinate) : FieldsWithin levels (o.part path).fields := by
  cases o <;> refine fieldsWithin_tagged ?_ <;>
    simp [FieldsWithin, Literal.ofNat, Literal.Within.string, Literal.Within.integer]

theorem Coordinate.parts_within (position : Coordinate) :
    ∀ part ∈ position.parts path, FieldsWithin levels part.fields := by
  induction position generalizing path with
  | base row col =>
    simp only [parts, List.forall_mem_cons]
    exact ⟨fieldsWithin_tagged (by simp [FieldsWithin]), row.part_within, col.part_within, by simp⟩
  | reference text =>
    refine List.forall_mem_singleton.2 (fieldsWithin_tagged ?_)
    simp [FieldsWithin, Literal.Within.string]
  | offset inner rows cols ih =>
    refine List.forall_mem_cons.2 ⟨fieldsWithin_tagged ?_, ih⟩
    simp [FieldsWithin, Literal.Within.integer]
  | operationCorner id corner =>
    refine List.forall_mem_singleton.2 (fieldsWithin_tagged ?_)
    simp [FieldsWithin, Literal.ofNat, Literal.Within.string, Literal.Within.integer]

theorem Selection.parts_within (selection : Selection) :
    ∀ part ∈ selection.parts path, FieldsWithin levels part.fields := by
  cases selection with
  | empty => simp [parts]
  | box upperLeft lowerRight =>
    simp only [parts, List.forall_mem_cons, List.forall_mem_append]
    exact ⟨fieldsWithin_tagged (by simp [FieldsWithin]), upperLeft.parts_within,
      lowerRight.parts_within⟩
  | range text =>
    refine List.forall_mem_singleton.2 (fieldsWithin_tagged ?_)
    simp [FieldsWithin, Literal.Within.string]
  | column col fromRow toRow =>
    refine List.forall_mem_cons.2 ⟨fieldsWithin_tagged ?_, ?_⟩
    · simp [FieldsWithin, Literal.ofNat, Literal.Within.string, Literal.Within.integer]
    · cases toRow with
      | none => simp
      | some ordinate => exact List.forall_mem_singleton.2 ordinate.part_within
  | operationRegion id =>
    refine List.forall_mem_singleton.2 (fieldsWithin_tagged ?_)
    simp [FieldsWithin, Literal.ofNat, Literal.Within.integer]

theorem Value.literal_within (value : Value) : value.literal.Within levels := by
  cases value with
  | int n => exact .integer levels n
  | float x => exact .float levels x
  | text s => exact .string levels s

theorem FunctionSpec.part_within (spec : FunctionSpec) : FieldsWithin 2 (spec.part path).fields := by
  refine fieldsWithin_tagged ?_
  cases spec with
  | rawInput rows =>
    refine List.forall_mem_singleton.2 (.array ?_)
    simp only [List.forall_mem_map]
    refine fun row _ => .array ?_
    simp only [List.forall_mem_map]
    exact fun value _ => value.literal_within
  | script source => exact List.forall_mem_singleton.2 (.string 2 source)
  | _ => simp [FieldsWithin]

theorem Declaration.parts_within (d : Declaration) :
    ∀ part ∈ d.parts, FieldsWithin 2 part.fields := by
  simp only [parts, List.forall_mem_cons, List.forall_mem_append]
  exact ⟨List.forall_mem_singleton.2 (.integer 2 _), d.selection.parts_within,
    d.function.part_within, d.anchor.parts_within⟩

namespace Document
variable {d : Document}

theorem fields_within (d : Document) : FieldsWithin 2 d.fields := by
  have list (name : String) {items : List Literal} (each : ∀ item ∈ items, item.Within 1) :
      FieldsWithin 2 (listField name items) := by
    unfold listField
    split
    · simp [FieldsWithin]
    · exact List.forall_mem_singleton.2 (.array each)
  refine List.forall_mem_append.2 ⟨List.forall_mem_append.2 ⟨list _ ?_, list _ ?_⟩, ?_⟩
  · simp [Literal.Within.string]
  · simp [Literal.ofNat, Literal.Within.integer]
  · split
    · exact List.forall_mem_singleton.2 (.array (by simp))
    · simp

theorem ofText_some (fits : d.fits = true) (signed : d.Signed) (room : 2 < limit) :
    (∀ op ∈ d.operations, op.nesting < limit) ∧
        ofText (some limit) (Toml.write d.fields (d.operations.flatMap Declaration.parts)) = .ok d ∨
      (∃ op ∈ d.operations, limit ≤ op.nesting) ∧
        ∃ line, ofText (some limit) (Toml.write d.fields (d.operations.flatMap Declaration.parts)) =
          .error (.malformed line) := by
  have within : ∀ part ∈ d.operations.flatMap Declaration.parts, FieldsWithin 2 part.fields := by
    intro part member
    obtain ⟨op, -, inside⟩ := List.mem_flatMap.1 member
    exact op.parts_within part inside
  rcases read_write_some (fields_fit (fits_order fits)) (parts_fit fits signed) room (by omega)
      d.fields_within within with ⟨short, same⟩ | ⟨⟨part, member, long⟩, line, stops⟩
  · refine .inl ⟨fun op inside => ?_, ?_⟩
    · exact (Declaration.short_iff room).1 fun part member =>
        short part (List.mem_flatMap.2 ⟨op, inside, member⟩)
    · have whole := ofText_write fits signed
      unfold ofText at whole ⊢
      rw [same]
      exact whole
  · obtain ⟨op, inside, among⟩ := List.mem_flatMap.1 member
    refine .inr ⟨⟨op, inside, ?_⟩, line, ?_⟩
    · by_contra deep
      exact absurd ((Declaration.short_iff room).2 (Nat.lt_of_not_le deep) part among)
        (Nat.not_lt.2 long)
    · unfold ofText
      rw [stops]

end Document

def Operation.nesting [Script.Engine] (op : Operation) : Nat :=
  max op.selection.nesting op.anchor.nesting + 2

theorem Table.nesting_declarations [Script.Engine] {operations : List Operation} {declared : List Declaration}
    (ok : declarations operations = .ok declared) :
    declared.map Declaration.nesting = operations.map Operation.nesting := by
  induction operations generalizing declared with
  | nil =>
    cases ok
    rfl
  | cons op rest ih =>
    obtain ⟨spec, more, -, later, rfl⟩ := declarations_cons ok
    rw [List.map_cons, List.map_cons, ih later]
    rfl

namespace Session
variable {σ : Type} [FileSystem (StateM σ)] {files others : σ} {place : String} {text : String}

theorem load_large [LooksOnly σ] {limit : Option Nat}
    (written : Written place text.toUTF8 files others)
    (large : Document.sizeLimit < text.toUTF8.size) :
    (Document.load limit place : Storing (StateM σ) Document).on others =
      (.error (.file (.tooLarge place "table document" text.toUTF8.size Document.sizeLimit)),
        others) := by
  unfold Document.load
  refine (Storing.andThen_on (ExceptT.lift (kind? place)) _).trans ?_
  rw [Storing.lift_on, kind_run, written.kind]
  dsimp only
  unfold Document.readText
  rw [Storing.andThen_on, Storing.andThen_on, Storing.file_on, size_run, written.size]
  dsimp only [Except.mapError]
  rw [if_pos large]
  rfl

variable [Lawful σ]

/-- Saving has no limits and loading has two. A saved document is loaded as it was saved if it has
at most 1048576 bytes and no path of 80 names; it is refused if it has more bytes, and otherwise if
it has such a path. -/
theorem load_saved [Script.Engine] (table : Table) (signed : ∀ op ∈ table.operations, op.Signed) (files others : σ)
    (sound : Lawful.Sound files) (path place : String) (saved : Table)
    (answered : (saveAs path).on table files = ((.ok place, saved), others)) :
    ∃ d text, Saved table path place files others d text ∧
      (text.toUTF8.size ≤ 1048576 → (∀ op ∈ table.operations, op.nesting < 80) →
        (Document.load Toml.nestingLimit place : Storing (StateM σ) Document).on others =
          (.ok d, others)) ∧
      (1048576 < text.toUTF8.size →
        (Document.load Toml.nestingLimit place : Storing (StateM σ) Document).on others =
          (.error (.file (.tooLarge place "table document" text.toUTF8.size 1048576)), others)) ∧
      (text.toUTF8.size ≤ 1048576 → (∃ op ∈ table.operations, 80 ≤ op.nesting) →
        ∃ line, (Document.load Toml.nestingLimit place : Storing (StateM σ) Document).on others =
          (.error (.malformed line), others)) := by
  obtain ⟨-, d, text, save⟩ := exists_saved answered
  have written := (Lawful.written sound save.write).2
  obtain ⟨fits, text_eq⟩ := fits_of_text save.text_eq
  have declared := Table.signed_declarations signed save.operations
  have nesting := Table.nesting_declarations save.operations
  have short_iff : (∀ op ∈ d.operations, op.nesting < 80) ↔
      ∀ op ∈ table.operations, op.nesting < 80 := by
    rw [← List.forall_mem_map (P := (· < 80)), nesting, List.forall_mem_map]
  have read := Document.ofText_some fits declared (by decide : 2 < 80)
  rw [← text_eq] at read
  refine ⟨d, text, save, fun small short => ?_, load_large written, ?_⟩
  · rcases read with ⟨-, whole⟩ | ⟨⟨op, member, long⟩, -⟩
    · exact (load_on written small).trans (congrArg (·, others) whole)
    · exact absurd (short_iff.2 short op member) (Nat.not_lt.2 long)
  · rintro small ⟨op, member, long⟩
    rcases read with ⟨short, -⟩ | ⟨-, line, stops⟩
    · exact absurd (short_iff.1 short op member) (Nat.not_lt.2 long)
    · exact ⟨line, (load_on written small).trans (congrArg (·, others) stops)⟩

end Session

def onesBelow (count : Nat) : FunctionSpec :=
  .rawInput (List.replicate count [.int 1])

def ones (count : Nat) : Table :=
  { Table.empty with
    operations := [⟨1, .empty, .reference "A1",
      .block (Block.ofList (Function.rowEntries (List.replicate count [.int 1]))),
      some (onesBelow count)⟩] }

namespace Session

theorem signed_ones (count : Nat) : ∀ op ∈ (ones count).operations, op.Signed := by
  refine List.forall_mem_singleton.2 ⟨trivial, trivial, fun spec same => ?_⟩
  obtain rfl := Option.some.inj same
  intro row member value inside
  rw [List.eq_of_mem_replicate member] at inside
  obtain rfl := List.mem_singleton.1 inside
  decide

theorem exists_saved_ones (count : Nat) :
    ∃ saved others, (saveAs "t.toml").on (ones count) (FileTree.empty []) =
      ((.ok "t.toml", saved), others) := by
  have answer : ((saveAs "t.toml").on (ones count) (FileTree.empty [])).1.1 = .ok "t.toml" := rfl
  rcases done : (saveAs "t.toml").on (ones count) (FileTree.empty []) with
    ⟨⟨outcome, saved⟩, others⟩
  rw [done] at answer
  obtain rfl : outcome = .ok "t.toml" := answer
  exact ⟨saved, others, rfl⟩

theorem sound_empty : Lawful.Sound (FileTree.empty []) := by
  intro name member
  cases member

theorem operations_of_saved_ones {path place text : String} {files others : FileTree} {count : Nat}
    {d : Document} (save : Saved (ones count) path place files others d text) :
    d.operations = [⟨1, .empty, onesBelow count, .reference "A1"⟩] :=
  (Except.ok.inj save.operations).symm

theorem load_saved_ones :
    ∃ (saved : Table) (others : FileTree) (d : Document),
      (saveAs "t.toml").on (ones 2) (FileTree.empty []) = ((.ok "t.toml", saved), others) ∧
      (Document.load Toml.nestingLimit "t.toml" : Storing (StateM FileTree) Document).on others =
        (.ok d, others) ∧
      d.operations = [⟨1, .empty, onesBelow 2, .reference "A1"⟩] := by
  have size : sizeAt ((saveAs "t.toml").on (ones 2) (FileTree.empty [])).2 "t.toml" = .ok 137 := by
    decide +kernel
  obtain ⟨saved, others, done⟩ := exists_saved_ones 2
  rw [done] at size
  obtain ⟨d, text, save, loads, -⟩ := load_saved (ones 2) (signed_ones 2) (FileTree.empty []) others
    sound_empty "t.toml" "t.toml" saved done
  have written := (Lawful.written sound_empty save.write).2
  have small : text.toUTF8.size ≤ 1048576 := by
    rw [Except.ok.inj (written.size.symm.trans size)]
    decide
  exact ⟨saved, others, d, done, loads small (by decide), operations_of_saved_ones save⟩

end Session

theorem length_le_size (text : String) : text.toList.length ≤ text.toUTF8.size := by
  have each (cs : List Char) : cs.length ≤ String.utf8Len cs := by
    induction cs with
    | nil => exact Nat.zero_le _
    | cons c rest ih =>
      have some_byte := c.utf8Size_pos
      rw [List.length_cons, String.utf8Len_cons]
      omega
  rw [String.toUTF8_eq_toByteArray, String.size_toByteArray, ← String.utf8Len_toList]
  exact each text.toList

namespace Toml

theorem sublist_intercalate {piece between : List Char} {pieces : List (List Char)}
    (member : piece ∈ pieces) : piece.Sublist (between.intercalate pieces) := by
  induction pieces with
  | nil => cases member
  | cons first more ih =>
    cases more with
    | nil =>
      obtain rfl := List.mem_singleton.1 member
      rw [List.intercalate_singleton]
    | cons next more =>
      rw [List.intercalate_cons_cons, List.append_assoc]
      rcases List.mem_cons.1 member with rfl | later
      · exact List.sublist_append_left _ _
      · exact ((ih later).trans (List.sublist_append_right _ _)).trans
          (List.sublist_append_right _ _)

theorem field_sublist_write (fields : List (String × Literal)) {parts : List Part} {part : Part}
    {field : String × Literal} (among : part ∈ parts) (member : field ∈ part.fields) :
    (Writer.field field).Sublist (write fields parts).toList := by
  have inside : (Writer.field field).Sublist (Writer.part part) :=
    (List.sublist_flatten_of_mem (List.mem_map_of_mem member)).trans
      (List.sublist_append_right _ _)
  refine inside.trans ?_
  have written : Writer.part part ∈ parts.map Writer.part := List.mem_map_of_mem among
  unfold write
  dsimp only
  rw [String.toList_ofList]
  split
  · exact sublist_intercalate written
  · exact sublist_intercalate (List.mem_cons_of_mem _ written)

theorem length_elements (items : List Literal) :
    3 * items.length ≤ (Writer.elements items).length + 1 := by
  induction items with
  | nil => simp
  | cons item more ih =>
    obtain ⟨c, tail, text, -⟩ := exists_literal item
    cases more with
    | nil => simp [Writer.elements, text]
    | cons next more =>
      simp only [Writer.elements, text, List.length_cons, List.length_append] at ih ⊢
      omega

end Toml

namespace Session

theorem size_of_saved_ones {path place text : String} {files others : FileTree} {count : Nat}
    {d : Document} (save : Saved (ones count) path place files others d text) :
    3 * count ≤ text.toUTF8.size := by
  obtain ⟨-, text_eq⟩ := fits_of_text save.text_eq
  have field : ("values", Literal.array ((List.replicate count [Value.int 1]).map fun row =>
      .array (row.map Value.literal))) ∈
      ((onesBelow count).part ["operations", "function"]).fields := by
    simp [onesBelow, FunctionSpec.part, Part.tagged]
  have among : (onesBelow count).part ["operations", "function"] ∈
      d.operations.flatMap Declaration.parts := by
    simp [operations_of_saved_ones save, Declaration.parts]
  have whole := (field_sublist_write d.fields among field).length_le
  rw [← text_eq] at whole
  have elements := length_elements ((List.replicate count [Value.int 1]).map fun row =>
    .array (row.map Value.literal))
  simp only [Writer.field, Writer.literal, List.length_append, List.length_cons] at whole
  rw [List.length_map, List.length_replicate] at elements
  have bytes := length_le_size text
  omega

theorem saved_ones_refused :
    ∃ (saved : Table) (others : FileTree) (size : Nat),
      Table.empty.bindSpec .empty (.reference "A1") (onesBelow 600000) none =
        .ok (1, ones 600000) ∧
      (∀ op ∈ (ones 600000).operations, op.Signed) ∧
      (saveAs "t.toml").on (ones 600000) (FileTree.empty []) =
        ((.ok "t.toml", saved), others) ∧
      (Document.load Toml.nestingLimit "t.toml" : Storing (StateM FileTree) Document).on others =
        (.error (.file (.tooLarge "t.toml" "table document" size 1048576)), others) := by
  obtain ⟨saved, others, done⟩ := exists_saved_ones 600000
  obtain ⟨-, d, text, save⟩ := exists_saved done
  have large := size_of_saved_ones save
  have written := (Lawful.written sound_empty save.write).2
  have limit : Document.sizeLimit = 1048576 := rfl
  exact ⟨saved, others, text.toUTF8.size, rfl, signed_ones 600000, done,
    load_large written (by omega)⟩

end Session

end LinkedSheet
