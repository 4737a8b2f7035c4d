import LinkedSheet.Proofs.DocumentText
import LinkedSheet.Proofs.TomlRange

/-!
Writing and reading documents are inverse to each other. A document whose numbers are small enough
is read back as it was written, and the numbers of a document that was read are.
-/
namespace LinkedSheet
open Toml

variable {item : Item} {α : Type} {good : α → Prop}

namespace Ordinate

/-- The indices and identifiers of an ordinate. -/
def numbers : Ordinate → List Nat
  | fixed index => [index]
  | operationEdge id _ _ => [id]
  | _ => []

theorem fits_iff {o : Ordinate} : o.fits = true ↔ ∀ n ∈ o.numbers, n ≤ Document.numberLimit := by
  cases o <;> simp [fits, numbers]

end Ordinate

namespace Coordinate

def numbers : Coordinate → List Nat
  | base row col => row.numbers ++ col.numbers
  | reference _ => []
  | offset inner _ _ => inner.numbers
  | operationCorner id _ => [id]

theorem fits_iff {position : Coordinate} :
    position.fits = true ↔ ∀ n ∈ position.numbers, n ≤ Document.numberLimit := by
  induction position with
  | base row col =>
    simp only [fits, numbers, Bool.and_eq_true, Ordinate.fits_iff, List.forall_mem_append]
  | reference text => simp [fits, numbers]
  | offset inner rows cols ih => exact ih
  | operationCorner id corner => simp [fits, numbers]

end Coordinate

namespace Selection

def numbers : Selection → List Nat
  | box upperLeft lowerRight => upperLeft.numbers ++ lowerRight.numbers
  | column _ fromRow toRow => fromRow :: (toRow.map Ordinate.numbers).getD []
  | operationRegion id => [id]
  | _ => []

theorem fits_iff {selection : Selection} :
    selection.fits = true ↔ ∀ n ∈ selection.numbers, n ≤ Document.numberLimit := by
  cases selection with
  | box upperLeft lowerRight =>
    simp only [fits, numbers, Bool.and_eq_true, Coordinate.fits_iff, List.forall_mem_append]
  | column col fromRow toRow => cases toRow <;> simp [fits, numbers, Ordinate.fits_iff]
  | _ => simp [fits, numbers]

end Selection

def Declaration.numbers (d : Declaration) : List Nat :=
  d.id :: (d.selection.numbers ++ d.anchor.numbers)

theorem Declaration.fits_iff {d : Declaration} :
    d.fits = true ↔ ∀ n ∈ d.numbers, n ≤ Document.numberLimit := by
  simp only [fits, numbers, Bool.and_eq_true, decide_eq_true_eq, Selection.fits_iff,
    Coordinate.fits_iff, List.forall_mem_cons, List.forall_mem_append, and_assoc]

def Document.numbers (d : Document) : List Nat :=
  d.order ++ d.operations.flatMap Declaration.numbers

theorem Document.fits_iff {d : Document} :
    d.fits = true ↔ ∀ n ∈ d.numbers, n ≤ numberLimit := by
  simp only [fits, numbers, Bool.and_eq_true, List.all_eq_true, decide_eq_true_eq,
    Declaration.fits_iff, List.forall_mem_append, List.forall_mem_flatMap]

namespace Toml

variable {expected : String}

theorem ensures_natural (bounded : item.Bounded) :
    Ensures (Item.natural expected item) (· ≤ Document.numberLimit) := by
  unfold Item.natural
  split
  · rename_i line n
    obtain _ | _ := bounded
    rename_i fits
    split
    · exact .error _
    · refine .ok ?_
      have fits : Word.fits n = true := fits
      unfold Word.fits Word.signBound at fits
      unfold Document.numberLimit Word.signBound
      rw [Bool.and_eq_true, decide_eq_true_eq, decide_eq_true_eq] at fits
      omega
  · exact .error _

theorem ensures_integer (bounded : item.Bounded) :
    Ensures (Item.integer expected item) (Word.fits · = true) := by
  unfold Item.integer
  split
  · obtain ⟨_, fits⟩ := bounded
    exact .ok fits
  · exact .error _

theorem ensures_list {read : Item → Reading α}
    (each : ∀ item : Item, item.Bounded → Ensures (read item) good) (bounded : item.Bounded) :
    Ensures (Item.list read item) fun values => ∀ value ∈ values, good value := by
  unfold Item.list
  split
  · exact Ensures.mapM fun item member => each item (Item.bounded_array.1 bounded item member)
  · exact .error _

theorem ensures_variant {kinds : List (String × α)} (each : ∀ entry ∈ kinds, good entry.2)
    (tag : Item) :
    Ensures (match tag with
      | .scalar line (.string name) =>
        match kinds.lookup name with
        | some a => (.ok a : Reading α)
        | none => .error ⟨line, unknown "variant" name (kinds.map Prod.fst)⟩
      | tag => .error (tag.invalid "variant identifier")) good := by
  split
  · split
    · rename_i found
      obtain ⟨before, after, rfl, -⟩ := List.lookup_eq_some_iff.1 found
      exact .ok (each (_, _) (List.mem_append_right before List.mem_cons_self))
    · exact .error _
  · exact .error _

theorem ensures_kind {what : String} {kinds : List (String × α)}
    (each : ∀ entry ∈ kinds, good entry.2) : Ensures (Item.kind what kinds item) good := by
  unfold Item.kind
  dsimp only
  split
  · split
    · exact ensures_variant each _
    · exact .error _
  · exact ensures_variant each _
  · exact .error _
  · exact .error _
  · exact .error _

section Content

variable {content : Content} {slot : Slot α} {name : String} {read : Item → Reading α}

def Slot.Good (slot : Slot α) (good : α → Prop) : Prop :=
  ∀ result, slot.result = some result → Ensures result good

theorem Slot.Good.required (isGood : slot.Good good) : Ensures (slot.required content) good := by
  unfold Slot.required
  split
  · rename_i found
    exact isGood _ found
  · exact .error _

theorem Slot.Good.optional (isGood : slot.Good good) :
    Ensures slot.optional fun found => ∀ a, found = some a → good a := by
  unfold Slot.optional
  split
  · rename_i found
    refine .ok ?_
    rintro _ ⟨⟩
    exact isGood _ found _ rfl
  · exact .error _
  · exact .ok (by simp)

theorem Content.slot_good (bounded : content.fields.Bounded)
    (each : ∀ item : Item, item.Bounded → Ensures (read item) good) :
    (content.slot name read).Good good := by
  intro result found
  obtain ⟨item, inside, rfl⟩ := Option.map_eq_some_iff.1 found
  exact each item (bounded.lookup inside)

theorem Content.ensures_required {other : Content} (bounded : content.fields.Bounded)
    (each : ∀ item : Item, item.Bounded → Ensures (read item) good) :
    Ensures ((content.slot name read).required other) good :=
  (slot_good bounded each).required

theorem Content.ensures_optional (bounded : content.fields.Bounded)
    (each : ∀ item : Item, item.Bounded → Ensures (read item) good) :
    Ensures (content.slot name read).optional fun found => ∀ a, found = some a → good a :=
  (slot_good bounded each).optional

theorem Content.ensures_build {known : List (String × Option Fault)} {value : Reading α}
    (ensured : Ensures value good) : Ensures (content.build known value) good := by
  unfold Content.build
  refine Ensures.any.bind fun _ _ => ensured.bind fun a isGood => ?_
  split
  · exact .ok isGood
  · exact .error _

theorem Fields.bounded_zip {names : List String} {items : List Item}
    (each : ∀ item ∈ items, item.Bounded) : Fields.Bounded (names.zip items) :=
  fun _ member => each _ (List.of_mem_zip member).2

theorem Item.bounded_content {variant : String} {names : List String} (bounded : item.Bounded) :
    (item.content variant names).fields.Bounded := by
  cases bounded with
  | scalar line fits => exact Fields.bounded_nil
  | array line ofTables each =>
    exact Fields.bounded_zip fun item member => each item (List.mem_of_mem_drop member)
  | table line kind each => exact Fields.Bounded.remove each

theorem ensures_whole {κ : Type} {kind : Item → Reading κ} (ensured : Ensures (read item) good) :
    Ensures (Item.whole kind read item) good := by
  unfold Item.whole within
  refine Ensures.any.bind fun _ _ => ?_
  split
  · rename_i found
    exact .ok (ensured _ found)
  · exact .error _

end Content

end Toml

theorem Ordinate.ensures_ofItem (bounded : item.Bounded) :
    Ensures (ofItem item) (fits · = true) := by
  refine Ensures.any.bind fun kind _ => ?_
  cases kind with
  | fixed =>
    refine Content.ensures_build ((Content.ensures_required (Item.bounded_content bounded)
      fun _ => ensures_natural).bind fun index small => ?_)
    exact .ok (by simpa [fits])
  | lastRow => exact .ok rfl
  | lastCol => exact .ok rfl
  | operationEdge =>
    refine Content.ensures_build ((Content.ensures_required (Item.bounded_content bounded)
      fun _ => ensures_natural).bind fun id small => ?_)
    exact Ensures.any.bind fun axis _ => Ensures.any.bind fun edge _ => .ok (by simpa [fits])

namespace Coordinate

def Small (position : Coordinate) : Prop :=
  position.fits = true ∧ position.Signed

theorem ensures_ofItem (bounded : item.Bounded) : Ensures (ofItem item) Small := by
  induction size : sizeOf item using Nat.strong_induction_on generalizing item with
  | h n ih =>
  subst size
  rw [ofItem]
  refine Ensures.any.bind fun kind _ => ?_
  cases kind with
  | base =>
    refine Content.ensures_build ((Content.ensures_required (Item.bounded_content bounded)
      fun _ => Ordinate.ensures_ofItem).bind fun row row_fits => ?_)
    refine (Content.ensures_required (Item.bounded_content bounded)
      fun _ => Ordinate.ensures_ofItem).bind fun col col_fits => ?_
    exact .ok ⟨by simp [fits, row_fits, col_fits], trivial⟩
  | reference =>
    exact Content.ensures_build (Ensures.any.bind fun text _ => .ok ⟨rfl, trivial⟩)
  | offset =>
    have inside {variant : String} {names : List String} : Slot.Good
        ⟨"inner", ((item.content variant names).fields.lookup "inner").attach.map
          fun inner => ofItem inner.1⟩ Small := by
      intro result found
      obtain ⟨⟨inner, member⟩, -, rfl⟩ := Option.map_eq_some_iff.1 found
      exact ih _ (Item.sizeOf_lt_of_content member)
        ((Item.bounded_content bounded).lookup member) rfl
    refine Content.ensures_build (inside.required.bind fun inner inner_small => ?_)
    refine (Content.ensures_optional (Item.bounded_content bounded)
      fun _ => ensures_integer).bind fun rows rows_fit => ?_
    refine (Content.ensures_optional (Item.bounded_content bounded)
      fun _ => ensures_integer).bind fun cols cols_fit => ?_
    refine .ok ⟨inner_small.1, ?_, ?_, inner_small.2⟩
    · cases rows with
      | none => rfl
      | some n => exact rows_fit n rfl
    · cases cols with
      | none => rfl
      | some n => exact cols_fit n rfl
  | operationCorner =>
    refine Content.ensures_build ((Content.ensures_required (Item.bounded_content bounded)
      fun _ => ensures_natural).bind fun id small => ?_)
    exact Ensures.any.bind fun corner _ => .ok ⟨by simpa [fits], trivial⟩

end Coordinate

namespace Selection

def Small (selection : Selection) : Prop :=
  selection.fits = true ∧ selection.Signed

theorem ensures_ofItem (bounded : item.Bounded) : Ensures (ofItem item) Small := by
  refine Ensures.any.bind fun kind _ => ?_
  cases kind with
  | empty => exact .ok ⟨rfl, trivial⟩
  | box =>
    refine Content.ensures_build ((Content.ensures_required (Item.bounded_content bounded)
      fun _ => Coordinate.ensures_ofItem).bind fun upper upper_small => ?_)
    refine (Content.ensures_required (Item.bounded_content bounded)
      fun _ => Coordinate.ensures_ofItem).bind fun lower lower_small => ?_
    exact .ok ⟨by simp [fits, upper_small.1, lower_small.1], upper_small.2, lower_small.2⟩
  | range =>
    exact Content.ensures_build (Ensures.any.bind fun text _ => .ok ⟨rfl, trivial⟩)
  | column =>
    refine Content.ensures_build (Ensures.any.bind fun col _ => ?_)
    refine (Content.ensures_optional (Item.bounded_content bounded)
      fun _ => ensures_natural).bind fun fromRow small => ?_
    refine (Content.ensures_optional (Item.bounded_content bounded)
      fun _ => Ordinate.ensures_ofItem).bind fun toRow row_fits => ?_
    have start : fromRow.getD 1 ≤ Document.numberLimit := by
      cases fromRow with
      | none => decide
      | some n => exact small n rfl
    have stop : (toRow.map Ordinate.fits).getD true = true := by
      cases toRow with
      | none => rfl
      | some o => exact row_fits o rfl
    exact .ok ⟨by simp only [fits, start, stop, decide_true, Bool.and_self], trivial⟩
  | operationRegion =>
    refine Content.ensures_build ((Content.ensures_required (Item.bounded_content bounded)
      fun _ => ensures_natural).bind fun id small => ?_)
    exact .ok ⟨by simpa [fits], trivial⟩

end Selection

theorem Value.ensures_ofItem (bounded : item.Bounded) : Ensures (ofItem item) Signed := by
  unfold ofItem
  split
  · obtain ⟨_, fits⟩ := bounded
    exact .ok fits
  · exact .ok trivial
  · exact .ok trivial
  · exact .error _

namespace FunctionSpec

theorem ensures_kind :
    Ensures (kind item) fun | .plain spec => spec.Signed | _ => True :=
  Toml.ensures_kind (by simp [kinds, Signed])

theorem ensures_ofItem (bounded : item.Bounded) : Ensures (ofItem item) Signed := by
  refine ensures_kind.bind fun kind signed => ?_
  cases kind with
  | rawInput =>
    refine Content.ensures_build ((Content.ensures_required (Item.bounded_content bounded)
      fun _ => ensures_list fun _ => ensures_list fun _ => Value.ensures_ofItem).bind
        fun rows signed => ?_)
    exact .ok signed
  | plain spec => exact .ok signed
  | script => exact Content.ensures_build (Ensures.any.bind fun source _ => .ok trivial)

end FunctionSpec

namespace Declaration

def Small (d : Declaration) : Prop :=
  d.fits = true ∧ d.Signed

theorem ensures_content (bounded : item.Bounded) :
    Ensures (content item) (·.fields.Bounded) := by
  unfold content
  split
  · exact .ok (Item.bounded_table.1 bounded)
  · exact .ok (Fields.bounded_zip (Item.bounded_array.1 bounded))
  · exact .error _
  · exact .error _

theorem ensures_ofItem (bounded : item.Bounded) : Ensures (ofItem item) Small := by
  refine (ensures_content bounded).bind fun content bounded => ?_
  refine Content.ensures_build ((Content.ensures_required bounded
    fun _ => ensures_natural).bind fun id small => ?_)
  refine (Content.ensures_optional bounded
    fun _ inside => ensures_whole (Selection.ensures_ofItem inside)).bind
      fun selection selection_small => ?_
  refine (Content.ensures_required bounded
    fun _ inside => ensures_whole (FunctionSpec.ensures_ofItem inside)).bind
      fun function signed => ?_
  refine (Content.ensures_required bounded
    fun _ inside => ensures_whole (Coordinate.ensures_ofItem inside)).bind
      fun anchor anchor_small => ?_
  have selected : (selection.getD .empty).Small := by
    cases selection with
    | none => exact ⟨rfl, trivial⟩
    | some selection => exact selection_small selection rfl
  refine .ok ⟨?_, selected.2, signed, anchor_small.2⟩
  simp only [fits, small, selected.1, anchor_small.1, decide_true, Bool.and_self]

end Declaration

namespace Document

theorem ensures_ofFields {fields : Fields} (bounded : fields.Bounded) :
    Ensures (ofFields fields) fun d => d.fits = true ∧ d.Signed := by
  refine Content.ensures_build (Ensures.any.bind fun functions _ => ?_)
  refine (Content.ensures_optional bounded fun _ => ensures_list fun _ => ensures_natural).bind
    fun order order_small => ?_
  refine (Content.ensures_optional bounded
    fun _ => ensures_list fun _ => Declaration.ensures_ofItem).bind
      fun operations operations_small => ?_
  have ordered : ∀ id ∈ order.getD [], id ≤ numberLimit := by
    cases order with
    | none => simp
    | some order => exact order_small order rfl
  have declared : ∀ op ∈ operations.getD [], op.Small := by
    cases operations with
    | none => simp
    | some operations => exact operations_small operations rfl
  refine .ok ⟨?_, fun op member => (declared op member).2⟩
  simp only [fits, Bool.and_eq_true, List.all_eq_true, decide_eq_true_eq]
  exact ⟨ordered, fun op member => (declared op member).1⟩

theorem small_of_ofText {limit : Option Nat} {text : String} {d : Document}
    (read : ofText limit text = .ok d) : d.fits = true ∧ d.Signed := by
  unfold ofText at read
  split at read
  · cases read
  · rename_i fields found
    split at read
    · rename_i decoded
      cases read
      exact ensures_ofFields (ensures_read _ found) _ decoded
    · cases read

theorem exists_text {d : Document} (fits : d.fits = true) (signed : d.Signed) :
    ∃ text, d.text = .ok text ∧ ofText none text = .ok d := by
  refine ⟨_, ?_, ofText_write fits signed⟩
  rw [Document.text, if_pos fits]

/-- A document whose identifiers and indices fit beside a sign is written, and what was written is
read back as the same document. What a text was read as is such a document. -/
theorem text_round_trip :
    (∀ d : Document, (∀ n ∈ d.numbers, n ≤ 9223372036854775807) → d.Signed →
      ∃ text, d.text = .ok text ∧ ofText none text = .ok d) ∧
    ∀ (limit : Option Nat) (text : String) (d : Document), ofText limit text = .ok d →
      ∃ written, d.text = .ok written ∧ ofText none written = .ok d := by
  constructor
  · exact fun d small signed => exists_text (fits_iff.2 small) signed
  · intro limit text d read
    obtain ⟨fits, signed⟩ := small_of_ofText read
    exact exists_text fits signed

def nestedDocument : Document where
  functions := ["lib/functions.rhai"]
  order := [2, 9223372036854775807]
  operations :=
    [⟨9223372036854775807,
      .box (.offset (.offset (.reference "A1") 1 (-2)) 0 0) (.base .lastRow (.fixed 3)),
      .rawInput [[.int (-9223372036854775808), .float 1, .text "'\"\\\n"], []],
      .operationCorner 2 .topLeft⟩,
    ⟨2, .empty, .script "sum(region)", .reference "B1"⟩]

theorem text_round_trip_nestedDocument :
    ((∀ n ∈ nestedDocument.numbers, n ≤ 9223372036854775807) ∧ nestedDocument.Signed ∧
      ∃ text, nestedDocument.text = .ok text ∧ ofText none text = .ok nestedDocument) ∧
    ofText (some 80) "order = [7]" = .ok ⟨[], [7], []⟩ ∧
      ∃ written, Document.text ⟨[], [7], []⟩ = .ok written ∧
        ofText none written = .ok ⟨[], [7], []⟩ := by
  have small : ∀ n ∈ nestedDocument.numbers, n ≤ 9223372036854775807 := by decide
  have signed : nestedDocument.Signed := by
    rintro op (_ | ⟨_, _ | ⟨_, ⟨⟩⟩⟩)
    · refine ⟨⟨⟨rfl, rfl, rfl, rfl, trivial⟩, trivial⟩, ?_, trivial⟩
      simp [FunctionSpec.Signed, Value.Signed, Word.fits, Word.signBound]
    · exact ⟨trivial, trivial, trivial⟩
  have read : ofText (some 80) "order = [7]" = .ok ⟨[], [7], []⟩ := by cbv
  exact ⟨⟨small, signed, text_round_trip.1 _ small signed⟩, read, text_round_trip.2 _ _ _ read⟩

end Document

end LinkedSheet
