import LinkedSheet.Toml.Reader

/-!
Every integer that is read of a text has 64 bits with its sign, wherever in the document it stands.
-/
namespace LinkedSheet

def Ensures {ε α : Type} (result : Except ε α) (good : α → Prop) : Prop :=
  ∀ a, result = .ok a → good a

namespace Ensures

variable {ε α β : Type} {result : Except ε α} {next : α → Except ε β} {good : α → Prop}
  {fine : β → Prop}

theorem ok {a : α} (isGood : good a) : Ensures (.ok a : Except ε α) good := by
  rintro _ ⟨⟩
  exact isGood

theorem error (e : ε) : Ensures (.error e : Except ε α) good := by
  rintro _ ⟨⟩

theorem bind (first : Ensures result good) (later : ∀ a, good a → Ensures (next a) fine) :
    Ensures (result >>= next) fine := by
  cases result with
  | error e => exact error e
  | ok a => exact later a (first a rfl)

theorem any : Ensures result fun _ => True :=
  fun _ _ => trivial

theorem mapM {read : α → Except ε β} {items : List α} (each : ∀ a ∈ items, Ensures (read a) fine) :
    Ensures (items.mapM read) fun values => ∀ value ∈ values, fine value := by
  induction items with
  | nil => exact ok (by simp)
  | cons a more ih =>
    rw [List.mapM_cons]
    refine (each a List.mem_cons_self).bind fun value isFine => ?_
    refine (ih fun b member => each b (List.mem_cons_of_mem _ member)).bind fun values all => ?_
    exact ok (List.forall_mem_cons.2 ⟨isFine, all⟩)

end Ensures

namespace Toml

variable {limit : Option Nat}

def Scalar.Bounded : Scalar → Prop
  | integer n => Word.fits n = true
  | _ => True

inductive Item.Bounded : Item → Prop
  | scalar (line : Nat) {value : Scalar} : value.Bounded → Bounded (.scalar line value)
  | array (line : Nat) (ofTables : Bool) {items : List Item} :
      (∀ item ∈ items, Bounded item) → Bounded (.array line ofTables items)
  | table (line : Nat) (kind : TableKind) {fields : List (String × Item)} :
      (∀ field ∈ fields, Bounded field.2) → Bounded (.table line kind fields)

def Fields.Bounded (fields : Fields) : Prop :=
  ∀ field ∈ fields, field.2.Bounded

theorem Item.bounded_array {line : Nat} {ofTables : Bool} {items : List Item} :
    (array line ofTables items).Bounded ↔ ∀ item ∈ items, item.Bounded :=
  ⟨fun | .array _ _ each => each, .array line ofTables⟩

theorem Item.bounded_table {line : Nat} {kind : TableKind} {fields : Fields} :
    (table line kind fields).Bounded ↔ fields.Bounded :=
  ⟨fun | .table _ _ each => each, .table line kind⟩

namespace Fields

variable {fields inner : Fields} {name : String} {item : Item}

theorem bounded_nil : Bounded [] := by
  simp [Bounded]

theorem Bounded.append (bounded : fields.Bounded) (fits : item.Bounded) :
    Bounded (fields ++ [(name, item)]) := by
  intro field member
  rcases List.mem_append.1 member with member | member
  · exact bounded field member
  · rwa [List.mem_singleton.1 member]

theorem Bounded.set (bounded : fields.Bounded) (fits : item.Bounded) :
    (Fields.set name item fields).Bounded := by
  intro field member
  obtain ⟨old, inside, rfl⟩ := List.mem_map.1 member
  split
  · exact fits
  · exact bounded old inside

theorem Bounded.remove (bounded : fields.Bounded) : (Fields.remove name fields).Bounded :=
  fun field member => bounded field (List.mem_filter.1 member).1

theorem Bounded.lookup (bounded : fields.Bounded) (found : fields.lookup name = some item) :
    item.Bounded := by
  obtain ⟨before, after, rfl, -⟩ := List.lookup_eq_some_iff.1 found
  exact bounded (name, item) (by simp)

theorem Bounded.set_table {line : Nat} {kind : TableKind} (bounded : fields.Bounded)
    (inside : inner.Bounded) : (Fields.set name (.table line kind inner) fields).Bounded :=
  bounded.set (Item.bounded_table.2 inside)

theorem Bounded.set_last {line start : Nat} {kind : TableKind} {items : List Item}
    (bounded : fields.Bounded) (found : fields.lookup name = some (.array line true items))
    (inside : inner.Bounded) :
    (Fields.set name (.array line true (items.dropLast ++ [.table start kind inner]))
      fields).Bounded := by
  have each := Item.bounded_array.1 (bounded.lookup found)
  refine bounded.set (Item.bounded_array.2 (List.forall_mem_append.2 ⟨?_, ?_⟩))
  · exact fun item member => each item (List.dropLast_subset items member)
  · exact List.forall_mem_singleton.2 (Item.bounded_table.2 inside)

theorem Bounded.last {line start : Nat} {kind : TableKind} {items : List Item}
    (bounded : fields.Bounded) (found : fields.lookup name = some (.array line true items))
    (last : items.getLast? = some (.table start kind inner)) : inner.Bounded :=
  Item.bounded_table.1
    (Item.bounded_array.1 (bounded.lookup found) _ (List.mem_of_getLast? last))

theorem bounded_insert? {accepts : Bool} {path : List String} {out : Fields}
    (fits : item.Bounded) (bounded : fields.Bounded)
    (inserted : insert? item accepts path fields = some out) : out.Bounded := by
  fun_induction insert? item accepts path fields generalizing out with
  | case1 | case3 | case8 | case9 => cases inserted
  | case2 =>
    cases inserted
    exact bounded.append fits
  | case4 _ _ _ _ _ _ ih =>
    obtain ⟨inner, done, rfl⟩ := Option.map_eq_some_iff.1 inserted
    exact bounded.append (Item.bounded_table.2 (ih bounded_nil done))
  | case5 _ _ _ _ _ _ _ found ih | case6 _ _ _ _ _ _ _ found ih =>
    obtain ⟨inner, done, rfl⟩ := Option.map_eq_some_iff.1 inserted
    exact bounded.set_table (ih (Item.bounded_table.1 (bounded.lookup found)) done)
  | case7 _ _ _ _ _ _ _ found _ _ _ last ih =>
    obtain ⟨inner, done, rfl⟩ := Option.map_eq_some_iff.1 inserted
    exact bounded.set_last found (ih (bounded.last found last) done)

theorem ensures_place {line : Nat} {inArray : Bool} {fill : Fields → Except Nat Fields}
    {path : List String}
    (filled : ∀ fields : Fields, fields.Bounded → Ensures (fill fields) Fields.Bounded)
    (bounded : fields.Bounded) : Ensures (place line inArray fill path fields) Fields.Bounded := by
  fun_induction place line inArray fill path fields with
  | case1 | case6 | case8 | case11 | case12 => exact .error line
  | case2 =>
    refine (filled [] bounded_nil).bind fun inner inside => .ok (bounded.append ?_)
    exact Item.bounded_array.2 (List.forall_mem_singleton.2 (Item.bounded_table.2 inside))
  | case3 _ _ _ _ found =>
    refine (filled [] bounded_nil).bind fun inner inside => .ok (bounded.set ?_)
    exact Item.bounded_array.2 (List.forall_mem_append.2 ⟨Item.bounded_array.1
      (bounded.lookup found), List.forall_mem_singleton.2 (Item.bounded_table.2 inside)⟩)
  | case4 =>
    exact (filled [] bounded_nil).bind fun inner inside =>
      .ok (bounded.append (Item.bounded_table.2 inside))
  | case5 _ _ _ inner found =>
    exact (filled inner (Item.bounded_table.1 (bounded.lookup found))).bind fun inner inside =>
      .ok (bounded.remove.append (Item.bounded_table.2 inside))
  | case7 _ _ _ _ _ ih =>
    exact (ih bounded_nil).bind fun inner inside =>
      .ok (bounded.append (Item.bounded_table.2 inside))
  | case9 _ _ _ _ _ _ _ _ found ih =>
    exact (ih (Item.bounded_table.1 (bounded.lookup found))).bind fun inner inside =>
      .ok (bounded.set_table inside)
  | case10 _ _ _ _ _ _ found _ _ _ last ih =>
    exact (ih (bounded.last found last)).bind fun inner inside =>
      .ok (bounded.set_last found inside)

end Fields

namespace Number

variable {cs rest : List Char} {value : Scalar} {negative : Bool}

theorem bounded_of_bounded? {n : Int} (found : bounded? n = some value) : value.Bounded := by
  unfold bounded? at found
  split at found
  · cases found
    assumption
  · cases found

theorem bounded_of_based? {base : Nat} (found : based? base cs = some (value, rest)) :
    value.Bounded := by
  simp only [based?, bind, Option.bind_eq_some_iff] at found
  obtain ⟨_, _, _, _, _, fits, ⟨⟩⟩ := found
  exact bounded_of_bounded? fits

theorem bounded_of_float? {whole fraction : List Char} {exponent : Int}
    (found : float? negative whole fraction exponent = some value) : value.Bounded := by
  simp only [float?, bind, Option.bind_eq_some_iff] at found
  obtain ⟨_, _, found⟩ := found
  split at found <;> cases found
  trivial

theorem bounded_of_decimal? (found : decimal? negative cs = some (value, rest)) :
    value.Bounded := by
  simp only [decimal?, bind, Option.bind_eq_some_iff] at found
  obtain ⟨_, _, found⟩ := found
  split at found
  · simp only [Option.bind_eq_some_iff] at found
    obtain ⟨_, _, _, _, _, float, ⟨⟩⟩ := found
    exact bounded_of_float? float
  · simp only [Option.bind_eq_some_iff] at found
    obtain ⟨_, _, found⟩ := found
    split at found
    · simp only [Option.bind_eq_some_iff] at found
      obtain ⟨_, float, ⟨⟩⟩ := found
      exact bounded_of_float? float
    · simp only [Option.bind_eq_some_iff] at found
      obtain ⟨_, _, _, fits, ⟨⟩⟩ := found
      exact bounded_of_bounded? fits

theorem bounded_of_unsigned? (found : unsigned? negative cs = some (value, rest)) :
    value.Bounded := by
  unfold unsigned? at found
  split at found
  · cases found
    trivial
  · cases found
    trivial
  · exact bounded_of_decimal? found

theorem bounded_of_number? (found : number? cs = some (value, rest)) : value.Bounded := by
  unfold number? at found
  split at found
  · exact bounded_of_based? found
  · exact bounded_of_based? found
  · exact bounded_of_based? found
  · exact bounded_of_unsigned? found
  · exact bounded_of_unsigned? found
  · exact bounded_of_unsigned? found

theorem bounded_of_read? (found : read? cs = some (value, rest)) : value.Bounded := by
  unfold read? at found
  split at found
  · cases found
    trivial
  · cases found
    trivial
  · split at found
    · obtain ⟨_, _, ⟨⟩⟩ := Option.map_eq_some_iff.1 found
      trivial
    · split at found
      · obtain ⟨_, _, ⟨⟩⟩ := Option.map_eq_some_iff.1 found
        trivial
      · exact bounded_of_number? found

end Number

theorem bounded_inlineFields? {read : List (List String × Item)} {fields out : Fields}
    (each : ∀ field ∈ read, field.2.Bounded) (bounded : fields.Bounded)
    (found : inlineFields? fields read = some out) : out.Bounded := by
  induction read generalizing fields with
  | nil =>
    cases found
    exact bounded
  | cons first more ih =>
    obtain ⟨path, item⟩ := first
    simp only [inlineFields?, bind, Option.bind_eq_some_iff] at found
    obtain ⟨next, inserted, found⟩ := found
    exact ih (fun field member => each field (List.mem_cons_of_mem _ member))
      (Fields.bounded_insert? (each _ List.mem_cons_self) bounded inserted) found

/-- What is read of a value and of the rest of an array or a table in braces, with some fuel. -/
structure ReadsBounded (limit : Option Nat) (fuel : Nat) : Prop where
  item (depth : Nat) (place : Place) : Ensures (readItem limit fuel depth place) (·.1.Bounded)
  array (depth start : Nat) (read : List Item) (place : Place) :
    (∀ item ∈ read, item.Bounded) →
      Ensures (readArray limit fuel depth start read place) (·.1.Bounded)
  table (depth start : Nat) (read : List (List String × Item)) (place : Place) :
    (∀ field ∈ read, field.2.Bounded) →
      Ensures (readTable limit fuel depth start read place) (·.1.Bounded)

theorem ensures_readItem {fuel : Nat} (reads : ReadsBounded limit fuel) (depth : Nat)
    (place : Place) : Ensures (readItem limit (fuel + 1) depth place) (·.1.Bounded) := by
  obtain ⟨line, cs⟩ := place
  unfold readItem
  dsimp only
  split
  · split
    · exact reads.array _ _ _ _ (by simp)
    · exact .error line
  · split
    · split
      · exact .ok (Item.bounded_table.2 Fields.bounded_nil)
      · exact reads.table _ _ _ _ (by simp)
    · exact .error line
  · exact Ensures.any.bind fun _ _ => .ok (.scalar line trivial)
  · exact Ensures.any.bind fun _ _ => .ok (.scalar line trivial)
  · split
    · rename_i found
      exact .ok (.scalar line (Number.bounded_of_read? found))
    · exact .error line

theorem ensures_readArray {fuel : Nat} (reads : ReadsBounded limit fuel) (depth start : Nat)
    {read : List Item} (place : Place) (each : ∀ item ∈ read, item.Bounded) :
    Ensures (readArray limit (fuel + 1) depth start read place) (·.1.Bounded) := by
  obtain ⟨line, cs⟩ := place
  unfold readArray
  dsimp only
  split
  · exact .ok (.array start false (by simpa using each))
  · refine (reads.item depth _).bind fun answer bounded => ?_
    have more : ∀ item ∈ answer.1 :: read, item.Bounded := List.forall_mem_cons.2 ⟨bounded, each⟩
    split
    · exact reads.array _ _ _ _ more
    · refine .ok (.array start false fun item member => more item (List.mem_reverse.1 member))
    · exact .error _

theorem ensures_readTable {fuel : Nat} (reads : ReadsBounded limit fuel) (depth start : Nat)
    {read : List (List String × Item)} (place : Place) (each : ∀ field ∈ read, field.2.Bounded) :
    Ensures (readTable limit (fuel + 1) depth start read place) (·.1.Bounded) := by
  obtain ⟨line, cs⟩ := place
  unfold readTable
  dsimp only
  refine Ensures.any.bind fun name _ => ?_
  split
  · refine (reads.item depth _).bind fun answer bounded => ?_
    rename_i path _
    have more : ∀ field ∈ (path, answer.1) :: read, field.2.Bounded :=
      List.forall_mem_cons.2 ⟨bounded, each⟩
    split
    · exact reads.table _ _ _ _ more
    · split
      · rename_i found _
        refine .ok (.table start .inline ?_)
        exact bounded_inlineFields? (fun field member => more field (List.mem_reverse.1 member))
          Fields.bounded_nil found
      · exact .error _
      · exact .error start
  · exact .error line
  · exact .error _

theorem readsBounded (fuel : Nat) : ReadsBounded limit fuel := by
  induction fuel with
  | zero =>
    constructor
    · exact fun _ place => by unfold readItem; exact .error place.line
    · exact fun _ _ _ place _ => by unfold readArray; exact .error place.line
    · exact fun _ _ _ place _ => by unfold readTable; exact .error place.line
  | succ fuel ih =>
    exact ⟨ensures_readItem ih, fun depth start _ => ensures_readArray ih depth start,
      fun depth start _ => ensures_readTable ih depth start⟩

def Statement.Bounded : Statement → Prop
  | header .. => True
  | field _ item => item.Bounded

theorem ensures_readStatement {fuel : Nat} {place : Place} :
    Ensures (readStatement limit fuel place) (·.1.Bounded) := by
  have headers (inArray : Bool) (line : Nat) (cs : List Char) :
      Ensures (readHeader limit fuel inArray line cs) (·.1.Bounded) := by
    refine Ensures.any.bind fun name _ => ?_
    split
    · exact .ok trivial
    · exact .ok trivial
    · exact .error line
  unfold readStatement
  dsimp only
  split
  · exact headers true _ _
  · exact headers false _ _
  · refine Ensures.any.bind fun name _ => ?_
    split
    · exact ((readsBounded fuel).item 0 _).bind fun answer bounded => .ok bounded
    · exact .error _

theorem bounded_readStatements {fuel : Nat} {read : List Statement} {place : Place}
    (each : ∀ statement ∈ read, statement.Bounded) :
    ∀ statement ∈ (readStatements limit fuel read place).1, statement.Bounded := by
  induction fuel generalizing read place with
  | zero => simpa [readStatements] using each
  | succ fuel ih =>
    obtain ⟨line, cs⟩ := place
    unfold readStatements
    dsimp only
    split
    · simpa using each
    · split
      · simpa using each
      · rename_i statement _ _ found
        have more : ∀ other ∈ statement :: read, other.Bounded :=
          List.forall_mem_cons.2 ⟨ensures_readStatement _ found, each⟩
        split
        · exact ih more
        · simpa using each

theorem bounded_sections {statements : List Statement}
    (each : ∀ statement ∈ statements, statement.Bounded) :
    (∀ field ∈ (sections statements).1, field.2.Bounded) ∧
      ∀ part ∈ (sections statements).2, ∀ field ∈ part.fields, field.2.Bounded := by
  induction statements with
  | nil => simp [sections]
  | cons statement more ih =>
    obtain ⟨front, later⟩ := ih fun other member => each other (List.mem_cons_of_mem _ member)
    have first := each statement List.mem_cons_self
    cases statement with
    | header line inArray path => exact ⟨by simp [sections], List.forall_mem_cons.2 ⟨front, later⟩⟩
    | field path item => exact ⟨List.forall_mem_cons.2 ⟨first, front⟩, later⟩

theorem ensures_addFields {read : List (List String × Item)} {fields : Fields}
    (each : ∀ field ∈ read, field.2.Bounded) (bounded : fields.Bounded) :
    Ensures (addFields read fields) Fields.Bounded := by
  induction read generalizing fields with
  | nil => exact .ok bounded
  | cons first more ih =>
    obtain ⟨path, item⟩ := first
    unfold addFields
    split
    · rename_i inserted
      exact ih (fun field member => each field (List.mem_cons_of_mem _ member))
        (Fields.bounded_insert? (each _ List.mem_cons_self) bounded inserted)
    · exact .error _

theorem ensures_addSections {parts : List Section} {fields : Fields}
    (each : ∀ part ∈ parts, ∀ field ∈ part.fields, field.2.Bounded) (bounded : fields.Bounded) :
    Ensures (addSections parts fields) Fields.Bounded := by
  induction parts generalizing fields with
  | nil => exact .ok bounded
  | cons part more ih =>
    have placed : Ensures (Fields.place part.line part.inArray (addFields part.fields) part.path
        fields) Fields.Bounded :=
      Fields.ensures_place (fun _ inside => ensures_addFields (each part List.mem_cons_self) inside)
        bounded
    unfold addSections
    split
    · rename_i done
      exact ih (fun other member => each other (List.mem_cons_of_mem _ member)) (placed _ done)
    · exact .error _

theorem ensures_read {text : String} : Ensures (read limit text) Fields.Bounded := by
  unfold read
  dsimp only
  obtain ⟨front, later⟩ := bounded_sections (bounded_readStatements (List.forall_mem_nil _))
  refine (ensures_addFields front Fields.bounded_nil).bind fun root bounded => ?_
  refine (ensures_addSections later bounded).bind fun root bounded => ?_
  split
  · exact .ok bounded
  · exact .error _

end Toml

end LinkedSheet
