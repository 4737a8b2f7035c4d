import LinkedSheet.Proofs.TomlRange
import LinkedSheet.Proofs.TomlStatements

/-!
What a limit on nesting takes away from reading. A text that is read to its end without a limit is
read alike below a limit if its values stay below it and every path of names does. A longer path
ends the reading.
-/
namespace LinkedSheet.Toml

variable {limit fuel depth start levels line : Nat} {place : Place} {cs rest : List Char}
  {names : List String}

theorem exists_of_ok {ε α β : Type} {first : Except ε α} {next : α → Except ε β} {b : β}
    (ok : (first >>= next) = .ok b) : ∃ a, first = .ok a ∧ next a = .ok b := by
  cases first with
  | error e => cases ok
  | ok a => exact ⟨a, rfl, ok⟩

/-- An item without tables, and with brackets within brackets at most so many times. -/
inductive Item.Within : Nat → Item → Prop
  | scalar (levels line : Nat) (value : Scalar) : Within levels (.scalar line value)
  | array {levels : Nat} (line : Nat) (ofTables : Bool) {items : List Item} :
      (∀ item ∈ items, Within levels item) → Within (levels + 1) (.array line ofTables items)

theorem ensures_array_items {read : List Item} :
    Ensures (readArray none fuel depth start read place) fun answer =>
      ∃ items, answer.1 = .array start false items ∧ ∀ item ∈ read, item ∈ items := by
  induction fuel generalizing read place with
  | zero =>
    unfold readArray
    exact .error place.line
  | succ fuel ih =>
    obtain ⟨line, cs⟩ := place
    unfold readArray
    dsimp only
    split
    · exact .ok ⟨read.reverse, rfl, fun item => List.mem_reverse.2⟩
    · refine Ensures.any.bind fun answer _ => ?_
      split
      · intro final found
        obtain ⟨items, whole, all⟩ := ih final found
        exact ⟨items, whole, fun item member => all item (List.mem_cons_of_mem _ member)⟩
      · exact .ok ⟨_, rfl, fun item member =>
          List.mem_reverse.2 (List.mem_cons_of_mem _ member)⟩
      · exact .error _

theorem ensures_inline {read : List (List String × Item)} :
    Ensures (readTable none fuel depth start read place) fun answer =>
      ∃ fields, answer.1 = .table start .inline fields := by
  induction fuel generalizing read place with
  | zero =>
    unfold readTable
    exact .error place.line
  | succ fuel ih =>
    obtain ⟨line, cs⟩ := place
    unfold readTable
    dsimp only
    refine Ensures.any.bind fun name _ => ?_
    split
    · refine Ensures.any.bind fun answer _ => ?_
      split
      · exact ih
      · split
        · exact .ok ⟨_, rfl⟩
        · exact .error _
        · exact .error start
    · exact .error line
    · exact .error _

theorem ensures_braces :
    Ensures (readItem none fuel depth ⟨line, '\x7b' :: rest⟩) fun answer =>
      ∃ fields, answer.1 = .table line .inline fields := by
  cases fuel with
  | zero =>
    unfold readItem
    exact .error line
  | succ fuel =>
    unfold readItem
    simp only [isBelow, Option.all_none, ↓reduceIte]
    split
    · exact .ok ⟨[], rfl⟩
    · exact ensures_inline

/-- What is read without a limit, with some fuel, is read below one if it stays below it. -/
structure ReadsWithin (limit fuel : Nat) : Prop where
  item {depth levels : Nat} {place : Place} {answer : Item × Place} :
    readItem none fuel depth place = .ok answer → answer.1.Within levels →
      depth + levels < limit → readItem (some limit) fuel depth place = .ok answer
  array {depth start levels : Nat} {read : List Item} {place : Place} {answer : Item × Place} :
    readArray none fuel depth start read place = .ok answer → answer.1.Within (levels + 1) →
      depth + levels < limit → readArray (some limit) fuel depth start read place = .ok answer

theorem readItem_within (reads : ReadsWithin limit fuel) {answer : Item × Place}
    (found : readItem none (fuel + 1) depth place = .ok answer) (within : answer.1.Within levels)
    (below : depth + levels < limit) :
    readItem (some limit) (fuel + 1) depth place = .ok answer := by
  obtain ⟨line, cs⟩ := place
  have read := found
  unfold readItem at found ⊢
  dsimp only at found ⊢
  split
  · have elements : readArray none fuel (depth + 1) line [] ⟨line, _⟩ = .ok answer := found
    obtain ⟨items, whole, -⟩ := ensures_array_items answer elements
    obtain ⟨inner, rfl⟩ : ∃ inner, levels = inner + 1 := by
      rw [whole] at within
      cases within with
      | array => exact ⟨_, rfl⟩
    have room : depth + 1 < limit := by omega
    have deeper : depth + 1 + inner < limit := by omega
    simpa [isBelow, room] using reads.array elements within deeper
  · -- A table in braces is never within any number of levels.
    obtain ⟨fields, table⟩ := ensures_braces answer read
    rw [table] at within
    cases within
  · exact found
  · exact found
  · simp_all

theorem readArray_within (reads : ReadsWithin limit fuel) {read : List Item}
    {answer : Item × Place}
    (found : readArray none (fuel + 1) depth start read place = .ok answer)
    (within : answer.1.Within (levels + 1)) (below : depth + levels < limit) :
    readArray (some limit) (fuel + 1) depth start read place = .ok answer := by
  obtain ⟨line, cs⟩ := place
  unfold readArray at found ⊢
  dsimp only at found ⊢
  split
  · rename_i closed
    rw [closed] at found
    exact found
  · rename_i opened
    split at found
    · rename_i closed
      exact absurd closed (opened _)
    obtain ⟨element, first, found⟩ := exists_of_ok found
    split at found
    · rename_i comma
      obtain ⟨items, whole, all⟩ := ensures_array_items answer found
      rw [whole] at within
      cases within with
      | array _ _ each =>
        have isElement := each element.1 (all _ List.mem_cons_self)
        simp only [reads.item first isElement below, bind, Except.bind, comma]
        exact reads.array found (whole ▸ .array _ _ each) below
    · rename_i closed
      cases found
      cases within with
      | array _ _ each =>
        have isElement := each element.1 (by simp)
        simp only [reads.item first isElement below, bind, Except.bind, closed]
    · cases found

theorem readsWithin (limit fuel : Nat) : ReadsWithin limit fuel := by
  induction fuel with
  | zero =>
    constructor
    · intro depth levels place answer found
      unfold readItem at found
      cases found
    · intro depth start levels read place answer found
      unfold readArray at found
      cases found
  | succ fuel ih => exact ⟨readItem_within ih, readArray_within ih⟩

theorem readPath_some (found : readPath none fuel line cs = .ok (some (names, rest))) :
    readPath (some limit) fuel line cs =
      .ok (if names.length < limit then some (names, rest) else none) := by
  unfold readPath at found ⊢
  obtain ⟨answer, read, found⟩ := exists_of_ok found
  cases answer with
  | none => cases found
  | some answer =>
    cases found
    simp [read, isBelow, bind, Except.bind, pure, Except.pure]

theorem readPath_short (found : readPath none fuel line cs = .ok (some (names, rest)))
    (short : names.length < limit) :
    readPath (some limit) fuel line cs = .ok (some (names, rest)) := by
  rw [readPath_some found, if_pos short]

theorem readPath_long (found : readPath none fuel line cs = .ok (some (names, rest)))
    (long : limit ≤ names.length) : readPath (some limit) fuel line cs = .ok none := by
  rw [readPath_some found, if_neg (Nat.not_lt.2 long)]

namespace Statement

def path : Statement → List String
  | header _ _ path => path
  | field path _ => path

def Shallow (limit : Nat) : Statement → Prop
  | header .. => True
  | field _ item => ∃ levels < limit, item.Within levels

end Statement

/-- Below a limit a statement is read as it is without one, unless its path is too long. -/
def ReadsShort (limit : Nat) (answer : Statement × Place)
    (result : Except Nat (Statement × Place)) : Prop :=
  answer.1.path.length < limit ∧ result = .ok answer ∨
    limit ≤ answer.1.path.length ∧ ∃ fault, result = .error fault

theorem readHeader_some {inArray : Bool} {answer : Statement × Place}
    (found : readHeader none fuel inArray line cs = .ok answer) :
    ReadsShort limit answer (readHeader (some limit) fuel inArray line cs) := by
  unfold readHeader at found ⊢
  obtain ⟨named, read, found⟩ := exists_of_ok found
  split at found
  · cases found
    rcases Nat.lt_or_ge (List.length _) limit with short | long
    · rw [readPath_short read short]
      exact .inl ⟨short, rfl⟩
    · rw [readPath_long read long]
      exact .inr ⟨long, line, rfl⟩
  · cases found
    rcases Nat.lt_or_ge (List.length _) limit with short | long
    · rw [readPath_short read short]
      exact .inl ⟨short, rfl⟩
    · rw [readPath_long read long]
      exact .inr ⟨long, line, rfl⟩
  · cases found

theorem readStatement_some {answer : Statement × Place}
    (found : readStatement none fuel place = .ok answer) (shallow : answer.1.Shallow limit) :
    ReadsShort limit answer (readStatement (some limit) fuel place) := by
  unfold readStatement at found ⊢
  dsimp only at found ⊢
  split at found
  · exact readHeader_some found
  · exact readHeader_some found
  · obtain ⟨named, read, found⟩ := exists_of_ok found
    split at found
    · rename_i names rest
      obtain ⟨item, value, found⟩ := exists_of_ok found
      cases found
      obtain ⟨levels, below, within⟩ := shallow
      rcases Nat.lt_or_ge names.length limit with short | long
      · have still := (readsWithin limit fuel).item value within (by omega)
        rw [readPath_short read short]
        exact .inl ⟨short, by simp only [bind, Except.bind, still]; rfl⟩
      · rw [readPath_long read long]
        exact .inr ⟨long, place.line, rfl⟩
    · cases found

theorem mem_of_readStatements {statement : Statement} {read all : List Statement}
    {fault : Option Nat} (ended : readStatements none fuel read place = (all, fault))
    (member : statement ∈ read) : statement ∈ all := by
  induction fuel generalizing read place with
  | zero =>
    cases ended
    exact List.mem_reverse.2 member
  | succ fuel ih =>
    obtain ⟨line, cs⟩ := place
    unfold readStatements at ended
    dsimp only at ended
    split at ended
    · cases ended
      exact List.mem_reverse.2 member
    · split at ended
      · cases ended
        exact List.mem_reverse.2 member
      · split at ended
        · exact ih ended (List.mem_cons_of_mem _ member)
        · cases ended
          exact List.mem_reverse.2 member

theorem readStatements_some {read all : List Statement}
    (ended : readStatements none fuel read place = (all, none))
    (shallow : ∀ statement ∈ all, statement.Shallow limit)
    (short : ∀ statement ∈ read, statement.path.length < limit) :
    (∀ statement ∈ all, statement.path.length < limit) ∧
        readStatements (some limit) fuel read place = (all, none) ∨
      (∃ statement ∈ all, limit ≤ statement.path.length) ∧
        ∃ fault, (readStatements (some limit) fuel read place).2 = some fault := by
  induction fuel generalizing read place with
  | zero => cases ended
  | succ fuel ih =>
    obtain ⟨line, cs⟩ := place
    unfold readStatements at ended ⊢
    dsimp only at ended ⊢
    cases left : (skipGaps false line cs).rest with
    | nil =>
      simp only [left] at ended ⊢
      cases ended
      exact .inl ⟨fun statement member => short statement (List.mem_reverse.1 member), rfl⟩
    | cons c more =>
      simp only [left] at ended ⊢
      cases found : readStatement none (fuel + 1) (skipGaps false line cs) with
      | error e =>
        rw [found] at ended
        cases ended
      | ok answer =>
        rw [found] at ended
        dsimp only at ended
        split at ended
        · rename_i lineEnds
          have among := mem_of_readStatements ended List.mem_cons_self
          rcases readStatement_some found (shallow _ among) with
            ⟨isShort, still⟩ | ⟨long, fault, stops⟩
          · rw [still]
            dsimp only
            rw [if_pos lineEnds]
            exact ih ended (List.forall_mem_cons.2 ⟨isShort, short⟩)
          · rw [stops]
            exact .inr ⟨⟨_, among, long⟩, fault, rfl⟩
        · cases ended

theorem read_some {text : String} {statements : List Statement}
    (unmarked : text.toList.head? ≠ some '\uFEFF')
    (ended : readStatements none (text.toList.length + 1) [] ⟨1, text.toList⟩ =
      (statements, none))
    (shallow : ∀ statement ∈ statements, statement.Shallow limit) :
    (∀ statement ∈ statements, statement.path.length < limit) ∧
        read (some limit) text = read none text ∨
      (∃ statement ∈ statements, limit ≤ statement.path.length) ∧
        ∃ fault, read (some limit) text = .error fault := by
  unfold read
  dsimp only
  split
  · rename_i mark
    simp [mark] at unmarked
  · rcases readStatements_some ended shallow (by simp) with ⟨short, same⟩ | ⟨long, fault, stops⟩
    · rw [same, ended]
      exact .inl ⟨short, rfl⟩
    · refine .inr ⟨long, ?_⟩
      generalize readStatements (some limit) (text.toList.length + 1) [] ⟨1, text.toList⟩ = result
        at stops ⊢
      obtain ⟨before, stop⟩ := result
      obtain rfl : stop = some fault := stops
      dsimp only
      cases addFields (sections before).1 [] with
      | error line => exact ⟨line, rfl⟩
      | ok root =>
        dsimp only [bind, Except.bind]
        cases addSections (sections before).2 root with
        | error line => exact ⟨line, rfl⟩
        | ok root => exact ⟨fault, rfl⟩

inductive Literal.Within : Nat → Literal → Prop
  | string (levels : Nat) (s : String) : Within levels (.string s)
  | integer (levels : Nat) (n : Int) : Within levels (.integer n)
  | float (levels : Nat) (x : Float) : Within levels (.float x)
  | array {levels : Nat} {items : List Literal} :
      (∀ item ∈ items, Within levels item) → Within (levels + 1) (.array items)

theorem exists_related {α β : Type} {relates : α → β → Prop} {before : List α} {after : List β}
    {a : α} (all : List.Forall₂ relates before after) (member : a ∈ before) :
    ∃ b ∈ after, relates a b := by
  induction all with
  | nil => cases member
  | cons first _ ih =>
    rcases List.mem_cons.1 member with rfl | later
    · exact ⟨_, List.mem_cons_self, first⟩
    · obtain ⟨b, among, related⟩ := ih later
      exact ⟨b, List.mem_cons_of_mem _ among, related⟩

theorem Item.Holds.within {item : Item} {literal : Literal} (holds : item.Holds literal)
    (within : literal.Within levels) : item.Within levels := by
  induction within generalizing item with
  | string | integer | float =>
    cases holds
    exact .scalar _ _ _
  | array _ ih =>
    cases holds with
    | array line each =>
      refine .array line false fun item member => ?_
      obtain ⟨literal, among, same⟩ := exists_related each member
      exact ih literal among same

def FieldsWithin (levels : Nat) (fields : List (String × Literal)) : Prop :=
  ∀ field ∈ fields, field.2.Within levels

theorem shallow_field {written : List (String × Literal)} {fields : List (List String × Item)}
    {field : List String × Item} (holds : List.Forall₂ FieldHolds fields written)
    (within : FieldsWithin levels written) (below : levels < limit) (member : field ∈ fields) :
    (fieldStatement field).Shallow limit ∧ (fieldStatement field).path.length = 1 := by
  obtain ⟨literal, among, named, same⟩ := exists_related holds member
  exact ⟨⟨levels, below, same.within (within literal among)⟩, congrArg List.length named⟩

theorem statement_of_write {fields : List (String × Literal)} {parts : List Part}
    {start : List (List String × Item)} {later : List Section} {statement : Statement}
    (start_holds : List.Forall₂ FieldHolds start fields)
    (later_hold : List.Forall₂ Section.Holds later parts)
    (fields_within : FieldsWithin levels fields)
    (parts_within : ∀ part ∈ parts, FieldsWithin levels part.fields) (below : levels < limit)
    (member : statement ∈ start.map fieldStatement ++ later.flatMap Section.statements) :
    statement.Shallow limit ∧
      (statement.path.length = 1 ∨ ∃ part ∈ parts, statement.path = part.path) := by
  rcases List.mem_append.1 member with first | inside
  · obtain ⟨field, among, rfl⟩ := List.mem_map.1 first
    obtain ⟨shallow, one⟩ := shallow_field start_holds fields_within below among
    exact ⟨shallow, .inl one⟩
  · obtain ⟨part, among, inside⟩ := List.mem_flatMap.1 inside
    obtain ⟨written, is_part, holds⟩ := exists_related later_hold among
    rcases List.mem_cons.1 inside with rfl | inside
    · exact ⟨trivial, .inr ⟨written, is_part, holds.path⟩⟩
    · obtain ⟨field, among, rfl⟩ := List.mem_map.1 inside
      obtain ⟨shallow, one⟩ :=
        shallow_field holds.fields (parts_within written is_part) below among
      exact ⟨shallow, .inl one⟩

theorem read_write_some {fields : List (String × Literal)} {parts : List Part}
    (fields_fit : ∀ field ∈ fields, FieldFits field) (parts_fit : ∀ part ∈ parts, part.Fits)
    (below : levels < limit) (named : 1 < limit) (fields_within : FieldsWithin levels fields)
    (parts_within : ∀ part ∈ parts, FieldsWithin levels part.fields) :
    (∀ part ∈ parts, part.path.length < limit) ∧
        read (some limit) (write fields parts) = read none (write fields parts) ∨
      (∃ part ∈ parts, limit ≤ part.path.length) ∧
        ∃ fault, read (some limit) (write fields parts) = .error fault := by
  obtain ⟨start, later, start_holds, later_hold, ended⟩ :=
    readStatements_write fields_fit parts_fit
  have each : ∀ statement ∈ start.map fieldStatement ++ later.flatMap Section.statements,
      statement.Shallow limit ∧
        (statement.path.length = 1 ∨ ∃ part ∈ parts, statement.path = part.path) :=
    fun _ member =>
      statement_of_write start_holds later_hold fields_within parts_within below member
  rcases read_some (write_head_ne fields_fit) ended (fun statement member =>
    (each statement member).1) with ⟨short, same⟩ | ⟨⟨statement, member, long⟩, stops⟩
  · refine .inl ⟨fun part among => ?_, same⟩
    obtain ⟨read, is_read, holds⟩ := exists_related later_hold.flip among
    have header : Statement.header read.line read.inArray read.path ∈
        start.map fieldStatement ++ later.flatMap Section.statements :=
      List.mem_append_right _ (List.mem_flatMap.2 ⟨read, is_read, List.mem_cons_self⟩)
    rw [← holds.path]
    exact short _ header
  · refine .inr ⟨?_, stops⟩
    rcases (each statement member).2 with one | ⟨part, among, same⟩
    · omega
    · exact ⟨part, among, same ▸ long⟩

end LinkedSheet.Toml
