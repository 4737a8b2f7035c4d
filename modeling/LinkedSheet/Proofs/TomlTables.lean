import LinkedSheet.Proofs.TomlStatements

/-!
Written tables put together. The headers of a document follow the tables that they are part of, so
that each one leads to the end of the table that is being filled or starts another one next to it.
What surrounds that place is a context, through which a path leads (`Frames`).
-/
namespace LinkedSheet.Toml

variable {name : String} {path : List String} {line : Nat} {fields inner : Fields}
  {item : Item} {fill : Fields → Except Nat Fields} {inArray : Bool}
  {context : Fields → Fields} {parts : List Part}

namespace Fields

def Lacks (fields : Fields) (name : String) : Prop :=
  name ∉ fields.map Prod.fst

theorem lookup_of_lacks (lacks : fields.Lacks name) : fields.lookup name = none := by
  rw [List.lookup_eq_none_iff]
  intro field member
  rw [bne_iff_ne]
  rintro rfl
  exact lacks (List.mem_map_of_mem member)

theorem lookup_append_of_lacks (lacks : fields.Lacks name) :
    List.lookup name (fields ++ [(name, item)]) = some item := by
  rw [List.lookup_append, lookup_of_lacks lacks]
  simp

theorem set_append_of_lacks (lacks : fields.Lacks name) (next : Item) :
    set name next (fields ++ [(name, item)]) = fields ++ [(name, next)] := by
  have kept : ∀ field ∈ fields, (if field.1 = name then (name, next) else field) = field := by
    intro field member
    rw [if_neg]
    rintro rfl
    exact lacks (List.mem_map_of_mem member)
  rw [set, List.map_append, List.map_congr_left kept, List.map_id']
  simp

def Hold (fields : Fields) (written : List (String × Literal)) : Prop :=
  List.Forall₂ (fun field literal => field.1 = literal.1 ∧ field.2.Holds literal.2) fields written

theorem Hold.map_fst {written : List (String × Literal)} (hold : fields.Hold written) :
    fields.map Prod.fst = written.map Prod.fst := by
  induction hold with
  | nil => rfl
  | cons same _ ih => rw [List.map_cons, List.map_cons, same.1, ih]

end Fields

theorem addFields_holds {read : List (List String × Item)} {written : List (String × Literal)}
    (holds : List.Forall₂ FieldHolds read written)
    (distinct : (fields.map Prod.fst ++ written.map Prod.fst).Nodup) :
    ∃ held, Fields.Hold held written ∧ addFields read fields = .ok (fields ++ held) := by
  induction holds generalizing fields with
  | nil => exact ⟨[], .nil, by simp [addFields]⟩
  | @cons first literal read written same _ ih =>
    obtain ⟨path, item⟩ := first
    obtain ⟨rfl, holds⟩ : path = [literal.1] ∧ item.Holds literal.2 := same
    have lacks : fields.Lacks literal.1 := by
      intro member
      exact List.disjoint_of_nodup_append distinct member List.mem_cons_self
    have inserted : Fields.insert? item true [literal.1] fields =
        some (fields ++ [(literal.1, item)]) := by
      simp [Fields.insert?, Fields.lookup_of_lacks lacks]
    have distinct : ((fields ++ [(literal.1, item)]).map Prod.fst ++
        written.map Prod.fst).Nodup := by
      simpa using distinct
    obtain ⟨held, hold, added⟩ := ih distinct
    refine ⟨(literal.1, item) :: held, .cons ⟨rfl, holds⟩ hold, ?_⟩
    rw [addFields, inserted]
    simpa using added

theorem fill_holds {read : List (List String × Item)} {written : List (String × Literal)}
    (holds : List.Forall₂ FieldHolds read written) (distinct : (written.map Prod.fst).Nodup) :
    ∃ held, Fields.Hold held written ∧ addFields read [] = .ok held := by
  have distinct : (([] : Fields).map Prod.fst ++ written.map Prod.fst).Nodup := by
    simpa using distinct
  exact addFields_holds holds distinct

theorem place_table (lacks : fields.Lacks name) (filled : fill [] = .ok inner) :
    Fields.place line false fill [name] fields =
      .ok (fields ++ [(name, .table line .header inner)]) := by
  simp [Fields.place, Fields.lookup_of_lacks lacks, filled, bind, Except.bind, pure, Except.pure]

theorem place_first_element (lacks : fields.Lacks name) (filled : fill [] = .ok inner) :
    Fields.place line true fill [name] fields =
      .ok (fields ++ [(name, .array line true [.table line .header inner])]) := by
  simp [Fields.place, Fields.lookup_of_lacks lacks, filled, bind, Except.bind, pure, Except.pure]

theorem place_next_element {first : Nat} {items : List Item} (lacks : fields.Lacks name)
    (filled : fill [] = .ok inner) :
    Fields.place line true fill [name] (fields ++ [(name, .array first true items)]) =
      .ok (fields ++ [(name, .array first true (items ++ [.table line .header inner]))]) := by
  simp [Fields.place, Fields.lookup_append_of_lacks lacks, Fields.set_append_of_lacks lacks, filled,
    bind, Except.bind, pure, Except.pure]

/-- A path leads through a context to the table inside. -/
def Frames (path : List String) (context : Fields → Fields) : Prop :=
  ∀ (line : Nat) (inArray : Bool) (fill : Fields → Except Nat Fields) (rest : List String)
    (inner : Fields), rest ≠ [] →
    Fields.place line inArray fill (path ++ rest) (context inner) =
      (Fields.place line inArray fill rest inner).map context

theorem Frames.nil : Frames [] id := by
  intro line inArray fill rest inner other
  cases placed : Fields.place line inArray fill rest inner <;> simp [placed, Except.map]

theorem Except.map_map {α β γ ε : Type} (f : α → β) (g : β → γ) (result : Except ε α) :
    (result.map f).map g = result.map fun a => g (f a) := by
  cases result <;> rfl

theorem Frames.table (frames : Frames path context) (line : Nat) (lacks : fields.Lacks name) :
    Frames (path ++ [name])
      fun inner => context (fields ++ [(name, .table line .header inner)]) := by
  intro later inArray fill rest inner other
  have step : Fields.place later inArray fill (name :: rest)
      (fields ++ [(name, .table line .header inner)]) =
      (Fields.place later inArray fill rest inner).map
        fun inner => fields ++ [(name, .table line .header inner)] := by
    cases rest with
    | nil => exact absurd rfl other
    | cons next rest =>
      rw [Fields.place]
      · rw [Fields.lookup_append_of_lacks lacks]
        dsimp only
        cases Fields.place later inArray fill (next :: rest) inner with
        | error e => rfl
        | ok inner => exact congrArg Except.ok (Fields.set_append_of_lacks lacks _)
      · simp
  rw [List.append_assoc, List.singleton_append, frames _ _ _ _ _ (by simp), step, Except.map_map]

theorem Frames.element (frames : Frames path context) (start first : Nat) (items : List Item)
    (lacks : fields.Lacks name) :
    Frames (path ++ [name]) fun inner =>
      context (fields ++ [(name, .array first true (items ++ [.table start .header inner]))]) := by
  intro later inArray fill rest inner other
  have step : Fields.place later inArray fill (name :: rest)
      (fields ++ [(name, .array first true (items ++ [.table start .header inner]))]) =
      (Fields.place later inArray fill rest inner).map
        fun inner =>
          fields ++ [(name, .array first true (items ++ [.table start .header inner]))] := by
    cases rest with
    | nil => exact absurd rfl other
    | cons next rest =>
      rw [Fields.place]
      · rw [Fields.lookup_append_of_lacks lacks]
        dsimp only
        rw [List.getLast?_concat, List.dropLast_concat]
        dsimp only
        cases Fields.place later inArray fill (next :: rest) inner with
        | error e => rfl
        | ok inner => exact congrArg Except.ok (Fields.set_append_of_lacks lacks _)
      · simp
  rw [List.append_assoc, List.singleton_append, frames _ _ _ _ _ (by simp), step, Except.map_map]

theorem addSections_append (first second : List Section) (fields : Fields) :
    addSections (first ++ second) fields =
      (do addSections second (← addSections first fields)) := by
  induction first generalizing fields with
  | nil => rfl
  | cons part more ih =>
    rw [List.cons_append, addSections, addSections]
    cases Fields.place part.line part.inArray (addFields part.fields) part.path fields with
    | error e => rfl
    | ok placed => exact ih placed

/-- Parts at a path add some named fields to the table that is there. -/
def Grows (path names : List String) (parts : List Part) (good : Fields → Prop) : Prop :=
  ∀ (context : Fields → Fields) (inner : Fields) (sections : List Section), Frames path context →
    (∀ name ∈ names, inner.Lacks name) → List.Forall₂ Section.Holds sections parts →
    ∃ added, good added ∧ added.map Prod.fst = names ∧
      addSections sections (context inner) = .ok (context (inner ++ added))

theorem Grows.nil : Grows path [] [] (· = []) := by
  intro context inner sections frames lacks holds
  cases holds
  exact ⟨[], rfl, rfl, by simp [addSections]⟩

theorem Grows.append {names more : List String} {later : List Part} {good fine : Fields → Prop}
    (front : Grows path names parts good) (back : Grows path more later fine)
    (apart : ∀ name ∈ names, name ∉ more) :
    Grows path (names ++ more) (parts ++ later) fun added =>
      ∃ before after, added = before ++ after ∧ good before ∧ fine after := by
  intro context inner sections frames lacks holds
  have first := List.forall₂_take_append sections parts later holds
  have second := List.forall₂_drop_append sections parts later holds
  obtain ⟨before, is_good, names_before, step⟩ := front context inner _ frames
    (fun name member => lacks name (List.mem_append_left _ member)) first
  obtain ⟨after, is_fine, names_after, next⟩ := back context (inner ++ before) _ frames (by
      intro name member found
      rw [List.map_append, List.mem_append, names_before] at found
      rcases found with found | found
      · exact lacks name (List.mem_append_right _ member) found
      · exact apart name found member) second
  refine ⟨before ++ after, ⟨before, after, rfl, is_good, is_fine⟩, ?_, ?_⟩
  · rw [List.map_append, names_before, names_after]
  · rw [← List.take_append_drop parts.length sections, addSections_append, step]
    simp only [bind, Except.bind]
    rw [next, List.append_assoc]

theorem Grows.mono {names : List String} {good fine : Fields → Prop}
    (grows : Grows path names parts good) (weaker : ∀ added, good added → fine added) :
    Grows path names parts fine := by
  intro context inner sections frames lacks holds
  obtain ⟨added, is_good, rest⟩ := grows context inner sections frames lacks holds
  exact ⟨added, weaker added is_good, rest⟩

theorem Grows.table {names : List String} {written : List (String × Literal)}
    {good : Fields → Prop} (children : Grows (path ++ [name]) names parts good)
    (distinct : (written.map Prod.fst ++ names).Nodup) :
    Grows path [name] (⟨false, path ++ [name], written⟩ :: parts) fun added =>
      ∃ line held grown, added = [(name, .table line .header (held ++ grown))] ∧
        Fields.Hold held written ∧ good grown := by
  intro context inner sections frames lacks holds
  obtain _ | ⟨⟨inArray, path_eq, fields⟩, rest⟩ := holds
  rename_i part sections
  have lacks := lacks name List.mem_cons_self
  obtain ⟨held, hold, filled⟩ := fill_holds fields (List.nodup_append.1 distinct).1
  have placed : Fields.place part.line part.inArray (addFields part.fields) part.path
      (context inner) =
      .ok (context (inner ++ [(name, .table part.line .header held)])) := by
    rw [inArray, path_eq, frames _ _ _ _ _ (by simp), place_table lacks filled]
    rfl
  have fresh : ∀ name ∈ names, held.Lacks name := by
    intro name member found
    rw [hold.map_fst] at found
    exact List.disjoint_of_nodup_append distinct found member
  obtain ⟨grown, is_good, names_grown, step⟩ :=
    children _ held sections (frames.table part.line lacks) fresh rest
  refine ⟨[(name, .table part.line .header (held ++ grown))],
    ⟨part.line, held, grown, rfl, hold, is_good⟩, rfl, ?_⟩
  rw [addSections, placed]
  exact step

/-- Parts that make an element of an array: its own header and the tables inside it. -/
def IsElement (name : String) (parts : List Part) (good : Item → Prop) : Prop :=
  ∃ written names children grown, parts = ⟨true, [name], written⟩ :: children ∧
    (written.map Prod.fst ++ names).Nodup ∧ Grows [name] names children grown ∧
    ∀ line held added, Fields.Hold held written → grown added →
      good (.table line .header (held ++ added))

theorem IsElement.addSections {good : Item → Prop} {sections : List Section}
    (element : IsElement name parts good) (lacks : fields.Lacks name)
    (holds : List.Forall₂ Section.Holds sections parts) :
    (∃ line item, good item ∧ addSections sections fields =
      .ok (fields ++ [(name, .array line true [item])])) ∧
    ∀ first items, ∃ item, good item ∧
      addSections sections (fields ++ [(name, .array first true items)]) =
        .ok (fields ++ [(name, .array first true (items ++ [item]))]) := by
  obtain ⟨written, names, children, grown, rfl, distinct, grows, isGood⟩ := element
  obtain _ | ⟨⟨inArray, path_eq, fields_hold⟩, rest⟩ := holds
  rename_i part sections
  obtain ⟨held, hold, filled⟩ := fill_holds fields_hold (List.nodup_append.1 distinct).1
  have fresh : ∀ name ∈ names, held.Lacks name := by
    intro name member found
    rw [hold.map_fst] at found
    exact List.disjoint_of_nodup_append distinct found member
  have later (first : Nat) (items : List Item) :
      ∃ item, good item ∧ Toml.addSections sections (fields ++
        [(name, .array first true (items ++ [.table part.line .header held]))]) =
          .ok (fields ++ [(name, .array first true (items ++ [item]))]) := by
    obtain ⟨added, is_grown, -, step⟩ := grows _ held sections
      (Frames.nil.element part.line first items lacks) fresh rest
    exact ⟨_, isGood part.line held added hold is_grown, step⟩
  dsimp only at inArray path_eq
  constructor
  · obtain ⟨item, is_good, step⟩ := later part.line []
    refine ⟨part.line, item, is_good, ?_⟩
    rw [Toml.addSections, inArray, path_eq, place_first_element lacks filled]
    exact step
  · intro first items
    obtain ⟨item, is_good, step⟩ := later first items
    refine ⟨item, is_good, ?_⟩
    rw [Toml.addSections, inArray, path_eq, place_next_element lacks filled]
    exact step

theorem addSections_elements {α : Type} {partsOf : α → List Part} {good : Item → α → Prop}
    {elements : List α} {sections : List Section}
    (each : ∀ a ∈ elements, IsElement name (partsOf a) (good · a)) (lacks : fields.Lacks name)
    (holds : List.Forall₂ Section.Holds sections (elements.flatMap partsOf))
    (first : Nat) (items : List Item) :
    ∃ added, List.Forall₂ good added elements ∧
      addSections sections (fields ++ [(name, .array first true items)]) =
        .ok (fields ++ [(name, .array first true (items ++ added))]) := by
  induction elements generalizing sections items with
  | nil =>
    cases holds
    exact ⟨[], .nil, by simp [addSections]⟩
  | cons a more ih =>
    have front := List.forall₂_take_append sections (partsOf a) (more.flatMap partsOf) holds
    have back := List.forall₂_drop_append sections (partsOf a) (more.flatMap partsOf) holds
    obtain ⟨item, is_good, step⟩ :=
      ((each a List.mem_cons_self).addSections lacks front).2 first items
    obtain ⟨added, all, next⟩ := ih (fun b member => each b (List.mem_cons_of_mem _ member)) back
      (items ++ [item])
    refine ⟨item :: added, .cons is_good all, ?_⟩
    rw [← List.take_append_drop (partsOf a).length sections, addSections_append, step]
    simpa [bind, Except.bind] using next

theorem exists_array {α : Type} {partsOf : α → List Part} {good : Item → α → Prop}
    {elements : List α} {sections : List Section} (some_element : elements ≠ [])
    (each : ∀ a ∈ elements, IsElement name (partsOf a) (good · a)) (lacks : fields.Lacks name)
    (holds : List.Forall₂ Section.Holds sections (elements.flatMap partsOf)) :
    ∃ line items, List.Forall₂ good items elements ∧
      addSections sections fields = .ok (fields ++ [(name, .array line true items)]) := by
  cases elements with
  | nil => exact absurd rfl some_element
  | cons a more =>
    have front := List.forall₂_take_append sections (partsOf a) (more.flatMap partsOf) holds
    have back := List.forall₂_drop_append sections (partsOf a) (more.flatMap partsOf) holds
    obtain ⟨line, item, is_good, step⟩ :=
      ((each a List.mem_cons_self).addSections lacks front).1
    obtain ⟨added, all, next⟩ := addSections_elements
      (fun b member => each b (List.mem_cons_of_mem _ member)) lacks back line [item]
    refine ⟨line, item :: added, .cons is_good all, ?_⟩
    rw [← List.take_append_drop (partsOf a).length sections, addSections_append, step]
    simpa [bind, Except.bind] using next

end LinkedSheet.Toml
