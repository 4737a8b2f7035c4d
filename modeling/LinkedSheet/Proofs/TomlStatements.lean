import LinkedSheet.Proofs.TomlLiterals

/-!
Documents as they are written and read back, up to their sections: names, fields, headers, and texts
that are read as some statements whatever follows them (`Reads`).
-/
namespace LinkedSheet.Toml

variable {c : Char} {cs rest text : List Char} {line fuel : Nat}

def IsBare (name : String) : Prop :=
  name.toList ≠ [] ∧ ∀ c ∈ name.toList, isBareChar c = true

instance (name : String) : Decidable (IsBare name) := inferInstanceAs (Decidable (_ ∧ _))

theorem exists_bare {name : String} (bare : IsBare name) :
    ∃ c tail, name.toList = c :: tail ∧ isBareChar c = true := by
  obtain ⟨other, all⟩ := bare
  cases text : name.toList with
  | nil => exact absurd text other
  | cons c tail => exact ⟨c, tail, rfl, all c (text ▸ List.mem_cons_self)⟩

theorem readName_append {name : String} (bare : IsBare name)
    (stops : ∀ c ∈ rest.head?, isBareChar c = false) :
    readName line (name.toList ++ rest) = .ok (some (name, rest)) := by
  have front : (name.toList ++ rest).takeWhile isBareChar = name.toList := by
    rw [List.takeWhile_append_of_pos bare.2]
    cases rest with
    | nil => simp
    | cons c rest => simp [stops c rfl]
  have back : (name.toList ++ rest).dropWhile isBareChar = rest := by
    rw [List.dropWhile_append_of_pos bare.2]
    cases rest with
    | nil => simp
    | cons c rest => simp [stops c rfl]
  obtain ⟨c, tail, text, isBare⟩ := exists_bare bare
  unfold readName
  split
  · simp_all [isBareChar]
  · simp_all [isBareChar]
  · rw [front, back]
    dsimp only
    rw [if_neg (by simp [text]), String.ofList_toList]

theorem skipSpaces_cons (other : isSpace c = false) : skipSpaces (c :: cs) = c :: cs := by
  simp [skipSpaces, other]

theorem path_cons_cons (name next : String) (more : List String) :
    Writer.path (name :: next :: more) = name.toList ++ '.' :: Writer.path (next :: more) := by
  simp [Writer.path, String.intercalate_cons_cons]

theorem readNames_path {names : List String} (some_name : names ≠ [])
    (bare : ∀ name ∈ names, IsBare name) (stops : ∀ c ∈ rest.head?, isBareChar c = false)
    (ends : (skipSpaces rest).head? ≠ some '.') (enough : names.length ≤ fuel) :
    readNames line fuel (Writer.path names ++ rest) = .ok (some (names, skipSpaces rest)) := by
  induction names generalizing fuel with
  | nil => exact absurd rfl some_name
  | cons name more ih =>
    have one := bare name List.mem_cons_self
    obtain ⟨c, tail, text, isBare⟩ := exists_bare one
    have visible : isSpace c = false := by
      by_contra space
      simp only [isSpace, Bool.not_eq_false, Bool.or_eq_true, beq_iff_eq] at space
      rcases space with rfl | rfl <;> cases isBare
    have skipped (cs : List Char) : skipSpaces (name.toList ++ cs) = name.toList ++ cs := by
      rw [text]
      exact skipSpaces_cons visible
    cases fuel with
    | zero => simp at enough
    | succ fuel =>
      cases more with
      | nil =>
        have path : Writer.path [name] = name.toList := by simp [Writer.path]
        rw [path, readNames, skipped, readName_append one stops]
        simp only [bind, Except.bind]
        split
        · rename_i point
          simp [point] at ends
        · rfl
      | cons next more =>
        have read := ih (by simp) (fun name member => bare name (List.mem_cons_of_mem _ member))
          (by simpa using enough)
        have point (cs : List Char) : skipSpaces ('.' :: cs) = '.' :: cs := skipSpaces_cons rfl
        rw [path_cons_cons, List.append_assoc, List.cons_append, readNames, skipped,
          readName_append one (by simp; decide)]
        simp only [bind, Except.bind, point, read]
        rfl

theorem exists_path {names : List String} (some_name : names ≠ [])
    (bare : ∀ name ∈ names, IsBare name) :
    ∃ c tail, Writer.path names = c :: tail ∧ isBareChar c = true := by
  cases names with
  | nil => exact absurd rfl some_name
  | cons name more =>
    obtain ⟨c, tail, text, isBare⟩ := exists_bare (bare name List.mem_cons_self)
    cases more with
    | nil => exact ⟨c, tail, by simp [Writer.path, text], isBare⟩
    | cons next more => exact ⟨c, _, by rw [path_cons_cons, text]; rfl, isBare⟩

theorem length_le_path (names : List String) (bare : ∀ name ∈ names, IsBare name) :
    names.length ≤ (Writer.path names).length := by
  induction names with
  | nil => exact Nat.zero_le _
  | cons name more ih =>
    have later := ih fun name member => bare name (List.mem_cons_of_mem _ member)
    obtain ⟨c, tail, text, -⟩ := exists_bare (bare name List.mem_cons_self)
    cases more with
    | nil => simp [Writer.path, text]
    | cons next more =>
      rw [path_cons_cons, text]
      simp only [List.length_cons, List.length_append] at later ⊢
      omega

theorem readPath_path {names : List String} (some_name : names ≠ [])
    (bare : ∀ name ∈ names, IsBare name) (stops : ∀ c ∈ rest.head?, isBareChar c = false)
    (ends : (skipSpaces rest).head? ≠ some '.') (enough : (Writer.path names).length ≤ fuel) :
    readPath none fuel line (Writer.path names ++ rest) = .ok (some (names, skipSpaces rest)) := by
  have fits := (length_le_path names bare).trans enough
  rw [readPath, readNames_path some_name bare stops ends fits]
  rfl

/-- A text is read as some statements, one after the other, whatever follows it. -/
def Reads (text : List Char) (good : List Statement → Prop) : Prop :=
  ∀ (fuel line : Nat) (read : List Statement) (tail : List Char),
    text.length + tail.length < fuel → ∃ statements left last, good statements ∧
      tail.length < left ∧ readStatements none fuel read ⟨line, text ++ tail⟩ =
        readStatements none left (statements.reverse ++ read) ⟨last, tail⟩

theorem Reads.nil : Reads [] (· = []) := by
  intro fuel line read tail short
  exact ⟨[], fuel, line, rfl, by simpa using short, rfl⟩

theorem Reads.append {first second : List Char} {good fine : List Statement → Prop}
    (front : Reads first good) (back : Reads second fine) :
    Reads (first ++ second) fun statements =>
      ∃ before after, statements = before ++ after ∧ good before ∧ fine after := by
  intro fuel line read tail short
  rw [List.length_append] at short
  obtain ⟨before, left, last, is_good, more, step⟩ := front fuel line read (second ++ tail)
    (by rw [List.length_append]; omega)
  rw [List.length_append] at more
  obtain ⟨after, rest, final, is_fine, enough, next⟩ := back left last (before.reverse ++ read)
    tail more
  refine ⟨before ++ after, rest, final, ⟨before, after, rfl, is_good, is_fine⟩, enough, ?_⟩
  rw [List.append_assoc, step, next, List.reverse_append, List.append_assoc]

theorem Reads.mono {good fine : List Statement → Prop} (reads : Reads text good)
    (weaker : ∀ statements, good statements → fine statements) : Reads text fine := by
  intro fuel line read tail short
  obtain ⟨statements, left, last, is_good, rest⟩ := reads fuel line read tail short
  exact ⟨statements, left, last, weaker statements is_good, rest⟩

theorem readStatements_newline {read : List Statement} :
    readStatements none (fuel + 1) read ⟨line, '\n' :: cs⟩ =
      readStatements none (fuel + 1) read ⟨line + 1, cs⟩ := by
  have skipped : skipGaps false line ('\n' :: cs) = skipGaps false (line + 1) cs := by
    rw [skipGaps]
  simp only [readStatements, skipped]

theorem Reads.newline : Reads ['\n'] (· = []) := by
  intro fuel line read tail short
  cases fuel with
  | zero => omega
  | succ fuel =>
    refine ⟨[], fuel + 1, line + 1, rfl, by simp at short; omega, ?_⟩
    exact readStatements_newline

theorem Reads.statement {good : List Statement → Prop} (first : Char)
    (body : List Char)
    (visible : first ≠ '\n' ∧ first ≠ '\r' ∧ first ≠ ' ' ∧ first ≠ '\t' ∧ first ≠ '#')
    (found : ∀ (fuel line : Nat) (tail : List Char), (first :: body).length ≤ fuel →
      ∃ statement last, good [statement] ∧
        readStatement none fuel ⟨line, first :: body ++ '\n' :: tail⟩ =
          .ok (statement, ⟨last, '\n' :: tail⟩)) :
    Reads (first :: body ++ ['\n']) good := by
  intro fuel line read tail short
  cases fuel with
  | zero => omega
  | succ fuel =>
    simp only [List.length_append, List.length_cons, List.length_nil] at short
    obtain ⟨statement, last, is_good, step⟩ := found (fuel + 1) line tail
      (by rw [List.length_cons]; omega)
    cases fuel with
    | zero => omega
    | succ fuel =>
      refine ⟨[statement], fuel + 1, last + 1, is_good, by omega, ?_⟩
      have gap : skipGaps false line (first :: (body ++ '\n' :: tail)) = _ := skipGaps_cons visible
      rw [List.append_assoc, List.cons_append, List.singleton_append, readStatements]
      simp only [gap]
      rw [List.cons_append] at step
      rw [step]
      exact readStatements_newline

def FieldHolds (read : List String × Item) (written : String × Literal) : Prop :=
  read.1 = [written.1] ∧ read.2.Holds written.2

def FieldFits (field : String × Literal) : Prop :=
  IsBare field.1 ∧ field.2.Fits

def fieldStatement (read : List String × Item) : Statement :=
  .field read.1 read.2

theorem visible_of_isBareChar (isBare : isBareChar c = true) :
    (c ≠ '\n' ∧ c ≠ '\r' ∧ c ≠ ' ' ∧ c ≠ '\t' ∧ c ≠ '#') ∧ c ≠ '[' := by
  refine ⟨⟨?_, ?_, ?_, ?_, ?_⟩, ?_⟩ <;> rintro rfl <;> cases isBare

theorem readStatement_field {path : List String} {item : Item} {last : Nat} (other : c ≠ '[')
    (names : readPath none fuel line (c :: cs) = .ok (some (path, '=' :: rest)))
    (found : readItem none fuel 0 ⟨line, skipSpaces rest⟩ = .ok (item, ⟨last, text⟩)) :
    readStatement none fuel ⟨line, c :: cs⟩ = .ok (.field path item, ⟨last, text⟩) := by
  unfold readStatement
  split
  · simp_all
  · simp_all
  · simp only [names, found, bind, Except.bind]
    rfl

theorem Reads.field {written : String × Literal} (fits : FieldFits written) :
    Reads (Writer.field written) fun statements =>
      ∃ read, statements = [fieldStatement read] ∧ FieldHolds read written := by
  obtain ⟨name, literal⟩ := written
  obtain ⟨bare, fits⟩ := fits
  dsimp only at bare fits
  obtain ⟨c, tail, text, isBare⟩ := exists_bare bare
  obtain ⟨visible, bracket⟩ := visible_of_isBareChar isBare
  have shape : Writer.field (name, literal) =
      c :: (tail ++ ' ' :: '=' :: ' ' :: Writer.literal literal) ++ ['\n'] := by
    simp [Writer.field, text]
  rw [shape]
  refine Reads.statement c _ visible fun fuel line after enough => ?_
  simp only [List.length_cons, List.length_append] at enough
  have names : readPath none fuel line
      (Writer.path [name] ++ ' ' :: '=' :: ' ' :: (Writer.literal literal ++ '\n' :: after)) =
      .ok (some ([name], '=' :: ' ' :: (Writer.literal literal ++ '\n' :: after))) := by
    have short : (Writer.path [name]).length ≤ fuel := by
      simp [Writer.path, text]
      omega
    exact readPath_path (by simp) (by simpa using bare) (by simp; decide)
      (by simp [skipSpaces, isSpace]) short
  have whole : c :: (tail ++ ' ' :: '=' :: ' ' :: Writer.literal literal) ++ '\n' :: after =
      Writer.path [name] ++ ' ' :: '=' :: ' ' :: (Writer.literal literal ++ '\n' :: after) := by
    simp [Writer.path, text]
  obtain ⟨item, last, holds, found⟩ := fits.reads fuel 0 line _ (by omega) (.line after)
  refine ⟨.field [name] item, last, ⟨([name], item), rfl, rfl, holds⟩, ?_⟩
  rw [← whole, List.cons_append] at names
  rw [List.cons_append]
  refine readStatement_field bracket names ?_
  obtain ⟨first, more, same, starts⟩ := exists_literal literal
  have skipped : skipSpaces (' ' :: (Writer.literal literal ++ '\n' :: after)) =
      Writer.literal literal ++ '\n' :: after := by
    have visible : isSpace first = false := by
      rcases starts with rfl | rfl | rfl | rfl | rfl | rfl | isDigit <;> try rfl
      by_contra space
      simp only [isSpace, Bool.not_eq_false, Bool.or_eq_true, beq_iff_eq] at space
      rcases space with rfl | rfl <;> cases isDigit
    rw [same]
    simp [skipSpaces, visible, show isSpace ' ' = true from rfl]
  rw [skipped]
  exact found

theorem Reads.header (part : Part) (some_name : part.path ≠ [])
    (bare : ∀ name ∈ part.path, IsBare name) :
    Reads (Writer.header part) fun statements =>
      ∃ line, statements = [.header line part.inArray part.path] := by
  obtain ⟨inArray, path, fields⟩ := part
  dsimp only at some_name bare
  have names (fuel line : Nat) (tail : List Char) (enough : (Writer.path path).length ≤ fuel) :
      readPath none fuel line (Writer.path path ++ ']' :: tail) = .ok (some (path, ']' :: tail)) :=
    readPath_path some_name bare (by simp; decide) (by simp [skipSpaces, isSpace]) enough
  cases inArray with
  | true =>
    have shape : Writer.header ⟨true, path, fields⟩ =
        '[' :: ('[' :: Writer.path path ++ [']', ']']) ++ ['\n'] := by
      simp [Writer.header]
    rw [shape]
    refine Reads.statement '[' _ (by decide) fun fuel line after enough => ?_
    simp only [List.length_cons, List.length_append] at enough
    refine ⟨.header line true path, line, ⟨line, rfl⟩, ?_⟩
    have read := names fuel line (']' :: '\n' :: after) (by omega)
    simp only [readStatement, List.cons_append, List.append_assoc, List.nil_append, readHeader,
      read, bind, Except.bind]
    rfl
  | false =>
    have shape : Writer.header ⟨false, path, fields⟩ =
        '[' :: (Writer.path path ++ [']']) ++ ['\n'] := by
      simp [Writer.header]
    obtain ⟨c, text, same, isBare⟩ := exists_path some_name bare
    rw [shape]
    refine Reads.statement '[' _ (by decide) fun fuel line after enough => ?_
    simp only [List.length_cons, List.length_append] at enough
    refine ⟨.header line false path, line, ⟨line, rfl⟩, ?_⟩
    have read := names fuel line ('\n' :: after) (by omega)
    rw [same] at read ⊢
    unfold readStatement
    split
    · rename_i bracket
      simp only [List.cons_append, List.cons.injEq] at bracket
      exact absurd bracket.2.1 (visible_of_isBareChar isBare).2
    · rename_i bracket
      simp only [List.cons_append, List.append_assoc, List.nil_append, List.cons.injEq,
        true_and] at bracket
      subst bracket
      rw [List.cons_append] at read
      simp only [readHeader, read, bind, Except.bind]
      rfl
    · rename_i other
      simp at other

def Section.statements (part : Section) : List Statement :=
  .header part.line part.inArray part.path :: part.fields.map fieldStatement

structure Section.Holds (read : Section) (written : Part) : Prop where
  inArray : read.inArray = written.inArray
  path : read.path = written.path
  fields : List.Forall₂ FieldHolds read.fields written.fields

structure Part.Fits (part : Part) : Prop where
  some_name : part.path ≠ []
  bare : ∀ name ∈ part.path, IsBare name
  fields : ∀ field ∈ part.fields, FieldFits field

theorem Reads.fields {fields : List (String × Literal)} (fits : ∀ field ∈ fields, FieldFits field) :
    Reads (fields.flatMap Writer.field) fun statements =>
      ∃ read, statements = read.map fieldStatement ∧ List.Forall₂ FieldHolds read fields := by
  induction fields with
  | nil => exact Reads.nil.mono fun _ none => ⟨[], none, .nil⟩
  | cons field more ih =>
    have first := Reads.field (fits field List.mem_cons_self)
    refine (first.append
      (ih fun field member => fits field (List.mem_cons_of_mem _ member))).mono ?_
    rintro _ ⟨_, _, rfl, ⟨read, rfl, holds⟩, later, rfl, all⟩
    exact ⟨read :: later, rfl, .cons holds all⟩

theorem Reads.part {part : Part} (fits : part.Fits) :
    Reads (Writer.part part) fun statements =>
      ∃ read : Section, statements = read.statements ∧ read.Holds part := by
  have header := Reads.header part fits.some_name fits.bare
  refine (header.append (Reads.fields fits.fields)).mono ?_
  rintro _ ⟨_, _, rfl, ⟨line, rfl⟩, fields, rfl, all⟩
  exact ⟨⟨line, part.inArray, part.path, fields⟩, rfl, rfl, rfl, all⟩

theorem Reads.parts {parts : List Part} (fits : ∀ part ∈ parts, part.Fits) :
    Reads (['\n'].intercalate (parts.map Writer.part)) fun statements =>
      ∃ read : List Section, statements = read.flatMap Section.statements ∧
        List.Forall₂ Section.Holds read parts := by
  induction parts with
  | nil => exact Reads.nil.mono fun _ none => ⟨[], none, .nil⟩
  | cons part more ih =>
    have first := Reads.part (fits part List.mem_cons_self)
    have later := ih fun part member => fits part (List.mem_cons_of_mem _ member)
    cases more with
    | nil =>
      rw [List.map_singleton, List.intercalate_singleton]
      refine first.mono ?_
      rintro _ ⟨read, rfl, holds⟩
      exact ⟨[read], by simp, .cons holds .nil⟩
    | cons next more =>
      rw [List.map_cons, List.map_cons, List.intercalate_cons_cons]
      refine ((first.append Reads.newline).append later).mono ?_
      rintro _ ⟨_, _, rfl, ⟨_, _, rfl, ⟨read, rfl, holds⟩, rfl⟩, sections, rfl, all⟩
      exact ⟨read :: sections, by simp, .cons holds all⟩

theorem Reads.write {fields : List (String × Literal)} {parts : List Part}
    (fields_fit : ∀ field ∈ fields, FieldFits field) (parts_fit : ∀ part ∈ parts, part.Fits) :
    Reads (write fields parts).toList fun statements =>
      ∃ start sections,
        statements = start.map fieldStatement ++ sections.flatMap Section.statements ∧
        List.Forall₂ FieldHolds start fields ∧ List.Forall₂ Section.Holds sections parts := by
  have later := Reads.parts parts_fit
  unfold Toml.write
  dsimp only
  rw [String.toList_ofList]
  split
  · rename_i none
    obtain rfl : fields = [] := by simpa using none
    refine later.mono ?_
    rintro _ ⟨sections, rfl, all⟩
    exact ⟨[], sections, rfl, .nil, all⟩
  · have first := Reads.fields fields_fit
    cases parts with
    | nil =>
      rw [List.map_nil, List.intercalate_singleton]
      refine first.mono ?_
      rintro _ ⟨start, rfl, all⟩
      exact ⟨start, [], by simp, all, .nil⟩
    | cons part more =>
      rw [List.map_cons] at later ⊢
      rw [List.intercalate_cons_cons]
      refine ((first.append Reads.newline).append later).mono ?_
      rintro _ ⟨_, _, rfl, ⟨_, _, rfl, ⟨start, rfl, holds⟩, rfl⟩, sections, rfl, all⟩
      exact ⟨start, sections, by simp, holds, all⟩

theorem sections_fields (fields : List (List String × Item)) (later : List Statement) :
    sections (fields.map fieldStatement ++ later) =
      (fields ++ (sections later).1, (sections later).2) := by
  induction fields with
  | nil => rfl
  | cons field more ih =>
    rw [List.map_cons, List.cons_append]
    change ((field.1, field.2) :: (sections (more.map fieldStatement ++ later)).1,
      (sections (more.map fieldStatement ++ later)).2) = _
    rw [ih]
    rfl

theorem sections_statements (parts : List Section) :
    sections (parts.flatMap Section.statements) = ([], parts) := by
  induction parts with
  | nil => rfl
  | cons part more ih =>
    rw [List.flatMap_cons, Section.statements, List.cons_append]
    change ([], ⟨part.line, part.inArray, part.path,
      (sections (part.fields.map fieldStatement ++ more.flatMap Section.statements)).1⟩ ::
        (sections (part.fields.map fieldStatement ++ more.flatMap Section.statements)).2) = _
    rw [sections_fields, ih]
    simp

theorem write_head_ne {fields : List (String × Literal)} {parts : List Part}
    (fields_fit : ∀ field ∈ fields, FieldFits field) :
    (write fields parts).toList.head? ≠ some '\uFEFF' := by
  unfold write
  dsimp only
  rw [String.toList_ofList]
  cases fields with
  | nil =>
    rw [List.isEmpty_nil, if_pos rfl]
    cases parts with
    | nil => simp [List.intercalate]
    | cons part more =>
      obtain ⟨tail, bracket⟩ : ∃ tail, Writer.part part = '[' :: tail := by
        unfold Writer.part Writer.header
        split <;> exact ⟨_, rfl⟩
      cases more <;> simp [List.intercalate, bracket]
  | cons field more =>
    obtain ⟨c, tail, text, isBare⟩ := exists_bare (fields_fit field List.mem_cons_self).1
    have other : c ≠ '\uFEFF' := by
      rintro rfl
      cases isBare
    have start : ((field :: more).flatMap Writer.field).head? = some c := by
      simp [Writer.field, text]
    rw [List.isEmpty_cons, if_neg (by simp)]
    cases parts with
    | nil =>
      rw [List.map_nil, List.intercalate_singleton, start]
      simpa using other
    | cons part more =>
      rw [List.map_cons, List.intercalate_cons_cons, List.append_assoc,
        List.head?_append, start]
      simpa using other

theorem read_of_readStatements {text : String} {statements : List Statement}
    (unmarked : text.toList.head? ≠ some '\uFEFF')
    (ended : readStatements none (text.toList.length + 1) [] ⟨1, text.toList⟩ =
      (statements, none)) :
    read none text =
      (do addSections (sections statements).2 (← addFields (sections statements).1 [])) := by
  unfold read
  dsimp only
  split
  · rename_i mark
    simp [mark] at unmarked
  · rw [ended]
    dsimp only
    cases addFields (sections statements).1 [] with
    | error line => rfl
    | ok root =>
      simp only [bind, Except.bind]
      cases addSections (sections statements).2 root <;> rfl

theorem readStatements_write {fields : List (String × Literal)} {parts : List Part}
    (fields_fit : ∀ field ∈ fields, FieldFits field) (parts_fit : ∀ part ∈ parts, part.Fits) :
    ∃ start sections, List.Forall₂ FieldHolds start fields ∧
      List.Forall₂ Section.Holds sections parts ∧
      readStatements none ((write fields parts).toList.length + 1) []
        ⟨1, (write fields parts).toList⟩ =
        (start.map fieldStatement ++ sections.flatMap Section.statements, none) := by
  obtain ⟨statements, left, last, ⟨start, later, rfl, start_holds, later_hold⟩, more, step⟩ :=
    Reads.write fields_fit parts_fit ((write fields parts).toList.length + 1) 1 [] [] (by simp)
  refine ⟨start, later, start_holds, later_hold, ?_⟩
  rw [List.append_nil] at step
  rw [step]
  cases left with
  | zero => simp at more
  | succ left => simp [readStatements, skipGaps]

theorem read_write {fields : List (String × Literal)} {parts : List Part}
    (fields_fit : ∀ field ∈ fields, FieldFits field) (parts_fit : ∀ part ∈ parts, part.Fits) :
    ∃ start sections, List.Forall₂ FieldHolds start fields ∧
      List.Forall₂ Section.Holds sections parts ∧
      read none (write fields parts) = (do addSections sections (← addFields start [])) := by
  obtain ⟨start, later, start_holds, later_hold, ended⟩ :=
    readStatements_write fields_fit parts_fit
  refine ⟨start, later, start_holds, later_hold, ?_⟩
  rw [read_of_readStatements (write_head_ne fields_fit) ended, sections_fields,
    sections_statements, List.append_nil]

end LinkedSheet.Toml
