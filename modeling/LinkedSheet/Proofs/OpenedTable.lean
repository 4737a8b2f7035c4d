import LinkedSheet.Proofs.DocumentText
import LinkedSheet.Proofs.FunctionFiles

/-!
Opening what was saved. The functions files are loaded first and without any operations, in the
sequence in which the table came to know them; the operations are built in sight of all of them.
-/
namespace LinkedSheet
variable {σ : Type} {files others : σ} {path place source : String}

open FileSystem

namespace Session
variable {content : ByteArray} {text : String} {d : Document}

theorem fromUTF8?_toUTF8 (text : String) : String.fromUTF8? text.toUTF8 = some text := by
  have valid : text.toUTF8.IsValidUTF8 := text.isValidUTF8
  unfold String.fromUTF8?
  rw [dif_pos valid]
  rfl

theorem fits_of_text (written : d.text = .ok text) :
    d.fits = true ∧ text = Toml.write d.fields (d.operations.flatMap Declaration.parts) := by
  unfold Document.text at written
  split at written
  · cases written
    exact ⟨‹_›, rfl⟩
  · cases written

variable [FileSystem (StateM σ)]

theorem document_save_on :
    (d.save place : Storing (StateM σ) Unit).on files =
      match d.text with
      | .error e => (.error e, files)
      | .ok text =>
        ((StateT.run (FileSystem.write place text.toUTF8 : StateM σ _) files).1.mapError .file,
          (StateT.run (FileSystem.write place text.toUTF8 : StateM σ _) files).2) := by
  unfold Document.save
  rw [Storing.andThen_on, Storing.pass_on]
  cases d.text with
  | error e => rfl
  | ok text => exact Storing.file_on _

variable [LooksOnly σ]

theorem locate_run (path : String) (files : σ) :
    StateT.run (Document.locate path : StateM σ String) files =
      (match kindAt files path with
        | some .directory => Path.join path Document.fileName
        | _ => path, files) := by
  unfold Document.locate
  rw [StateT.run_bind, kind_run]
  rcases kindAt files path with _ | kind | kind <;> rfl

theorem locate_again (written : Written place content files others)
    (located : (StateT.run (Document.locate path : StateM σ String) files).1 = place) :
    StateT.run (Document.locate path : StateM σ String) others = (place, others) := by
  rw [locate_run] at located ⊢
  dsimp only at located
  cases kind : kindAt files path with
  | none =>
    rw [kind] at located
    obtain rfl := located
    rw [written.kind]
  | some kind_was =>
    rw [kind] at located
    cases kind_was with
    | directory =>
      obtain rfl := located
      rw [written.directories path kind]
    | file =>
      obtain rfl := located
      rw [written.kind]

theorem readText_on (holds : HoldsFile place text.toUTF8 files)
    (small : text.toUTF8.size ≤ Document.sizeLimit) (kind : String) :
    (Document.readText place kind : Storing (StateM σ) String).on files = (.ok text, files) := by
  unfold Document.readText
  rw [Storing.andThen_on, Storing.file_on, size_run, holds.size]
  dsimp only [Except.mapError]
  rw [if_neg (Nat.not_lt.2 small), Storing.andThen_on, Storing.file_on, read_run, holds.read]
  dsimp only [Except.mapError]
  rw [fromUTF8?_toUTF8]
  rfl

theorem load_of_holdsFile {limit : Option Nat} (holds : HoldsFile place text.toUTF8 files)
    (small : text.toUTF8.size ≤ Document.sizeLimit) :
    (Document.load limit place : Storing (StateM σ) Document).on files =
      (Document.ofText limit text, files) := by
  unfold Document.load
  refine (Storing.andThen_on (ExceptT.lift (kind? place)) _).trans ?_
  rw [Storing.lift_on, kind_run, holds.kind]
  dsimp only
  rw [Storing.andThen_on, readText_on holds small]
  rfl

theorem load_on {limit : Option Nat} (written : Written place text.toUTF8 files others)
    (small : text.toUTF8.size ≤ Document.sizeLimit) :
    (Document.load limit place : Storing (StateM σ) Document).on others =
      (Document.ofText limit text, others) :=
  load_of_holdsFile ⟨written.kind, written.size, written.read⟩ small

end Session

section
variable [Script.Engine] {table next : Table}

/-- The signed numbers of an operation have 64 bits. -/
structure Operation.Signed (op : Operation) : Prop where
  selection : op.selection.Signed
  anchor : op.anchor.Signed
  spec : ∀ spec, op.spec = some spec → spec.Signed

instance (op : Operation) : Decidable op.Signed :=
  decidable_of_iff (op.selection.Signed ∧ op.anchor.Signed ∧ ∀ spec ∈ op.spec, spec.Signed)
    ⟨fun ⟨selection, anchor, spec⟩ => ⟨selection, anchor, spec⟩,
      fun ⟨selection, anchor, spec⟩ => ⟨selection, anchor, spec⟩⟩

namespace Table
variable {op : Operation} {operations : List Operation} {declared : List Declaration}

theorem declarations_cons (ok : declarations (op :: operations) = .ok declared) :
    ∃ spec more, op.spec = some spec ∧ declarations operations = .ok more ∧
      declared = ⟨op.id, op.selection, spec, op.anchor⟩ :: more := by
  rw [declarations] at ok
  cases form : op.spec with
  | none =>
    rw [form] at ok
    cases ok
  | some spec =>
    rw [form] at ok
    dsimp only at ok
    cases later : declarations operations with
    | error e =>
      rw [later] at ok
      cases ok
    | ok more =>
      rw [later] at ok
      cases ok
      exact ⟨spec, more, rfl, rfl, rfl⟩

theorem signed_declarations (signed : ∀ op ∈ operations, op.Signed)
    (ok : declarations operations = .ok declared) : ∀ d ∈ declared, d.Signed := by
  induction operations generalizing declared with
  | nil =>
    cases ok
    simp
  | cons op rest ih =>
    obtain ⟨spec, more, form, later, rfl⟩ := declarations_cons ok
    have first := signed op List.mem_cons_self
    refine List.forall_mem_cons.2 ⟨⟨first.selection, first.spec spec form, first.anchor⟩, ?_⟩
    exact ih (fun other member => signed other (List.mem_cons_of_mem _ member)) later

theorem declare_declarations (isBuilt : ∀ op ∈ operations, op.IsBuilt table.custom)
    (distinct : ((table.operations ++ operations).map Operation.id).Nodup)
    (ok : declarations operations = .ok declared) :
    table.declare declared = .ok { table with operations := table.operations ++ operations } := by
  induction operations generalizing table declared with
  | nil =>
    cases ok
    simp [declare]
  | cons op rest ih =>
    obtain ⟨spec, more, form, later, rfl⟩ := declarations_cons ok
    obtain ⟨id, selection, anchor, function, _⟩ := op
    obtain rfl := form
    have built : spec.build table.custom = .ok function := isBuilt _ List.mem_cons_self spec rfl
    have fresh : ∀ other ∈ table.operations, other.id ≠ id := by
      intro other member same
      rw [List.map_append] at distinct
      exact List.disjoint_of_nodup_append distinct (List.mem_map_of_mem member) (by simp [same])
    have added : table.add ⟨id, selection, anchor, function, some spec⟩ =
        .ok { table with operations := table.operations ++
          [⟨id, selection, anchor, function, some spec⟩] } :=
      add_eq_ok_iff.2 ⟨fresh, rfl⟩
    have rest_declared := @ih { table with operations := table.operations ++
        [⟨id, selection, anchor, function, some spec⟩] } more
      (fun op member => isBuilt op (List.mem_cons_of_mem _ member)) (by simpa using distinct) later
    simp only [declare, bindSpec, Option.getD_some, built, added, rest_declared]
    simp

/-- The table with what a document holds, if its functions files have these places and texts. -/
def withDocument (table : Table) (d : Document) (loads : List (String × String)) :
    Except TableError Table := do
  let loaded ← table.addAll loads
  let declared ← loaded.declare d.operations
  declared.setOrder d.order

theorem setOrder_again (consistent : table.Consistent)
    (same : next.operations = table.operations) :
    next.setOrder table.order = .ok { next with order := table.order } :=
  setOrder_eq_ok_iff.2 ⟨same ▸ consistent.order_declared, consistent.order_distinct, rfl⟩

end Table

namespace Session
variable [FileSystem (StateM σ)]

structure Saved (table : Table) (path place : String) (files others : σ) (d : Document)
    (text : String) : Prop where
  located : (StateT.run (Document.locate path : StateM σ String) files).1 = place
  functions : d.functions = table.functionFiles.map (Table.relativePath
    (StateT.run (Table.baseOf (Table.directoryOf place) : StateM σ String) files).1)
  order : d.order = table.order
  operations : Table.declarations table.operations = .ok d.operations
  text_eq : d.text = .ok text
  write : StateT.run (FileSystem.write place text.toUTF8 : StateM σ _) files = (.ok (), others)

section Looking
variable [LooksOnly σ] {d : Document}

theorem toDocument_on (base : String) :
    (table.toDocument base : Storing (StateM σ) Document).on files =
      ((Table.declarations table.operations).map fun operations =>
        ⟨table.functionFiles.map (Table.relativePath
          (StateT.run (Table.baseOf base : StateM σ String) files).1), table.order, operations⟩,
        files) := by
  unfold Table.toDocument
  refine (Storing.andThen_on (ExceptT.lift (Table.baseOf base)) _).trans ?_
  rw [Storing.lift_on, Table.baseOf_files]
  dsimp only
  rw [Storing.andThen_on, Storing.pass_on]
  cases Table.declarations table.operations <;> rfl

theorem exists_saved {left : Table}
    (answered : (saveAs path).on table files = ((.ok place, left), others)) :
    left = { table with filePath := some place } ∧
      ∃ d text, Saved table path place files others d text := by
  rw [saveAs_on] at answered
  unfold saving at answered
  rw [Storing.andThen_on, Storing.lift_on, Document.locate_files] at answered
  dsimp only at answered
  rw [Storing.andThen_on, toDocument_on] at answered
  cases declared : Table.declarations table.operations with
  | error e =>
    rw [declared] at answered
    cases answered
  | ok operations =>
    rw [declared] at answered
    dsimp only [Except.map] at answered
    generalize describes : (⟨_, table.order, operations⟩ : Document) = d at answered
    rw [Storing.andThen_on, document_save_on] at answered
    cases text_eq : d.text with
    | error e =>
      rw [text_eq] at answered
      cases answered
    | ok text =>
      rw [text_eq] at answered
      dsimp only at answered
      generalize located : (StateT.run (Document.locate path : StateM σ String) files).1 = reached
        at answered describes
      rcases done : StateT.run (FileSystem.write reached text.toUTF8 : StateM σ _) files with
        ⟨fault | ⟨⟩, left⟩
      · rw [done] at answered
        cases answered
      · rw [done] at answered
        cases answered
        subst describes
        exact ⟨rfl, _, text, located, rfl, rfl, declared, text_eq, done⟩

theorem addDocument_on {base : String} {loads : List (String × String)}
    (found : List.Forall₂ (fun path load => functionsAt path files = .ok load)
      (d.functions.map (Path.join base)) loads) :
    (table.addDocument d base : Storing (StateM σ) Table).on files =
      (table.withDocument d loads, files) := by
  unfold Table.addDocument Table.withDocument
  rw [Storing.andThen_on, loadAllFunctions_on found]
  cases table.addAll loads with
  | error e => rfl
  | ok loaded =>
    change _ = ((loaded.declare d.operations).bind fun declared => declared.setOrder d.order, files)
    dsimp only
    rw [Storing.andThen_on, Storing.pass_on]
    cases loaded.declare d.operations <;> rfl

theorem openFrom_on {limit : Option Nat} {loads : List (String × String)}
    (located : StateT.run (Document.locate path : StateM σ String) files = (place, files))
    (loaded : (Document.load limit place : Storing (StateM σ) Document).on files = (.ok d, files))
    (found : List.Forall₂ (fun path load => functionsAt path files = .ok load)
      (d.functions.map (Path.join (Table.directoryOf place))) loads) :
    (Table.openFrom limit path [] : Storing (StateM σ) Table).on files =
      ((Table.empty.withDocument d loads).map fun table => { table with filePath := some place },
        files) := by
  unfold Table.openFrom
  refine (Storing.andThen_on (ExceptT.lift (Document.locate path)) _).trans ?_
  rw [Storing.lift_on, located]
  dsimp only
  rw [Storing.andThen_on, loaded]
  dsimp only
  rw [Storing.andThen_on, Table.loadAllFunctions, Storing.pure_on]
  dsimp only
  rw [Storing.andThen_on, addDocument_on found]
  cases Table.empty.withDocument d loads <;> rfl

end Looking

variable [Lawful σ] {steps : List (σ × Request)} {d : Document} {text : String}

theorem openFrom_saved {limit : Option Nat} {loads : List (String × String)}
    (sound : Lawful.Sound files) (saved : Saved table path place files others d text)
    (small : text.toUTF8.size ≤ Document.sizeLimit) (read : Document.ofText limit text = .ok d)
    (names : table.functionFiles = loads.map Prod.fst)
    (present : ∀ load ∈ loads, functionsAt load.1 others = .ok load) :
    (Table.openFrom limit path [] : Storing (StateM σ) Table).on others =
      ((Table.empty.withDocument d loads).map fun table => { table with filePath := some place },
        others) := by
  obtain ⟨later_sound, written⟩ := Lawful.written sound saved.write
  have found : List.Forall₂ (fun path load => functionsAt path others = .ok load)
      (d.functions.map (Path.join (Table.directoryOf place))) loads := by
    rw [saved.functions, names, List.map_map, List.map_map, List.forall₂_map_left_iff,
      List.forall₂_same]
    exact fun load member => functionsAt_join later_sound written.directory (present load member)
  have reread := (load_on written small).trans (congrArg (·, others) read)
  exact openFrom_on (locate_again written saved.located) reread found

theorem open_saved (whole : ∀ step ∈ steps, ∀ op, step.2 ≠ .add op)
    (reached : steps.foldl after Table.empty = table)
    (signed : ∀ op ∈ table.operations, op.Signed) (sound : Lawful.Sound files)
    (saved : Saved table path place files others d text)
    (small : text.toUTF8.size ≤ Document.sizeLimit) (inPlace : InPlace steps others) :
    (Table.openFrom none path [] : Storing (StateM σ) Table).on others =
      (.ok { table.cleared with filePath := some place }, others) := by
  obtain ⟨loads, names, added, present⟩ := exists_loads whole inPlace
  have consistent := consistent_foldl Table.consistent_empty whole
  rw [reached] at names added consistent
  obtain ⟨fits, rfl⟩ := fits_of_text saved.text_eq
  have read := Document.ofText_write fits (Table.signed_declarations signed saved.operations)
  have declared : table.bare.declare d.operations =
      .ok { table.bare with operations := table.operations } :=
    Table.declare_declarations consistent.areBuilt consistent.distinct saved.operations
  have ordered : ({ table.bare with operations := table.operations } : Table).setOrder d.order =
      .ok { table.bare with operations := table.operations, order := table.order } := by
    rw [saved.order, Table.setOrder_again consistent]
    rfl
  have described : Table.empty.withDocument d loads =
      .ok { table.bare with operations := table.operations, order := table.order } := by
    rw [Table.withDocument, added]
    change ((table.bare.declare d.operations).bind fun declared => declared.setOrder d.order) = _
    rw [declared]
    exact ordered
  rw [openFrom_saved sound saved small read names present, described]
  rfl

end Session

namespace Table
variable {ids : List OpId} {fault : TableError}

theorem evaluate_of_no_schedule (none : table.schedule = .error fault) :
    table.evaluate = (table, .error fault) := by
  rw [evaluate, none]

theorem evaluate_cleared (ok : table.schedule = .ok ids) :
    table.cleared.evaluate = table.evaluate := by
  have same : table.cleared.schedule = .ok ids := ok
  rw [evaluate, evaluate, ok, same]
  rfl

end Table

namespace Session
variable [FileSystem (StateM σ)] [Lawful σ]

/-- A saved document is opened as the table that was saved: with the same operations in the same
sequence, the same order, the same functions files and the same custom functions. Evaluating both
has the same result. If the operations have a schedule, it also leaves the same values and regions;
if they have none, both tables keep those that they had, and the opened one had none. -/
theorem reopened_table_agrees (steps : List (σ × Request))
    (whole : ∀ step ∈ steps, ∀ op, step.2 ≠ .add op) (table : Table)
    (reached : steps.foldl after Table.empty = table)
    (signed : ∀ op ∈ table.operations, op.Signed) (files others : σ)
    (sound : Lawful.Sound files) (path place : String) (saved : Table)
    (answered : (saveAs path).on table files = ((.ok place, saved), others))
    (small : ∀ size, sizeAt others place = .ok size → size ≤ Document.sizeLimit)
    (inPlace : InPlace steps others) :
    saved = { table with filePath := some place } ∧
      ∃ opened : Table,
        ((Table.openFrom none path [] : Storing (StateM σ) Table).on others).1 = .ok opened ∧
        opened.operations = saved.operations ∧ opened.order = saved.order ∧
        opened.functionFiles = saved.functionFiles ∧ opened.customSource = saved.customSource ∧
        opened.custom = saved.custom ∧ opened.evaluate.2 = saved.evaluate.2 ∧
        (∀ ids, saved.schedule = .ok ids →
          opened.evaluate.1.values = saved.evaluate.1.values ∧
            opened.evaluate.1.regions = saved.evaluate.1.regions) ∧
        ∀ fault, saved.schedule = .error fault →
          opened.evaluate.1 = opened ∧ saved.evaluate.1 = saved ∧ opened.values = Block.empty ∧
            opened.regions = {} := by
  obtain ⟨rfl, d, text, save⟩ := exists_saved answered
  have fit : text.toUTF8.size ≤ Document.sizeLimit :=
    small _ (Lawful.written sound save.write).2.size
  have opens := open_saved whole reached signed sound save fit inPlace
  generalize reread : ({ table with filePath := some place } : Table) = saved
  have cleared : ({ table.cleared with filePath := some place } : Table) = saved.cleared := by
    rw [← reread]
    rfl
  rw [cleared] at opens
  refine ⟨rfl, saved.cleared, congrArg Prod.fst opens, rfl, rfl, rfl, rfl, rfl, ?_, ?_, ?_⟩
  · cases scheduled : saved.schedule with
    | error fault =>
      have none : saved.cleared.schedule = .error fault := scheduled
      rw [Table.evaluate_of_no_schedule scheduled, Table.evaluate_of_no_schedule none]
    | ok ids => rw [Table.evaluate_cleared scheduled]
  · intro ids scheduled
    rw [Table.evaluate_cleared scheduled]
    exact ⟨rfl, rfl⟩
  · intro fault scheduled
    have none : saved.cleared.schedule = .error fault := scheduled
    rw [Table.evaluate_of_no_schedule scheduled, Table.evaluate_of_no_schedule none]
    exact ⟨rfl, rfl, rfl, rfl⟩

end Session

end

namespace Session

def helperFilesSaved : FileTree :=
  ((saveAs "t.toml").on (helperSteps.foldl after Table.empty) helperFiles).2

theorem helperSteps_inPlace : InPlace helperSteps helperFilesSaved := by
  rintro before ⟨files, request⟩ rest load split ⟨⟨asked, asks, found⟩, -, -⟩
  obtain rfl : request = .loadFunctions asked := asks
  have member : (files, Request.loadFunctions asked) ∈ helperSteps := split ▸ by simp
  obtain ⟨rfl, rfl | rfl⟩ : files = helperFiles ∧ (asked = "h.rhai" ∨ asked = "none.rhai") := by
    simpa [helperSteps, and_or_left] using member
  · have known : functionsAt "h.rhai" helperFiles =
        .ok ("/h.rhai", "fn twice(x) \x7b x * 2 \x7d") := by decide +kernel
    have still : functionsAt "/h.rhai" helperFilesSaved =
        .ok ("/h.rhai", "fn twice(x) \x7b x * 2 \x7d") := by decide +kernel
    cases known.symm.trans found
    exact still
  · have none : functionsAt "none.rhai" helperFiles = .error (.file .missing) := by decide +kernel
    cases none.symm.trans found

theorem reopened_table_agrees_helperSteps :
    ∃ (table saved opened : Table) (others : FileTree),
      helperSteps.foldl after Table.empty = table ∧
      (saveAs "t.toml").on table helperFiles = ((.ok "t.toml", saved), others) ∧
      ((Table.openFrom none "t.toml" [] : Storing (StateM FileTree) Table).on others).1 =
        .ok opened ∧
      opened.operations = saved.operations ∧ opened.functionFiles = ["/h.rhai"] ∧
      opened.evaluate.1.values = saved.evaluate.1.values := by
  have whole : ∀ step ∈ helperSteps, ∀ op, step.2 ≠ .add op := by
    simp [helperSteps]
  have sound : Lawful.Sound helperFiles := by
    intro name member
    cases member
  have signed : ∀ op ∈ (helperSteps.foldl after Table.empty).operations, op.Signed := by
    decide +kernel
  have names : (helperSteps.foldl after Table.empty).functionFiles = ["/h.rhai"] := by
    decide +kernel
  have scheduled : (helperSteps.foldl after Table.empty).schedule = .ok [1] := by decide +kernel
  have answer : ((saveAs "t.toml").on (helperSteps.foldl after Table.empty) helperFiles).1.1 =
      .ok "t.toml" := by decide +kernel
  have size : sizeAt helperFilesSaved "t.toml" = .ok 157 := by decide +kernel
  have inPlace := helperSteps_inPlace
  unfold helperFilesSaved at size inPlace
  generalize reached : helperSteps.foldl after Table.empty = table at *
  rcases done : (saveAs "t.toml").on table helperFiles with ⟨⟨outcome, saved⟩, others⟩
  rw [done] at answer size inPlace
  obtain rfl : outcome = .ok "t.toml" := answer
  have small (found : Nat) (there : sizeAt others "t.toml" = .ok found) :
      found ≤ Document.sizeLimit := by
    cases size.symm.trans there
    decide
  obtain ⟨rfl, opened, opens, operations, -, files, -, -, -, alike, -⟩ :=
    reopened_table_agrees helperSteps whole table reached signed helperFiles others sound
      "t.toml" "t.toml" saved done small inPlace
  exact ⟨table, _, opened, others, rfl, done, opens, operations, files.trans names,
    (alike [1] scheduled).1⟩

def staleSteps : List (FileTree × Request) :=
  [(FileTree.empty [], .bindSpec .empty (.reference "A1") (.rawInput [[.int 1]]) none),
    (FileTree.empty [], .evaluate),
    (FileTree.empty [], .bindSpec .empty (.operationCorner 99 .topLeft) .count none)]

theorem opened_table_lacks_stale_values :
    ∃ (table saved opened : Table) (others : FileTree) (size : Nat),
      staleSteps.foldl after Table.empty = table ∧ (∀ op ∈ table.operations, op.spec ≠ none) ∧
      (∀ op ∈ table.operations, op.Signed) ∧
      (saveAs "t.toml").on table (FileTree.empty []) = ((.ok "t.toml", saved), others) ∧
      sizeAt others "t.toml" = .ok size ∧ size ≤ Document.sizeLimit ∧ InPlace staleSteps others ∧
      ((Table.openFrom none "t.toml" [] : Storing (StateM FileTree) Table).on others).1 =
        .ok opened ∧
      saved.evaluate.1.display ⟨0, 0⟩ = "1" ∧ opened.evaluate.1.display ⟨0, 0⟩ = "" := by
  have whole : ∀ step ∈ staleSteps, ∀ op, step.2 ≠ .add op := by
    simp [staleSteps]
  have sound : Lawful.Sound (FileTree.empty []) := by
    intro name member
    cases member
  have declared : ∀ op ∈ (staleSteps.foldl after Table.empty).operations, op.spec.isSome := by
    decide +kernel
  have signed : ∀ op ∈ (staleSteps.foldl after Table.empty).operations, op.Signed := by
    decide +kernel
  have stale : ({ (staleSteps.foldl after Table.empty) with
      filePath := some "t.toml" } : Table).evaluate.1.display ⟨0, 0⟩ = "1" := by decide +kernel
  have none : ({ (staleSteps.foldl after Table.empty).cleared with
      filePath := some "t.toml" } : Table).evaluate.1.display ⟨0, 0⟩ = "" := by decide +kernel
  have answer : ((saveAs "t.toml").on (staleSteps.foldl after Table.empty)
      (FileTree.empty [])).1.1 = .ok "t.toml" := by decide +kernel
  have size : sizeAt ((saveAs "t.toml").on (staleSteps.foldl after Table.empty)
      (FileTree.empty [])).2 "t.toml" = .ok 269 := by decide +kernel
  have inPlace (others : FileTree) : InPlace staleSteps others := by
    rintro before step rest load split ⟨⟨asked, asks, -⟩, -, -⟩
    have member : step ∈ staleSteps := split ▸ by simp
    obtain ⟨files, request⟩ := step
    obtain rfl : request = .loadFunctions asked := asks
    simp [staleSteps] at member
  generalize reached : staleSteps.foldl after Table.empty = table at *
  rcases done : (saveAs "t.toml").on table (FileTree.empty []) with ⟨⟨outcome, saved⟩, others⟩
  rw [done] at answer size
  obtain rfl : outcome = .ok "t.toml" := answer
  obtain ⟨rfl, d, text, save⟩ := exists_saved done
  have fit : text.toUTF8.size ≤ Document.sizeLimit := by
    rw [Except.ok.inj ((Lawful.written sound save.write).2.size.symm.trans size)]
    decide
  have opens := open_saved whole reached signed sound save fit (inPlace others)
  refine ⟨table, _, _, others, _, rfl, ?_, signed, done, size, by decide, inPlace others,
    congrArg Prod.fst opens, stale, none⟩
  intro op member
  exact Option.isSome_iff_ne_none.1 (declared op member)

end Session

end LinkedSheet
