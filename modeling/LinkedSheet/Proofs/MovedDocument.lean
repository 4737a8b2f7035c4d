import LinkedSheet.Proofs.SavedDocument

/-!
How a document names its functions files, and what becomes of the names when its directory moves. A
file below the directory is named by the way from there, so that the name moves along; any other one
by its absolute path. For a path that is a bare name there is no directory to start from, and every
file is named by its absolute path.
-/
namespace LinkedSheet
variable {σ : Type} {files others moved : σ} {path place source : String}

open FileSystem

namespace Path
variable {base file : String}

def IsBareName (path : String) : Prop :=
  ∃ name, name ≠ "/" ∧ steps path = [name]

/-- How a document in the directory `base` names a functions file: by the way from there if the file
is below it, and else by the file's own absolute path. -/
structure NamedFrom (base file named : String) : Prop where
  below : steps base <+: steps file →
    isAbsolute named = false ∧ steps base ++ steps named = steps file
  beside : ¬ steps base <+: steps file → isAbsolute named = true ∧ named = file

theorem namedFrom_relativePath (base_isPlace : IsPlace base) (file_isPlace : IsPlace file) :
    NamedFrom base file (Table.relativePath base file) := by
  obtain ⟨base_steps, base_split, -⟩ := exists_steps_of_absolute base_isPlace.1
  obtain ⟨file_steps, file_split, each⟩ := exists_steps_of_absolute file_isPlace.1
  unfold Table.relativePath within?
  refine ⟨fun below => ?_, fun beside => ?_⟩
  · obtain ⟨rest, split⟩ := below
    have inside : ∀ step ∈ rest, IsStep step := by
      rw [base_split, file_split, List.cons_append, List.cons.injEq] at split
      exact fun step member => each step (split.2 ▸ List.mem_append_right _ member)
    have plain : ∀ step ∈ rest, '/' ∉ step.toList := fun step member => (inside step member).plain
    rw [if_pos (List.isPrefixOf_iff_prefix.2 ⟨rest, split⟩), ← split, List.drop_left,
      Option.getD_some, ofSteps_plain plain, steps_intercalate inside]
    exact ⟨isAbsolute_intercalate fun step member => ⟨(inside step member).some_letter,
      (inside step member).plain⟩, rfl⟩
  · rw [if_neg (by simpa [List.isPrefixOf_iff_prefix] using beside)]
    exact ⟨file_isPlace.1, rfl⟩

end Path

theorem Table.directoryOf_eq_empty_iff :
    Table.directoryOf path = "" ↔ Path.IsBareName path := by
  unfold Table.directoryOf Path.parent?
  split
  · rename_i none
    exact iff_of_false (by decide) (by simp [Path.IsBareName, none])
  · rename_i root
    refine iff_of_false (by decide) ?_
    rintro ⟨name, other, one⟩
    rw [root] at one
    exact other (List.head_eq_of_cons_eq one).symm
  · rename_i some_step not_root
    rw [Option.getD_some]
    rcases split : Path.steps path with _ | ⟨first, _ | ⟨second, rest⟩⟩
    · exact absurd split some_step
    · have other : first ≠ "/" := fun root => not_root (root ▸ split)
      exact iff_of_true rfl ⟨first, other, split⟩
    · have some_letter : first ≠ "" := Path.some_letter_of_mem_steps (split ▸ List.mem_cons_self)
      refine iff_of_false (Path.ofSteps_ne_empty some_letter) ?_
      rintro ⟨name, -, one⟩
      simp [split] at one

namespace Table
variable [Script.Engine] {table : Table} {places : String → String} {names : List String}
  {d : Document}

def relocated (places : String → String) (table : Table) : Table :=
  { table with functionFiles := table.functionFiles.map places }

/-- Places that are told apart where the names are. -/
def ToldApart (places : String → String) (names : List String) : Prop :=
  ∀ name ∈ names, ∀ other ∈ names, places name = places other → name = other

instance : Decidable (ToldApart places names) :=
  inferInstanceAs (Decidable (∀ name ∈ names, ∀ other ∈ names,
    places name = places other → name = other))

theorem addFunctions_relocated (apart : ToldApart places names)
    (known : table.functionFiles ⊆ names) (named : place ∈ names) :
    (table.relocated places).addFunctions (places place) source =
      (table.addFunctions place source).map (relocated places) := by
  have same : (table.relocated places).functionFiles.contains (places place) =
      table.functionFiles.contains place := by
    rw [relocated, Bool.eq_iff_iff, List.contains_iff_mem, List.contains_iff_mem]
    refine ⟨fun member => ?_, List.mem_map_of_mem⟩
    obtain ⟨other, present, equal⟩ := List.mem_map.1 member
    exact apart other (known present) place named equal ▸ present
  have joined : (table.relocated places).sourceWith source = table.sourceWith source := rfl
  have bound : (table.relocated places).operations = table.operations := rfl
  unfold addFunctions
  rw [same, joined, bound]
  split
  · rfl
  · dsimp only
    cases Script.compileFunctions (table.sourceWith source) with
    | error e => rfl
    | ok custom =>
      dsimp only
      cases rebuilt custom table.operations with
      | error e => rfl
      | ok operations => simp [Except.map, relocated]

theorem addAll_relocated {loads : List (String × String)} (apart : ToldApart places names)
    (known : table.functionFiles ⊆ names) (named : ∀ load ∈ loads, load.1 ∈ names) :
    (table.relocated places).addAll (loads.map (Prod.map places id)) =
      (table.addAll loads).map (relocated places) := by
  induction loads generalizing table with
  | nil => rfl
  | cons load rest ih =>
    obtain ⟨first, later⟩ := List.forall_mem_cons.1 named
    rw [List.map_cons, addAll, addAll, Prod.map_fst, Prod.map_snd, id,
      addFunctions_relocated apart known first]
    cases added : table.addFunctions load.1 load.2 with
    | error e => rfl
    | ok middle =>
      refine ih ?_ later
      rcases Session.files_of_addFunctions added with ⟨-, rfl⟩ | ⟨more, -⟩
      · exact known
      · rw [more]
        exact List.append_subset.2 ⟨known, by simpa using first⟩

theorem bindSpec_relocated (d : Declaration) :
    (table.relocated places).bindSpec d.selection d.anchor d.function (some d.id) =
      (table.bindSpec d.selection d.anchor d.function (some d.id)).map
        (Prod.map id (relocated places)) := by
  have added (op : Operation) : (table.relocated places).add op =
      (table.add op).map (relocated places) := by
    unfold add
    change (if table.operations.any (fun other => other.id == op.id) then _ else _) = _
    split <;> rfl
  unfold bindSpec
  have same : (table.relocated places).custom = table.custom := rfl
  rw [same]
  cases d.function.build table.custom with
  | error e => rfl
  | ok function =>
    dsimp only [Option.getD_some]
    rw [added]
    cases table.add ⟨d.id, d.selection, d.anchor, function, some d.function⟩ <;> rfl

theorem declare_relocated (declarations : List Declaration) :
    (table.relocated places).declare declarations =
      (table.declare declarations).map (relocated places) := by
  induction declarations generalizing table with
  | nil => rfl
  | cons d rest ih =>
    rw [declare, declare, bindSpec_relocated]
    cases table.bindSpec d.selection d.anchor d.function (some d.id) with
    | error e => rfl
    | ok found => exact ih

theorem setOrder_relocated (ids : List OpId) :
    (table.relocated places).setOrder ids = (table.setOrder ids).map (relocated places) := by
  have bound : (table.relocated places).operations = table.operations := rfl
  unfold setOrder
  rw [bound]
  cases Schedule.orderFault? (table.operations.map Operation.id) [] ids <;> rfl

theorem withDocument_relocated {loads : List (String × String)}
    (apart : ToldApart places (loads.map Prod.fst)) :
    empty.withDocument d (loads.map (Prod.map places id)) =
      (empty.withDocument d loads).map (relocated places) := by
  have added : (empty.relocated places).addAll (loads.map (Prod.map places id)) =
      (empty.addAll loads).map (relocated places) :=
    addAll_relocated apart (List.nil_subset _) fun load => List.mem_map_of_mem
  unfold withDocument
  change ((empty.relocated places).addAll _ >>= _) = _
  rw [added]
  cases empty.addAll loads with
  | error e => rfl
  | ok loaded =>
    change ((loaded.relocated places).declare d.operations >>= fun declared =>
      declared.setOrder d.order) = Except.map _ (loaded.declare d.operations >>= fun declared =>
      declared.setOrder d.order)
    rw [declare_relocated]
    cases loaded.declare d.operations with
    | error e => rfl
    | ok declared => exact setOrder_relocated d.order

end Table

namespace Session
variable [FileSystem (StateM σ)]

/-- The directory of a document has been moved, and the document is at `target` now. A functions
file below `base`, which was the directory, is found from the new one as it was found from there;
any other is still found by its own path. `places` says where the functions files are now. -/
structure Moved (base place target : String) (names : List String) (places : String → String)
    (files others : σ) : Prop where
  kind : kindAt others target = kindAt files place
  size : sizeAt others target = sizeAt files place
  read : readAt others target = readAt files place
  below : ∀ name ∈ names, ∀ rest, Path.within? base name = some rest →
    ∃ source, functionsAt name files = .ok (name, source) ∧
      functionsAt (Path.join (Table.directoryOf target) rest) others = .ok (places name, source)
  beside : ∀ name ∈ names, Path.within? base name = none →
    ∃ source, functionsAt name files = .ok (name, source) ∧
      functionsAt name others = .ok (places name, source)
  apart : Table.ToldApart places names

theorem Moved.exists_loads {base target : String} {names : List String}
    {places : String → String} (move : Moved base place target names places files others)
    (absolute : ∀ name ∈ names, Path.isAbsolute name = true) :
    ∃ loads : List (String × String), loads.map Prod.fst = names ∧
      (∀ load ∈ loads, functionsAt load.1 files = .ok load) ∧
      List.Forall₂ (fun path load => functionsAt path others = .ok load)
        ((names.map (Table.relativePath base)).map (Path.join (Table.directoryOf target)))
        (loads.map (Prod.map places id)) := by
  have each : ∀ name ∈ names, ∃ source, functionsAt name files = .ok (name, source) ∧
      functionsAt (Path.join (Table.directoryOf target) (Table.relativePath base name)) others =
        .ok (places name, source) := by
    intro name member
    unfold Table.relativePath
    cases within : Path.within? base name with
    | some rest => exact move.below name member rest within
    | none =>
      have whole : Path.join (Table.directoryOf target) name = name := by
        rw [Path.join, absolute name member]
        rfl
      rw [Option.getD_none, whole]
      exact move.beside name member within
  choose! source there found using each
  refine ⟨names.map fun name => (name, source name), ?_, ?_, ?_⟩
  · rw [List.map_map]
    exact List.map_id names
  · exact List.forall_mem_map.2 there
  · rw [List.map_map, List.map_map, List.forall₂_map_left_iff, List.forall₂_map_right_iff,
      List.forall₂_same]
    exact found

section
variable [Script.Engine] {table next : Table}

theorem openFrom_refused [LooksOnly σ] {limit : Option Nat} {fault : TableError}
    (located : StateT.run (Document.locate path : StateM σ String) files = (place, files))
    (refused : (Document.load limit place : Storing (StateM σ) Document).on files =
      (.error fault, files)) :
    (Table.openFrom limit path [] : Storing (StateM σ) Table).on files =
      (.error fault, files) := by
  unfold Table.openFrom
  refine (Storing.andThen_on (ExceptT.lift (Document.locate path)) _).trans ?_
  rw [Storing.lift_on, located]
  dsimp only
  rw [Storing.andThen_on, refused]

theorem reads_of_openFrom [Lawful σ] {d : Document} {text : String}
    (signed : ∀ op ∈ table.operations, op.Signed) (sound : Lawful.Sound files)
    (save : Saved table path place files others d text)
    (opens : ((Table.openFrom Toml.nestingLimit path [] : Storing (StateM σ) Table).on
      others).1 = .ok next) :
    text.toUTF8.size ≤ Document.sizeLimit ∧ Document.ofText Toml.nestingLimit text = .ok d := by
  have written := (Lawful.written sound save.write).2
  have located := locate_again written save.located
  have small : text.toUTF8.size ≤ Document.sizeLimit := by
    by_contra large
    rw [openFrom_refused located (load_large written (Nat.lt_of_not_le large))] at opens
    cases opens
  refine ⟨small, ?_⟩
  obtain ⟨fits, text_eq⟩ := fits_of_text save.text_eq
  have declared := Table.signed_declarations signed save.operations
  rcases Document.ofText_some fits declared (by decide : 2 < 80) with ⟨-, read⟩ | ⟨-, line, stops⟩
  · exact text_eq ▸ read
  · rw [← text_eq] at stops
    have refused := (load_on written small).trans (congrArg (·, others) stops)
    rw [Toml.nestingLimit, openFrom_refused located refused] at opens
    cases opens

variable [Lawful σ]

theorem isPlace_of_found {chosen : List (σ × Request)} {loads : List (String × String)}
    (found : List.Forall₂ Found chosen loads) (rooted : ∀ step ∈ chosen, Lawful.Sound step.1) :
    ∀ load ∈ loads, IsPlace load.1 := by
  induction found with
  | nil => simp
  | cons first _ ih =>
    obtain ⟨sound, rooted⟩ := List.forall_mem_cons.1 rooted
    obtain ⟨path, -, there⟩ := first
    exact List.forall_mem_cons.2 ⟨Lawful.isPlace sound (functionsAt_eq_ok.1 there).1, ih rooted⟩

theorem isPlace_functionFiles {steps : List (σ × Request)}
    (rooted : ∀ step ∈ steps, Lawful.Sound step.1) :
    ∀ file ∈ (steps.foldl after Table.empty).functionFiles, IsPlace file := by
  obtain ⟨chosen, loads, part, found, names, -⟩ := loadedBy_foldl steps
  rw [names]
  exact List.forall_mem_map.2 (isPlace_of_found found fun step member =>
    rooted step (part.subset member))

theorem open_moved {base target : String} {places : String → String} {opened : Table}
    {d : Document} {text : String} (absolute : ∀ file ∈ table.functionFiles, IsPlace file)
    (signed : ∀ op ∈ table.operations, op.Signed) (sound : Lawful.Sound files)
    (save : Saved table path place files others d text)
    (found : canonicalAt files (Table.directoryOf place) = .ok base)
    (move : Moved base place target table.functionFiles places others moved)
    (opens : ((Table.openFrom Toml.nestingLimit path [] : Storing (StateM σ) Table).on
      others).1 = .ok opened) :
    ((Table.openFrom Toml.nestingLimit target [] : Storing (StateM σ) Table).on moved).1 =
      .ok { opened.relocated places with filePath := some target } := by
  obtain ⟨-, written⟩ := Lawful.written sound save.write
  obtain ⟨small, read⟩ := reads_of_openFrom signed sound save opens
  have written_base : d.functions = table.functionFiles.map (Table.relativePath base) := by
    rw [save.functions, baseOf_run, found]
  obtain ⟨loads, names, there, relocated⟩ :=
    move.exists_loads fun file member => (absolute file member).1
  rw [← written_base] at relocated
  rw [openFrom_saved sound save small read names.symm there] at opens
  have holds : HoldsFile target text.toUTF8 moved :=
    ⟨move.kind.trans written.kind, move.size.trans written.size, move.read.trans written.read⟩
  have located : StateT.run (Document.locate target : StateM σ String) moved = (target, moved) := by
    rw [locate_run, holds.kind]
  have reread := (load_of_holdsFile holds small).trans (congrArg (·, moved) read)
  -- the same texts are loaded from other places, so that only the places differ in the end
  rw [openFrom_on located reread relocated, Table.withDocument_relocated (names ▸ move.apart)]
  cases described : Table.empty.withDocument d loads with
  | error e =>
    rw [described] at opens
    cases opens
  | ok next =>
    rw [described] at opens
    cases opens
    rfl

/-- A saved document names each functions file below its directory by the way from there, and every
other one by its absolute path, so that the document can still be opened once its directory has been
moved with the functions files in it. If it was saved by a bare name, however, it names all of them
by their absolute paths. -/
theorem functions_of_saveAs (steps : List (σ × Request)) (table : Table)
    (reached : steps.foldl after Table.empty = table)
    (rooted : ∀ step ∈ steps, Lawful.Sound step.1) (files others : σ)
    (sound : Lawful.Sound files) (path place : String) (saved : Table)
    (answered : (saveAs path).on table files = ((.ok place, saved), others)) :
    ∃ d text, Saved table path place files others d text ∧
      (Path.IsBareName place → d.functions = table.functionFiles ∧
        ∀ named ∈ d.functions, Path.isAbsolute named = true) ∧
      (¬ Path.IsBareName place →
        ∃ base, canonicalAt files (Table.directoryOf place) = .ok base ∧
          List.Forall₂ (Path.NamedFrom base) table.functionFiles d.functions ∧
          ∀ (moved : σ) (target : String) (places : String → String) (opened : Table),
            (∀ op ∈ table.operations, op.Signed) →
            Moved base place target table.functionFiles places others moved →
            ((Table.openFrom Toml.nestingLimit path [] : Storing (StateM σ) Table).on others).1 =
              .ok opened →
            ((Table.openFrom Toml.nestingLimit target [] : Storing (StateM σ) Table).on moved).1 =
              .ok { opened.relocated places with filePath := some target }) := by
  obtain ⟨-, d, text, save⟩ := exists_saved answered
  have absolute : ∀ file ∈ table.functionFiles, IsPlace file :=
    reached ▸ isPlace_functionFiles rooted
  refine ⟨d, text, save, fun bare => ?_, fun longer => ?_⟩
  · obtain ⟨fault, none⟩ := Lawful.canonical_empty files
    have same : d.functions = table.functionFiles := by
      rw [save.functions, Table.directoryOf_eq_empty_iff.2 bare, baseOf_run, none]
      exact (List.map_congr_left fun file member =>
        Table.relativePath_empty (absolute file member)).trans (List.map_id _)
    exact ⟨same, fun named member => (absolute named (same ▸ member)).1⟩
  · obtain ⟨base, found, -, -⟩ := (Lawful.written sound save.write).2.directory.resolve_left
      fun bare => longer (Table.directoryOf_eq_empty_iff.1 bare)
    refine ⟨base, found, ?_, fun moved target places opened signed move opens =>
      open_moved absolute signed sound save found move opens⟩
    rw [save.functions, baseOf_run, found, List.forall₂_map_right_iff, List.forall₂_same]
    exact fun file member =>
      Path.namedFrom_relativePath (Lawful.isPlace sound found) (absolute file member)

end

end Session

def FileTree.withMoved (source target : List String) (tree : FileTree) : FileTree :=
  { tree with nodes := tree.nodes.map fun node =>
      (if source.isPrefixOf node.1 then target ++ node.1.drop source.length else node.1, node.2) }

namespace Session

def sharedFiles : FileTree :=
  ⟨["w"], [(["w", "f.rhai"], some "fn one() \x7b 1 \x7d".toUTF8),
    (["lib", "g.rhai"], some "fn two() \x7b 2 \x7d".toUTF8), (["w"], none), (["lib"], none)]⟩

def sharedSteps : List (FileTree × Request) :=
  [(sharedFiles, .loadFunctions "f.rhai"),
    (sharedFiles, .bindSpec .empty (.reference "A1") (.script "one()") none),
    (sharedFiles, .loadFunctions "/lib/g.rhai")]

def sharedFilesSaved (path : String) : FileTree :=
  ((saveAs path).on (sharedSteps.foldl after Table.empty) sharedFiles).2

def sharedPlaces (name : String) : String :=
  if name = "/w/f.rhai" then "/v/f.rhai" else name

theorem functionFiles_shared :
    (sharedSteps.foldl after Table.empty).functionFiles = ["/w/f.rhai", "/lib/g.rhai"] := by
  decide +kernel

theorem moved_shared :
    Moved "/w" "./t.toml" "/v/t.toml" ["/w/f.rhai", "/lib/g.rhai"] sharedPlaces
      (sharedFilesSaved "./t.toml") ((sharedFilesSaved "./t.toml").withMoved ["w"] ["v"]) := by
  have inside : Path.within? "/w" "/w/f.rhai" = some "f.rhai" := by decide +kernel
  have outside : Path.within? "/w" "/lib/g.rhai" = none := by decide +kernel
  have kept : let files := sharedFilesSaved "./t.toml"
      let moved := files.withMoved ["w"] ["v"]
      (kindAt moved "/v/t.toml" = kindAt files "./t.toml" ∧
        sizeAt moved "/v/t.toml" = sizeAt files "./t.toml" ∧
        readAt moved "/v/t.toml" = readAt files "./t.toml") ∧
      (functionsAt "/w/f.rhai" files = .ok ("/w/f.rhai", "fn one() \x7b 1 \x7d") ∧
        functionsAt "/v/f.rhai" moved = .ok ("/v/f.rhai", "fn one() \x7b 1 \x7d")) ∧
      functionsAt "/lib/g.rhai" files = .ok ("/lib/g.rhai", "fn two() \x7b 2 \x7d") ∧
        functionsAt "/lib/g.rhai" moved = .ok ("/lib/g.rhai", "fn two() \x7b 2 \x7d") := by
    decide +kernel
  obtain ⟨⟨kind, size, read⟩, first, second⟩ := kept
  refine ⟨kind, size, read, ?_, ?_, by decide +kernel⟩
  · intro name member rest within
    obtain rfl | rfl : name = "/w/f.rhai" ∨ name = "/lib/g.rhai" := by simpa using member
    · cases inside.symm.trans within
      exact ⟨_, first⟩
    · cases outside.symm.trans within
  · intro name member within
    obtain rfl | rfl : name = "/w/f.rhai" ∨ name = "/lib/g.rhai" := by simpa using member
    · cases inside.symm.trans within
    · exact ⟨_, second⟩

theorem sound_shared : Lawful.Sound sharedFiles := by
  intro name member
  obtain rfl : name = "w" := by simpa [sharedFiles] using member
  exact ⟨by decide, by decide, by decide, by decide⟩

theorem functions_of_saveAs_shared :
    ∃ (table saved opened : Table) (others : FileTree) (d : Document) (text : String),
      sharedSteps.foldl after Table.empty = table ∧
      (saveAs "./t.toml").on table sharedFiles = ((.ok "./t.toml", saved), others) ∧
      Saved table "./t.toml" "./t.toml" sharedFiles others d text ∧
      List.Forall₂ (Path.NamedFrom "/w") ["/w/f.rhai", "/lib/g.rhai"] d.functions ∧
      ((Table.openFrom Toml.nestingLimit "/v/t.toml" [] : Storing (StateM FileTree) Table).on
        (others.withMoved ["w"] ["v"])).1 = .ok opened ∧
      opened.functionFiles = ["/v/f.rhai", "/lib/g.rhai"] := by
  have rooted : ∀ step ∈ sharedSteps, Lawful.Sound step.1 := by
    simpa [sharedSteps] using sound_shared
  have signed : ∀ op ∈ (sharedSteps.foldl after Table.empty).operations, op.Signed := by
    decide +kernel
  have answer : ((saveAs "./t.toml").on (sharedSteps.foldl after Table.empty) sharedFiles).1.1 =
      .ok "./t.toml" := by decide +kernel
  have opens : ((Table.openFrom Toml.nestingLimit "./t.toml" [] :
      Storing (StateM FileTree) Table).on (sharedFilesSaved "./t.toml")).1.map Table.functionFiles =
        .ok ["/w/f.rhai", "/lib/g.rhai"] := by decide +kernel
  have longer : ¬ Path.IsBareName "./t.toml" := by
    rw [← Table.directoryOf_eq_empty_iff]
    decide +kernel
  have home : canonicalAt sharedFiles (Table.directoryOf "./t.toml") = .ok "/w" := by
    decide +kernel
  have names := functionFiles_shared
  have move := moved_shared
  unfold sharedFilesSaved at opens move
  generalize reached : sharedSteps.foldl after Table.empty = table at *
  rcases done : (saveAs "./t.toml").on table sharedFiles with ⟨⟨outcome, saved⟩, others⟩
  rw [done] at answer opens move
  obtain rfl : outcome = .ok "./t.toml" := answer
  obtain ⟨d, text, save, -, named⟩ := functions_of_saveAs sharedSteps table reached rooted
    sharedFiles others sound_shared "./t.toml" "./t.toml" saved done
  obtain ⟨base, found, each, reopens⟩ := named longer
  obtain rfl : base = "/w" := Except.ok.inj (found.symm.trans home)
  rw [names] at each
  cases opened : ((Table.openFrom Toml.nestingLimit "./t.toml" [] :
      Storing (StateM FileTree) Table).on others).1 with
  | error e =>
    rw [opened] at opens
    cases opens
  | ok before =>
    rw [opened] at opens
    have files : before.functionFiles = ["/w/f.rhai", "/lib/g.rhai"] := Except.ok.inj opens
    have after_move := reopens _ _ _ _ signed (names ▸ move) opened
    refine ⟨table, saved, _, others, d, text, rfl, done, save, each, after_move, ?_⟩
    change before.functionFiles.map sharedPlaces = _
    rw [files]
    rfl

theorem bareName_names_absolutely :
    ∃ (d : Document) (text : String),
      Saved (sharedSteps.foldl after Table.empty) "t.toml" "t.toml" sharedFiles
        (sharedFilesSaved "t.toml") d text ∧
      canonicalAt sharedFiles "." = .ok "/w" ∧ d.functions = ["/w/f.rhai", "/lib/g.rhai"] ∧
      ¬ List.Forall₂ (Path.NamedFrom "/w") ["/w/f.rhai", "/lib/g.rhai"] d.functions ∧
      functionsAt "/w/f.rhai" ((sharedFilesSaved "t.toml").withMoved ["w"] ["v"]) =
        .error (.file .missing) := by
  have answer : ((saveAs "t.toml").on (sharedSteps.foldl after Table.empty) sharedFiles).1.1 =
      .ok "t.toml" := by decide +kernel
  have home : canonicalAt sharedFiles "." = .ok "/w" := by decide +kernel
  have bare : Table.directoryOf "t.toml" = "" := by decide +kernel
  have lost : functionsAt "/w/f.rhai" ((sharedFilesSaved "t.toml").withMoved ["w"] ["v"]) =
      .error (.file .missing) := by decide +kernel
  have names := functionFiles_shared
  have below : Path.steps "/w" <+: Path.steps "/w/f.rhai" := by decide +kernel
  unfold sharedFilesSaved at lost ⊢
  generalize sharedSteps.foldl after Table.empty = table at *
  rcases done : (saveAs "t.toml").on table sharedFiles with ⟨⟨outcome, saved⟩, others⟩
  rw [done] at answer lost
  obtain rfl : outcome = .ok "t.toml" := answer
  obtain ⟨-, d, text, save⟩ := exists_saved done
  have named : d.functions = ["/w/f.rhai", "/lib/g.rhai"] := by
    rw [save.functions, names, bare]
    decide +kernel
  refine ⟨d, text, save, home, named, fun each => ?_, lost⟩
  rw [named] at each
  exact absurd ((List.forall₂_cons.1 each).1.below below).1 (by decide +kernel)

end Session

end LinkedSheet
