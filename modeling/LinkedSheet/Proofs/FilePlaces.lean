import Mathlib.Data.List.DropRight
import LinkedSheet.FileSystem.Tree
import LinkedSheet.Proofs.PathSteps
import LinkedSheet.Proofs.SessionRequests

/-!
What storage relies on where a file is written and paths are made relative: a file that was written
is there with its content, and a path without detours is found again from a directory that it leads
through. `FileTree` is one file system of this kind.
-/
namespace LinkedSheet
variable {σ : Type}

namespace FileSystem

section
variable [FileSystem (StateM σ)]

def canonicalAt (files : σ) (path : String) : Except FileError String :=
  (StateT.run (canonical path : StateM σ _) files).1

def kindAt (files : σ) (path : String) : Option FileKind :=
  (StateT.run (kind? path : StateM σ _) files).1

def sizeAt (files : σ) (path : String) : Except FileError Nat :=
  (StateT.run (size path : StateM σ _) files).1

def readAt (files : σ) (path : String) : Except FileError ByteArray :=
  (StateT.run (read path : StateM σ _) files).1

section Looking
variable [LooksOnly σ]

theorem canonical_run (path : String) (files : σ) :
    StateT.run (canonical path : StateM σ _) files = (canonicalAt files path, files) :=
  Prod.ext rfl (LooksOnly.canonical_files path files)

theorem kind_run (path : String) (files : σ) :
    StateT.run (kind? path : StateM σ _) files = (kindAt files path, files) :=
  Prod.ext rfl (LooksOnly.kind?_files path files)

theorem size_run (path : String) (files : σ) :
    StateT.run (size path : StateM σ _) files = (sizeAt files path, files) :=
  Prod.ext rfl (LooksOnly.size_files path files)

theorem read_run (path : String) (files : σ) :
    StateT.run (FileSystem.read path : StateM σ _) files = (readAt files path, files) :=
  Prod.ext rfl (LooksOnly.read_files path files)

end Looking

def IsPlace (place : String) : Prop :=
  Path.isAbsolute place = true ∧ Path.ofSteps (Path.steps place) = place

def KeepsDirectory (files others : σ) (directory : String) : Prop :=
  ∃ base, canonicalAt files directory = .ok base ∧ canonicalAt others directory = .ok base ∧
    kindAt others directory = some .directory

structure HoldsFile (path : String) (content : ByteArray) (files : σ) : Prop where
  kind : kindAt files path = some .file
  size : sizeAt files path = .ok content.size
  read : readAt files path = .ok content

structure Written (path : String) (content : ByteArray) (files others : σ) : Prop where
  kind : kindAt others path = some .file
  size : sizeAt others path = .ok content.size
  read : readAt others path = .ok content
  directories (other : String) :
    kindAt files other = some .directory → kindAt others other = some .directory
  directory : Table.directoryOf path = "" ∨ KeepsDirectory files others (Table.directoryOf path)

end

/-- Files that are found where they were written. -/
class Lawful (σ : Type) [FileSystem (StateM σ)] extends LooksOnly σ where
  /-- What holds of the files at all times. -/
  Sound : σ → Prop
  canonical_empty (files : σ) : ∃ fault, canonicalAt files "" = .error fault
  isPlace {files : σ} {path place : String} :
    Sound files → canonicalAt files path = .ok place → IsPlace place
  /-- The rest of a path, taken from a directory that the path leads through. -/
  canonical_join {files : σ} {directory base place rest : String} :
    Sound files → kindAt files directory = some .directory →
      canonicalAt files directory = .ok base → canonicalAt files place = .ok place →
      Path.within? base place = some rest → canonicalAt files (Path.join directory rest) = .ok place
  written {files others : σ} {path : String} {content : ByteArray} :
    Sound files → StateT.run (write path content : StateM σ _) files = (.ok (), others) →
      Sound others ∧ Written path content files others

end FileSystem

namespace FileTree

open FileSystem LinkedSheet.Path

variable {tree next : FileTree} {place found : List String} {steps more : List String}
  {path step : String} {content : ByteArray}

def Sound (tree : FileTree) : Prop :=
  ∀ name ∈ tree.workingDirectory, IsName name

/-- Where one step leads. -/
def advance (place : List String) (step : String) : List String :=
  if step = "" ∨ step = "." then place
  else if step = ".." then place.dropLast
  else place ++ [step]

theorem advance_name (isName : IsName step) : advance place step = place ++ [step] := by
  simp [advance, isName.some_letter, isName.not_here, isName.not_up]

theorem follow_nil :
    tree.follow place [] = .ok found ↔ place = found ∧ tree.node place ≠ .nothing := by
  rw [follow]
  cases here : tree.node place <;> simp

theorem follow_cons :
    tree.follow place (step :: more) = .ok found ↔
      tree.node place = .directory ∧ tree.follow (advance place step) more = .ok found := by
  rw [follow]
  cases here : tree.node place with
  | directory =>
    dsimp only
    unfold advance
    split
    · simp
    · split <;> simp
  | _ => simp

theorem follow_append :
    tree.follow place (steps ++ step :: more) = .ok found ↔
      ∃ middle, tree.follow place steps = .ok middle ∧ tree.node middle = .directory ∧
        tree.follow middle (step :: more) = .ok found := by
  induction steps generalizing place with
  | nil =>
    simp only [List.nil_append, follow_nil]
    constructor
    · intro ok
      have here := (follow_cons.1 ok).1
      exact ⟨place, ⟨rfl, by simp [here]⟩, here, ok⟩
    · rintro ⟨_, ⟨rfl, -⟩, -, ok⟩
      exact ok
  | cons first steps ih =>
    rw [List.cons_append, follow_cons, ih]
    constructor
    · rintro ⟨here, middle, ok, rest⟩
      exact ⟨middle, follow_cons.2 ⟨here, ok⟩, rest⟩
    · rintro ⟨middle, ok, rest⟩
      obtain ⟨here, ok⟩ := follow_cons.1 ok
      exact ⟨here, middle, ok, rest⟩

theorem eq_of_follow_names (each : ∀ name ∈ steps, IsName name)
    (ok : tree.follow place steps = .ok found) : found = place ++ steps := by
  induction steps generalizing place with
  | nil => simp [(follow_nil.1 ok).1]
  | cons name steps ih =>
    have ok := (follow_cons.1 ok).2
    rw [advance_name (each name List.mem_cons_self)] at ok
    simpa using ih (fun other member => each other (List.mem_cons_of_mem _ member)) ok

theorem isName_of_follow (names : ∀ name ∈ place, IsName name)
    (plain : ∀ step ∈ steps, '/' ∉ step.toList) (ok : tree.follow place steps = .ok found) :
    ∀ name ∈ found, IsName name := by
  induction steps generalizing place with
  | nil => exact (follow_nil.1 ok).1 ▸ names
  | cons step steps ih =>
    refine ih ?_ (fun other member => plain other (List.mem_cons_of_mem _ member))
      (follow_cons.1 ok).2
    intro name member
    unfold advance at member
    split at member
    · exact names name member
    · rename_i counts
      rw [not_or] at counts
      split at member
      · exact names name (List.dropLast_subset _ member)
      · rename_i not_up
        rcases List.mem_append.1 member with member | member
        · exact names name member
        · obtain rfl := List.mem_singleton.1 member
          exact ⟨counts.1, counts.2, not_up, plain _ List.mem_cons_self⟩

theorem follow_filter (ok : tree.follow place steps = .ok found) :
    tree.follow place (steps.filter fun piece => piece ≠ "" ∧ piece ≠ ".") = .ok found := by
  induction steps generalizing place with
  | nil => exact ok
  | cons step steps ih =>
    obtain ⟨here, ok⟩ := follow_cons.1 ok
    by_cases stays : step = "" ∨ step = "."
    · rw [List.filter_cons_of_neg (by simpa [imp_iff_not_or, or_comm] using stays)]
      rw [advance, if_pos stays] at ok
      exact ih ok
    · rw [List.filter_cons_of_pos (by simpa [not_or] using stays), follow_cons]
      exact ⟨here, ih ok⟩

def withFile (tree : FileTree) (place : List String) (content : ByteArray) : FileTree :=
  { tree with nodes := (place, some content) :: tree.nodes }

theorem node_withFile (some_name : place ≠ []) (other : List String) :
    (tree.withFile place content).node other =
      if other = place then .file content else tree.node other := by
  unfold node withFile
  by_cases same : other = place
  · subst same
    simp [some_name]
  · have skipped : List.lookup other ((place, some content) :: tree.nodes) =
        List.lookup other tree.nodes := by
      rw [List.lookup_cons, beq_eq_false_iff_ne.2 same]
    rw [if_neg same, skipped]

theorem follow_withFile (some_name : place ≠ []) (no_directory : tree.node place ≠ .directory)
    {start : List String} (ok : tree.follow start steps = .ok found) :
    (tree.withFile place content).follow start steps = .ok found := by
  induction steps generalizing start with
  | nil =>
    obtain ⟨rfl, here⟩ := follow_nil.1 ok
    refine follow_nil.2 ⟨rfl, ?_⟩
    rw [node_withFile some_name]
    split
    · simp
    · exact here
  | cons step steps ih =>
    obtain ⟨here, ok⟩ := follow_cons.1 ok
    refine follow_cons.2 ⟨?_, ih ok⟩
    rw [node_withFile some_name, if_neg]
    · exact here
    · rintro rfl
      exact no_directory here

structure LeadsTo (tree : FileTree) (path : String) (directory : List String) (name : String) :
    Prop where
  isName : IsName name
  isDirectory : tree.node directory = .directory
  leads : ∃ front, pieces path = front ++ [name] ∧
    tree.follow (tree.start path) front = .ok directory

theorem exists_leadsTo (ok : tree.target path = .ok place) :
    ∃ directory name, LeadsTo tree path directory name ∧ place = directory ++ [name] := by
  have front : ((pieces path).reverse.dropWhile (· = "")).reverse <+: pieces path :=
    List.rdropWhile_prefix _ _
  have last : ∀ some_piece : ((pieces path).reverse.dropWhile (· = "")).reverse ≠ [],
      ¬ decide (((pieces path).reverse.dropWhile (· = "")).reverse.getLast some_piece = "") :=
    List.rdropWhile_last_not (fun piece => decide (piece = "")) (pieces path)
  unfold target at ok
  dsimp only at ok
  generalize ((pieces path).reverse.dropWhile (· = "")).reverse = stripped at front last ok
  cases stripped using List.reverseRecOn with
  | nil =>
    simp only [List.getLast?_nil] at ok
    split at ok <;> cases ok
  | append_singleton steps name =>
    simp only [List.getLast?_concat, List.dropLast_concat, bind, Except.bind] at ok
    split at ok
    · cases ok
    · rename_i directory leads
      split at ok
      · rename_i isDirectory
        split at ok
        · cases ok
        · rename_i good
          cases ok
          simp only [not_or, not_not] at good
          obtain ⟨whole, not_here, not_up⟩ := good
          have split := front.eq_of_length whole
          have piece : name ∈ pieces path := split ▸ List.mem_append_right _ List.mem_cons_self
          exact ⟨directory, name, ⟨⟨by simpa using last (by simp), not_here, not_up,
            plain_of_mem_pieces piece⟩, isDirectory, steps, split.symm, leads⟩, rfl⟩
      · cases ok

theorem exists_of_write (ok : tree.write path content = .ok next) :
    ∃ directory name, LeadsTo tree path directory name ∧
      tree.node (directory ++ [name]) ≠ .directory ∧
        next = tree.withFile (directory ++ [name]) content := by
  unfold write at ok
  cases aimed : tree.target path with
  | error e =>
    rw [aimed] at ok
    cases ok
  | ok place =>
    obtain ⟨directory, name, leads, rfl⟩ := exists_leadsTo aimed
    rw [aimed] at ok
    simp only [bind, Except.bind] at ok
    split at ok
    · cases ok
    · rename_i other
      cases ok
      exact ⟨directory, name, leads, other, rfl⟩

theorem resolve_eq (some_letter : path ≠ "") :
    tree.resolve path = tree.follow (tree.start path) (pieces path) := by
  rw [resolve, if_neg (by simpa using some_letter)]

theorem start_of_absolute (absolute : isAbsolute path = true) : tree.start path = [] := by
  rw [start, if_pos absolute]

theorem start_of_relative (relative : isAbsolute path = false) :
    tree.start path = tree.workingDirectory := by
  rw [start, relative]
  rfl

theorem follow_blank (isDirectory : tree.node place = .directory) :
    tree.follow place ("" :: steps) = .ok found ↔ tree.follow place steps = .ok found := by
  rw [follow_cons]
  exact and_iff_right isDirectory

theorem resolve_slash (plain : ∀ step ∈ steps, '/' ∉ step.toList) :
    tree.resolve ("/" ++ "/".intercalate steps) = .ok found ↔
      tree.follow [] steps = .ok found := by
  have root : tree.node [] = .directory := rfl
  rw [resolve_eq (by simp), start_of_absolute (isAbsolute_slash _), pieces_slash_intercalate plain,
    follow_blank root]
  split
  · rename_i none
    rw [none, follow_blank root]
  · rfl

theorem resolve_intercalate (some_step : steps ≠ [])
    (each : ∀ step ∈ steps, step ≠ "" ∧ '/' ∉ step.toList) :
    tree.resolve ("/".intercalate steps) = tree.follow tree.workingDirectory steps := by
  have split := pieces_intercalate some_step fun step member => (each step member).2
  have some_letter : "/".intercalate steps ≠ "" := by
    intro none
    rw [none, pieces_empty] at split
    exact (each "" (split ▸ List.mem_cons_self)).1 rfl
  rw [resolve_eq some_letter, start_of_relative (isAbsolute_intercalate each), split]

theorem LeadsTo.exists_inside {directory : List String} {name : String}
    (leads : LeadsTo tree path directory name) :
    ∃ inside, (pieces path).filter (fun piece => piece ≠ "" ∧ piece ≠ ".") = inside ++ [name] ∧
      (∀ step ∈ inside, step ≠ "" ∧ '/' ∉ step.toList) ∧
      tree.follow (tree.start path) inside = .ok directory := by
  obtain ⟨isName, -, front, split, leads⟩ := leads
  refine ⟨front.filter fun piece => piece ≠ "" ∧ piece ≠ ".", ?_, ?_, follow_filter leads⟩
  · rw [split, List.filter_append, List.filter_cons_of_pos, List.filter_nil]
    exact decide_eq_true ⟨isName.some_letter, isName.not_here⟩
  · intro step member
    obtain ⟨member, counts⟩ := List.mem_filter.1 member
    have piece : step ∈ pieces path := split ▸ List.mem_append_left _ member
    exact ⟨(of_decide_eq_true counts).1, plain_of_mem_pieces piece⟩

theorem LeadsTo.start_isDirectory {directory : List String} {name : String}
    (leads : LeadsTo tree path directory name) (here : (pieces path).head? = some ".") :
    tree.node (tree.start path) = .directory := by
  obtain ⟨isName, -, front, split, leads⟩ := leads
  cases front with
  | nil =>
    rw [split] at here
    exact absurd (by simpa using here) isName.not_here
  | cons => exact (follow_cons.1 leads).1

theorem resolve_directoryOf {directory : List String} {name : String}
    (leads : LeadsTo tree path directory name) :
    Table.directoryOf path = "" ∨ tree.resolve (Table.directoryOf path) = .ok directory := by
  obtain ⟨inside, counts, each, counted⟩ := leads.exists_inside
  have other : name ≠ "/" := by
    rintro rfl
    exact leads.isName.plain (by simp)
  cases absolute : isAbsolute path with
  | true =>
    right
    have steps_eq : Path.steps path = ("/" :: inside) ++ [name] := by
      rw [steps_of_absolute absolute, counts, List.cons_append]
    rw [Table.directoryOf, parent?_eq steps_eq other, Option.getD_some]
    rw [start_of_absolute absolute] at counted
    exact (resolve_slash fun step member => (each step member).2).2 counted
  | false =>
    have start : tree.start path = tree.workingDirectory := start_of_relative absolute
    by_cases here : (pieces path).head? = some "."
    · right
      have steps_eq : Path.steps path = ("." :: inside) ++ [name] := by
        rw [steps_of_here absolute here, counts, List.cons_append]
      have all : ∀ step ∈ "." :: inside, step ≠ "" ∧ '/' ∉ step.toList :=
        List.forall_mem_cons.2 ⟨by simp, each⟩
      rw [Table.directoryOf, parent?_eq steps_eq other, Option.getD_some,
        ofSteps_plain fun step member => (all step member).2,
        resolve_intercalate (by simp) all, ← start, follow_cons]
      exact ⟨leads.start_isDirectory here, counted⟩
    · have steps_eq : Path.steps path = inside ++ [name] := by
        rw [steps_of_relative absolute here, counts]
      rw [Table.directoryOf, parent?_eq steps_eq other, Option.getD_some,
        ofSteps_plain fun step member => (each step member).2]
      by_cases none : inside = []
      · left
        rw [none]
        rfl
      · right
        rw [resolve_intercalate none each, ← start]
        exact counted

theorem some_letter_of_resolve (ok : tree.resolve path = .ok place) : path ≠ "" := by
  rintro rfl
  cases ok

theorem follow_pieces_append {start directory : List String} {front rest : String}
    (ok : tree.follow start (pieces front) = .ok directory)
    (isDirectory : tree.node directory = .directory) :
    tree.follow start (pieces front ++ pieces rest) = .ok found ↔
      tree.follow directory (pieces rest) = .ok found := by
  obtain ⟨step, more, split⟩ := List.exists_cons_of_ne_nil (pieces_ne_nil rest)
  rw [split, follow_append]
  constructor
  · rintro ⟨middle, same, -, rest⟩
    rw [ok] at same
    cases same
    exact rest
  · exact fun rest => ⟨directory, ok, isDirectory, rest⟩

theorem resolve_join {directory : List String} {rest : String}
    (ok : tree.resolve path = .ok directory) (isDirectory : tree.node directory = .directory)
    (relative : isAbsolute rest = false) :
    tree.resolve (Path.join path rest) = .ok found ↔
      tree.follow directory (pieces rest) = .ok found := by
  have some_letter := some_letter_of_resolve ok
  have from_start (more : String) : tree.start (path ++ more) = tree.start path := by
    rw [start, start, isAbsolute_append some_letter]
  rw [resolve_eq some_letter] at ok
  unfold Path.join
  rw [if_neg (by simp [relative, some_letter])]
  split
  · rename_i slash
    obtain ⟨cs, text⟩ := List.getLast?_eq_some_iff.1 (beq_iff_eq.1 slash)
    obtain ⟨front, rfl⟩ : ∃ front, path = front ++ "/" :=
      ⟨String.ofList cs, by rw [← String.toList_inj]; simpa using text⟩
    have split : pieces (front ++ "/") = pieces front ++ [""] := by
      simpa [pieces_empty] using pieces_append_slash front ""
    rw [split] at ok
    obtain ⟨middle, leads, middle_directory, stays⟩ := follow_append.1 ok
    obtain rfl := (follow_nil.1 ((follow_blank middle_directory).1 stays)).1
    rw [resolve_eq (by simp), from_start, pieces_append_slash,
      follow_pieces_append leads isDirectory]
  · rw [String.append_assoc, resolve_eq (by simp), from_start, ← String.append_assoc,
      pieces_append_slash, follow_pieces_append ok isDirectory]

theorem canonicalAt_eq_ok {text : String} :
    canonicalAt tree path = .ok text ↔
      ∃ place, tree.resolve path = .ok place ∧ placeText place = text := by
  change (tree.resolve path).map placeText = .ok text ↔ _
  cases tree.resolve path <;> simp [Except.map]

theorem kindAt_eq :
    kindAt tree path =
      match tree.resolve path with
      | .error _ => none
      | .ok place =>
        match tree.node place with
        | .file _ => some .file
        | .directory => some .directory
        | .nothing => none :=
  rfl

theorem kindAt_eq_directory :
    kindAt tree path = some .directory ↔
      ∃ place, tree.resolve path = .ok place ∧ tree.node place = .directory := by
  rw [kindAt_eq]
  cases tree.resolve path with
  | error e => simp
  | ok place => cases here : tree.node place <;> simp [here]

theorem isName_of_resolve (sound : tree.Sound) (ok : tree.resolve path = .ok place) :
    ∀ name ∈ place, IsName name := by
  rw [resolve_eq (some_letter_of_resolve ok)] at ok
  refine isName_of_follow ?_ (fun step => plain_of_mem_pieces) ok
  unfold start
  split
  · simp
  · exact sound

theorem isPlace_placeText (names : ∀ name ∈ place, IsName name) : IsPlace (placeText place) := by
  refine ⟨isAbsolute_slash _, ?_⟩
  rw [placeText, steps_slash_intercalate names]
  rfl

theorem within?_placeText {directory : List String} {rest : String}
    (names : ∀ name ∈ place, IsName name) (directory_names : ∀ name ∈ directory, IsName name)
    (within : within? (placeText directory) (placeText place) = some rest) :
    ∃ inside, place = directory ++ inside ∧ rest = "/".intercalate inside := by
  unfold within? at within
  split at within
  · rename_i front
    rw [placeText, placeText, steps_slash_intercalate names,
      steps_slash_intercalate directory_names] at within front
    obtain ⟨inside, rfl⟩ := (List.cons_prefix_cons.1 (List.isPrefixOf_iff_prefix.1 front)).2
    refine ⟨inside, rfl, ?_⟩
    have plain : ∀ name ∈ inside, '/' ∉ name.toList :=
      fun name member => (names name (List.mem_append_right _ member)).plain
    simpa [ofSteps_plain plain] using within.symm
  · cases within

theorem resolve_within {directory : List String} {rest : String}
    (names : ∀ name ∈ place, IsName name) (there : tree.resolve (placeText place) = .ok place)
    (ok : tree.resolve path = .ok directory) (isDirectory : tree.node directory = .directory)
    (within : within? (placeText directory) (placeText place) = some rest)
    (directory_names : ∀ name ∈ directory, IsName name) :
    tree.resolve (Path.join path rest) = .ok place := by
  obtain ⟨inside, rfl, rfl⟩ := within?_placeText names directory_names within
  have inside_names : ∀ name ∈ inside, IsName name :=
    fun name member => names name (List.mem_append_right _ member)
  have relative : isAbsolute ("/".intercalate inside) = false :=
    isAbsolute_intercalate fun name member =>
      ⟨(inside_names name member).some_letter, (inside_names name member).plain⟩
  have leads := (resolve_slash fun name member => (names name member).plain).1 there
  rw [resolve_join ok isDirectory relative]
  cases inside with
  | nil =>
    refine (follow_blank isDirectory).2 (follow_nil.2 ⟨by simp, ?_⟩)
    simp [isDirectory]
  | cons step more =>
    obtain ⟨middle, start, -, rest⟩ := follow_append.1 leads
    obtain rfl := eq_of_follow_names directory_names start
    rw [pieces_intercalate (by simp) fun name member => (inside_names name member).plain]
    exact rest

theorem resolve_withFile (some_name : place ≠ []) (no_directory : tree.node place ≠ .directory)
    (ok : tree.resolve path = .ok found) :
    (tree.withFile place content).resolve path = .ok found := by
  have some_letter := some_letter_of_resolve ok
  rw [resolve_eq some_letter] at ok ⊢
  exact follow_withFile some_name no_directory ok

namespace LeadsTo
variable {directory : List String} {name : String}

theorem some_letter (leads : LeadsTo tree path directory name) : path ≠ "" := by
  rintro rfl
  obtain ⟨isName, -, front, split, -⟩ := leads
  rw [pieces_empty] at split
  have last := congrArg List.getLast? split
  rw [List.getLast?_concat] at last
  exact isName.some_letter (by simpa using last.symm)

theorem resolve_withFile (leads : LeadsTo tree path directory name)
    (no_directory : tree.node (directory ++ [name]) ≠ .directory) :
    (tree.withFile (directory ++ [name]) content).resolve path = .ok (directory ++ [name]) := by
  have some_letter := leads.some_letter
  obtain ⟨isName, isDirectory, front, split, leads⟩ := leads
  have kept : (tree.withFile (directory ++ [name]) content).node directory = .directory := by
    rw [node_withFile (by simp), if_neg (by simp), isDirectory]
  have there : (tree.withFile (directory ++ [name]) content).node (directory ++ [name]) =
      .file content := by
    rw [node_withFile (by simp), if_pos rfl]
  rw [resolve_eq some_letter, split, follow_append]
  refine ⟨directory, follow_withFile (by simp) no_directory leads, kept, ?_⟩
  rw [follow_cons, advance_name isName, follow_nil, there]
  exact ⟨kept, rfl, by simp⟩

end LeadsTo

theorem at_file (found : tree.resolve path = .ok place) (there : tree.node place = .file content) :
    kindAt tree path = some .file ∧ sizeAt tree path = .ok content.size ∧
      readAt tree path = .ok content := by
  refine ⟨?_, ?_, ?_⟩
  · rw [kindAt_eq, found]
    dsimp only
    rw [there]
  · change (tree.resolve path >>= fun place =>
      match tree.node place with
      | .file content => pure content.size
      | .directory => pure 0
      | .nothing => throw .missing) = Except.ok content.size
    rw [found]
    simp only [bind, Except.bind]
    rw [there]
    rfl
  · change tree.read path = .ok content
    rw [FileTree.read, found]
    simp only [bind, Except.bind]
    rw [there]

theorem written_of_write (ok : tree.write path content = .ok next) :
    next.workingDirectory = tree.workingDirectory ∧ Written path content tree next := by
  obtain ⟨directory, name, leads, no_directory, rfl⟩ := exists_of_write ok
  have found : (tree.withFile (directory ++ [name]) content).resolve path =
      .ok (directory ++ [name]) := leads.resolve_withFile no_directory
  have there : (tree.withFile (directory ++ [name]) content).node (directory ++ [name]) =
      .file content := by
    rw [node_withFile (by simp), if_pos rfl]
  have kept {place : List String} (isDirectory : tree.node place = .directory) :
      (tree.withFile (directory ++ [name]) content).node place = .directory := by
    rw [node_withFile (by simp), if_neg, isDirectory]
    rintro rfl
    exact no_directory isDirectory
  have directories (other : String) (isDirectory : kindAt tree other = some .directory) :
      kindAt (tree.withFile (directory ++ [name]) content) other = some .directory := by
    obtain ⟨place, ok, here⟩ := kindAt_eq_directory.1 isDirectory
    exact kindAt_eq_directory.2
      ⟨place, resolve_withFile (by simp) no_directory ok, kept here⟩
  obtain ⟨isFile, size, read⟩ := at_file found there
  refine ⟨rfl, ⟨isFile, size, read, directories, ?_⟩⟩
  refine (resolve_directoryOf leads).imp_right fun ok => ?_
  have again : (tree.withFile (directory ++ [name]) content).resolve (Table.directoryOf path) =
      .ok directory := resolve_withFile (by simp) no_directory ok
  exact ⟨placeText directory, canonicalAt_eq_ok.2 ⟨_, ok, rfl⟩, canonicalAt_eq_ok.2 ⟨_, again, rfl⟩,
    kindAt_eq_directory.2 ⟨_, again, kept leads.isDirectory⟩⟩

theorem write_run :
    StateT.run (FileSystem.write path content : StateM FileTree _) tree =
      match tree.write path content with
      | .ok next => (.ok (), next)
      | .error fault => (.error fault, tree) := by
  change (match tree.write path content with
    | .ok next => (do set next; return Except.ok () : StateM FileTree (Except FileError Unit))
    | .error fault => return Except.error fault).run tree = _
  cases tree.write path content <;> rfl

end FileTree

instance : FileSystem.Lawful FileTree where
  Sound := FileTree.Sound
  canonical_empty _ := ⟨.missing, rfl⟩
  isPlace sound ok := by
    obtain ⟨place, found, rfl⟩ := FileTree.canonicalAt_eq_ok.1 ok
    exact FileTree.isPlace_placeText (FileTree.isName_of_resolve sound found)
  canonical_join {files directory base text rest} sound isDirectory base_ok place_ok within := by
    obtain ⟨place, there, rfl⟩ := FileTree.canonicalAt_eq_ok.1 place_ok
    obtain ⟨inner, found, rfl⟩ := FileTree.canonicalAt_eq_ok.1 base_ok
    obtain ⟨same, again, here⟩ := FileTree.kindAt_eq_directory.1 isDirectory
    rw [found] at again
    cases again
    refine FileTree.canonicalAt_eq_ok.2 ⟨place, ?_, rfl⟩
    exact FileTree.resolve_within (FileTree.isName_of_resolve sound there) there found here within
      (FileTree.isName_of_resolve sound found)
  written {files others path content} sound ok := by
    have done : files.write path content = .ok others := by
      rw [FileTree.write_run] at ok
      split at ok <;> cases ok
      assumption
    obtain ⟨same, written⟩ := FileTree.written_of_write done
    refine ⟨?_, written⟩
    rw [FileTree.Sound, same]
    exact sound

end LinkedSheet
