import LinkedSheet.Proofs.FilePlaces
import LinkedSheet.Proofs.SessionHistory

/-!
The functions files of a table by themselves. A table comes to know them one after the other, with
operations bound in between; without these, and from wherever the files are found, the same loads
lead to the same custom functions.
-/
namespace LinkedSheet
variable {σ : Type} {files others : σ} {path place source : String}

open FileSystem

theorem Table.relativePath_empty (isPlace : IsPlace place) : relativePath "" place = place := by
  have none : Path.steps "" = [] := rfl
  simp [relativePath, Path.within?, none, isPlace.2]

section Looking
variable [FileSystem (StateM σ)] [LooksOnly σ]

theorem Session.functionsAt_eq_ok :
    functionsAt path files = .ok (place, source) ↔
      canonicalAt files path = .ok place ∧
        ((Document.readText place "functions file" : Storing (StateM σ) String).on files).1 =
          .ok source := by
  unfold functionsAt
  rw [Storing.andThen_on, Storing.file_on, canonical_run]
  cases canonicalAt files path with
  | error fault => simp [Except.mapError]
  | ok reached =>
    dsimp only [Except.mapError]
    rw [Storing.andThen_on]
    rcases read : (Document.readText reached "functions file").on files with
      ⟨outcome | text, left⟩
    · constructor
      · rintro ⟨⟩
      · rintro ⟨⟨⟩, found⟩
        rw [read] at found
        cases found
    · constructor
      · rintro ⟨⟩
        exact ⟨rfl, congrArg Prod.fst read⟩
      · rintro ⟨⟨⟩, found⟩
        rw [read] at found
        cases found
        rfl

theorem Session.baseOf_run (directory : String) (files : σ) :
    StateT.run (Table.baseOf directory : StateM σ String) files =
      (match canonicalAt files directory with
        | .ok base => base
        | .error _ => directory, files) := by
  unfold Table.baseOf
  rw [StateT.run_bind, canonical_run]
  cases canonicalAt files directory <;> rfl

end Looking

theorem Session.functionsAt_join [FileSystem (StateM σ)] [Lawful σ] {directory : String} (sound : Lawful.Sound others)
    (kept : directory = "" ∨ KeepsDirectory files others directory)
    (there : functionsAt place others = .ok (place, source)) :
    functionsAt (Path.join directory (Table.relativePath
      (StateT.run (Table.baseOf directory : StateM σ String) files).1 place)) others =
        .ok (place, source) := by
  obtain ⟨same, text⟩ := functionsAt_eq_ok.1 there
  refine functionsAt_eq_ok.2 ⟨?_, text⟩
  obtain ⟨absolute, whole⟩ := Lawful.isPlace sound same
  have joined (directory : String) : Path.join directory place = place := by
    rw [Path.join, absolute]
    rfl
  rw [baseOf_run]
  rcases kept with rfl | ⟨base, before, now, isDirectory⟩
  · obtain ⟨fault, none⟩ := Lawful.canonical_empty files
    rw [none, Table.relativePath_empty ⟨absolute, whole⟩]
    rw [joined, same]
  · rw [before, Table.relativePath]
    dsimp only
    cases within : Path.within? base place with
    | none => exact (congrArg _ (joined directory)).trans same
    | some rest => exact Lawful.canonical_join sound isDirectory now same within

variable [Script.Engine] {table next : Table}

namespace Table

def bare (table : Table) : Table :=
  { empty with
    custom := table.custom
    functionFiles := table.functionFiles
    customSource := table.customSource }

def addAll (table : Table) : List (String × String) → Except TableError Table
  | [] => .ok table
  | load :: rest => do (← table.addFunctions load.1 load.2).addAll rest

theorem addAll_append_singleton {loads : List (String × String)}
    (ok : table.addAll loads = .ok next) (load : String × String) :
    table.addAll (loads ++ [load]) = next.addFunctions load.1 load.2 := by
  induction loads generalizing table with
  | nil =>
    cases ok
    cases added : next.addFunctions load.1 load.2 <;>
      simp only [List.nil_append, addAll, added] <;> rfl
  | cons first loads ih =>
    rw [List.cons_append, addAll]
    rw [addAll] at ok
    cases added : table.addFunctions first.1 first.2 with
    | error e =>
      rw [added] at ok
      cases ok
    | ok middle =>
      rw [added] at ok
      exact ih ok

theorem addFunctions_bare (areBuilt : table.AreBuilt) (new : place ∉ table.functionFiles)
    (ok : table.addFunctions place source = .ok next) :
    table.bare.addFunctions place source = .ok next.bare := by
  have none_built : table.bare.AreBuilt := by
    intro op member
    cases member
  have same_joined : table.bare.sourceWith source = table.sourceWith source := rfl
  have same_files : table.bare.functionFiles = table.functionFiles := rfl
  have unknown : ¬ table.functionFiles.contains place := by simpa using new
  rw [addFunctions_eq areBuilt, if_neg unknown] at ok
  rw [addFunctions_eq none_built, same_files, if_neg unknown, same_joined]
  cases compiled : Script.compileFunctions (table.sourceWith source) with
  | error e =>
    rw [compiled] at ok
    cases ok
  | ok custom =>
    rw [compiled] at ok
    cases ok
    rfl

theorem bare_eq (consistent : table.Consistent) (also : next.Consistent)
    (same_files : next.functionFiles = table.functionFiles)
    (same_source : next.customSource = table.customSource) : next.bare = table.bare := by
  have compiled := also.compiled
  rw [same_source, consistent.compiled] at compiled
  rw [bare, bare, same_files, same_source, ← Except.ok.inj compiled]

end Table

namespace Session
variable [FileSystem (StateM σ)] {steps before rest : List (σ × Request)} {step : σ × Request}
  {load : String × String}

structure Adds (before : List (σ × Request)) (step : σ × Request) (load : String × String) :
    Prop where
  found : Found step load
  new : load.1 ∉ (before.foldl after Table.empty).functionFiles
  added : load.1 ∈ (after (before.foldl after Table.empty) step).functionFiles

/-- Every functions file that one of the steps has added is in its place, with the text that it had
then. -/
def InPlace (steps : List (σ × Request)) (files : σ) : Prop :=
  ∀ before step rest load, steps = before ++ step :: rest → Adds before step load →
    functionsAt load.1 files = .ok load

theorem InPlace.of_append (inPlace : InPlace (steps ++ [step]) files) : InPlace steps files := by
  rintro before other rest load rfl adds
  exact inPlace before other (rest ++ [step]) load (by simp) adds

theorem same_files_or_adds (before : List (σ × Request)) (step : σ × Request) :
    let table := before.foldl after Table.empty
    ((after table step).functionFiles = table.functionFiles ∧
        (after table step).customSource = table.customSource) ∨
      ∃ load, Adds before step load ∧
        table.addFunctions load.1 load.2 = .ok (after table step) := by
  intro table
  obtain ⟨files, request⟩ := step
  by_cases other : ∀ path, request ≠ .loadFunctions path
  · exact .inl (files_after other)
  obtain ⟨path, asks⟩ := not_forall.1 other
  obtain rfl := not_not.1 asks
  have result : after table (files, .loadFunctions path) = _ := after_loadFunctions path
  cases found : functionsAt path files with
  | error e =>
    rw [found] at result
    exact .inl ⟨congrArg _ result, congrArg _ result⟩
  | ok load =>
    rw [found] at result
    obtain ⟨place, source⟩ := load
    dsimp only at result
    cases done : table.addFunctions place source with
    | error e =>
      rw [done] at result
      exact .inl ⟨congrArg _ result, congrArg _ result⟩
    | ok next =>
      rw [done] at result
      by_cases new : place ∈ table.functionFiles
      · rw [Table.addFunctions, if_pos (by simpa using new)] at done
        cases done
        exact .inl ⟨congrArg _ result, congrArg _ result⟩
      · rcases files_of_addFunctions done with ⟨known, -⟩ | ⟨more, -⟩
        · exact absurd known new
        · have known : place ∈ next.functionFiles := more ▸ List.mem_append_right _ (by simp)
          refine .inr ⟨(place, source), ⟨⟨path, rfl, found⟩, new, ?_⟩, ?_⟩
          · exact (congrArg Table.functionFiles result).symm ▸ known
          · exact done.trans (congrArg Except.ok result.symm)

theorem exists_loads (whole : ∀ step ∈ steps, ∀ op, step.2 ≠ .add op)
    (inPlace : InPlace steps files) :
    ∃ loads, (steps.foldl after Table.empty).functionFiles = loads.map Prod.fst ∧
      Table.empty.addAll loads = .ok (steps.foldl after Table.empty).bare ∧
      ∀ load ∈ loads, functionsAt load.1 files = .ok load := by
  induction steps using List.reverseRecOn with
  | nil => exact ⟨[], rfl, rfl, by simp⟩
  | append_singleton steps step ih =>
    have earlier : ∀ step ∈ steps, ∀ op, step.2 ≠ .add op :=
      fun other member => whole other (List.mem_append_left _ member)
    obtain ⟨loads, names, added, present⟩ := ih earlier inPlace.of_append
    have consistent := consistent_foldl Table.consistent_empty earlier
    have also := consistent_foldl Table.consistent_empty whole
    rw [List.foldl_append, List.foldl_cons, List.foldl_nil] at also ⊢
    rcases same_files_or_adds steps step with ⟨same_files, same_source⟩ | ⟨load, adds, done⟩
    · refine ⟨loads, same_files.trans names, ?_, present⟩
      rw [Table.bare_eq consistent also same_files same_source, added]
    · refine ⟨loads ++ [load], ?_, ?_, ?_⟩
      · rcases files_of_addFunctions done with ⟨known, -⟩ | ⟨more, -⟩
        · exact absurd known adds.new
        · rw [more, names, List.map_append]
          rfl
      · rw [Table.addAll_append_singleton added]
        exact Table.addFunctions_bare consistent.areBuilt adds.new done
      · rw [List.forall_mem_append]
        exact ⟨present, List.forall_mem_singleton.2 (inPlace steps step [] load rfl adds)⟩

section Looking
variable [LooksOnly σ]

theorem loadAllFunctions_on {loads : List (String × String)} {paths : List String}
    (found : List.Forall₂ (fun path load => functionsAt path files = .ok load) paths loads) :
    (table.loadAllFunctions paths : Storing (StateM σ) Table).on files =
      (table.addAll loads, files) := by
  induction found generalizing table with
  | nil => rfl
  | @cons path load paths loads first _ ih =>
    have answer : ((table.loadFunctions path : Storing (StateM σ) _).on files) =
        ((table.addFunctions load.1 load.2).map (load.1, ·), files) := by
      refine Prod.ext ?_ (table.looks_loadFunctions path files)
      rw [loadFunctions_answer, first]
      rfl
    rw [Table.loadAllFunctions, Storing.andThen_on, answer, Table.addAll]
    cases table.addFunctions load.1 load.2 with
    | error e => rfl
    | ok middle => exact ih

end Looking

end Session

end LinkedSheet
