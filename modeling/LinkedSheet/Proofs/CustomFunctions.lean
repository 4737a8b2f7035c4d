import LinkedSheet.Proofs.TableExtension

/-!
Custom functions and the operations that can see them. Whether a function can be built does not
depend on the custom functions, only what it does. So loading a functions file never fails because
of the operations that are there (`addFunctions_eq`), and an operation is the same whether it was
declared before or after the file was loaded (`add_withFunctions`).
-/
namespace LinkedSheet

variable [Script.Engine]

def Script.contextOf : Option String → Except ScriptError Script.Engine.Program
  | none => .ok Script.Engine.empty
  | some source => Script.compileFunctions source

theorem FunctionSpec.build_eq_error_iff {custom other : Script.Engine.Program} {spec : FunctionSpec}
    {error : FunctionError} :
    spec.build custom = .error error ↔ spec.build other = .error error := by
  cases spec with
  | script source =>
    cases compiled : Script.Engine.compile? source <;> simp [build, Script.compile, compiled]
  | _ => simp [build]

theorem FunctionSpec.exists_build (custom : Script.Engine.Program) {old : Script.Engine.Program}
    {spec : FunctionSpec} {function : Function} (built : spec.build old = .ok function) :
    ∃ function, spec.build custom = .ok function := by
  cases again : spec.build custom with
  | ok function => exact ⟨function, rfl⟩
  | error e =>
    rw [FunctionSpec.build_eq_error_iff.1 again] at built
    cases built

namespace Operation
variable {custom old : Script.Engine.Program} {op : Operation}

def IsBuilt (custom : Script.Engine.Program) (op : Operation) : Prop :=
  ∀ spec, op.spec = some spec → spec.build custom = .ok op.function

def under (custom : Script.Engine.Program) (op : Operation) : Operation :=
  match op.spec with
  | none => op
  | some spec =>
    match spec.build custom with
    | .ok function => { op with function := function }
    | .error _ => op

@[simp] theorem id_under : (op.under custom).id = op.id := by
  unfold under
  split
  · rfl
  · split <;> rfl

theorem isBuilt_under (isBuilt : op.IsBuilt old) : (op.under custom).IsBuilt custom := by
  intro spec declared
  cases form : op.spec with
  | none => simp [under, form] at declared
  | some other =>
    obtain ⟨function, built⟩ := FunctionSpec.exists_build custom (isBuilt other form)
    simp only [under, form, built, Option.some.injEq] at declared ⊢
    rw [← declared, built]

end Operation

namespace Table
variable {table added : Table} {custom old : Script.Engine.Program} {op : Operation}
  {operations : List Operation} {path source : String}

def AreBuilt (table : Table) : Prop :=
  ∀ op ∈ table.operations, op.IsBuilt table.custom

theorem rebuilt_eq_ok (areBuilt : ∀ op ∈ operations, op.IsBuilt old) :
    rebuilt custom operations = .ok (operations.map (Operation.under custom)) := by
  induction operations with
  | nil => rfl
  | cons op rest ih =>
    have later := ih fun op member => areBuilt op (List.mem_cons_of_mem _ member)
    cases form : op.spec with
    | none => simp [rebuilt, Operation.under, form, later]
    | some spec =>
      have before := areBuilt op List.mem_cons_self spec form
      obtain ⟨function, built⟩ := FunctionSpec.exists_build custom before
      simp [rebuilt, Operation.under, form, built, later]

/-- A table with one more functions file, whose text completes the custom functions to a program. -/
def withFunctions (table : Table) (custom : Script.Engine.Program) (path source : String) : Table :=
  { table with
    operations := table.operations.map (Operation.under custom)
    custom := custom
    functionFiles := table.functionFiles ++ [path]
    customSource := some (table.sourceWith source) }

theorem addFunctions_eq (areBuilt : table.AreBuilt) :
    table.addFunctions path source =
      if table.functionFiles.contains path then .ok table
      else
        match Script.compileFunctions (table.sourceWith source) with
        | .error e => .error (.functionsMalformed (.script e))
        | .ok custom => .ok (table.withFunctions custom path source) := by
  unfold addFunctions
  split
  · rfl
  · cases compiled : Script.compileFunctions (table.sourceWith source) with
    | error e => simp only [compiled]
    | ok custom =>
      simp only [compiled, rebuilt_eq_ok areBuilt]
      rfl

theorem areBuilt_withFunctions (areBuilt : table.AreBuilt) :
    (table.withFunctions custom path source).AreBuilt := by
  intro op member
  obtain ⟨before, present, rfl⟩ := List.mem_map.1 member
  exact Operation.isBuilt_under (areBuilt before present)

theorem add_eq_ok_iff :
    table.add op = .ok added ↔
      (∀ other ∈ table.operations, other.id ≠ op.id) ∧
        added = { table with operations := table.operations ++ [op] } := by
  unfold add
  split
  · rename_i known
    simp only [List.any_eq_true, beq_iff_eq] at known
    simpa using fun fresh => absurd known (by simpa using fresh)
  · rename_i new
    simp only [List.any_eq_true, beq_iff_eq, not_exists, not_and] at new
    simpa [eq_comm] using fun _ => new

theorem areBuilt_add (areBuilt : table.AreBuilt) (isBuilt : op.IsBuilt table.custom)
    (ok : table.add op = .ok added) : added.AreBuilt := by
  obtain ⟨_, rfl⟩ := add_eq_ok_iff.1 ok
  intro other member
  rcases List.mem_append.1 member with member | member
  · exact areBuilt other member
  · rw [List.mem_singleton.1 member]
    exact isBuilt

theorem add_withFunctions :
    (table.withFunctions custom path source).add (op.under custom) =
      (table.add op).map fun added => added.withFunctions custom path source := by
  have known : ((table.withFunctions custom path source).operations.any fun other =>
      other.id == (op.under custom).id) = table.operations.any fun other => other.id == op.id := by
    simp [withFunctions, Function.comp_def]
  unfold add
  rw [known]
  split
  · simp [Except.map]
  · simp [Except.map, withFunctions, sourceWith]

end Table

end LinkedSheet
