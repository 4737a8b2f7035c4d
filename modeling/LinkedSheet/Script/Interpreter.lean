import LinkedSheet.Script.Evaluation
import LinkedSheet.Script.Simplification

/-!
The engine that reads, simplifies and evaluates programs. Every setting of a run has the definitions
of its program and the functions of its host, whatever the level of the call and the variables that
methods are working on.
-/
namespace LinkedSheet.Script

def Stop.error : Stop → ScriptError
  | .thrown value => .thrown value.displayed
  | .fault f => .fault f
  | .exhausted => .exhausted
  | .returned _ => .fault (.unfitting "return")
  | .leaveLoop => .fault (.unfitting "break")
  | .nextRound => .fault (.unfitting "continue")

namespace Program

/-- The simplified program of a source text, if it is one. A program has fewer parts, and can be
simplified fewer times, than its source has characters. -/
def compile? (source : String) : Option Program :=
  (ofSource? source).map (simplify (callsPerToken * (source.length + 2)))

def defines (program : Program) (name : String) (arity : Nat) : Bool :=
  program.definitions.any fun d => d.name == name && d.params.length == arity

def setting (program : Program) (natives : Natives) : Setting :=
  ⟨program.definitions, natives, 0, []⟩

end Program

namespace Setting

/-- The settings that a run goes through: the first one, and those of methods and calls inside. -/
inductive Serves (program : Program) (natives : Natives) : Setting → Prop where
  | start : Serves program natives (program.setting natives)
  | working {setting : Setting} (address : Nat) (v : Variable) :
    Serves program natives setting → Serves program natives (setting.working address v)
  | inCall {setting : Setting} :
    Serves program natives setting → Serves program natives setting.inCall

variable {program : Program} {natives : Natives} {setting : Setting}

theorem Serves.kept (serves : setting.Serves program natives) :
    setting.definitions = program.definitions ∧ setting.natives = natives := by
  induction serves with
  | start => exact ⟨rfl, rfl⟩
  | working address v _ ih =>
    unfold Setting.working
    split
    · exact ih
    · exact ih
  | inCall _ ih => exact ih

theorem serves_iff : setting.Serves program natives ↔
    setting.definitions = program.definitions ∧ setting.natives = natives := by
  refine ⟨Serves.kept, fun kept => ?_⟩
  obtain ⟨definitions, own, level, locked⟩ := setting
  obtain ⟨rfl, rfl⟩ : definitions = program.definitions ∧ own = natives := kept
  induction locked with
  | nil =>
    induction level with
    | zero => exact .start
    | succ level ih => exact ih.inCall
  | cons address locked ih => exact ih.working address ⟨.unit, true⟩

theorem definition?_eq_none {name : String} {arity : Nat} (serves : setting.Serves program natives)
    (kept : program.defines name arity = false) : setting.definition? name arity = none := by
  unfold definition?
  rw [serves.kept.1, List.find?_eq_none]
  exact List.any_eq_false.1 kept

end Setting

namespace Evaluation
variable {setting : Setting} {fuel : Nat} {function : String} {arguments : List Datum}
  {memory : Memory} {result : Except String Datum}

theorem call_native (undefined : setting.definition? function arguments.length = none)
    (native : setting.natives function arguments = some result) :
    call setting (fuel + 2) function arguments memory =
      ((result.map (·, none)).mapError fun message => .thrown (.text message), memory) := by
  unfold call Evaluation.native
  simp only [undefined, native]
  cases result <;> rfl

end Evaluation

structure Moment where
  setting : Setting
  fuel : Nat
  scope : Scope
  body : List Stmt
  memory : Memory

namespace Moment

def start (program : Program) (natives : Natives) (given : List (String × Datum)) : Moment :=
  let (scope, memory) := given.foldl (fun (scope, memory) (name, value) =>
    ((name, memory.slots.size) :: scope, memory.push value)) ([], Memory.empty)
  ⟨program.setting natives, stepLimit, scope, program.body, memory⟩

/-- The value of the last statement or the one that is returned before, and the printed lines. -/
def finish (moment : Moment) : Except ScriptError Datum × List String :=
  let (result, memory) := Evaluation.bodyResult
    (Evaluation.statements moment.setting moment.fuel moment.scope moment.body .unit moment.memory)
  (result.mapError Stop.error, memory.printed.reverse)

def call (moment : Moment) (function : String) (arguments : List Datum) :
    Except ScriptError Datum × Moment :=
  let (result, memory) :=
    Evaluation.call moment.setting moment.fuel function arguments moment.memory
  ((result.map (·.1)).mapError Stop.error, { moment with memory })

/-- The setting is one of the run, and there is fuel left to call a function of the host. -/
structure During (program : Program) (natives : Natives) (moment : Moment) : Prop where
  serves : moment.setting.Serves program natives
  fuel : 2 ≤ moment.fuel

theorem call_native {program : Program} {natives : Natives} {moment : Moment} {function : String}
    {arguments : List Datum} {result : Except String Datum}
    (during : During program natives moment)
    (kept : program.defines function arguments.length = false)
    (native : natives function arguments = some result) :
    moment.call function arguments = (result.mapError .thrown, moment) := by
  obtain ⟨serves, fuel⟩ := during
  obtain ⟨setting, fuel', scope, body, memory⟩ := moment
  obtain ⟨rest, rfl⟩ := Nat.exists_eq_add_of_le' fuel
  unfold call
  rw [← serves.kept.2] at native
  rw [Evaluation.call_native (Setting.definition?_eq_none serves kept) native]
  cases result <;> rfl

end Moment

instance : Engine where
  Program := Program
  empty := Program.empty
  compile? := Program.compile?
  merge := Program.merge
  defines := Program.defines
  Moment := Moment
  start := Moment.start
  finish := Moment.finish
  call := Moment.call
  During := Moment.During
  during_start _ _ _ := ⟨.start, (by decide : 2 ≤ stepLimit)⟩
  during_call _ _ during := ⟨during.serves, during.fuel⟩
  call_native := Moment.call_native

end LinkedSheet.Script
