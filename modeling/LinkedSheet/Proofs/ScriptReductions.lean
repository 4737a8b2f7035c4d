import LinkedSheet.Function
import LinkedSheet.Script.Interpreter
import Mathlib.Data.List.Basic

/-!
Scripts that call a built-in function on their input. Such a script comes to what the function makes
of the selected values, without anything of the program around it, and the built-in functions `SUM`,
`AVG`, `MIN`, `MAX` and `COUNT` make of them what the bound functions of the same purpose make of the
cells: the same number, bit for bit, or a failure on both sides.
-/
namespace LinkedSheet

/-- The built-in function of scripts for a reduction. -/
def Reduction.builtin : Reduction → String
  | average => "AVG"
  | sum => "SUM"
  | min => "MIN"
  | max => "MAX"

namespace Script

namespace Run
variable {α β : Type} {memory : Memory}

theorem pure_apply (a : α) : (pure a : Run α) memory = (.ok a, memory) := rfl

theorem bind_apply (x : Run α) (f : α → Run β) :
    (x >>= f) memory =
      match x memory with
      | (.ok a, memory) => f a memory
      | (.error stop, memory) => (.error stop, memory) := by
  simp only [bind, ExceptT.bind, ExceptT.mk, StateT.bind, ExceptT.bindCont]
  rcases x memory with ⟨_ | _, _⟩ <;> rfl

end Run

namespace Evaluation
variable {setting : Setting} {fuel : Nat} {scope : Scope} {memory : Memory} {items : Array Datum}
  {function name : String} {address : Nat} {result : Except String Datum}

theorem unlocked_apply {v : Variable} (free : setting.locked.contains address = false)
    (slot : memory.slots[address]? = some v) :
    unlocked setting name address memory = (.ok v, memory) := by
  unfold unlocked Run.load
  rw [if_neg (by rw [free]; exact Bool.false_ne_true)]
  change (Except.ok ((memory.slots[address]?).getD _), memory) = _
  rw [slot, Option.getD_some]

theorem expr_call_variable {shared : Bool} (undefined : setting.definition? function 1 = none)
    (native : setting.natives function [.array items] = some result)
    (free : setting.locked.contains address = false) (found : scope.lookup name = some address)
    (slot : memory.slots[address]? = some ⟨.array items, shared⟩) :
    expr setting (fuel + 3) scope (.call function [.name name]) memory =
      (result.mapError fun message => .thrown (.text message), memory) := by
  have called : call setting (fuel + 2) function [.array items] memory = _ :=
    call_native undefined native
  unfold expr list
  simp only [found, Run.pure_apply, Run.bind_apply, unlocked_apply free slot, called]
  cases result
  · rfl
  · cases shared <;> rfl

theorem statements_expr (e : Expr) (last : Datum) :
    statements setting (fuel + 2) scope [.expr e] last memory =
      expr setting fuel scope e memory := by
  simp only [statements, statement, Run.bind_apply]
  rcases expr setting fuel scope e memory with ⟨_ | _, _⟩ <;> rfl

end Evaluation

def Program.ofInput (function : String) : Program :=
  ⟨[], [.expr (.call function [.name "input"])]⟩

def selectedData (sheet : Sheet) (input : List Cell) : List Datum :=
  input.map fun cell => Datum.ofCell (sheet.value cell)

theorem stepLimit_eq : stepLimit = 999999995 + 5 := rfl

theorem Program.run_ofInput {function : String} {sheet : Sheet} {input : List Cell}
    {result : Except String Datum}
    (native : Builtin.natives sheet.value function [.array (selectedData sheet input).toArray] =
      some result) :
    Engine.Program.run (ofInput function) sheet.value (selectionVariables sheet input) =
      (result.mapError .thrown, []) := by
  change Moment.finish (Moment.start (ofInput function) _ _) = _
  unfold Moment.finish Moment.start
  rw [stepLimit_eq]
  dsimp only [ofInput]
  rw [Evaluation.statements_expr, Evaluation.expr_call_variable rfl native rfl rfl rfl]
  cases result <;> rfl

def Program.isOfInput (function : String) : Program → Bool
  | ⟨[], [.expr (.call called [.name name])]⟩ => called = function && name = "input"
  | _ => false

theorem Program.eq_ofInput {function : String} {program : Program}
    (h : program.isOfInput function = true) : program = ofInput function := by
  unfold isOfInput at h
  split at h
  · simp only [Bool.and_eq_true, decide_eq_true_eq] at h
    rw [h.1, h.2, ofInput]
  · cases h

theorem build_of_isOfInput {function source : String}
    (h : (compile Program.empty source).toOption.any (Program.isOfInput function) = true) :
    (FunctionSpec.script source).build Program.empty =
      .ok (.script (Program.ofInput function)) := by
  obtain ⟨program, read, call⟩ := (Option.any_eq_true _ _).1 h
  rw [Program.eq_ofInput call] at read
  cases compiled : compile Program.empty source with
  | error e => rw [compiled] at read; cases read
  | ok program =>
    rw [compiled] at read
    rw [← Option.some.inj read]
    simp only [FunctionSpec.build, compiled]

theorem Datum.number?_ofCell (value : Option Value) :
    (Datum.ofCell value).number? = value.bind Value.number? := by
  rcases value with _ | _ | _ | _ <;> rfl

theorem Datum.isUnit_ofCell (value : Option Value) : (Datum.ofCell value).isUnit = value.isNone := by
  rcases value with _ | _ | _ | _ <;> rfl

theorem Datum.unfit_ofCell (value : Option Value) :
    (!(Datum.ofCell value).isUnit && (Datum.ofCell value).number?.isNone) =
      (value.map Value.isText).getD false := by
  rcases value with _ | _ | _ | _ <;> rfl

theorem Datum.typeName_ofCell {value : Option Value}
    (text : (value.map Value.isText).getD false = true) :
    (Datum.ofCell value).typeName = "string" := by
  rcases value with _ | _ | _ | _
  · cases text
  · cases text
  · cases text
  · rfl

theorem Builtin.numbers_selectedData (function : String) (reduction : Reduction) (sheet : Sheet)
    (input : List Cell) :
    Builtin.numbers function (selectedData sheet input) =
      match reduction.numbers sheet input with
      | .ok xs => .ok xs
      | .error _ => .error (function ++ " expects numbers, got " ++ "string") := by
  unfold numbers selectedData Reduction.numbers
  rw [List.find?_map, List.filterMap_map]
  have unfit : ((fun d : Datum => !d.isUnit && d.number?.isNone) ∘ fun cell =>
      Datum.ofCell (sheet.value cell)) =
        fun cell => ((sheet.value cell).map Value.isText).getD false :=
    funext fun cell => Datum.unfit_ofCell (sheet.value cell)
  have numeric : (Datum.number? ∘ fun cell => Datum.ofCell (sheet.value cell)) =
      fun cell => (sheet.value cell).bind Value.number? :=
    funext fun cell => Datum.number?_ofCell (sheet.value cell)
  rw [unfit, numeric]
  cases found : input.find? fun cell => ((sheet.value cell).map Value.isText).getD false with
  | none => rfl
  | some cell =>
    have text := List.find?_some found
    simp only [Option.map_some, Datum.typeName_ofCell text]

theorem Builtin.count_selectedData (sheet : Sheet) (input : List Cell) :
    Builtin.count (selectedData sheet input) = Function.counted sheet input := by
  unfold count selectedData Function.counted
  rw [List.filter_map, List.length_map]
  simp only [Function.comp_def, Datum.isUnit_ofCell, Option.not_isNone]

theorem Builtin.natives_reduction (reduction : Reduction) (read : Cell → Option Value)
    (items : Array Datum) :
    natives read reduction.builtin [.array items] =
      some (match numbers reduction.builtin items.toList with
        | .error text => .error text
        | .ok xs =>
          match reduction.reduce xs with
          | .ok x => .ok (.float x)
          | .error _ => .error (reduction.builtin ++ " needs at least one number")) := by
  cases reduction <;> simp only [Reduction.builtin, natives, someNumbers] <;>
    rcases numbers _ items.toList with _ | _ | _ <;> rfl

end Script

open Script

theorem Reduction.call_cases (reduction : Reduction) (sheet : Sheet) (input : List Cell) :
    ∃ result, Builtin.natives sheet.value reduction.builtin
        [.array (selectedData sheet input).toArray] = some result ∧
      ((∃ x, reduction.call sheet input = .ok (Block.scalar (.float x)) ∧
        result = .ok (.float x)) ∨
      ∃ error text, reduction.call sheet input = .error error ∧ result = .error text) := by
  refine ⟨_, Builtin.natives_reduction reduction sheet.value _, ?_⟩
  rw [Builtin.numbers_selectedData reduction.builtin reduction]
  unfold call
  cases reduction.numbers sheet input with
  | error error => exact .inr ⟨error, _, rfl, rfl⟩
  | ok xs =>
    simp only
    cases reduction.reduce xs with
    | error error => exact .inr ⟨error, _, rfl, rfl⟩
    | ok x => exact .inl ⟨x, rfl, rfl⟩

theorem Reduction.build_source (reduction : Reduction) :
    (FunctionSpec.script (reduction.builtin ++ "(input)")).build Program.empty =
      .ok (.script (Program.ofInput reduction.builtin)) := by
  cases reduction <;> exact build_of_isOfInput (by decide +kernel)

theorem build_count_source :
    (FunctionSpec.script "COUNT(input)").build Program.empty =
      .ok (.script (Program.ofInput "COUNT")) :=
  build_of_isOfInput (by decide +kernel)

/-- The built-in reductions and the scripts that call the built-in functions `AVG`, `SUM`, `MIN` and
`MAX` on their input agree on every selection of every sheet: both write the same number, or both
fail, the script with a text that the built-in function throws. Counting and the script that calls
`COUNT` always write the same whole number. -/
theorem reductions_agree_with_scripts :
    (∀ reduction : Reduction, ∃ scripted,
      (FunctionSpec.script (reduction.builtin ++ "(input)")).build Program.empty = .ok scripted ∧
      ∀ (sheet : Sheet) (input : List Cell),
        (∃ x : Float,
          (Function.reduction reduction).call sheet input = .ok (Block.scalar (.float x)) ∧
          scripted.call sheet input = .ok (Block.scalar (.float x))) ∨
        ∃ error text, (Function.reduction reduction).call sheet input = .error error ∧
          scripted.call sheet input = .error (.script (.thrown text))) ∧
    ∃ scripted, (FunctionSpec.script "COUNT(input)").build Program.empty = .ok scripted ∧
      ∀ (sheet : Sheet) (input : List Cell), ∃ n : Int,
        Function.count.call sheet input = .ok (Block.scalar (.int n)) ∧
        scripted.call sheet input = .ok (Block.scalar (.int n)) := by
  refine ⟨fun reduction => ⟨_, reduction.build_source, fun sheet input => ?_⟩,
    _, build_count_source, fun sheet input => ⟨Function.counted sheet input, rfl, ?_⟩⟩
  · obtain ⟨result, native, cases⟩ := reduction.call_cases sheet input
    have run := Program.run_ofInput native
    rcases cases with ⟨x, called, rfl⟩ | ⟨error, text, failed, rfl⟩
    · refine .inl ⟨x, called, ?_⟩
      simp only [Function.call, Engine.Program.block, run]
      rfl
    · refine .inr ⟨error, text, failed, ?_⟩
      simp only [Function.call, Engine.Program.block, run]
      rfl
  · have native : Builtin.natives sheet.value "COUNT" [.array (selectedData sheet input).toArray] =
        some (.ok (.int (Function.counted sheet input))) := by
      rw [← Builtin.count_selectedData]
      rfl
    simp only [Function.call, Engine.Program.block, Program.run_ofInput native]
    rfl

end LinkedSheet
