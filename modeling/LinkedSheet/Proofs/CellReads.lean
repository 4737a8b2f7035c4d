import LinkedSheet.Proofs.CellReference
import LinkedSheet.Proofs.ScriptReductions
import LinkedSheet.Proofs.SharedGrids
import LinkedSheet.Script.Interpreter

/-!
The ways in which a script reads a cell: by two indices, by a reference, and in its selection. The
first two go through the grid that the script keeps and the third through the table; all three find
what the table holds at that moment.
-/
namespace LinkedSheet

namespace Script.Builtin
variable {read : Cell → Option Value} {cell : Cell}

theorem cellAt_ofNat (row col : Nat) : cellAt row col = .ok ⟨row, col⟩ := by
  unfold cellAt
  rw [if_neg (by omega), if_neg (by omega), Int.toNat_natCast, Int.toNat_natCast]

theorem cellOfText_toText (inBounds : cell.InBounds) : cellOfText cell.toText = .ok cell := by
  rw [cellOfText, Cell.ofText?_toText inBounds]

theorem natives_cell (row col : Nat) :
    natives read "CELL" [.int row, .int col] = some (.ok (.ofCell (read ⟨row, col⟩))) := by
  calc natives read "CELL" [.int row, .int col]
    _ = some (readCell read (cellAt row col)) := rfl
    _ = _ := by rw [cellAt_ofNat]; rfl

theorem natives_value (inBounds : cell.InBounds) :
    natives read "VALUE" [.text cell.toText] = some (.ok (.ofCell (read cell))) := by
  calc natives read "VALUE" [.text cell.toText]
    _ = some (readCell read (cellOfText cell.toText)) := rfl
    _ = _ := by rw [cellOfText_toText inBounds]; rfl

end Script.Builtin

namespace Script

theorem lookup_input (sheet : Sheet) (input : List Cell) :
    (selectionVariables sheet input).lookup "input" =
      some (.array (selectedData sheet input).toArray) := rfl

theorem getElem?_selectedData {sheet : Sheet} {input : List Cell} {cell : Cell} {i : Nat}
    (selected : input[i]? = some cell) :
    (selectedData sheet input).toArray[i]? = some (Datum.ofCell (sheet.value cell)) := by
  simp [selectedData, selected]

end Script

section
variable [Script.Engine] {program : Script.Engine.Program} {moment : Script.Engine.Moment}
  {read : Cell → Option Value} {cell : Cell}

/-- No function of the program takes the place of those that read cells. -/
def Script.Engine.Program.KeepsReaders (program : Program) : Prop :=
  defines program "CELL" 2 = false ∧ defines program "VALUE" 1 = false

instance : DecidablePred Script.Engine.Program.KeepsReaders := fun program =>
  inferInstanceAs (Decidable (Script.Engine.defines program "CELL" 2 = false ∧
    Script.Engine.defines program "VALUE" 1 = false))

namespace Script.Engine

theorem call_cell (during : During program (Builtin.natives read) moment)
    (keeps : program.KeepsReaders) (row col : Nat) :
    call moment "CELL" [.int row, .int col] = (.ok (.ofCell (read ⟨row, col⟩)), moment) := by
  rw [call_native during keeps.1 (Builtin.natives_cell row col)]
  rfl

theorem call_value (during : During program (Builtin.natives read) moment)
    (keeps : program.KeepsReaders) (inBounds : cell.InBounds) :
    call moment "VALUE" [.text cell.toText] = (.ok (.ofCell (read cell)), moment) := by
  rw [call_native during keeps.2 (Builtin.natives_value inBounds)]
  rfl

end Script.Engine

theorem Function.eq_script {function : Function} (isScript : function.program? = some program) :
    function = .script program := by
  cases function <;> cases isScript
  rfl

end

namespace SharedTable

open Script

/-- All ways to read a cell agree. Whatever requests a table has seen, and whichever operations have
run since it was cleared: the run of the next script starts with its selection in `input` and with
functions that read the grid it has captured. At every moment of that run it gets, by the indices of
a cell, by its reference and in its selection, what the table holds for the cell by then. -/
theorem cell_reads_agree [Engine] {σ : Type} [FileSystem (StateM σ)] (grids : Nat → Block)
    (own : Nat) (steps : List (Step σ)) (captures : ∀ step ∈ steps, step.Captures own) :
    let shared := steps.foldl after (start grids own)
    let table := (steps.map Step.plain).foldl Session.after Table.empty
    shared.view = table ∧
      ∀ (before : List OpId) (id : OpId) (state : SharedTable) (bound : Bound)
        (program : Engine.Program) (input : List Cell),
        shared.cleared.run before = (state, .ok ()) → state.find id = .ok bound →
        bound.operation.function = .script program → program.KeepsReaders →
        bound.operation.selection.select state.view.sheet = .ok input →
        let given := selectionVariables state.view.sheet input
        let started := Engine.start program (bound.natives state.grids) given
        table.cleared.run before = (state.view, .ok ()) ∧
        bound.call state.grids state.view.sheet input = Bound.outcome started ∧
        Engine.During program (bound.natives state.grids) started ∧
        ∀ row col : Nat, row < 2 ^ 63 → col < 2 ^ 63 →
          let seen := Datum.ofCell (state.view.get ⟨row, col⟩)
          (∀ moment, Engine.During program (bound.natives state.grids) moment →
            Engine.call moment "CELL" [.int row, .int col] = (.ok seen, moment) ∧
            Engine.call moment "VALUE" [.text (Cell.toText ⟨row, col⟩)] = (.ok seen, moment)) ∧
          ∃ values, given.lookup "input" = some (.array values) ∧
            values.size = input.length ∧
            ∀ i : Nat, input[i]? = some ⟨row, col⟩ → values[i]? = some seen := by
  intro shared table
  obtain ⟨home, view⟩ : Shows own shared table := shows_foldl (shows_start grids own) captures
  refine ⟨view, fun before id state bound program input ran found isScript keeps _ => ?_⟩
  intro given started
  obtain ⟨state_home, state_view, outcome⟩ := run_shows (home_cleared home) before
  rw [ran, view_cleared, view] at state_view outcome
  rw [ran] at state_home
  have own_cells : bound.read state.grids = state.view.get :=
    read_eq state_home (mem_of_find found) (by rw [isScript]; rfl)
  have called : bound.call state.grids state.view.sheet input = Bound.outcome started := by
    unfold Bound.call
    rw [isScript]
  refine ⟨Prod.ext state_view.symm outcome.symm, called, Engine.during_start _ _ _,
    fun row col row_small col_small => ?_⟩
  have inBounds : (⟨row, col⟩ : Cell).InBounds := by
    have largest : Cell.maxIndex = 2 ^ 64 - 2 := rfl
    constructor <;> dsimp only <;> omega
  refine ⟨fun moment during => ?_, _, lookup_input _ input, ?_, ?_⟩
  · rw [← own_cells]
    exact ⟨Engine.call_cell during keeps row col, Engine.call_value during keeps inBounds⟩
  · simp [selectedData]
  · exact fun i selected => getElem?_selectedData selected

/-- A script that reads a cell in three ways is bound before the functions that it calls are
loaded, beside a ready-made one that was compiled in a context of the table. -/
def readerSteps : List (Step FileTree) :=
  [⟨Session.helperFiles, .bindSpec .empty (.reference "A1") (.rawInput [[.int 5]]) none, 0⟩,
    ⟨Session.helperFiles, .bindSpec (.range "A1:A2") (.reference "B1")
      (.script "twice(CELL(0, 0) + VALUE(\"A1\") + input[0])") none, 0⟩,
    ⟨Session.helperFiles, .bind .empty (.reference "C1")
      (.script ((Program.compile? "CELL(0, 0)").getD .empty)) none, 3⟩,
    ⟨Session.helperFiles, .loadFunctions "h.rhai", 0⟩,
    ⟨Session.helperFiles, .evaluate, 0⟩]

theorem cell_reads_agree_readerSteps :
    ∃ (state : SharedTable) (bound : Bound) (program : Engine.Program) (seen : Datum),
      (readerSteps.foldl after (start (fun _ => Block.empty) 3)).cleared.run [1] =
        (state, .ok ()) ∧
      state.find 2 = .ok bound ∧ bound.operation.function = .script program ∧
      state.view.display ⟨0, 0⟩ = "5" ∧ seen = .ofCell (state.view.get ⟨0, 0⟩) ∧
      (let given := selectionVariables state.view.sheet [⟨0, 0⟩, ⟨1, 0⟩]
      let started := Engine.start program (bound.natives state.grids) given
      bound.call state.grids state.view.sheet [⟨0, 0⟩, ⟨1, 0⟩] = Bound.outcome started ∧
        Engine.call started "CELL" [.int 0, .int 0] = (.ok seen, started) ∧
        Engine.call started "VALUE" [.text "A1"] = (.ok seen, started) ∧
        ∃ values, given.lookup "input" = some (.array values) ∧ values[0]? = some seen) := by
  obtain ⟨-, agree⟩ := cell_reads_agree (fun _ => Block.empty) 3 readerSteps (by decide +kernel)
  have outcome : ((readerSteps.foldl after
      (start (fun _ => Block.empty) 3)).cleared.run [1]).2 = .ok () := by decide +kernel
  have shown : ((readerSteps.foldl after
      (start (fun _ => Block.empty) 3)).cleared.run [1]).1.view.display ⟨0, 0⟩ = "5" := by
    decide +kernel
  have script : (((readerSteps.foldl after
      (start (fun _ => Block.empty) 3)).cleared.run [1]).1.find 2).toOption.any (fun bound =>
        bound.operation.selection = .range "A1:A2" &&
          bound.operation.function.program?.any fun program => program.KeepsReaders) = true := by
    decide +kernel
  have reference : Cell.toText ⟨0, 0⟩ = "A1" := by decide +kernel
  rcases ran : (readerSteps.foldl after (start (fun _ => Block.empty) 3)).cleared.run [1] with
    ⟨state, ending⟩
  rw [ran] at outcome shown script
  obtain rfl : ending = .ok () := outcome
  obtain ⟨bound, there, isScript⟩ := (Option.any_eq_true _ _).1 script
  have found : state.find 2 = .ok bound := by
    cases find : state.find 2 with
    | error e =>
      rw [find] at there
      cases there
    | ok other =>
      rw [find] at there
      exact congrArg Except.ok (Option.some.inj there)
  rw [Bool.and_eq_true, decide_eq_true_eq, Option.any_eq_true] at isScript
  obtain ⟨selection, program, function, keeps⟩ := isScript
  have selected : bound.operation.selection.select state.view.sheet = .ok [⟨0, 0⟩, ⟨1, 0⟩] := by
    rw [selection]
    rfl
  obtain ⟨-, called, during, reads⟩ := agree [1] 2 state bound program _ ran found
    (Function.eq_script function) (of_decide_eq_true keeps) selected
  obtain ⟨calls, values, input, -, element⟩ := reads 0 0 (by decide) (by decide)
  obtain ⟨by_indices, by_reference⟩ := calls _ during
  rw [reference] at by_reference
  exact ⟨state, bound, program, _, rfl, found, Function.eq_script function, shown, rfl, called,
    by_indices, by_reference, values, input, element 0 rfl⟩

end SharedTable

end LinkedSheet
