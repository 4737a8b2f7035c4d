import Mathlib.Data.List.Basic
import LinkedSheet.FileSystem.Path

/-!
Paths put together and taken apart: the pieces of a path that was joined, and the steps of a path
that was made of steps.
-/
namespace LinkedSheet.Path

variable {path name base rest : String} {names front : List String} {piece cs : List Char}

theorem go_append_slash (piece cs rest : List Char) :
    pieces.go piece (cs ++ '/' :: rest) = pieces.go piece cs ++ pieces.go [] rest := by
  induction cs generalizing piece with
  | nil => simp [pieces.go]
  | cons c cs ih =>
    rw [List.cons_append, pieces.go, pieces.go]
    split
    · rw [ih, List.cons_append]
    · exact ih (c :: piece)

theorem go_of_plain (plain : '/' ∉ cs) :
    pieces.go piece cs = [String.ofList (piece.reverse ++ cs)] := by
  induction cs generalizing piece with
  | nil => simp [pieces.go]
  | cons c cs ih =>
    rw [List.mem_cons, not_or] at plain
    rw [pieces.go, if_neg (Ne.symm plain.1), ih plain.2]
    simp

theorem pieces_append_slash (first second : String) :
    pieces (first ++ "/" ++ second) = pieces first ++ pieces second := by
  have slash : (first ++ "/" ++ second).toList = first.toList ++ '/' :: second.toList := by simp
  rw [pieces, slash, go_append_slash]
  rfl

theorem pieces_slash (path : String) : pieces ("/" ++ path) = "" :: pieces path :=
  pieces_append_slash "" path

theorem pieces_of_plain (plain : '/' ∉ name.toList) : pieces name = [name] := by
  rw [pieces, go_of_plain plain]
  simp

theorem pieces_ne_nil (path : String) : pieces path ≠ [] := by
  have any (piece cs : List Char) : pieces.go piece cs ≠ [] := by
    induction cs generalizing piece with
    | nil => simp [pieces.go]
    | cons c cs ih =>
      rw [pieces.go]
      split
      · simp
      · exact ih _
  exact any [] path.toList

theorem plain_of_mem_pieces (member : name ∈ pieces path) : '/' ∉ name.toList := by
  have any (piece cs : List Char) (plain : '/' ∉ piece) :
      ∀ name ∈ pieces.go piece cs, '/' ∉ name.toList := by
    induction cs generalizing piece with
    | nil => simpa [pieces.go] using plain
    | cons c cs ih =>
      rw [pieces.go]
      split
      · exact List.forall_mem_cons.2 ⟨by simpa using plain, ih [] (by simp)⟩
      · rename_i other
        exact ih _ (by simp [plain, Ne.symm other])
  exact any [] path.toList (by simp) name member

theorem pieces_intercalate (some_name : names ≠ []) (plain : ∀ name ∈ names, '/' ∉ name.toList) :
    pieces ("/".intercalate names) = names := by
  induction names with
  | nil => exact absurd rfl some_name
  | cons name more ih =>
    have first := pieces_of_plain (plain name List.mem_cons_self)
    cases more with
    | nil => simpa using first
    | cons next more =>
      have later := ih (by simp) fun other member => plain other (List.mem_cons_of_mem _ member)
      rw [String.intercalate_cons_cons, pieces_append_slash, first, later]
      rfl

theorem pieces_empty : pieces "" = [""] := rfl

/-- The name of a file or a directory. -/
structure IsName (name : String) : Prop where
  some_letter : name ≠ ""
  not_here : name ≠ "."
  not_up : name ≠ ".."
  plain : '/' ∉ name.toList

theorem steps_of_absolute (absolute : isAbsolute path = true) :
    steps path = "/" :: (pieces path).filter fun piece => piece ≠ "" ∧ piece ≠ "." := by
  unfold steps
  rw [if_pos absolute]

theorem steps_of_here (relative : isAbsolute path = false)
    (here : (pieces path).head? = some ".") :
    steps path = "." :: (pieces path).filter fun piece => piece ≠ "" ∧ piece ≠ "." := by
  unfold steps
  rw [if_neg (by simp [relative]), if_pos here]

theorem steps_of_relative (relative : isAbsolute path = false)
    (other : (pieces path).head? ≠ some ".") :
    steps path = (pieces path).filter fun piece => piece ≠ "" ∧ piece ≠ "." := by
  unfold steps
  rw [if_neg (by simp [relative]), if_neg other]

theorem isAbsolute_slash (path : String) : isAbsolute ("/" ++ path) = true := by
  simp [isAbsolute]

theorem isAbsolute_append (some_letter : base ≠ "") :
    isAbsolute (base ++ rest) = isAbsolute base := by
  cases text : base.toList with
  | nil => exact absurd (by simpa using text) some_letter
  | cons c cs => simp [isAbsolute, text]

theorem isAbsolute_of_plain (some_letter : name ≠ "") (plain : '/' ∉ name.toList) :
    isAbsolute name = false := by
  cases text : name.toList with
  | nil => exact absurd (by simpa using text) some_letter
  | cons c cs =>
    rw [text, List.mem_cons, not_or] at plain
    simp [isAbsolute, text, Ne.symm plain.1]

theorem isAbsolute_intercalate
    (each : ∀ name ∈ names, name ≠ "" ∧ '/' ∉ name.toList) :
    isAbsolute ("/".intercalate names) = false := by
  cases names with
  | nil => rfl
  | cons name more =>
    obtain ⟨some_letter, plain⟩ := each name List.mem_cons_self
    have first := isAbsolute_of_plain some_letter plain
    cases more with
    | nil => simpa using first
    | cons next more =>
      rw [String.intercalate_cons_cons, String.append_assoc, isAbsolute_append some_letter, first]

theorem pieces_slash_intercalate (plain : ∀ name ∈ names, '/' ∉ name.toList) :
    pieces ("/" ++ "/".intercalate names) = "" :: if names = [] then [""] else names := by
  rw [pieces_slash]
  split
  · rename_i none
    rw [none]
    rfl
  · rename_i some_name
    rw [pieces_intercalate some_name plain]

theorem filter_counts (each : ∀ name ∈ names, IsName name) :
    names.filter (fun piece => piece ≠ "" ∧ piece ≠ ".") = names := by
  rw [List.filter_eq_self]
  intro name member
  simpa using ⟨(each name member).some_letter, (each name member).not_here⟩

theorem steps_slash_intercalate (each : ∀ name ∈ names, IsName name) :
    steps ("/" ++ "/".intercalate names) = "/" :: names := by
  have split := pieces_slash_intercalate fun name member => (each name member).plain
  rw [steps_of_absolute (isAbsolute_slash _), split]
  by_cases none : names = []
  · subst none
    rfl
  · rw [if_neg none, List.filter_cons_of_neg (by simp), filter_counts each]

theorem some_letter_of_mem_steps (member : name ∈ steps path) : name ≠ "" := by
  have counted (filtered : name ∈ (pieces path).filter fun piece => piece ≠ "" ∧ piece ≠ ".") :
      name ≠ "" := (of_decide_eq_true (List.mem_filter.1 filtered).2).1
  unfold steps at member
  dsimp only at member
  split at member
  · rcases List.mem_cons.1 member with rfl | filtered
    · decide
    · exact counted filtered
  · split at member
    · rcases List.mem_cons.1 member with rfl | filtered
      · decide
      · exact counted filtered
    · exact counted member

structure IsStep (piece : String) : Prop where
  some_letter : piece ≠ ""
  not_here : piece ≠ "."
  plain : '/' ∉ piece.toList

theorem exists_steps_of_absolute (absolute : isAbsolute path = true) :
    ∃ counted, steps path = "/" :: counted ∧ ∀ step ∈ counted, IsStep step := by
  refine ⟨_, steps_of_absolute absolute, fun step member => ?_⟩
  obtain ⟨piece, counts⟩ := List.mem_filter.1 member
  obtain ⟨some_letter, not_here⟩ := of_decide_eq_true counts
  exact ⟨some_letter, not_here, plain_of_mem_pieces piece⟩

theorem steps_intercalate (each : ∀ step ∈ names, IsStep step) :
    steps ("/".intercalate names) = names := by
  by_cases none : names = []
  · subst none
    rfl
  · have relative : isAbsolute ("/".intercalate names) = false :=
      isAbsolute_intercalate fun step member => ⟨(each step member).some_letter,
        (each step member).plain⟩
    have split := pieces_intercalate none fun step member => (each step member).plain
    have not_here : names.head? ≠ some "." :=
      fun here => (each "." (List.mem_of_head? here)).not_here rfl
    rw [steps_of_relative relative (by rwa [split]), split, List.filter_eq_self]
    intro step member
    simpa using ⟨(each step member).some_letter, (each step member).not_here⟩

theorem ofSteps_plain (plain : ∀ name ∈ names, '/' ∉ name.toList) :
    ofSteps names = "/".intercalate names := by
  unfold ofSteps
  split
  · exact absurd (by simp) (plain "/" List.mem_cons_self)
  · rfl

theorem ofSteps_ne_empty {first : String} (some_letter : first ≠ "") :
    ofSteps (first :: names) ≠ "" := by
  unfold ofSteps
  split
  · simp
  · cases names <;> simp [String.intercalate_cons_cons, some_letter]

theorem parent?_eq {before : List String} (split : steps path = before ++ [name])
    (other : name ≠ "/") : parent? path = some (ofSteps before) := by
  unfold parent?
  rw [split]
  split
  · rename_i none
    simp at none
  · rename_i root
    cases before with
    | nil => exact absurd (by simpa using root) other
    | cons step before => simp at root
  · rw [List.dropLast_concat]

end LinkedSheet.Path
