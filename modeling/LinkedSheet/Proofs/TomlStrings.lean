import LinkedSheet.Proofs.TomlNumbers
import LinkedSheet.Toml.Quoted

/-!
Strings as they are written in quotes and read back. All forms of a string are texts that spell its
characters: each stands for itself or is escaped, and quotes that are not escaped are never three in
a row, so that the closing ones are found.
-/
namespace LinkedSheet.Toml

variable {quote c : Char} {several : Bool} {line run : Nat} {cs code text rest read : List Char}

namespace Quoted

/-- A text between quotes stands for some characters; `run` counts the quotes right before it that
are not escaped, of which there are two at most, and none if the string is on one line. -/
inductive Spelled (quote : Char) (several : Bool) : Nat → List Char → List Char → Prop
  | nil (run : Nat) : Spelled quote several run [] []
  | quote {run : Nat} {text cs : List Char} : run < (if several then 2 else 0) →
      Spelled quote several (run + 1) text cs →
      Spelled quote several run (quote :: text) (quote :: cs)
  | plain {run : Nat} {c : Char} {text cs : List Char} : c ≠ quote → (c = '\\' → quote ≠ '"') →
      (isPlain c = true ∨ several = true ∧ c = '\n') → Spelled quote several 0 text cs →
      Spelled quote several run (c :: text) (c :: cs)
  | escape {run : Nat} {c : Char} {code text cs : List Char} : quote = '"' →
      (∀ rest, escape? (code ++ rest) = some (c, rest) ∧ endsLine (code ++ rest) = false) →
      Spelled quote several 0 text cs →
      Spelled quote several run ('\\' :: code ++ text) (c :: cs)

theorem Spelled.coded (code : List Char)
    (reads : ∀ rest, escape? (code ++ rest) = some (c, rest) ∧ endsLine (code ++ rest) = false)
    (tail : Spelled '"' several 0 text cs) :
    Spelled '"' several run ('\\' :: code ++ text) (c :: cs) :=
  .escape rfl reads tail

theorem charOfHex?_control : ∀ n < 128,
    Text.charOfHex? ['0', '0', Writer.hexDigit (n / 16), Writer.hexDigit (n % 16)] =
      some (Char.ofNat n) := by
  decide

theorem toNat_of_isControl (control : Writer.isControl c = true) : c.toNat < 128 := by
  simp only [Writer.isControl, Bool.or_eq_true, Bool.and_eq_true, decide_eq_true_eq,
    beq_iff_eq] at control
  rcases control with ⟨⟨low, -⟩, -⟩ | rfl
  · have low : c.toNat < ' '.toNat := low
    exact low.trans (by decide)
  · decide

theorem isPlain_of_not_isControl (other : Writer.isControl c = false) (inLine : c ≠ '\n') :
    isPlain c = true := by
  simp only [Writer.isControl, isPlain] at *
  have order : c < ' ' ∨ ' ' ≤ c := lt_or_ge c ' '
  grind

theorem spelled_escaped (other : c ≠ '"') (tail : Spelled '"' several 0 text cs) :
    Spelled '"' several run (Writer.escaped several c ++ text) (c :: cs) := by
  have letter (code : Char) (same : shortEscape? code = some c)
      (one : ∀ rest, escape? (code :: rest) = (shortEscape? code).map (·, rest))
      (go : ∀ rest, endsLine (code :: rest) = false) :
      Spelled '"' several run ('\\' :: code :: text) (c :: cs) :=
    .coded [code] (fun rest => ⟨by simp [one, same], go rest⟩) tail
  unfold Writer.escaped
  split
  · rename_i same
    subst same
    exact letter 'b' rfl (fun _ => rfl) (fun _ => rfl)
  split
  · rename_i same
    subst same
    exact letter 't' rfl (fun _ => rfl) (fun _ => rfl)
  split
  · rename_i same
    subst same
    cases several with
    | true => exact .plain (by decide) (by decide) (.inr ⟨rfl, rfl⟩) tail
    | false => exact letter 'n' rfl (fun _ => rfl) (fun _ => rfl)
  rename_i inLine
  split
  · rename_i same
    subst same
    exact letter 'f' rfl (fun _ => rfl) (fun _ => rfl)
  split
  · rename_i same
    subst same
    exact letter 'r' rfl (fun _ => rfl) (fun _ => rfl)
  split
  · rename_i same
    subst same
    exact letter '\\' rfl (fun _ => rfl) (fun _ => rfl)
  rename_i slash
  split
  · rename_i control
    refine .coded ['u', '0', '0', Writer.hexDigit (c.toNat / 16), Writer.hexDigit (c.toNat % 16)]
      (fun rest => ⟨?_, rfl⟩) tail
    have value := charOfHex?_control c.toNat (toNat_of_isControl control)
    simp only [List.cons_append, List.nil_append, escape?, value, Char.ofNat_toNat, Option.map_some]
  · rename_i control
    exact .plain other (fun same => absurd same slash)
      (.inl (isPlain_of_not_isControl (by simpa using control) inLine)) tail

theorem exists_escapeAll (several : Bool) (written : List Char) (run : Nat) (cs : List Char) :
    ∃ text, Writer.escapeAll several written run cs = written.reverse ++ text ∧
      Spelled '"' several run text cs := by
  induction cs generalizing written run with
  | nil => exact ⟨[], by simp [Writer.escapeAll], .nil run⟩
  | cons c cs ih =>
    unfold Writer.escapeAll
    split
    · rename_i same
      subst same
      by_cases less : run < (if several then 2 else 0)
      · rw [if_pos less]
        obtain ⟨text, eq, spelled⟩ := ih ('"' :: written) (run + 1)
        exact ⟨'"' :: text, by simp [eq], .quote less spelled⟩
      · rw [if_neg less]
        obtain ⟨text, eq, spelled⟩ := ih ('"' :: '\\' :: written) 0
        refine ⟨'\\' :: '"' :: text, by simp [eq], ?_⟩
        exact .coded ['"'] (fun _ => ⟨rfl, rfl⟩) spelled
    · rename_i other
      obtain ⟨text, eq, spelled⟩ := ih ((Writer.escaped several c).reverse ++ written) 0
      exact ⟨Writer.escaped several c ++ text, by simp [eq], spelled_escaped other spelled⟩

theorem spelled_single (plain : ∀ c ∈ cs, Writer.isControl c = false ∧ c ≠ '\'' ∧ c ≠ '\n') :
    Spelled '\'' false run cs cs := by
  induction cs generalizing run with
  | nil => exact .nil run
  | cons c cs ih =>
    obtain ⟨control, other, inLine⟩ := plain c List.mem_cons_self
    exact .plain other (fun _ => by decide) (.inl (isPlain_of_not_isControl control inLine))
      (ih fun c member => plain c (List.mem_cons_of_mem _ member))

theorem hasThree_of_cons (apart : Writer.hasThree quote (c :: cs) = false) :
    Writer.hasThree quote cs = false := by
  match cs with
  | [] => rfl
  | [_] => rfl
  | y :: z :: rest =>
    rw [Writer.hasThree, Bool.or_eq_false_iff] at apart
    exact apart.2

theorem spelled_several (plain : ∀ c ∈ cs, Writer.isControl c = false) (atMost : run ≤ 2)
    (apart : Writer.hasThree '\'' (List.replicate run '\'' ++ cs) = false) :
    Spelled '\'' true run cs cs := by
  induction cs generalizing run with
  | nil => exact .nil run
  | cons c cs ih =>
    have rest : ∀ c ∈ cs, Writer.isControl c = false := fun c member =>
      plain c (List.mem_cons_of_mem _ member)
    by_cases same : c = '\''
    · subst same
      have less : run < 2 := by
        by_contra two
        obtain rfl : run = 2 := by omega
        simp [Writer.hasThree] at apart
      rw [← List.singleton_append, ← List.append_assoc, ← List.replicate_succ'] at apart
      exact .quote less (ih rest less apart)
    · have later (count : Nat)
          (apart : Writer.hasThree '\'' (List.replicate count '\'' ++ c :: cs) = false) :
          Writer.hasThree '\'' cs = false := by
        induction count with
        | zero => exact hasThree_of_cons apart
        | succ count ih => exact ih (hasThree_of_cons apart)
      refine .plain same (fun _ => by decide) ?_ (ih rest (Nat.zero_le 2) (later run apart))
      by_cases newline : c = '\n'
      · exact .inr ⟨rfl, newline⟩
      · exact .inl (isPlain_of_not_isControl (plain c List.mem_cons_self) newline)

theorem singleLine_spelled (spelled : Spelled quote false run text cs) (line : Nat)
    (read : List Char) :
    singleLine quote line read (text ++ quote :: rest) = .ok (read.reverse ++ cs, rest) := by
  induction spelled generalizing read with
  | nil =>
    rw [List.nil_append, singleLine, if_pos rfl, List.append_nil]
  | quote less => exact absurd less (by simp)
  | @plain run c text cs other slash plain tail ih =>
    have plain : isPlain c = true := plain.resolve_right (by simp)
    rw [List.cons_append, singleLine, if_neg other, if_neg (by tauto), if_pos plain, ih]
    simp
  | @escape run c code text cs double read_code tail ih =>
    subst double
    have found := (read_code (text ++ '"' :: rest)).1
    rw [List.append_assoc, List.cons_append, singleLine, if_neg (by decide), if_pos ⟨rfl, rfl⟩]
    split
    · rename_i escaped after same
      obtain ⟨rfl, rfl⟩ : c = escaped ∧ text ++ '"' :: rest = after := by
        simpa [found] using same
      rw [ih]
      simp
    · rename_i none
      simp [found] at none

theorem multiLine_newline :
    multiLine quote false read line ('\n' :: rest) =
      multiLine quote false ('\n' :: read) (line + 1) rest := by
  rw [multiLine]
  rfl

theorem multiLine_plain (other : c ≠ quote) (slash : c = '\\' → quote ≠ '"')
    (plain : isPlain c = true) :
    multiLine quote false read line (c :: rest) = multiLine quote false (c :: read) line rest := by
  rw [multiLine]
  · rw [if_neg (by simp), if_neg other, if_neg (by tauto), if_pos plain]
  · rintro rfl
    cases plain
  · rintro _ rfl
    cases plain

theorem multiLine_escape {after : List Char} (found : escape? cs = some (c, after))
    (inLine : endsLine cs = false) :
    multiLine '"' false read line ('\\' :: cs) = multiLine '"' false (c :: read) line after := by
  rw [multiLine]
  · rw [if_neg (by simp), if_neg (by decide), if_pos ⟨rfl, rfl⟩, if_neg (by simp [inLine])]
    split
    · rename_i escaped rest same
      obtain ⟨rfl, rfl⟩ : c = escaped ∧ after = rest := by
        simpa [found] using same
      rfl
    · rename_i none
      simp [found] at none
  all_goals simp

theorem multiLine_quote (isQuote : quote = '"' ∨ quote = '\'') :
    multiLine quote false read line (quote :: rest) =
      match closing? quote rest with
      | some (quotes, after) => .ok (read.reverse ++ quotes, ⟨line, after⟩)
      | none => multiLine quote false (quote :: read) line rest := by
  rw [multiLine]
  · exact (if_neg (by simp)).trans (if_pos rfl)
  all_goals rcases isQuote with rfl | rfl <;> simp

theorem closing?_eq_none (few : (cs.takeWhile (· == quote)).length < 2) :
    closing? quote cs = none :=
  if_pos few

theorem closing?_spelled (spelled : Spelled quote true run text cs) (positive : 0 < run)
    (after : rest.head? ≠ some quote) :
    closing? quote (text ++ quote :: quote :: quote :: rest) = none ∨
      closing? quote (text ++ quote :: quote :: quote :: rest) = some (quote :: cs, rest) := by
  have none_left : rest.takeWhile (· == quote) = [] := by
    cases rest with
    | nil => rfl
    | cons c rest => simp_all
  cases spelled with
  | nil => exact .inr (by simp [closing?, none_left])
  | plain other => exact .inl (closing?_eq_none (by simp [other]))
  | escape double => exact .inl (closing?_eq_none (by simp [double]))
  | quote less tail =>
    obtain rfl : run = 1 := by
      simp at less
      omega
    cases tail with
    | nil => exact .inr (by simp [closing?, none_left])
    | quote more => exact absurd more (by simp)
    | plain other => exact .inl (closing?_eq_none (by simp [other]))
    | escape double => exact .inl (closing?_eq_none (by simp [double]))

theorem multiLine_spelled (spelled : Spelled quote true run text cs)
    (isQuote : quote = '"' ∨ quote = '\'') (after : rest.head? ≠ some quote) (line : Nat)
    (read : List Char) :
    ∃ last, multiLine quote false read line (text ++ quote :: quote :: quote :: rest) =
      .ok (read.reverse ++ cs, ⟨last, rest⟩) := by
  induction spelled generalizing read line with
  | nil =>
    have closes : closing? quote (quote :: quote :: rest) = some ([], rest) := by
      cases rest with
      | nil => simp [closing?]
      | cons c rest => simp_all [closing?]
    refine ⟨line, ?_⟩
    rw [List.nil_append, multiLine_quote isQuote, closes]
  | @quote run text cs less tail ih =>
    rw [List.cons_append, multiLine_quote isQuote]
    rcases closing?_spelled tail (Nat.succ_pos run) after with goes_on | ends
    · rw [goes_on]
      obtain ⟨last, read⟩ := ih line (quote :: read)
      exact ⟨last, by simp [read]⟩
    · rw [ends]
      exact ⟨line, rfl⟩
  | @plain run c text cs other slash plain tail ih =>
    rcases plain with plain | ⟨-, rfl⟩
    · obtain ⟨last, read⟩ := ih line (c :: read)
      exact ⟨last, by rw [List.cons_append, multiLine_plain other slash plain, read]; simp⟩
    · obtain ⟨last, read⟩ := ih (line + 1) ('\n' :: read)
      exact ⟨last, by rw [List.cons_append, multiLine_newline, read]; simp⟩
  | @escape run c code text cs double read_code tail ih =>
    subst double
    obtain ⟨found, inLine⟩ := read_code (text ++ '"' :: '"' :: '"' :: rest)
    obtain ⟨last, read⟩ := ih line (c :: read)
    refine ⟨last, ?_⟩
    rw [List.append_assoc, List.cons_append, multiLine_escape found inLine, read]
    simp

theorem read_single (spelled : Spelled quote false 0 text cs) (after : rest.head? ≠ some quote)
    (line : Nat) :
    Quoted.read quote line (text ++ quote :: rest) = .ok (String.ofList cs, ⟨line, rest⟩) := by
  have single : singleLine quote line [] (text ++ quote :: rest) = .ok (cs, rest) :=
    singleLine_spelled spelled line []
  unfold Quoted.read
  split
  · rename_i a b tail same
    have one : ¬(a = quote ∧ b = quote) := by
      rintro ⟨rfl, rfl⟩
      cases spelled with
      | nil => simp_all
      | quote less => simp at less
      | plain other => simp_all
      | escape double => simp_all
    dsimp only
    rw [if_neg one, single]
    rfl
  · dsimp only
    rw [single]
    rfl

theorem head_ne_newline (rest : List Char) (spelled : Spelled quote true 0 text cs)
    (isQuote : quote = '"' ∨ quote = '\'') (inLine : '\n' ∉ cs) :
    ∃ c tail, text ++ quote :: rest = c :: tail ∧ c ≠ '\n' ∧ c ≠ '\r' := by
  have apart : quote ≠ '\n' ∧ quote ≠ '\r' := by
    rcases isQuote with rfl | rfl <;> decide
  cases spelled with
  | nil => exact ⟨quote, rest, rfl, apart⟩
  | quote less tail => exact ⟨quote, _, rfl, apart⟩
  | @plain run c text cs other slash plain tail =>
    have newline : c ≠ '\n' := by
      rintro rfl
      simp at inLine
    refine ⟨c, _, rfl, newline, ?_⟩
    rintro rfl
    rcases plain with plain | ⟨-, same⟩
    · cases plain
    · exact newline same
  | escape double => exact ⟨'\\', _, rfl, by decide, by decide⟩

theorem read_several (spelled : Spelled quote true 0 text cs)
    (isQuote : quote = '"' ∨ quote = '\'') (after : rest.head? ≠ some quote) (line : Nat) :
    ∃ last, Quoted.read quote line
      (quote :: quote :: (Writer.lineStart cs ++ text ++ quote :: quote :: quote :: rest)) =
      .ok (String.ofList cs, ⟨last, rest⟩) := by
  by_cases newline : '\n' ∈ cs
  · obtain ⟨last, several⟩ := multiLine_spelled spelled isQuote after (line + 1) []
    refine ⟨last, ?_⟩
    have start : Writer.lineStart cs = ['\n'] := if_pos (by simpa using newline)
    rw [start, List.append_assoc]
    simp only [Quoted.read, List.cons_append, List.nil_append, and_self, if_true]
    rw [several]
    rfl
  · obtain ⟨last, several⟩ := multiLine_spelled spelled isQuote after line []
    refine ⟨last, ?_⟩
    have start : Writer.lineStart cs = [] := if_neg (by simpa using newline)
    obtain ⟨c, tail, same, notNewline, notReturn⟩ :=
      head_ne_newline (quote :: quote :: rest) spelled isQuote newline
    rw [start, List.nil_append]
    rw [same] at several ⊢
    simp only [Quoted.read, and_self, if_true]
    split
    · simp_all
    · simp_all
    · rw [several]
      rfl

end Quoted

theorem read_string (s : String) (ends : Ends rest) (line : Nat) :
    ∃ quote tail last, Writer.string s.toList ++ rest = quote :: tail ∧
      (quote = '"' ∨ quote = '\'') ∧ Quoted.read quote line tail = .ok (s, ⟨last, rest⟩) := by
  have double : rest.head? ≠ some '"' := by cases ends <;> simp
  have single : rest.head? ≠ some '\'' := by cases ends <;> simp
  have oneLine (text : List Char) (spelled : Quoted.Spelled '"' false 0 text s.toList) :
      Quoted.read '"' line (text ++ '"' :: rest) = .ok (s, ⟨line, rest⟩) := by
    rw [Quoted.read_single spelled double, String.ofList_toList]
  have lines {quote : Char} (isQuote : quote = '"' ∨ quote = '\'') (after : rest.head? ≠ some quote)
    (text : List Char) (spelled : Quoted.Spelled quote true 0 text s.toList) :
      ∃ last, Quoted.read quote line (quote :: quote ::
        (Writer.lineStart s.toList ++ text ++ quote :: quote :: quote :: rest)) =
          .ok (s, ⟨last, rest⟩) := by
    simpa using Quoted.read_several spelled isQuote after line
  obtain ⟨short, short_eq, spells_short⟩ := Quoted.exists_escapeAll false [] 0 s.toList
  obtain ⟨long, long_eq, spells_long⟩ := Quoted.exists_escapeAll true [] 0 s.toList
  unfold Writer.string
  dsimp only
  rw [short_eq, long_eq]
  split
  · exact ⟨'"', _, line, rfl, .inl rfl, by simpa using oneLine short spells_short⟩
  split
  · rename_i form
    have plain : ∀ c ∈ s.toList, Writer.isControl c = false ∧ c ≠ '\'' ∧ c ≠ '\n' := by
      simp_all
      grind
    have read := Quoted.read_single (Quoted.spelled_single plain) single line
    exact ⟨'\'', _, line, rfl, .inr rfl, by simpa using read⟩
  split
  · obtain ⟨last, read⟩ := lines (.inl rfl) double long spells_long
    exact ⟨'"', _, last, rfl, .inl rfl, by simpa using read⟩
  split
  · rename_i form
    have plain : ∀ c ∈ s.toList, Writer.isControl c = false := by
      simp_all
    have apart : Writer.hasThree '\'' s.toList = false := by
      simp_all
    obtain ⟨last, read⟩ := lines (.inr rfl) single s.toList
      (Quoted.spelled_several plain (Nat.zero_le 2) apart)
    exact ⟨'\'', _, last, rfl, .inr rfl, by simpa using read⟩
  split
  · obtain ⟨last, read⟩ := lines (.inl rfl) double long spells_long
    exact ⟨'"', _, last, rfl, .inl rfl, by simpa using read⟩
  · exact ⟨'"', _, line, rfl, .inl rfl, by simpa using oneLine short spells_short⟩

end LinkedSheet.Toml
