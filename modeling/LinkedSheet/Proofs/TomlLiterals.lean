import LinkedSheet.Proofs.TomlStrings
import LinkedSheet.Toml.Reader

/-!
Values as they are written and read back. The line of what is read depends on the text in front of
it, so an item is related to what was written (`Item.Holds`) and not computed from it.
-/
namespace LinkedSheet.Toml

variable {c : Char} {cs rest text : List Char} {line fuel depth : Nat} {literal : Literal}

inductive Item.Holds : Item → Literal → Prop
  | string (line : Nat) (s : String) : Holds (.scalar line (.string s)) (.string s)
  | integer (line : Nat) (n : Int) : Holds (.scalar line (.integer n)) (.integer n)
  | float (line : Nat) (x : Float) : Holds (.scalar line (.float x)) (.float x)
  | array (line : Nat) {items : List Item} {literals : List Literal} :
      List.Forall₂ Holds items literals → Holds (.array line false items) (.array literals)

inductive Literal.Fits : Literal → Prop
  | string (s : String) : Fits (.string s)
  | integer {n : Int} : Word.fits n = true → Fits (.integer n)
  | float (x : Float) : Fits (.float x)
  | array {items : List Literal} : (∀ item ∈ items, Fits item) → Fits (.array items)

def StartsNumber (c : Char) : Prop := c = '-' ∨ c = 'i' ∨ c = 'n' ∨ c.isDigit = true

theorem startsNumber_sign {negative : Bool} (starts : StartsNumber c) :
    ∃ first tail, Writer.sign negative ++ c :: cs = first :: tail ∧ StartsNumber first := by
  cases negative with
  | true => exact ⟨'-', _, rfl, .inl rfl⟩
  | false => exact ⟨c, _, rfl, starts⟩

theorem exists_integer (n : Int) :
    ∃ c tail, Writer.integer n = c :: tail ∧ StartsNumber c := by
  unfold Writer.integer
  cases digits : Nat.toDigits 10 n.natAbs with
  | nil => exact absurd digits Nat.toDigits_ne_nil
  | cons c tail =>
    have isDigit : c.isDigit = true := isDigit_of_mem_toDigits (digits ▸ List.mem_cons_self)
    exact startsNumber_sign (.inr (.inr (.inr isDigit)))

theorem exists_float (x : Float) : ∃ c tail, Writer.float x = c :: tail ∧ StartsNumber c := by
  unfold Writer.float
  cases content : Binary64.ofFloat x with
  | notANumber => exact ⟨'n', _, rfl, .inr (.inr (.inl rfl))⟩
  | infinite negative => exact startsNumber_sign (.inr (.inl rfl))
  | finite negative mantissa exponent =>
    unfold Writer.binary
    dsimp only
    rcases Nat.eq_zero_or_pos mantissa with rfl | positive
    · exact startsNumber_sign (.inr (.inr (.inr rfl)))
    · rw [if_neg positive.ne']
      have finite := (Binary64.pattern_of_finite content).1
      obtain ⟨whole, fraction, text, spells⟩ :=
        exists_spells (Decimal.shortest_spec finite positive).1
      rw [text]
      cases whole with
      | nil => exact absurd rfl spells.isWhole.ne_nil
      | cons c whole =>
        have isDigit := spells.isWhole.all c List.mem_cons_self
        exact startsNumber_sign (.inr (.inr (.inr isDigit)))

theorem exists_literal (literal : Literal) :
    ∃ c tail, Writer.literal literal = c :: tail ∧
      (c = '"' ∨ c = '\'' ∨ c = '[' ∨ StartsNumber c) := by
  cases literal with
  | string s =>
    obtain ⟨quote, tail, last, same, isQuote, -⟩ := read_string s (.line []) 0
    cases written : Writer.string s.toList with
    | nil =>
      rw [written] at same
      cases same
      rcases isQuote with newline | newline <;> cases newline
    | cons first text =>
      rw [written] at same
      cases same
      exact ⟨quote, text, written, isQuote.imp_right .inl⟩
  | integer n =>
    obtain ⟨c, tail, same, starts⟩ := exists_integer n
    exact ⟨c, tail, same, .inr (.inr (.inr starts))⟩
  | float x =>
    obtain ⟨c, tail, same, starts⟩ := exists_float x
    exact ⟨c, tail, same, .inr (.inr (.inr starts))⟩
  | array items => exact ⟨'[', _, rfl, .inr (.inr (.inl rfl))⟩

theorem skipGaps_cons (other : c ≠ '\n' ∧ c ≠ '\r' ∧ c ≠ ' ' ∧ c ≠ '\t' ∧ c ≠ '#') :
    skipGaps false line (c :: rest) = ⟨line, c :: rest⟩ := by
  obtain ⟨newline, ret, space, tab, hash⟩ := other
  rw [skipGaps]
  · simp [isSpace, space, tab, hash]
  · exact newline
  · rintro _ rfl
    exact absurd rfl ret

theorem readItem_number {value : Scalar} (starts : StartsNumber c)
    (read : Number.read? (c :: cs) = some (value, rest)) :
    readItem none (fuel + 1) depth ⟨line, c :: cs⟩ = .ok (.scalar line value, ⟨line, rest⟩) := by
  have other : c ≠ '[' ∧ c ≠ '\x7b' ∧ c ≠ '"' ∧ c ≠ '\'' := by
    refine ⟨?_, ?_, ?_, ?_⟩ <;> rintro rfl <;> revert starts <;> simp [StartsNumber]
  unfold readItem
  split <;> simp_all

theorem readItem_string (s : String) (ends : Ends rest) :
    ∃ last, readItem none (fuel + 1) depth ⟨line, Writer.string s.toList ++ rest⟩ =
      .ok (.scalar line (.string s), ⟨last, rest⟩) := by
  obtain ⟨quote, tail, last, same, isQuote, read⟩ := read_string s ends line
  refine ⟨last, ?_⟩
  rw [same]
  rcases isQuote with rfl | rfl <;>
    · rw [readItem]
      simp only [read]
      rfl

theorem readArray_space {start : Nat} {read : List Item} :
    readArray none fuel depth start read ⟨line, ' ' :: cs⟩ =
      readArray none fuel depth start read ⟨line, cs⟩ := by
  cases fuel with
  | zero => simp only [readArray]
  | succ fuel =>
    have skipped : skipGaps false line (' ' :: cs) = skipGaps false line cs := by
      rw [skipGaps]
      · simp [isSpace]
      all_goals simp
    simp only [readArray, skipped]

theorem readArray_item {start last : Nat} {read : List Item} {item : Item} (starts : c ≠ ']')
    (gap : skipGaps false line (c :: cs) = ⟨line, c :: cs⟩)
    (found : readItem none fuel depth ⟨line, c :: cs⟩ = .ok (item, ⟨last, rest⟩)) :
    (∀ tail, rest = ',' :: tail → readArray none (fuel + 1) depth start read ⟨line, c :: cs⟩ =
      readArray none fuel depth start (item :: read) ⟨last, tail⟩) ∧
    (∀ tail, rest = ']' :: tail → readArray none (fuel + 1) depth start read ⟨line, c :: cs⟩ =
      .ok (.array start false (item :: read).reverse, ⟨last, tail⟩)) := by
  constructor
  · rintro tail rfl
    rw [readArray]
    simp only [gap]
    split
    · simp_all
    · have skipped : skipGaps false last (',' :: tail) = ⟨last, ',' :: tail⟩ :=
        skipGaps_cons (by decide)
      rw [found]
      simp [skipped, bind, Except.bind]
  · rintro tail rfl
    rw [readArray]
    simp only [gap]
    split
    · simp_all
    · have skipped : skipGaps false last (']' :: tail) = ⟨last, ']' :: tail⟩ :=
        skipGaps_cons (by decide)
      rw [found]
      simp [skipped, bind, Except.bind]

theorem readArray_end {start : Nat} {read : List Item} :
    readArray none (fuel + 1) depth start read ⟨line, ']' :: rest⟩ =
      .ok (.array start false read.reverse, ⟨line, rest⟩) := by
  have gap : skipGaps false line (']' :: rest) = ⟨line, ']' :: rest⟩ := skipGaps_cons (by decide)
  rw [readArray]
  simp only [gap]

def Literal.Reads (literal : Literal) : Prop :=
  ∀ (fuel depth line : Nat) (rest : List Char), (Writer.literal literal).length ≤ fuel →
    Ends rest → ∃ item last, item.Holds literal ∧
      readItem none fuel depth ⟨line, Writer.literal literal ++ rest⟩ = .ok (item, ⟨last, rest⟩)

theorem readArray_elements {literals : List Literal} (each : ∀ literal ∈ literals, literal.Reads)
    (start line : Nat) (read : List Item) (short : (Writer.elements literals).length ≤ fuel) :
    ∃ items last, List.Forall₂ Item.Holds items literals ∧
      readArray none fuel depth start read ⟨line, Writer.elements literals ++ rest⟩ =
        .ok (.array start false (read.reverse ++ items), ⟨last, rest⟩) := by
  induction literals generalizing fuel line read with
  | nil =>
    cases fuel with
    | zero => simp [Writer.elements] at short
    | succ fuel =>
      refine ⟨[], line, .nil, ?_⟩
      rw [List.append_nil]
      exact readArray_end
  | cons literal more ih =>
    obtain ⟨c, tail, same, starts⟩ := exists_literal literal
    have other : (c ≠ '\n' ∧ c ≠ '\r' ∧ c ≠ ' ' ∧ c ≠ '\t' ∧ c ≠ '#') ∧ c ≠ ']' := by
      refine ⟨⟨?_, ?_, ?_, ?_, ?_⟩, ?_⟩ <;> rintro rfl <;> revert starts <;> simp [StartsNumber]
    have gap (line : Nat) (cs : List Char) : skipGaps false line (c :: cs) = ⟨line, c :: cs⟩ :=
      skipGaps_cons other.1
    have one := each literal List.mem_cons_self
    have others : ∀ literal ∈ more, literal.Reads := fun other member =>
      each other (List.mem_cons_of_mem _ member)
    cases fuel with
    | zero => cases more <;> simp [Writer.elements] at short
    | succ fuel =>
      cases more with
      | nil =>
        rw [Writer.elements, List.length_append, List.length_singleton] at short
        obtain ⟨item, last, holds, found⟩ := one fuel depth line _ (by omega) (.array rest)
        refine ⟨[item], last, .cons holds .nil, ?_⟩
        rw [Writer.elements, List.append_assoc, List.singleton_append]
        rw [same, List.cons_append] at found ⊢
        rw [(readArray_item other.2 (gap line _) found).2 rest rfl, List.reverse_cons]
      | cons next more =>
        rw [Writer.elements, List.length_append, List.length_cons, List.length_cons] at short
        · obtain ⟨item, last, holds, found⟩ := one fuel depth line _ (by omega)
            (.element (' ' :: (Writer.elements (next :: more) ++ rest)))
          have less : (Writer.elements (next :: more)).length ≤ fuel := by omega
          obtain ⟨items, final, all, read⟩ := ih others last (item :: read) less
          refine ⟨item :: items, final, .cons holds all, ?_⟩
          rw [Writer.elements, List.append_assoc, List.cons_append, List.cons_append]
          · rw [same, List.cons_append] at found ⊢
            rw [(readArray_item other.2 (gap line _) found).1 _ rfl, readArray_space, read]
            simp
          · simp
        · simp

theorem Literal.reads_of_number {value : Scalar} (c : Char) (tail : List Char)
    (same : Writer.literal literal = c :: tail) (starts : StartsNumber c)
    (holds : ∀ line, (Item.scalar line value).Holds literal)
    (found : ∀ rest, Ends rest →
      Number.read? (Writer.literal literal ++ rest) = some (value, rest)) : literal.Reads := by
  intro fuel depth line rest short ends
  cases fuel with
  | zero => simp [same] at short
  | succ fuel =>
    have found := found rest ends
    rw [same] at found
    refine ⟨_, line, holds line, ?_⟩
    rw [same]
    exact readItem_number starts found

theorem Literal.Fits.reads (fits : literal.Fits) : literal.Reads := by
  induction fits with
  | string s =>
    intro fuel depth line rest short ends
    cases fuel with
    | zero =>
      obtain ⟨c, tail, same, -⟩ := exists_literal (.string s)
      simp [same] at short
    | succ fuel =>
      obtain ⟨last, read⟩ := readItem_string s ends
      exact ⟨_, last, .string line s, read⟩
  | @integer n bounded =>
    obtain ⟨c, tail, same, starts⟩ := exists_integer n
    exact reads_of_number c tail same starts (.integer · n) fun rest => Number.read?_integer bounded
  | float x =>
    obtain ⟨c, tail, same, starts⟩ := exists_float x
    exact reads_of_number c tail same starts (.float · x) fun rest => Number.read?_float x
  | @array items each ih =>
    intro fuel depth line rest short ends
    cases fuel with
    | zero => simp [Writer.literal] at short
    | succ fuel =>
      rw [Writer.literal, List.length_cons] at short
      have less : (Writer.elements items).length ≤ fuel := by omega
      obtain ⟨held, last, holds, read⟩ := readArray_elements ih line line [] less
      refine ⟨_, last, .array line holds, ?_⟩
      rw [Writer.literal, List.cons_append, readItem]
      exact read

end LinkedSheet.Toml
