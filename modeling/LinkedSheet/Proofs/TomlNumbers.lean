import LinkedSheet.Proofs.ShortestDecimal
import LinkedSheet.Toml.Number
import LinkedSheet.Toml.Writer

/-!
Numbers of a document as they are written and read back. An integer is a sign and digits; a
floating-point number has a point as well, and digits on both sides of it, and so is never read as
an integer.
-/
namespace LinkedSheet

open Binary64 (IsFinite magnitude withSign infinityBits nanBits)

variable {digits whole fraction rest : List Char} {negative : Bool}

theorem Text.hexValue?_of_isDigit {c : Char} (isDigit : c.isDigit = true) :
    hexValue? c = some (c.toNat - '0'.toNat) ∧ c.toNat - '0'.toNat < 10 := by
  have high : c.toNat ≤ '9'.toNat := (Char.isDigit_iff_toNat.1 isDigit).2
  change c.toNat ≤ 57 at high
  change _ ∧ c.toNat - 48 < 10
  exact ⟨if_pos isDigit, by omega⟩

theorem Text.foldl_digits (all : ∀ c ∈ digits, c.isDigit = true) (start : Nat) :
    digits.foldl (fun value c => do
      let value ← value
      let digit ← hexValue? c
      if digit < 10 then some (value * 10 + digit) else none) (some start) =
      some (Nat.ofDigitChars 10 digits start) := by
  induction digits generalizing start with
  | nil => rfl
  | cons c rest ih =>
    obtain ⟨value, small⟩ := hexValue?_of_isDigit (all c List.mem_cons_self)
    rw [List.foldl_cons, Nat.ofDigitChars_cons, Nat.mul_comm 10]
    simp only [value, Option.bind_eq_bind, Option.bind_some, if_pos small]
    exact ih (fun c member => all c (List.mem_cons_of_mem _ member)) _

theorem Text.digitsValue?_eq (all : ∀ c ∈ digits, c.isDigit = true) (some_digit : digits ≠ []) :
    digitsValue? 10 digits = some (Nat.ofDigitChars 10 digits 0) := by
  cases digits with
  | nil => exact absurd rfl some_digit
  | cons c rest => exact foldl_digits all 0

theorem head_toDigits_ne {n : Nat} (positive : 0 < n) : (Nat.toDigits 10 n).head? ≠ some '0' := by
  induction n using Nat.strong_induction_on with
  | _ n ih =>
    rcases Nat.lt_or_ge n 10 with small | large
    · rw [Nat.toDigits_of_lt_base small]
      interval_cases n <;> decide
    · rw [Nat.toDigits_of_base_le (by decide) large,
        List.head?_append_of_ne_nil _ Nat.toDigits_ne_nil]
      exact ih (n / 10) (by omega) (by omega)

/-- Digits before a point: a zero alone, or digits that do not start with a zero. -/
structure IsWhole (digits : List Char) : Prop where
  all : ∀ c ∈ digits, c.isDigit = true
  leads : digits = ['0'] ∨ digits ≠ [] ∧ digits.head? ≠ some '0'

theorem IsWhole.ne_nil (isWhole : IsWhole digits) : digits ≠ [] := by
  rcases isWhole.leads with rfl | ⟨other, -⟩
  · simp
  · exact other

theorem isDigit_of_mem_toDigits {n : Nat} {c : Char} (member : c ∈ Nat.toDigits 10 n) :
    c.isDigit = true :=
  Nat.isDigit_of_mem_toDigits (by decide) (by decide) member

theorem isDigit_of_mem_zeros {count : Nat} {c : Char} (member : c ∈ List.replicate count '0') :
    c.isDigit = true := by
  rw [List.eq_of_mem_replicate member]
  rfl

theorem isWhole_toDigits (n : Nat) : IsWhole (Nat.toDigits 10 n) where
  all _ := isDigit_of_mem_toDigits
  leads := by
    rcases Nat.eq_zero_or_pos n with rfl | positive
    · exact .inl rfl
    · exact .inr ⟨Nat.toDigits_ne_nil, head_toDigits_ne positive⟩

structure Spells (whole fraction : List Char) (value : ℚ) : Prop where
  isWhole : IsWhole whole
  all : ∀ c ∈ fraction, c.isDigit = true
  some_digit : fraction ≠ []
  value : (Nat.ofDigitChars 10 (whole ++ fraction) 0 : ℚ) * 10 ^ (-(fraction.length : Int)) = value

theorem spells_zeros {n : Nat} (positive : 0 < n) (zeros : Nat) :
    Spells (Nat.toDigits 10 n ++ List.replicate zeros '0') ['0'] (n * 10 ^ (zeros : Int)) where
  isWhole := by
    refine ⟨?_, .inr ⟨by simp, ?_⟩⟩
    · intro c member
      rcases List.mem_append.1 member with digit | zero
      · exact isDigit_of_mem_toDigits digit
      · exact isDigit_of_mem_zeros zero
    · rw [List.head?_append_of_ne_nil _ Nat.toDigits_ne_nil]
      exact head_toDigits_ne positive
  all := by simp
  some_digit := by simp
  value := by
    rw [Nat.ofDigitChars_append, Nat.ofDigitChars_append, Nat.ofDigitChars_ten_toDigits,
      Nat.ofDigitChars_replicate_zero]
    simp [Nat.ofDigitChars_cons]
    ring

theorem spells_split {n places : Nat} (positive : 0 < n) (some_place : 0 < places)
    (less : places < (Nat.toDigits 10 n).length) :
    Spells ((Nat.toDigits 10 n).take ((Nat.toDigits 10 n).length - places))
      ((Nat.toDigits 10 n).drop ((Nat.toDigits 10 n).length - places))
      (n * 10 ^ (-(places : Int))) where
  isWhole := by
    refine ⟨fun c member => isDigit_of_mem_toDigits (List.mem_of_mem_take member), .inr ⟨?_, ?_⟩⟩
    · intro empty
      have := congrArg List.length empty
      simp at this
      omega
    · rw [List.head?_take, if_neg (by omega)]
      exact head_toDigits_ne positive
  all c member := isDigit_of_mem_toDigits (List.mem_of_mem_drop member)
  some_digit := by
    intro empty
    have := congrArg List.length empty
    simp at this
    omega
  value := by
    have length : ((Nat.toDigits 10 n).drop ((Nat.toDigits 10 n).length - places)).length =
        places := by
      rw [List.length_drop]
      omega
    rw [List.take_append_drop, Nat.ofDigitChars_ten_toDigits, length]

theorem spells_small {n places : Nat} (more : (Nat.toDigits 10 n).length ≤ places) :
    Spells ['0'] (List.replicate (places - (Nat.toDigits 10 n).length) '0' ++ Nat.toDigits 10 n)
      (n * 10 ^ (-(places : Int))) where
  isWhole := ⟨by simp, .inl rfl⟩
  all c member := by
    rcases List.mem_append.1 member with zero | digit
    · exact isDigit_of_mem_zeros zero
    · exact isDigit_of_mem_toDigits digit
  some_digit := by simp
  value := by
    have length : (List.replicate (places - (Nat.toDigits 10 n).length) '0' ++
        Nat.toDigits 10 n).length = places := by
      rw [List.length_append, List.length_replicate]
      omega
    rw [length, Nat.ofDigitChars_append, Nat.ofDigitChars_append, Nat.ofDigitChars_replicate_zero]
    simp [Nat.ofDigitChars_cons, Nat.ofDigitChars_ten_toDigits]

theorem exists_spells {d : Decimal.Digits} (positive : 0 < d.digits) :
    ∃ whole fraction, Toml.Writer.withFraction d.positional.toList = whole ++ '.' :: fraction ∧
      Spells whole fraction d.value := by
  obtain ⟨n, exponent⟩ := d
  unfold Decimal.Digits.positional Decimal.Digits.value
  dsimp only
  split
  · rename_i nonneg
    obtain ⟨zeros, rfl⟩ := Int.eq_ofNat_of_zero_le nonneg
    have spells := spells_zeros positive zeros
    refine ⟨_, _, ?_, spells⟩
    have no_point : '.' ∉ Nat.toDigits 10 n ++ List.replicate zeros '0' := fun point =>
      absurd (spells.isWhole.all '.' point) (by decide)
    rw [Int.toNat_natCast, String.toList_ofList, Toml.Writer.withFraction,
      if_neg (by simpa using no_point)]
  · rename_i negative
    obtain ⟨places, rfl⟩ : ∃ places : Nat, exponent = -(places : Int) :=
      ⟨exponent.natAbs, by omega⟩
    rw [neg_neg, Int.toNat_natCast]
    split
    · rename_i less
      refine ⟨_, _, ?_, spells_split positive (by omega) less⟩
      rw [String.toList_ofList, Toml.Writer.withFraction, if_pos (by simp)]
    · rename_i more
      refine ⟨_, _, ?_, spells_small (not_lt.1 more)⟩
      rw [String.toList_ofList, Toml.Writer.withFraction, if_pos (by simp)]
      rfl

namespace Toml

/-- What may follow a value: the end of its line, or the next element or the end of an array. -/
inductive Ends : List Char → Prop
  | line (tail : List Char) : Ends ('\n' :: tail)
  | element (tail : List Char) : Ends (',' :: tail)
  | array (tail : List Char) : Ends (']' :: tail)

namespace Number

theorem digits?_append (read : List Char) (afterDigit : Bool)
    (all : ∀ c ∈ digits, c.isDigit = true) (started : digits ≠ [] ∨ afterDigit = true)
    (stops : ∀ c ∈ rest.head?, c.isDigit = false ∧ c ≠ '_') :
    digits? Char.isDigit read afterDigit (digits ++ rest) =
      some (read.reverse ++ digits, rest) := by
  induction digits generalizing read afterDigit with
  | nil =>
    obtain rfl : afterDigit = true := by simpa using started
    cases rest with
    | nil => simp [digits?]
    | cons c tail =>
      obtain ⟨other, mark⟩ := stops c rfl
      simp [digits?, other, mark]
  | cons c digits ih =>
    have isDigit := all c List.mem_cons_self
    have tail := ih (c :: read) true (fun c member => all c (List.mem_cons_of_mem _ member))
      (.inr rfl)
    rw [List.cons_append, digits?, if_pos isDigit, tail]
    simp

theorem wholeDigits?_append (isWhole : IsWhole digits)
    (stops : ∀ c ∈ rest.head?, c.isDigit = false ∧ c ≠ '_') :
    wholeDigits? (digits ++ rest) = some (digits, rest) := by
  rcases isWhole.leads with rfl | ⟨other, head⟩
  · rfl
  · unfold wholeDigits?
    split
    · rename_i same
      cases digits with
      | nil => exact absurd rfl other
      | cons c digits =>
        rw [List.cons_append, List.cons.injEq] at same
        exact absurd (congrArg some same.1) head
    · exact digits?_append [] false isWhole.all (.inl other) stops

theorem Ends.stops (ends : Ends rest) : ∀ c ∈ rest.head?, c.isDigit = false ∧ c ≠ '_' := by
  cases ends <;> simp

theorem decimal?_fraction {value : ℚ} (spells : Spells whole fraction value) (ends : Ends rest) :
    decimal? negative (whole ++ '.' :: (fraction ++ rest)) =
      (float? negative whole fraction 0).map (·, rest) := by
  have front : wholeDigits? (whole ++ '.' :: (fraction ++ rest)) =
      some (whole, '.' :: (fraction ++ rest)) := wholeDigits?_append spells.isWhole (by simp)
  have back : decimalDigits? (fraction ++ rest) = some (fraction, rest) :=
    digits?_append [] false spells.all (.inl spells.some_digit) (Ends.stops ends)
  have exponent : optionalExponent? rest = some (none, rest) := by
    cases ends <;> rfl
  simp only [decimal?, front, back, exponent, Option.bind_eq_bind, Option.bind_some,
    Option.getD_none]
  cases float? negative whole fraction 0 <;> rfl

theorem decimal?_integer (isWhole : IsWhole digits) (ends : Ends rest) :
    decimal? negative (digits ++ rest) =
      (bounded? (if negative then -(Nat.ofDigitChars 10 digits 0 : Int)
        else Nat.ofDigitChars 10 digits 0)).map (·, rest) := by
  have front := wholeDigits?_append isWhole (Ends.stops ends)
  have value := Text.digitsValue?_eq isWhole.all isWhole.ne_nil
  simp only [decimal?, front, Option.bind_eq_bind, Option.bind_some]
  cases ends <;>
    · simp only [optionalExponent?, Option.bind_some, value]
      cases bounded? _ <;> rfl

theorem startsDate_append {c : Char} (all : ∀ c ∈ digits, c.isDigit = true)
    (other : c.isDigit = false) (hyphen : c ≠ '-') : startsDate (digits ++ c :: rest) = false := by
  unfold startsDate
  split
  · rcases digits with _ | ⟨a, _ | ⟨b, _ | ⟨c, _ | ⟨d, _ | ⟨e, digits⟩⟩⟩⟩⟩ <;> simp_all
  · rfl

theorem startsTime_append {c : Char} (all : ∀ c ∈ digits, c.isDigit = true)
    (other : c.isDigit = false) (colon : c ≠ ':') : startsTime (digits ++ c :: rest) = false := by
  unfold startsTime
  split
  · rcases digits with _ | ⟨a, _ | ⟨b, _ | ⟨c, digits⟩⟩⟩ <;> simp_all [isField]
  · rfl

theorem startsDate_cons {c : Char} (other : c.isDigit = false) :
    startsDate (c :: rest) = false := by
  unfold startsDate
  split <;> simp_all

theorem startsTime_cons {c : Char} (other : c.isDigit = false) :
    startsTime (c :: rest) = false := by
  unfold startsTime
  split <;> simp_all [isField]

theorem unsigned?_cons {d : Char} (isDigit : d.isDigit = true) :
    unsigned? negative (d :: rest) = decimal? negative (d :: rest) := by
  unfold unsigned?
  split <;> simp_all

theorem number?_cons {d : Char} (isDigit : d.isDigit = true)
    (unmarked : d = '0' → ∀ c ∈ rest.head?, c ≠ 'x' ∧ c ≠ 'o' ∧ c ≠ 'b') :
    number? (d :: rest) = decimal? false (d :: rest) := by
  unfold number?
  split <;> simp_all [unsigned?_cons]

theorem read?_cons {c : Char} (other : c ≠ 't' ∧ c ≠ 'f') (date : startsDate (c :: rest) = false)
    (time : startsTime (c :: rest) = false) : read? (c :: rest) = number? (c :: rest) := by
  unfold read?
  split <;> simp_all

theorem read?_cons_of_not_isDigit {c : Char} (other : c ≠ 't' ∧ c ≠ 'f')
    (letter : c.isDigit = false) : read? (c :: rest) = number? (c :: rest) :=
  read?_cons other (startsDate_cons letter) (startsTime_cons letter)

theorem read?_append {c : Char} (isWhole : IsWhole digits)
    (after : c = '.' ∨ c = '\n' ∨ c = ',' ∨ c = ']') :
    read? (Writer.sign negative ++ (digits ++ c :: rest)) =
      decimal? negative (digits ++ c :: rest) := by
  have other : c.isDigit = false ∧ c ≠ '-' ∧ c ≠ ':' ∧ c ≠ 'x' ∧ c ≠ 'o' ∧ c ≠ 'b' := by
    rcases after with rfl | rfl | rfl | rfl <;> decide
  obtain ⟨other, hyphen, colon, unmarked⟩ := other
  have date : startsDate (digits ++ c :: rest) = false :=
    startsDate_append isWhole.all other hyphen
  have time : startsTime (digits ++ c :: rest) = false :=
    startsTime_append isWhole.all other colon
  cases digits with
  | nil => exact absurd rfl isWhole.ne_nil
  | cons d digits =>
    have isDigit := isWhole.all d List.mem_cons_self
    cases negative with
    | true =>
      change read? ('-' :: (d :: digits ++ c :: rest)) = _
      rw [read?_cons_of_not_isDigit (by decide) (by decide)]
      exact unsigned?_cons isDigit
    | false =>
      change read? (d :: digits ++ c :: rest) = _
      rw [List.cons_append] at date time ⊢
      have other : d ≠ 't' ∧ d ≠ 'f' := by
        constructor <;> rintro rfl <;> exact absurd isDigit (by decide)
      rw [read?_cons other date time, number?_cons isDigit]
      rintro rfl
      rcases isWhole.leads with alone | ⟨-, head⟩
      · obtain rfl : digits = [] := by simpa using alone
        simpa using unmarked
      · exact absurd rfl head

theorem read?_integer {n : Int} (fits : Word.fits n = true) (ends : Ends rest) :
    read? (Writer.integer n ++ rest) = some (.integer n, rest) := by
  have isWhole := isWhole_toDigits n.natAbs
  have front : read? (Writer.integer n ++ rest) =
      decimal? (n < 0) (Nat.toDigits 10 n.natAbs ++ rest) := by
    rw [Writer.integer, List.append_assoc]
    cases ends <;> exact read?_append isWhole (by simp)
  have value : (if decide (n < 0) = true then -(n.natAbs : Int) else n.natAbs) = n := by
    split <;> rename_i sign <;> simp only [decide_eq_true_eq] at sign <;> omega
  rw [front, decimal?_integer isWhole ends, Nat.ofDigitChars_ten_toDigits, value, bounded?,
    if_pos fits]
  rfl

theorem float?_eq {mantissa : Nat} {exponent : Int} {value : ℚ}
    (spells : Spells whole fraction value) (finite : IsFinite mantissa exponent)
    (positive : 0 < mantissa) (value_pos : 0 < value)
    (reads : Decimal.ReadsAs mantissa exponent value) {x : Float}
    (pattern : x = Float.ofBits (withSign negative (magnitude mantissa exponent)))
    (content : Binary64.ofFloat x ≠ .infinite false) :
    float? negative whole fraction 0 = some (.float x) := by
  have all : ∀ c ∈ whole ++ fraction, c.isDigit = true := by
    intro c member
    exact (List.mem_append.1 member).elim (spells.isWhole.all c) (spells.all c)
  have digits := Text.digitsValue?_eq all (by simp [spells.some_digit])
  obtain rfl := spells.value
  have some_digits : 0 < Nat.ofDigitChars 10 (whole ++ fraction) 0 := by
    by_contra zero
    simp [Nat.eq_zero_of_not_pos zero] at value_pos
  have read := Binary64.ofDecimal_eq negative finite positive some_digits reads
  simp only [float?, digits, Option.bind_eq_bind, Option.bind_some]
  rw [zero_sub, read, ← pattern, if_neg content]

theorem read?_float (x : Float) (ends : Ends rest) :
    read? (Writer.float x ++ rest) = some (.float x, rest) := by
  have pattern := Binary64.ofBits_toBits x
  unfold Writer.float
  cases content : Binary64.ofFloat x with
  | notANumber =>
    rw [Binary64.toBits_of_notANumber content] at pattern
    change read? ('n' :: 'a' :: 'n' :: rest) = _
    rw [read?_cons_of_not_isDigit (by decide) (by decide), ← pattern]
    rfl
  | infinite negative =>
    rw [Binary64.pattern_of_infinite content] at pattern
    rw [← pattern]
    cases negative with
    | true =>
      change read? ('-' :: 'i' :: 'n' :: 'f' :: rest) = _
      rw [read?_cons_of_not_isDigit (by decide) (by decide)]
      rfl
    | false =>
      change read? ('i' :: 'n' :: 'f' :: rest) = _
      rw [read?_cons_of_not_isDigit (by decide) (by decide)]
      rfl
  | finite negative mantissa exponent =>
    obtain ⟨finite, bits⟩ := Binary64.pattern_of_finite content
    rw [bits] at pattern
    unfold Writer.binary
    dsimp only
    rcases Nat.eq_zero_or_pos mantissa with rfl | positive
    · obtain rfl : exponent = -1074 := finite.leads.resolve_left (by decide)
      have spells : Spells ['0'] ['0'] 0 :=
        ⟨⟨by simp, .inl rfl⟩, by simp, by simp, by simp [Nat.ofDigitChars_cons]⟩
      have read : float? negative ['0'] ['0'] 0 = some (.float x) := by
        change (if Binary64.ofFloat (Float.ofBits (withSign negative 0)) = .infinite false then none
          else some (Scalar.float (Float.ofBits (withSign negative 0)))) = _
        change Float.ofBits (withSign negative 0) = x at pattern
        rw [pattern, if_neg (by simp [content])]
      rw [if_pos rfl, List.append_assoc]
      change read? (Writer.sign negative ++ (['0'] ++ '.' :: (['0'] ++ rest))) = _
      rw [read?_append spells.isWhole (.inl rfl), decimal?_fraction spells ends, read]
      rfl
    · rw [if_neg positive.ne']
      obtain ⟨some_digits, reads⟩ := Decimal.shortest_spec finite positive
      obtain ⟨whole, fraction, text, spells⟩ := exists_spells some_digits
      have value_pos : 0 < (Decimal.shortest mantissa exponent).value := by
        unfold Decimal.Digits.value
        have : (0 : ℚ) < (Decimal.shortest mantissa exponent).digits := by
          exact_mod_cast some_digits
        positivity
      rw [text, List.append_assoc, List.append_assoc, List.cons_append,
        read?_append spells.isWhole (.inl rfl), decimal?_fraction spells ends,
        float?_eq spells finite positive value_pos reads pattern.symm (by simp [content])]
      rfl

end Number

end Toml

end LinkedSheet
