/-!
Rounding a quotient of natural numbers to the nearest whole number, a tie going to the even
neighbour. The result is within half a unit of the quotient.
-/
namespace LinkedSheet.Decimal

/-- The whole number nearest to `num / den`; of two that are equally near, the even one. -/
def roundHalfEven (num den : Nat) : Nat :=
  let low := num / den
  let rest := num % den
  if 2 * rest < den ∨ 2 * rest = den ∧ low % 2 = 0 then low else low + 1

theorem roundHalfEven_cases (num den : Nat) :
    (roundHalfEven num den * den + num % den = num ∧ 2 * (num % den) ≤ den ∨
      roundHalfEven num den * den + num % den = num + den ∧ den ≤ 2 * (num % den)) ∧
    (2 * (num % den) = den → roundHalfEven num den % 2 = 0) := by
  have whole := Nat.div_add_mod' num den
  unfold roundHalfEven
  dsimp only
  split
  · exact ⟨.inl ⟨whole, by omega⟩, by omega⟩
  · refine ⟨.inr ⟨?_, by omega⟩, by omega⟩
    rw [Nat.add_mul, Nat.one_mul]
    omega

theorem roundHalfEven_le (num den : Nat) :
    2 * (roundHalfEven num den * den) ≤ 2 * num + den := by
  have cases := (roundHalfEven_cases num den).1
  omega

theorem le_roundHalfEven (num den : Nat) (positive : 0 < den) :
    2 * num ≤ 2 * (roundHalfEven num den * den) + den := by
  have cases := (roundHalfEven_cases num den).1
  have small := Nat.mod_lt num positive
  omega

theorem even_roundHalfEven {num den : Nat} (positive : 0 < den)
    (tie : 2 * num = 2 * (roundHalfEven num den * den) + den ∨
      2 * (roundHalfEven num den * den) = 2 * num + den) : roundHalfEven num den % 2 = 0 := by
  obtain ⟨cases, even⟩ := roundHalfEven_cases num den
  have small := Nat.mod_lt num positive
  exact even (by omega)

end LinkedSheet.Decimal
