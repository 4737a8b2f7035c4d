import LinkedSheet.Decimal.Shortest
import Mathlib

/-!
The patterns of floating-point numbers, and which ratios are rounded to a given one: those that
`Decimal.Interval` says are near it.
-/
namespace LinkedSheet
open Float.Model (Format)
open Float.Model.UnpackedFloat (isNaNBits packedNaN unpackExponent unpackMantissa)

namespace Binary64

variable {bits : UInt64} {negative : Bool} {mantissa : Nat} {exponent : Int}

theorem ofBits_toBits (x : Float) : Float.ofBits x.toBits = x := by
  obtain ⟨⟨bits, valid⟩⟩ := x
  have same : Float.Model.UnpackedFloat.pack Format.binary64
      (Float.Model.UnpackedFloat.unpack Format.binary64 bits.toBitVec) = bits.toBitVec := by
    rw [@Float.Model.UnpackedFloat.pack_unpack Format.binary64 bits.toBitVec (by decide)]
    split
    · rename_i isNaN
      simp only [isNaNBits, decide_eq_true_eq] at isNaN
      exact (valid.eq_packedNaN isNaN.1 isNaN.2).symm
    · rfl
  simp [Float.ofBits, Float.toBits, Float.Model.ofBits, Float.Model.pack, same]

/-- The mantissas and exponents of finite numbers: only the least exponent goes with a mantissa that
has no leading bit. -/
structure IsFinite (mantissa : Nat) (exponent : Int) : Prop where
  least : -1074 ≤ exponent
  most : exponent ≤ 971
  bounded : mantissa < 2 * leadingBit
  leads : leadingBit ≤ mantissa ∨ exponent = -1074

def magnitude (mantissa : Nat) (exponent : Int) : Nat :=
  (exponent + 1074).toNat * leadingBit + mantissa

theorem IsFinite.magnitude_lt (finite : IsFinite mantissa exponent) :
    magnitude mantissa exponent < infinityBits := by
  obtain ⟨least, most, bounded, -⟩ := finite
  simp only [magnitude, infinityBits, leadingBit] at *
  omega

theorem pattern_of_notANumber (nan : ofBits bits = .notANumber) :
    bits.toNat / leadingBit % 2048 = 2047 ∧ bits.toNat % leadingBit ≠ 0 := by
  simp only [ofBits] at nan
  grind

theorem eq_withSign {magnitude : Nat} (sign : (bits.toNat / Word.signBound == 1) = negative)
    (rest : bits.toNat % Word.signBound = magnitude) : bits = withSign negative magnitude := by
  have bound := bits.toNat_lt
  rw [← UInt64.toNat_inj]
  cases negative <;>
    simp only [withSign, Word.signBound, UInt64.toNat_ofNat', beq_iff_eq, beq_eq_false_iff_ne,
      if_true, Bool.false_eq_true, if_false] at * <;> omega

theorem pattern_of_infinite (infinite : ofBits bits = .infinite negative) :
    bits = withSign negative infinityBits := by
  have fields : (bits.toNat / Word.signBound == 1) = negative ∧
      bits.toNat / leadingBit % 2048 = 2047 ∧ bits.toNat % leadingBit = 0 := by
    simp only [ofBits] at infinite
    grind
  obtain ⟨sign, field, fraction⟩ := fields
  apply eq_withSign sign
  simp only [infinityBits, leadingBit, Word.signBound] at *
  omega

theorem pattern_of_finite (finite : ofBits bits = .finite negative mantissa exponent) :
    IsFinite mantissa exponent ∧ bits = withSign negative (magnitude mantissa exponent) := by
  have fields : (bits.toNat / Word.signBound == 1) = negative ∧
      (bits.toNat / leadingBit % 2048 = 0 ∧ mantissa = bits.toNat % leadingBit ∧
          exponent = -1074 ∨
        bits.toNat / leadingBit % 2048 ≠ 0 ∧ bits.toNat / leadingBit % 2048 ≠ 2047 ∧
          mantissa = bits.toNat % leadingBit + leadingBit ∧
          exponent = (bits.toNat / leadingBit % 2048 : Nat) - 1075) := by
    simp only [ofBits] at finite
    grind
  obtain ⟨sign, fields⟩ := fields
  have small : bits.toNat % leadingBit < leadingBit := Nat.mod_lt _ (by decide)
  constructor
  · rcases fields with ⟨_, rfl, rfl⟩ | ⟨_, _, rfl, rfl⟩
    · exact ⟨by decide, by decide, by omega, .inr rfl⟩
    · exact ⟨by omega, by omega, by omega, .inl (by omega)⟩
  · apply eq_withSign sign
    rcases fields with ⟨field, rfl, rfl⟩ | ⟨_, _, rfl, rfl⟩
    · simp only [magnitude, leadingBit, Word.signBound] at *
      omega
    · simp only [magnitude, leadingBit, Word.signBound] at *
      omega

def nanBits : UInt64 := 0x7ff8000000000000

theorem toNat_unpackExponent :
    (@unpackExponent Format.binary64 bits.toBitVec).toNat = bits.toNat / leadingBit % 2048 := by
  simp [unpackExponent, Format.binary64, leadingBit]
  omega

theorem toNat_unpackMantissa :
    (@unpackMantissa Format.binary64 bits.toBitVec).toNat = bits.toNat % leadingBit := by
  simp [unpackMantissa, Format.binary64, leadingBit]

theorem unpackExponent_eq_iff {exponent : BitVec 11} :
    @unpackExponent Format.binary64 bits.toBitVec = exponent ↔
      bits.toNat / leadingBit % 2048 = exponent.toNat := by
  rw [← BitVec.toNat_inj, toNat_unpackExponent]

theorem toBits_of_notANumber {x : Float} (nan : ofFloat x = .notANumber) : x.toBits = nanBits := by
  obtain ⟨field, fraction⟩ := pattern_of_notANumber nan
  obtain ⟨⟨bits, valid⟩⟩ := x
  change bits.toNat / leadingBit % 2048 = 2047 at field
  change bits.toNat % leadingBit ≠ 0 at fraction
  have exponent : @unpackExponent Format.binary64 bits.toBitVec = -1#11 :=
    unpackExponent_eq_iff.2 field
  have mantissa : @unpackMantissa Format.binary64 bits.toBitVec ≠ 0#52 := fun zero =>
    fraction (toNat_unpackMantissa.symm.trans (congrArg BitVec.toNat zero))
  have same := valid.eq_packedNaN exponent mantissa
  apply UInt64.toBitVec_inj.1
  change bits.toBitVec = _
  rw [same]
  decide

theorem roundHalfEven_eq {num den n : Nat} (positive : 0 < den)
    (low : 2 * (n * den) ≤ 2 * num + den) (high : 2 * num ≤ 2 * (n * den) + den)
    (tie : n % 2 = 1 → 2 * (n * den) < 2 * num + den ∧ 2 * num < 2 * (n * den) + den) :
    Decimal.roundHalfEven num den = n := by
  have split := Nat.div_add_mod' num den
  have small := Nat.mod_lt num positive
  have near : n = num / den ∨ n = num / den + 1 := by
    by_contra far
    obtain ⟨other, next⟩ := not_or.1 far
    rcases Nat.lt_or_gt_of_ne other with less | more
    · have bound := Nat.mul_le_mul_right den less
      rw [Nat.succ_mul] at bound
      omega
    · have more : num / den + 2 ≤ n := by omega
      have bound := Nat.mul_le_mul_right den more
      rw [Nat.add_mul] at bound
      omega
  unfold Decimal.roundHalfEven
  dsimp only
  rcases near with rfl | rfl
  · rw [if_pos (by omega)]
  · rw [Nat.add_mul] at low high tie
    rw [if_neg (by omega)]

theorem roundHalfEven_of_near {num den n : Nat} (positive : 0 < den)
    (low : (n : ℚ) - 1 / 2 ≤ num / den) (high : (num : ℚ) / den ≤ n + 1 / 2)
    (tie : n % 2 = 1 → (n : ℚ) - 1 / 2 < num / den ∧ (num : ℚ) / den < n + 1 / 2) :
    Decimal.roundHalfEven num den = n := by
  have unit : (0 : ℚ) < den := by exact_mod_cast positive
  apply roundHalfEven_eq positive
  · rw [le_div_iff₀ unit] at low
    have : (2 * (n * den) : ℚ) ≤ 2 * num + den := by linarith
    exact_mod_cast this
  · rw [div_le_iff₀ unit] at high
    have : (2 * num : ℚ) ≤ 2 * (n * den) + den := by linarith
    exact_mod_cast this
  · intro odd
    obtain ⟨low, high⟩ := tie odd
    rw [lt_div_iff₀ unit] at low
    rw [div_lt_iff₀ unit] at high
    have less : (2 * (n * den) : ℚ) < 2 * num + den := by linarith
    have more : (2 * num : ℚ) < 2 * (n * den) + den := by linarith
    exact ⟨by exact_mod_cast less, by exact_mod_cast more⟩

theorem twoPow_pos (n : Nat) : 0 < twoPow n := Nat.pow_pos (by decide)

theorem cast_twoPow (n : Nat) : (twoPow n : ℚ) = 2 ^ n := by simp [twoPow]

theorem twoPow_toNat (k : Int) : (twoPow k.toNat : ℚ) = 2 ^ k * twoPow (-k).toNat := by
  rw [cast_twoPow, cast_twoPow, ← zpow_natCast, ← zpow_natCast, ← zpow_add₀ (by norm_num)]
  congr 1
  omega

theorem scaled_ratio (num den : Nat) (k : Int) :
    ((num * twoPow (-k).toNat : Nat) : ℚ) / (den * twoPow k.toNat : Nat) = num / den / 2 ^ k := by
  have unit : (0 : ℚ) < twoPow (-k).toNat := by exact_mod_cast twoPow_pos _
  have power : (0 : ℚ) < 2 ^ k := by positivity
  push_cast
  rw [twoPow_toNat k]
  by_cases zero : (den : ℚ) = 0
  · simp [zero]
  · field_simp

theorem numerator_div_denominator (mantissa : Nat) (exponent : Int) :
    (numerator mantissa exponent : ℚ) / denominator exponent = mantissa * 2 ^ exponent := by
  have unit : (0 : ℚ) < twoPow (-exponent).toNat := by exact_mod_cast twoPow_pos _
  rw [numerator, denominator]
  push_cast
  rw [twoPow_toNat exponent]
  field_simp

theorem log2_bounds {n : Nat} (positive : 0 < n) :
    (2 : ℚ) ^ (n.log2 : Int) ≤ n ∧ (n : ℚ) < 2 ^ ((n.log2 : Int) + 1) := by
  have low : 2 ^ n.log2 ≤ n := Nat.log2_self_le positive.ne'
  have high : n < 2 ^ (n.log2 + 1) := Nat.lt_log2_self
  constructor
  · exact_mod_cast low
  · exact_mod_cast high

theorem cast_leadingBit : (leadingBit : ℚ) = 2 ^ (52 : Int) := by norm_num [leadingBit]

theorem lastPlace_spec {num den : Nat} (hnum : 0 < num) (hden : 0 < den) :
    -1074 ≤ lastPlace num den ∧
      (num : ℚ) / den < 2 * leadingBit * 2 ^ lastPlace num den ∧
      (lastPlace num den = -1074 ∨ leadingBit * 2 ^ lastPlace num den ≤ (num : ℚ) / den) := by
  obtain ⟨num_low, num_high⟩ := log2_bounds hnum
  obtain ⟨den_low, den_high⟩ := log2_bounds hden
  have unit : (0 : ℚ) < den := by exact_mod_cast hden
  generalize guessed : (num.log2 : Int) - den.log2 - 52 = guess
  have above : (num : ℚ) / den < 2 * leadingBit * 2 ^ guess := by
    rw [div_lt_iff₀ unit, cast_leadingBit]
    calc (num : ℚ) < 2 ^ ((num.log2 : Int) + 1) := num_high
      _ = 2 * 2 ^ (52 : Int) * 2 ^ guess * 2 ^ (den.log2 : Int) := by
        rw [← zpow_one_add₀ (by norm_num), ← zpow_add₀ (by norm_num), ← zpow_add₀ (by norm_num)]
        congr 1
        omega
      _ ≤ _ := by gcongr
  have below : (leadingBit : ℚ) * 2 ^ (guess - 1) < num / den := by
    rw [lt_div_iff₀ unit, cast_leadingBit]
    calc (2 : ℚ) ^ (52 : Int) * 2 ^ (guess - 1) * den
        < 2 ^ (52 : Int) * 2 ^ (guess - 1) * 2 ^ ((den.log2 : Int) + 1) := by gcongr
      _ = 2 ^ (num.log2 : Int) := by
        rw [← zpow_add₀ (by norm_num), ← zpow_add₀ (by norm_num)]
        congr 1
        omega
      _ ≤ num := num_low
  have low_iff : num * twoPow (-guess).toNat < leadingBit * (den * twoPow guess.toNat) ↔
      (num : ℚ) / den < leadingBit * 2 ^ guess := by
    have scale : (0 : ℚ) < (den * twoPow guess.toNat : Nat) := by
      exact_mod_cast Nat.mul_pos hden (twoPow_pos _)
    rw [← div_lt_iff₀ (by positivity), ← scaled_ratio, div_lt_iff₀ scale]
    exact_mod_cast Iff.rfl
  have exact_place : ∃ place, (num : ℚ) / den < 2 * leadingBit * 2 ^ place ∧
      leadingBit * 2 ^ place ≤ (num : ℚ) / den ∧ lastPlace num den = max place (-1074) := by
    unfold lastPlace
    rw [guessed]
    dsimp only
    by_cases low : num * twoPow (-guess).toNat < leadingBit * (den * twoPow guess.toNat)
    · refine ⟨guess - 1, ?_, below.le, by simp [low]⟩
      have half : (2 : ℚ) * leadingBit * 2 ^ (guess - 1) = leadingBit * 2 ^ guess := by
        rw [zpow_sub_one₀ (by norm_num)]
        ring
      rw [half]
      exact low_iff.1 low
    · refine ⟨guess, above, ?_, by simp [low]⟩
      exact not_lt.1 fun less => low (low_iff.2 less)
  obtain ⟨place, less, least, last⟩ := exact_place
  rw [last]
  refine ⟨le_max_right _ _, less.trans_le ?_, ?_⟩
  · gcongr
    · norm_num
    · exact le_max_left _ _
  · rcases max_choice place (-1074) with same | same <;> rw [same]
    · exact .inr least
    · exact .inl rfl

end Binary64

/-- Whether a number of quarters of the last binary place lies in the interval. -/
def Decimal.Interval.Holds (i : Decimal.Interval) (quarters : ℚ) : Prop :=
  if i.closed then i.low ≤ quarters ∧ quarters ≤ i.high
  else i.low < quarters ∧ quarters < i.high

/-- Whether a decimal is nearer to a binary number than to any other. -/
def Decimal.ReadsAs (mantissa : Nat) (exponent : Int) (decimal : ℚ) : Prop :=
  (Decimal.Interval.of mantissa exponent).Holds (decimal / 2 ^ (exponent - 2))

namespace Binary64

theorem near_of_readsAs {value : ℚ} (positive : 0 < mantissa)
    (reads : Decimal.ReadsAs mantissa exponent value) :
    (mantissa : ℚ) - 1 / 2 ≤ value / 2 ^ exponent ∧ value / 2 ^ exponent ≤ mantissa + 1 / 2 ∧
      (mantissa % 2 = 1 → (mantissa : ℚ) - 1 / 2 < value / 2 ^ exponent ∧
        value / 2 ^ exponent < mantissa + 1 / 2) ∧
      (mantissa = leadingBit → exponent ≠ -1074 →
        (mantissa : ℚ) - 1 / 4 ≤ value / 2 ^ exponent) := by
  have quarters : value / 2 ^ (exponent - 2) = 4 * (value / 2 ^ exponent) := by
    rw [zpow_sub₀ (by norm_num)]
    norm_num
    ring
  unfold Decimal.ReadsAs Decimal.Interval.Holds at reads
  rw [quarters] at reads
  generalize value / 2 ^ exponent = units at reads ⊢
  have atLeast : 2 ≤ 4 * mantissa := by omega
  have low : (4 * mantissa - 2 : ℚ) ≤ (Decimal.Interval.of mantissa exponent).low := by
    unfold Decimal.Interval.of
    split
    · have := Nat.cast_sub (R := ℚ) (show 1 ≤ 4 * mantissa by omega)
      push_cast at this ⊢
      linarith
    · rw [Nat.cast_sub atLeast]
      push_cast
      rfl
  have high : ((Decimal.Interval.of mantissa exponent).high : ℚ) = 4 * mantissa + 2 := by
    simp [Decimal.Interval.of]
  have sharp : mantissa = leadingBit → exponent ≠ -1074 →
      (4 * mantissa - 1 : ℚ) ≤ (Decimal.Interval.of mantissa exponent).low := by
    intro leading other
    simp only [Decimal.Interval.of, if_pos (show mantissa = leadingBit ∧ exponent ≠ -1074 from
      ⟨leading, other⟩)]
    rw [Nat.cast_sub (by omega)]
    push_cast
    rfl
  rw [high] at reads
  split at reads
  · rename_i closed
    have even : mantissa % 2 = 0 := by simpa [Decimal.Interval.of] using closed
    refine ⟨by linarith, by linarith, by omega, ?_⟩
    intro leading other
    linarith [sharp leading other]
  · refine ⟨by linarith, by linarith, fun _ => ⟨by linarith, by linarith⟩, ?_⟩
    intro leading other
    linarith [sharp leading other]

theorem lastPlace_of_readsAs {num den : Nat} (finite : IsFinite mantissa exponent)
    (positive : 0 < mantissa) (hnum : 0 < num) (hden : 0 < den)
    (reads : Decimal.ReadsAs mantissa exponent (num / den)) :
    lastPlace num den = exponent ∨
      lastPlace num den = exponent - 1 ∧ mantissa = leadingBit ∧ exponent ≠ -1074 := by
  obtain ⟨low, high, -, sharp⟩ := near_of_readsAs positive reads
  obtain ⟨least, less, least_or⟩ := lastPlace_spec hnum hden
  obtain ⟨least_exponent, -, bounded, leads⟩ := finite
  have bounded : (mantissa : ℚ) + 1 ≤ 2 * leadingBit := by exact_mod_cast bounded
  have bit : (1 : ℚ) ≤ leadingBit := by norm_num [leadingBit]
  have power : (0 : ℚ) < 2 ^ exponent := by positivity
  have double {place other : Int} (below : place < other) : (2 : ℚ) * 2 ^ place ≤ 2 ^ other := by
    rw [← zpow_one_add₀ (by norm_num)]
    exact zpow_le_zpow_right₀ (by norm_num) (by omega)
  have not_more : lastPlace num den ≤ exponent := by
    by_contra more
    have reached := least_or.resolve_left (by omega)
    have small : (num : ℚ) / den < 2 * leadingBit * 2 ^ exponent := by
      rw [← div_lt_iff₀ power]
      linarith
    have big := mul_le_mul_of_nonneg_left (double (not_le.1 more))
      (by linarith : 0 ≤ (leadingBit : ℚ))
    linarith
  rcases not_more.lt_or_eq with before | same
  · right
    have other : exponent ≠ -1074 := by omega
    have leading : leadingBit ≤ mantissa := leads.resolve_right other
    have under : (num : ℚ) / den / 2 ^ exponent < leadingBit := by
      rw [div_lt_iff₀ power]
      have := mul_le_mul_of_nonneg_left (double before) (by linarith : 0 ≤ (leadingBit : ℚ))
      linarith
    have same : mantissa = leadingBit := by
      have : (mantissa : ℚ) < leadingBit + 1 := by linarith
      have : mantissa < leadingBit + 1 := by exact_mod_cast this
      omega
    refine ⟨?_, same, other⟩
    by_contra further
    have near := sharp same other
    rw [le_div_iff₀ power, same] at near
    have step := double (show lastPlace num den < exponent - 1 by omega)
    have above := double (show exponent - 1 < exponent by omega)
    nlinarith
  · exact .inl same

theorem nearestMagnitude_eq {num den : Nat} (finite : IsFinite mantissa exponent)
    (positive : 0 < mantissa) (hnum : 0 < num) (hden : 0 < den)
    (reads : Decimal.ReadsAs mantissa exponent (num / den)) :
    nearestMagnitude num den = magnitude mantissa exponent := by
  obtain ⟨low, high, tie, sharp⟩ := near_of_readsAs positive reads
  have round {place : Int} {n : Nat} (low : (n : ℚ) - 1 / 2 ≤ num / den / 2 ^ place)
      (high : (num : ℚ) / den / 2 ^ place ≤ n + 1 / 2)
      (tie : n % 2 = 1 → (n : ℚ) - 1 / 2 < num / den / 2 ^ place ∧
        (num : ℚ) / den / 2 ^ place < n + 1 / 2) :
      Decimal.roundHalfEven (num * twoPow (-place).toNat) (den * twoPow place.toNat) = n := by
    rw [← scaled_ratio] at low high tie
    exact roundHalfEven_of_near (Nat.mul_pos hden (twoPow_pos _)) low high tie
  unfold nearestMagnitude
  rw [if_neg hnum.ne']
  dsimp only
  rcases lastPlace_of_readsAs finite positive hnum hden reads with same | ⟨before, leading, other⟩
  · rw [same, round low high tie]
    exact Nat.min_eq_left finite.magnitude_lt.le
  · have less := (lastPlace_spec hnum hden).2.1
    rw [before] at less
    have power : (0 : ℚ) < 2 ^ (exponent - 1) := by positivity
    have double : (num : ℚ) / den / 2 ^ (exponent - 1) = 2 * (num / den / 2 ^ exponent) := by
      rw [zpow_sub_one₀ (by norm_num)]
      field_simp
    have rounded : Decimal.roundHalfEven (num * twoPow (-(exponent - 1)).toNat)
        (den * twoPow (exponent - 1).toNat) = 2 * leadingBit := by
      apply round
      · have near := sharp leading other
        rw [leading] at near
        rw [double]
        push_cast
        linarith
      · rw [div_le_iff₀ power]
        push_cast
        nlinarith
      · intro odd
        omega
    have bits : (exponent - 1 + 1074).toNat * leadingBit + 2 * leadingBit =
        magnitude mantissa exponent := by
      have := finite.least
      simp only [magnitude, leading, leadingBit]
      omega
    rw [before, rounded, bits]
    exact Nat.min_eq_left finite.magnitude_lt.le

end Binary64
end LinkedSheet
