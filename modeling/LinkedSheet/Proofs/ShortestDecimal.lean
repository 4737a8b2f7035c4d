import LinkedSheet.Proofs.BinaryNumbers

/-!
The shortest decimal of a finite number reads back as that number. Seventeen digits put the points
of a grid closer together than a quarter of the last binary place, so that a grid with a point that
reads back is found at the latest there.
-/
namespace LinkedSheet

open Binary64 (IsFinite leadingBit magnitude)

variable {mantissa : Nat} {exponent place : Int} {num den : Nat}

theorem tenPow_pos (n : Nat) : 0 < tenPow n := Nat.pow_pos (by decide)

theorem cast_tenPow (n : Nat) : (tenPow n : ℚ) = 10 ^ n := by simp [tenPow]

theorem tenPow_toNat (k : Int) : (tenPow k.toNat : ℚ) = 10 ^ k * tenPow (-k).toNat := by
  rw [cast_tenPow, cast_tenPow, ← zpow_natCast, ← zpow_natCast, ← zpow_add₀ (by norm_num)]
  congr 1
  omega

theorem length_toDigits_bounds {n : Nat} (positive : 0 < n) :
    (10 : ℚ) ^ (((Nat.toDigits 10 n).length : Int) - 1) ≤ n ∧
      (n : ℚ) < 10 ^ ((Nat.toDigits 10 n).length : Int) := by
  have some_digit : 0 < (Nat.toDigits 10 n).length := Nat.length_toDigits_pos
  constructor
  · obtain ⟨count, length⟩ : ∃ count, (Nat.toDigits 10 n).length = count + 1 :=
      ⟨_, (Nat.succ_pred_eq_of_pos some_digit).symm⟩
    have low : 10 ^ count ≤ n := by
      rcases Nat.eq_zero_or_pos count with rfl | more
      · exact positive
      · by_contra less
        have := (Nat.length_toDigits_le_iff (by decide) more).2 (not_le.1 less)
        omega
    rw [length]
    push_cast
    rw [add_sub_cancel_right]
    exact_mod_cast low
  · have high := (Nat.length_toDigits_le_iff (by decide) some_digit).1 (le_refl _)
    exact_mod_cast high

namespace Decimal

def Digits.value (d : Digits) : ℚ := d.digits * 10 ^ d.exponent

theorem Interval.contains_iff {i : Interval} (positive : 0 < den) :
    i.contains num den = true ↔ i.Holds (num / den) := by
  have unit : (0 : ℚ) < den := by exact_mod_cast positive
  unfold contains Holds
  split
  · rw [le_div_iff₀ unit, div_le_iff₀ unit, Bool.and_eq_true, decide_eq_true_eq,
      decide_eq_true_eq]
    norm_cast
  · rw [lt_div_iff₀ unit, div_lt_iff₀ unit, Bool.and_eq_true, decide_eq_true_eq,
      decide_eq_true_eq]
    norm_cast

theorem grid_ratio (place quarter : Int) :
    ((tenPow place.toNat * twoPow (-quarter).toNat : Nat) : ℚ) /
      (tenPow (-place).toNat * twoPow quarter.toNat : Nat) = 10 ^ place / 2 ^ quarter := by
  have ten : (0 : ℚ) < tenPow (-place).toNat := by exact_mod_cast tenPow_pos _
  have two : (0 : ℚ) < twoPow (-quarter).toNat := by exact_mod_cast Binary64.twoPow_pos _
  push_cast
  rw [tenPow_toNat place, Binary64.twoPow_toNat quarter]
  field_simp

theorem grid_point (n : Nat) (place quarter : Int) :
    ((n * (tenPow place.toNat * twoPow (-quarter).toNat) : Nat) : ℚ) /
      (tenPow (-place).toNat * twoPow quarter.toNat : Nat) = n * 10 ^ place / 2 ^ quarter := by
  rw [Nat.cast_mul, mul_div_assoc, grid_ratio, mul_div_assoc]

theorem grid_pos (place quarter : Int) :
    0 < tenPow (-place).toNat * twoPow quarter.toNat :=
  Nat.mul_pos (tenPow_pos _) (Binary64.twoPow_pos _)

theorem onGrid?_spec {d : Digits} (found : onGrid? mantissa exponent place = some d) :
    0 < d.digits ∧ ReadsAs mantissa exponent d.value := by
  have reads {n : Nat} (contained : (Interval.of mantissa exponent).contains
      (n * (tenPow place.toNat * twoPow (-(exponent - 2)).toNat))
      (tenPow (-place).toNat * twoPow (exponent - 2).toNat) = true) :
      ReadsAs mantissa exponent (Digits.value ⟨n, place⟩) := by
    rw [Interval.contains_iff (grid_pos _ _), grid_point] at contained
    exact contained
  unfold onGrid? at found
  dsimp only at found
  split at found
  · rename_i chosen
    simp only [Bool.and_eq_true, bne_iff_ne] at chosen
    cases found
    exact ⟨Nat.pos_of_ne_zero chosen.1.2, reads chosen.1.1⟩
  · split at found
    · rename_i chosen
      cases found
      exact ⟨Nat.succ_pos _, reads chosen⟩
    · cases found

theorem Interval.holds_of_near {quarters : ℚ} (positive : 0 < mantissa)
    (low : 4 * mantissa - 1 < quarters) (high : quarters < 4 * mantissa + 1) :
    (Interval.of mantissa exponent).Holds quarters := by
  have most : ((Interval.of mantissa exponent).high : ℚ) = 4 * mantissa + 2 := by
    simp [Interval.of]
  have least : ((Interval.of mantissa exponent).low : ℚ) ≤ 4 * mantissa - 1 := by
    have nat : (Interval.of mantissa exponent).low + 1 ≤ 4 * mantissa := by
      unfold Interval.of
      dsimp only
      split <;> omega
    have cast : ((Interval.of mantissa exponent).low : ℚ) + 1 ≤ 4 * mantissa := by
      exact_mod_cast nat
    linarith
  unfold Holds
  rw [most]
  split <;> constructor <;> linarith

theorem onGrid?_ne_none (positive : 0 < mantissa) (fine : (10 : ℚ) ^ place < 2 ^ (exponent - 2)) :
    onGrid? mantissa exponent place ≠ none := by
  have unit : (0 : ℚ) < 2 ^ (exponent - 2) := by positivity
  have ratio := grid_ratio place (exponent - 2)
  have den_pos := grid_pos place (exponent - 2)
  have num_pos : 0 < tenPow place.toNat * twoPow (-(exponent - 2)).toNat :=
    Nat.mul_pos (tenPow_pos _) (Binary64.twoPow_pos _)
  unfold onGrid?
  dsimp only
  generalize tenPow place.toNat * twoPow (-(exponent - 2)).toNat = num at *
  generalize tenPow (-place).toNat * twoPow (exponent - 2).toNat = den at *
  have den_unit : (0 : ℚ) < den := by exact_mod_cast den_pos
  have less : num < den := by
    have less : (num : ℚ) < den := by
      rw [← div_lt_one den_unit, ratio]
      exact (div_lt_one unit).2 fine
    exact_mod_cast less
  have split := Nat.div_add_mod' (4 * mantissa * den) num
  have small := Nat.mod_lt (4 * mantissa * den) num_pos
  have below_ne : 4 * mantissa * den / num ≠ 0 := by
    have := Nat.div_pos (show num ≤ 4 * mantissa * den by nlinarith) num_pos
    omega
  generalize 4 * mantissa * den / num = below at *
  generalize 4 * mantissa * den % num = rest at *
  have near {n : Nat} (low : 4 * mantissa * den < n * num + den)
      (high : n * num < 4 * mantissa * den + den) :
      (Interval.of mantissa exponent).contains (n * num) den = true := by
    rw [Interval.contains_iff den_pos]
    have low : (4 * mantissa * den : ℚ) < (n * num : Nat) + den := by exact_mod_cast low
    have high : ((n * num : Nat) : ℚ) < 4 * mantissa * den + den := by exact_mod_cast high
    refine Interval.holds_of_near positive ?_ ?_
    · rw [lt_div_iff₀ den_unit]
      linarith
    · rw [div_lt_iff₀ den_unit]
      linarith
  have belowReads := near (n := below) (by omega) (by omega)
  have aboveReads := near (n := below + 1) (by rw [Nat.add_mul]; omega) (by rw [Nat.add_mul]; omega)
  simp only [belowReads, aboveReads, Bool.true_and, bne_iff_ne.2 below_ne, Bool.not_true,
    Bool.or_false, if_true]
  split <;> simp

theorem firstGrid_spec {count : Nat} (enough : ∃ more < count,
    onGrid? mantissa exponent (place - (more : Nat)) ≠ none) :
    0 < (firstGrid mantissa exponent place count).digits ∧
      ReadsAs mantissa exponent (firstGrid mantissa exponent place count).value := by
  induction count generalizing place with
  | zero =>
    obtain ⟨more, less, -⟩ := enough
    exact absurd less (Nat.not_lt_zero more)
  | succ count ih =>
    unfold firstGrid
    cases found : onGrid? mantissa exponent place with
    | some d => exact onGrid?_spec found
    | none =>
      obtain ⟨more, less, other⟩ := enough
      cases more with
      | zero => exact absurd (by simpa using found) other
      | succ more =>
        refine ih ⟨more, by omega, ?_⟩
        have same : place - 1 - (more : Int) = place - ((more + 1 : Nat) : Int) := by omega
        rwa [same]

theorem leadingPlace_le (hnum : 0 < num) (hden : 0 < den) :
    (10 : ℚ) ^ leadingPlace num den ≤ num / den := by
  have unit : (0 : ℚ) < den := by exact_mod_cast hden
  have num_unit : (0 : ℚ) < num := by exact_mod_cast hnum
  unfold leadingPlace
  split
  · rename_i whole
    refine (length_toDigits_bounds (Nat.div_pos whole hden)).1.trans ?_
    exact Nat.cast_div_le
  · rename_i fraction
    have some_digit : 0 < (Nat.toDigits 10 (den / num)).length := Nat.length_toDigits_pos
    dsimp only
    split
    · rename_i short
      have short : (den : ℚ) ≤ num * (tenPow ((Nat.toDigits 10 (den / num)).length - 1) : Nat) := by
        exact_mod_cast short
      rw [cast_tenPow] at short
      rw [le_div_iff₀ unit, zpow_neg, inv_mul_le_iff₀ (by positivity)]
      refine short.trans_eq ?_
      rw [mul_comm, ← zpow_natCast]
      congr 2
      omega
    · have quotient : 0 < den / num := Nat.div_pos (by omega) hnum
      have less : (den : ℚ) < num * 10 ^ ((Nat.toDigits 10 (den / num)).length : Int) := by
        have high := (Nat.length_toDigits_le_iff (by decide) some_digit).1 (le_refl _)
        have := (Nat.div_lt_iff_lt_mul hnum).1 high
        rw [mul_comm]
        exact_mod_cast this
      rw [le_div_iff₀ unit, zpow_neg, inv_mul_le_iff₀ (by positivity), mul_comm]
      exact less.le

theorem strip_spec (fuel : Nat) (d : Digits) :
    (d.strip fuel).value = d.value ∧ (0 < d.digits → 0 < (d.strip fuel).digits) := by
  induction fuel generalizing d with
  | zero => exact ⟨rfl, id⟩
  | succ fuel ih =>
    unfold Digits.strip
    split
    · rename_i whole
      obtain ⟨other, multiple⟩ := whole
      obtain ⟨same, positive⟩ := ih ⟨d.digits / 10, d.exponent + 1⟩
      refine ⟨same.trans ?_, fun _ => positive (by dsimp only; omega)⟩
      have digits : (d.digits : ℚ) = (d.digits / 10 : Nat) * 10 := by
        have : d.digits = d.digits / 10 * 10 := by omega
        exact_mod_cast this
      rw [Digits.value, Digits.value, digits, zpow_add_one₀ (by norm_num)]
      ring
    · exact ⟨rfl, id⟩

theorem shortest_spec (finite : IsFinite mantissa exponent) (positive : 0 < mantissa) :
    0 < (shortest mantissa exponent).digits ∧
      ReadsAs mantissa exponent (shortest mantissa exponent).value := by
  obtain ⟨same, kept⟩ := strip_spec 18 (firstGrid mantissa exponent (leadingPlace
    (Binary64.numerator mantissa exponent) (Binary64.denominator exponent)) 18)
  unfold shortest
  dsimp only
  rw [same]
  obtain ⟨found, reads⟩ : 0 < (firstGrid mantissa exponent (leadingPlace
      (Binary64.numerator mantissa exponent) (Binary64.denominator exponent)) 18).digits ∧ _ := by
    refine firstGrid_spec ⟨17, by decide, onGrid?_ne_none positive ?_⟩
    have numerator_pos : 0 < Binary64.numerator mantissa exponent :=
      Nat.mul_pos positive (Binary64.twoPow_pos _)
    have leads := leadingPlace_le numerator_pos
      (show 0 < Binary64.denominator exponent from Binary64.twoPow_pos _)
    rw [Binary64.numerator_div_denominator] at leads
    have bounded : (mantissa : ℚ) < 9007199254740992 := by
      exact_mod_cast (show mantissa < 9007199254740992 from finite.bounded)
    have power : (0 : ℚ) < 2 ^ exponent := by positivity
    rw [zpow_sub₀ (by norm_num), zpow_sub₀ (by norm_num), div_lt_div_iff₀ (by norm_num)
      (by norm_num)]
    norm_num only
    nlinarith
  exact ⟨kept found, reads⟩

end Decimal

namespace Binary64

theorem two_zpow_lt_ten_zpow {two ten : Int} (positive : 0 < ten) (less : two ≤ 3 * ten) :
    (2 : ℚ) ^ two < 10 ^ ten := by
  calc (2 : ℚ) ^ two ≤ 2 ^ (3 * ten) := zpow_le_zpow_right₀ (by norm_num) less
    _ = 8 ^ ten := by
      rw [zpow_mul]
      norm_num
    _ < 10 ^ ten := zpow_lt_zpow_left₀ positive (by norm_num) (by norm_num)

theorem value_bounds {value : ℚ} (finite : IsFinite mantissa exponent) (positive : 0 < mantissa)
    (reads : Decimal.ReadsAs mantissa exponent value) :
    (2 : ℚ) ^ (-1075 : Int) ≤ value ∧ value ≤ 2 ^ (1024 : Int) := by
  obtain ⟨low, high, -⟩ := near_of_readsAs positive reads
  have power : (0 : ℚ) < 2 ^ exponent := by positivity
  rw [le_div_iff₀ power] at low
  rw [div_le_iff₀ power] at high
  constructor
  · have least : (2 : ℚ) ^ (-1074 : Int) ≤ 2 ^ exponent :=
      zpow_le_zpow_right₀ (by norm_num) finite.least
    have half : (2 : ℚ) ^ (-1075 : Int) = 2 ^ (-1074 : Int) * 2⁻¹ :=
      zpow_sub_one₀ (by norm_num) (-1074)
    have one : (1 : ℚ) ≤ mantissa := by exact_mod_cast positive
    nlinarith
  · have most : (2 : ℚ) ^ exponent ≤ 2 ^ (971 : Int) :=
      zpow_le_zpow_right₀ (by norm_num) finite.most
    have full : (2 : ℚ) ^ (1024 : Int) = 9007199254740992 * 2 ^ (971 : Int) := by
      rw [show (1024 : Int) = 53 + 971 from rfl, zpow_add₀ (by norm_num)]
      norm_num
    have bounded : (mantissa : ℚ) + 1 ≤ 9007199254740992 := by
      exact_mod_cast (show mantissa + 1 ≤ 9007199254740992 from finite.bounded)
    rw [full]
    exact high.trans (mul_le_mul (by linarith) most power.le (by norm_num))

theorem ofDecimal_eq {digits : Nat} {place : Int} (negative : Bool)
    (finite : IsFinite mantissa exponent) (positive : 0 < mantissa) (some_digits : 0 < digits)
    (reads : Decimal.ReadsAs mantissa exponent (digits * 10 ^ place)) :
    ofDecimal negative digits place =
      Float.ofBits (withSign negative (magnitude mantissa exponent)) := by
  obtain ⟨low, high⟩ := value_bounds finite positive reads
  obtain ⟨length_low, length_high⟩ := length_toDigits_bounds some_digits
  have ten : (0 : ℚ) < 10 ^ place := by positivity
  unfold ofDecimal
  rw [if_neg some_digits.ne']
  dsimp only
  generalize ((Nat.toDigits 10 digits).length : Int) = length at *
  have size_low : ¬length + place < -400 := by
    intro less
    have power : (10 : ℚ) ^ length * 10 ^ place ≤ 10 ^ (-401 : Int) := by
      rw [← zpow_add₀ (by norm_num)]
      exact zpow_le_zpow_right₀ (by norm_num) (by omega)
    have tiny : (10 : ℚ) ^ (-401 : Int) ≤ 2 ^ (-1075 : Int) := by
      rw [zpow_neg, zpow_neg]
      exact inv_anti₀ (by positivity) (two_zpow_lt_ten_zpow (by decide) (by decide)).le
    have least := low.trans_lt (mul_lt_mul_of_pos_right length_high ten)
    exact absurd (power.trans tiny) least.not_ge
  have size_high : ¬length + place > 400 := by
    intro more
    have power : (10 : ℚ) ^ (400 : Int) ≤ 10 ^ (length - 1) * 10 ^ place := by
      rw [← zpow_add₀ (by norm_num)]
      exact zpow_le_zpow_right₀ (by norm_num) (by omega)
    have huge : (2 : ℚ) ^ (1024 : Int) < 10 ^ (400 : Int) :=
      two_zpow_lt_ten_zpow (by decide) (by decide)
    have most := (mul_le_mul_of_nonneg_right length_low ten.le).trans high
    exact absurd (power.trans most) huge.not_ge
  have ratio : ((digits * tenPow place.toNat : Nat) : ℚ) / (tenPow (-place).toNat : Nat) =
      digits * 10 ^ place := by
    have unit : (0 : ℚ) < tenPow (-place).toNat := by exact_mod_cast tenPow_pos _
    push_cast
    rw [tenPow_toNat place]
    field_simp
  rw [if_neg size_low, if_neg size_high, nearest, nearestMagnitude_eq finite positive
    (Nat.mul_pos some_digits (tenPow_pos _)) (tenPow_pos _) (ratio ▸ reads)]

end Binary64
end LinkedSheet
