import LinkedSheet.Proofs.NumberFields
import LinkedSheet.Proofs.TomlNumbers

/-!
What is shown for a finite floating-point number, measured against the exact value of its pattern. A
whole number below ten thousand million is shown exactly. Of every other number the nearest
hundredth is shown, of two that are equally near the even one; the minus is that of the pattern, so
that it also stands in front of a zero that is all that rounding has left.
-/
namespace LinkedSheet
open Float.Model (Format UnpackedFloat)
open Float.Model.UnpackedFloat (Sign unpack unpackSign unpackExponent unpackMantissa)

namespace Binary64
variable {bits : UInt64}

/-- The number that an unpacked pattern stands for, and zero where it stands for none. -/
def unpackedValue : UnpackedFloat → ℚ
  | .finite sign mantissa exponent _ => sign.apply mantissa * 2 ^ exponent
  | _ => 0

def exactValue (x : Float) : ℚ :=
  unpackedValue x.toModel.unpack

theorem sign_eq_msb (bits : UInt64) :
    (bits.toNat / Word.signBound == 1) = bits.toBitVec.msb := by
  have small := bits.toNat_lt
  rw [BitVec.msb_eq_decide, Bool.eq_iff_iff]
  simp [Word.signBound]
  omega

theorem apply_unpackSign (bits : UInt64) (mantissa : Nat) :
    (((Sign.ofBitVec (@unpackSign Format.binary64 bits.toBitVec)).apply mantissa : Int) : ℚ) =
      (if bits.toBitVec.msb then -1 else 1) * mantissa := by
  have small := bits.toNat_lt
  have positive : @unpackSign Format.binary64 bits.toBitVec = 0#1 ↔ ¬ bits.toBitVec.msb := by
    rw [← BitVec.toNat_inj]
    simp [unpackSign, Format.binary64, BitVec.msb_eq_decide]
    omega
  rw [Sign.ofBitVec]
  cases sign : bits.toBitVec.msb with
  | false => simp [positive, sign, Sign.apply]
  | true => simp [positive, sign, Sign.apply]

theorem toNat_leading_append (bits : UInt64) :
    (1#1 ++ @unpackMantissa Format.binary64 bits.toBitVec).toNat =
      bits.toNat % leadingBit + leadingBit := by
  have joined := Nat.two_pow_add_eq_or_of_lt (@unpackMantissa Format.binary64 bits.toBitVec).isLt 1
  rw [Nat.mul_one, toNat_unpackMantissa] at joined
  rw [BitVec.toNat_append, toNat_unpackMantissa, BitVec.toNat_ofNat, Nat.mod_eq_of_lt (by decide),
    Nat.one_shiftLeft, ← joined, Nat.add_comm]
  rfl

theorem exists_ofBits_eq (finite : (unpack Format.binary64 bits.toBitVec).isFinite = true) :
    ∃ mantissa exponent, ofBits bits = .finite bits.toBitVec.msb mantissa exponent ∧
      unpackedValue (unpack Format.binary64 bits.toBitVec) =
        (if bits.toBitVec.msb then -1 else 1) * (mantissa * 2 ^ exponent) := by
  have most : @unpackExponent Format.binary64 bits.toBitVec = -1#11 ↔
      bits.toNat / leadingBit % 2048 = 2047 := unpackExponent_eq_iff
  have least : @unpackExponent Format.binary64 bits.toBitVec = 0#11 ↔
      bits.toNat / leadingBit % 2048 = 0 := unpackExponent_eq_iff
  unfold ofBits
  simp only [sign_eq_msb]
  unfold unpack at finite ⊢
  by_cases top : @unpackExponent Format.binary64 bits.toBitVec = -1#11
  · -- no pattern with the largest exponent is finite
    simp only [if_pos top] at finite
    split at finite <;> cases finite
  · simp only [if_neg top, if_neg (mt most.2 top)]
    by_cases bottom : @unpackExponent Format.binary64 bits.toBitVec = 0#11
    · simp only [if_pos bottom, if_pos (least.1 bottom)]
      refine ⟨_, _, rfl, ?_⟩
      by_cases zero : @unpackMantissa Format.binary64 bits.toBitVec = 0#52
      · have fraction : bits.toNat % leadingBit = 0 :=
          toNat_unpackMantissa.symm.trans (congrArg BitVec.toNat zero)
        rw [dif_pos zero, fraction]
        simp [unpackedValue]
      · rw [dif_neg zero, unpackedValue, apply_unpackSign, toNat_unpackMantissa, bottom, mul_assoc]
        rfl
    · simp only [if_neg bottom, if_neg (mt least.2 bottom)]
      refine ⟨_, _, rfl, ?_⟩
      rw [unpackedValue, apply_unpackSign, toNat_leading_append, toNat_unpackExponent, mul_assoc]
      rfl

end Binary64

namespace Decimal
variable {value : ℚ} {n : ℤ}

/-- No hundredth is nearer to a value than `n` hundredths, and if another one is as near, `n` is
even. -/
structure NearestHundredth (value : ℚ) (n : ℤ) : Prop where
  nearest : ∀ other : ℤ, |value - n / 100| ≤ |value - other / 100|
  even_of_tie : ∀ other : ℤ, other ≠ n → |value - other / 100| = |value - n / 100| → Even n

theorem NearestHundredth.neg (near : NearestHundredth value n) : NearestHundredth (-value) (-n) := by
  have mirrored (k : ℤ) : |-value - k / 100| = |value - (-k : ℤ) / 100| := by
    rw [← abs_neg]
    push_cast
    congr 1
    ring
  constructor
  · intro other
    rw [mirrored, mirrored, neg_neg]
    exact near.nearest _
  · intro other apart tie
    rw [mirrored, mirrored, neg_neg] at tie
    exact (near.even_of_tie (-other) (fun same => apart (by omega)) tie).neg

theorem abs_sub_hundredths (value : ℚ) (k : ℤ) :
    |value - k / 100| = |value * 100 - k| / 100 := by
  rw [show value - k / 100 = (value * 100 - k) / 100 by ring, abs_div,
    abs_of_pos (show (0 : ℚ) < 100 by norm_num)]

theorem nearestHundredth_of_le_half (near : |value * 100 - n| ≤ 1 / 2)
    (even_of_half : |value * 100 - n| = 1 / 2 → Even n) : NearestHundredth value n := by
  have farther (other : ℤ) (apart : other ≠ n) : 1 - |value * 100 - n| ≤ |value * 100 - other| := by
    have step : (1 : ℚ) ≤ |(n : ℚ) - other| := by
      exact_mod_cast Int.one_le_abs (sub_ne_zero.2 apart.symm)
    have detour := abs_sub_le (n : ℚ) (value * 100) other
    rw [abs_sub_comm (n : ℚ) (value * 100)] at detour
    linarith
  constructor
  · intro other
    rw [abs_sub_hundredths, abs_sub_hundredths]
    rcases eq_or_ne other n with rfl | apart
    · exact le_rfl
    · have := farther other apart
      linarith
  · intro other apart tie
    rw [abs_sub_hundredths, abs_sub_hundredths] at tie
    have := farther other apart
    exact even_of_half (le_antisymm near (by linarith))

theorem NearestHundredth.le_half (near : NearestHundredth value n) : |value * 100 - n| ≤ 1 / 2 := by
  have closer := near.nearest (round (value * 100))
  rw [abs_sub_hundredths, abs_sub_hundredths] at closer
  have half := abs_sub_round (value * 100)
  linarith

theorem NearestHundredth.unique {m : ℤ} (near : NearestHundredth value n)
    (other : NearestHundredth value m) : n = m := by
  by_contra apart
  wlog less : n < m generalizing n m
  · exact this other near (Ne.symm apart) (by omega)
  obtain ⟨-, above⟩ := abs_le.1 near.le_half
  obtain ⟨below, -⟩ := abs_le.1 other.le_half
  have next : m = n + 1 := by
    have : (m : ℚ) ≤ n + 1 := by linarith
    have : m ≤ n + 1 := by exact_mod_cast this
    omega
  subst next
  push_cast at below
  have middle : value * 100 = n + 1 / 2 := by linarith
  have tie : |value - (n + 1 : ℤ) / 100| = |value - n / 100| := by
    rw [abs_sub_hundredths, abs_sub_hundredths, middle]
    push_cast
    norm_num [abs_of_neg]
  have even := near.even_of_tie (n + 1) (by omega) tie
  have odd := other.even_of_tie n (by omega) tie.symm
  rw [Int.even_iff] at even odd
  omega

theorem nearestHundredth_roundHalfEven (num : Nat) {den : Nat} (positive : 0 < den) :
    NearestHundredth (num / den) (roundHalfEven (num * 100) den) := by
  have unit : (0 : ℚ) < den := by exact_mod_cast positive
  have low : (2 * (roundHalfEven (num * 100) den * den) : ℚ) ≤ 2 * (num * 100) + den := by
    exact_mod_cast roundHalfEven_le (num * 100) den
  have high : (2 * (num * 100) : ℚ) ≤ 2 * (roundHalfEven (num * 100) den * den) + den := by
    exact_mod_cast le_roundHalfEven (num * 100) den positive
  have distance : (num / den * 100 - (roundHalfEven (num * 100) den : ℤ) : ℚ) =
      (num * 100 - roundHalfEven (num * 100) den * den) / den := by
    push_cast
    field_simp
  apply nearestHundredth_of_le_half
  · rw [distance, abs_div, abs_of_pos unit, div_le_iff₀ unit, abs_le]
    constructor <;> linarith
  · intro half
    rw [distance, abs_div, abs_of_pos unit, div_eq_iff unit.ne', abs_eq (by positivity)] at half
    have tie : 2 * (num * 100) = 2 * (roundHalfEven (num * 100) den * den) + den ∨
        2 * (roundHalfEven (num * 100) den * den) = 2 * (num * 100) + den := by
      rcases half with above | below
      · left
        have : (2 * (num * 100) : ℚ) = 2 * (roundHalfEven (num * 100) den * den) + den := by
          linarith
        exact_mod_cast this
      · right
        have : (2 * (roundHalfEven (num * 100) den * den) : ℚ) = 2 * (num * 100) + den := by
          linarith
        exact_mod_cast this
    exact (Int.even_coe_nat _).2 (Nat.even_iff.2 (even_roundHalfEven positive tie))

end Decimal

/-- A written decimal: perhaps a minus, digits without needless zeros in front, and perhaps a point
with digits behind it. -/
structure Numeral where
  negative : Bool
  whole : List Char
  fraction : List Char
  isWhole : IsWhole whole
  all : ∀ c ∈ fraction, c.isDigit = true

namespace Numeral

def text (numeral : Numeral) : List Char :=
  (if numeral.negative then ['-'] else []) ++ numeral.whole ++
    if numeral.fraction = [] then [] else '.' :: numeral.fraction

def magnitude (numeral : Numeral) : ℚ :=
  Nat.ofDigitChars 10 numeral.whole 0 +
    Nat.ofDigitChars 10 numeral.fraction 0 / 10 ^ numeral.fraction.length

def value (numeral : Numeral) : ℚ :=
  if numeral.negative then -numeral.magnitude else numeral.magnitude

def ofWhole (negative : Bool) (n : Nat) : Numeral where
  negative := negative
  whole := Nat.toDigits 10 n
  fraction := []
  isWhole := isWhole_toDigits n
  all := List.forall_mem_nil _

def ofHundredths (negative : Bool) (n : Nat) : Numeral where
  negative := negative
  whole := Nat.toDigits 10 (n / 100)
  fraction := Display.twoDigits (n % 100)
  isWhole := isWhole_toDigits (n / 100)
  all := Display.isDigit_of_mem_twoDigits (Nat.mod_lt n (by decide))

theorem text_ofWhole (negative : Bool) (n : Nat) :
    (ofWhole negative n).text = Display.sign negative ++ Nat.toDigits 10 n :=
  List.append_nil _

theorem text_ofHundredths (negative : Bool) (n : Nat) :
    (ofHundredths negative n).text = Display.sign negative ++ Display.hundredths n :=
  List.append_assoc _ _ _

theorem magnitude_ofWhole (negative : Bool) (n : Nat) : (ofWhole negative n).magnitude = n := by
  simp [magnitude, ofWhole, Nat.ofDigitChars_ten_toDigits]

theorem ofDigitChars_twoDigits {n : Nat} (small : n < 100) :
    Nat.ofDigitChars 10 (Display.twoDigits n) 0 = n := by
  rw [Display.twoDigits, Nat.ofDigitChars_cons_digitChar_of_lt_ten (by omega),
    Nat.ofDigitChars_cons_digitChar_of_lt_ten (by omega), Nat.ofDigitChars_nil]
  omega

theorem magnitude_ofHundredths (negative : Bool) (n : Nat) :
    (ofHundredths negative n).magnitude = n / 100 := by
  have places : (Display.twoDigits (n % 100)).length = 2 := rfl
  have whole : ((n / 100 * 100 + n % 100 : Nat) : ℚ) = n := by rw [Nat.div_add_mod']
  push_cast at whole
  rw [magnitude, ofHundredths, Nat.ofDigitChars_ten_toDigits,
    ofDigitChars_twoDigits (Nat.mod_lt n (by decide)), places, ← whole]
  ring

end Numeral

namespace Display
variable {value : ℚ}

/-- Whether a value is shown without decimals: a whole number of at most ten digits. -/
def IsShort (value : ℚ) : Prop :=
  (∃ n : ℤ, value = n) ∧ |value| < 10 ^ 10

theorem isShort_neg : IsShort (-value) ↔ IsShort value := by
  have whole : (∃ n : ℤ, -value = n) ↔ ∃ n : ℤ, value = n := by
    constructor
    · rintro ⟨n, same⟩
      exact ⟨-n, by rw [Int.cast_neg, ← same, neg_neg]⟩
    · rintro ⟨n, rfl⟩
      exact ⟨-n, (Int.cast_neg n).symm⟩
  rw [IsShort, IsShort, whole, abs_neg]

theorem isShort_div_iff (num : Nat) {den : Nat} (positive : 0 < den) :
    IsShort (num / den) ↔ num % den = 0 ∧ num / den < wholeBound := by
  have unit : (den : ℚ) ≠ 0 := by exact_mod_cast positive.ne'
  have bound : (10 : ℚ) ^ 10 = wholeBound := by norm_num [wholeBound, tenPow]
  constructor
  · rintro ⟨⟨n, whole⟩, below⟩
    rw [div_eq_iff unit] at whole
    have divides : den ∣ num := by
      have : (num : ℤ) = n * den := by exact_mod_cast whole
      exact Int.natCast_dvd_natCast.1 (Dvd.intro_left n this.symm)
    rw [abs_of_nonneg (by positivity), bound, ← Nat.cast_div divides unit] at below
    exact ⟨Nat.mod_eq_zero_of_dvd divides, by exact_mod_cast below⟩
  · rintro ⟨divided, below⟩
    have divides := Nat.dvd_of_mod_eq_zero divided
    rw [IsShort, ← Nat.cast_div divides unit, bound, Nat.abs_cast]
    exact ⟨⟨((num / den : Nat) : ℤ), (Int.cast_natCast _).symm⟩, by exact_mod_cast below⟩

/-- The exact value if it is short, and otherwise the nearest hundredth. -/
structure Shows (numeral : Numeral) (value : ℚ) : Prop where
  short : IsShort value → numeral.fraction = [] ∧ numeral.value = value
  rounded : ¬ IsShort value → numeral.fraction.length = 2 ∧
    ∃ n : ℤ, numeral.value = n / 100 ∧ Decimal.NearestHundredth value n

theorem exists_numeral_ratio (negative : Bool) (num : Nat) {den : Nat} (positive : 0 < den) :
    ∃ numeral : Numeral, ratio negative num den = numeral.text ∧ numeral.negative = negative ∧
      Shows numeral ((if negative then -1 else 1) * (num / den)) := by
  have signed (value : ℚ) : IsShort ((if negative then -1 else 1) * value) ↔ IsShort value := by
    cases negative <;> simp [isShort_neg]
  unfold ratio
  by_cases short : num % den = 0 ∧ num / den < wholeBound
  · have divides := Nat.dvd_of_mod_eq_zero short.1
    have unit : (den : ℚ) ≠ 0 := by exact_mod_cast positive.ne'
    refine ⟨.ofWhole negative (num / den), ?_, rfl, fun _ => ⟨rfl, ?_⟩, fun long => ?_⟩
    · rw [if_pos short, Numeral.text_ofWhole]
    · rw [Numeral.value, Numeral.magnitude_ofWhole, Nat.cast_div divides unit]
      cases negative <;> simp [Numeral.ofWhole]
    · exact absurd ((signed _).2 ((isShort_div_iff num positive).2 short)) long
  · refine ⟨.ofHundredths negative (Decimal.roundHalfEven (num * 100) den), ?_, rfl,
      fun other => ?_, fun _ => ⟨rfl, ?_⟩⟩
    · rw [if_neg short, Numeral.text_ofHundredths]
    · exact absurd ((isShort_div_iff num positive).1 ((signed _).1 other)) short
    · have near := Decimal.nearestHundredth_roundHalfEven num positive
      rw [Numeral.value, Numeral.magnitude_ofHundredths]
      cases negative with
      | false => exact ⟨_, rfl, by simpa using near⟩
      | true =>
        exact ⟨-(Decimal.roundHalfEven (num * 100) den : ℤ), by simp [Numeral.ofHundredths, neg_div],
          by simpa using near.neg⟩

/-- What is shown for a finite number is a written decimal with the sign of its pattern. It denotes
the exact value if that is short, and the nearest hundredth to it otherwise. -/
theorem numeral_of_float (x : Float) (finite : x.isFinite = true) :
    ∃ numeral : Numeral, (Display.float x).toList = numeral.text ∧
      numeral.negative = x.toBits.toBitVec.msb ∧ Shows numeral (Binary64.exactValue x) := by
  obtain ⟨mantissa, exponent, decoded, value⟩ := Binary64.exists_ofBits_eq finite
  obtain ⟨numeral, text, sign, denotes⟩ := exists_numeral_ratio x.toBits.toBitVec.msb
    (Binary64.numerator mantissa exponent) (Binary64.twoPow_pos (-exponent).toNat)
  refine ⟨numeral, ?_, sign, ?_⟩
  · calc
      (Display.float x).toList = binary (Binary64.ofFloat x) := String.toList_ofList
      _ = binary (.finite x.toBits.toBitVec.msb mantissa exponent) := congrArg binary decoded
      _ = numeral.text := text
  · have ratio : Binary64.exactValue x = (if x.toBits.toBitVec.msb then -1 else 1) *
        (Binary64.numerator mantissa exponent / Binary64.denominator exponent) := by
      rw [Binary64.numerator_div_denominator]
      exact value
    rw [ratio]
    exact denotes

def minusEighth : Float := Float.ofBits 0xBFC0000000000000

theorem exactValue_minusEighth : Binary64.exactValue minusEighth = -1 / 8 := by
  have unpacked : minusEighth.toModel.unpack = .finite .negative 4503599627370496 (-55) (by decide) :=
    rfl
  rw [Binary64.exactValue, unpacked]
  norm_num [Binary64.unpackedValue, Sign.apply]

theorem not_isShort_eighth : ¬ IsShort (-1 / 8) := by
  rintro ⟨⟨n, whole⟩, -⟩
  have eighths : (-1 : ℚ) = n * 8 := by linarith
  have : (-1 : ℤ) = n * 8 := by exact_mod_cast eighths
  omega

theorem numeral_of_float_minusEighth :
    minusEighth.isFinite = true ∧
      ∃ numeral : Numeral, (Display.float minusEighth).toList = numeral.text ∧
        numeral.negative = true ∧ numeral.fraction.length = 2 ∧ numeral.value = -12 / 100 := by
  have finite : minusEighth.isFinite = true := by decide +kernel
  obtain ⟨numeral, text, sign, denotes⟩ := numeral_of_float minusEighth finite
  rw [exactValue_minusEighth] at denotes
  obtain ⟨places, n, value, near⟩ := denotes.rounded not_isShort_eighth
  refine ⟨finite, numeral, text, sign.trans (by decide +kernel), places, ?_⟩
  have rounded : Decimal.NearestHundredth (-1 / 8) (-12) := by
    have even : Decimal.roundHalfEven (1 * 100) 8 = 12 := rfl
    have eighth := Decimal.nearestHundredth_roundHalfEven 1 (show 0 < 8 by decide)
    rw [even] at eighth
    simpa [neg_div] using eighth.neg
  rw [value, near.unique rounded]
  norm_num

end Display

end LinkedSheet
