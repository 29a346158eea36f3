import Mathlib

/-!
# Rounding to double precision

Rationals rounded to the nearest double, ties to even, within the range where
nothing overflows.  What is proved holds of every rounding that keeps the
doubles and never crosses one, and the exact computation is one of these.
-/

namespace UTTG.Binary64

/-- A significand of 53 bits at an exponent that doubles have. -/
def Representable (value : ℚ) : Prop :=
  ∃ significand exponent : ℤ, |significand| < 2 ^ 53 ∧ -1074 ≤ exponent ∧
    value = significand * 2 ^ exponent

theorem representable_div_pow {significand : ℤ} {exponent : ℕ}
    (hbits : |significand| < 2 ^ 53) (hexponent : exponent ≤ 1074) :
    Representable (significand / 2 ^ exponent) := by
  refine ⟨significand, -exponent, hbits, by omega, ?_⟩
  rw [zpow_neg, zpow_natCast, div_eq_mul_inv]

/-- The nearest integer, the even one of two. -/
def roundHalfEven (value : ℚ) : ℤ :=
  let low := ⌊value⌋
  let rest := value - low
  if rest < 1 / 2 then low
  else if 1 / 2 < rest then low + 1
  else if low % 2 = 0 then low else low + 1

/-- The exponent of the last bit of the doubles around a value. -/
def lastExponent (value : ℚ) : ℤ :=
  max (Int.log 2 |value| - 52) (-1074)

/-- The distance of the doubles around a value. -/
def spacing (value : ℚ) : ℚ := 2 ^ lastExponent value

/-- The double of a value, without overflow. -/
def round (value : ℚ) : ℚ :=
  roundHalfEven (value / spacing value) * spacing value

/-! ## The nearest integer -/

theorem roundHalfEven_intCast (number : ℤ) :
    roundHalfEven number = number := by
  simp [roundHalfEven]

theorem floor_le_roundHalfEven (value : ℚ) :
    ⌊value⌋ ≤ roundHalfEven value := by
  simp only [roundHalfEven]
  split_ifs <;> omega

theorem roundHalfEven_le {value : ℚ} {bound : ℤ} (hle : value ≤ bound) :
    roundHalfEven value ≤ bound := by
  rcases hle.eq_or_lt with heq | hlt
  · rw [heq, roundHalfEven_intCast]
  · have hfloor : ⌊value⌋ < bound := Int.floor_lt.mpr hlt
    simp only [roundHalfEven]
    split_ifs <;> omega

/-! ## The grid of doubles around a value -/

theorem spacing_pos (value : ℚ) : 0 < spacing value :=
  zpow_pos two_pos _

theorem lastExponent_le {significand exponent : ℤ} (hne : significand ≠ 0)
    (hbits : |significand| < 2 ^ 53) (hexponent : -1074 ≤ exponent) :
    lastExponent (significand * 2 ^ exponent) ≤ exponent := by
  have hpower : (0 : ℚ) < 2 ^ exponent := zpow_pos two_pos _
  have hpositive : 0 < |(significand * 2 ^ exponent : ℚ)| :=
    abs_pos.mpr (mul_ne_zero (Int.cast_ne_zero.mpr hne) hpower.ne')
  have hlt : |(significand * 2 ^ exponent : ℚ)| < (2 : ℕ) ^ (53 + exponent) := by
    rw [abs_mul, abs_of_pos hpower, Nat.cast_ofNat, zpow_add₀ two_ne_zero,
      ← Int.cast_abs]
    exact mul_lt_mul_of_pos_right (by exact_mod_cast hbits) hpower
  have hlog := (Int.lt_zpow_iff_log_lt (by decide) hpositive).mp hlt
  exact max_le (by omega) hexponent

/-- A double is on its own grid. -/
theorem Representable.exists_mul_spacing {value : ℚ}
    (hvalue : Representable value) : ∃ number : ℤ, value = number * spacing value := by
  obtain ⟨significand, exponent, hbits, hexponent, heq⟩ := hvalue
  rcases eq_or_ne significand 0 with hzero | hne
  · exact ⟨0, by simp [heq, hzero]⟩
  · have hle : lastExponent value ≤ exponent :=
      heq ▸ lastExponent_le hne hbits hexponent
    obtain ⟨more, hmore⟩ := Int.eq_ofNat_of_zero_le (sub_nonneg.mpr hle)
    refine ⟨significand * 2 ^ more, ?_⟩
    calc value = significand * 2 ^ exponent := heq
      _ = significand * 2 ^ ((more : ℤ) + lastExponent value) := by
          rw [← hmore, sub_add_cancel]
      _ = significand * 2 ^ more * spacing value := by
          rw [zpow_add₀ two_ne_zero, zpow_natCast, mul_assoc, spacing]
      _ = _ := by push_cast; rfl

/-- The doubles around a greater value are on the grid of a smaller one. -/
theorem exists_spacing_mul {low high : ℚ} (hlow : 0 < low) (hle : low ≤ high) :
    ∃ number : ℤ, spacing high = number * spacing low := by
  have hlog : Int.log 2 |low| ≤ Int.log 2 |high| := by
    rw [abs_of_pos hlow, abs_of_pos (hlow.trans_le hle)]
    exact Int.log_mono_right hlow hle
  have hexponent : lastExponent low ≤ lastExponent high :=
    max_le_max (by omega) le_rfl
  obtain ⟨more, hmore⟩ := Int.eq_ofNat_of_zero_le (sub_nonneg.mpr hexponent)
  refine ⟨2 ^ more, ?_⟩
  have hsum : lastExponent high = more + lastExponent low := by omega
  rw [spacing, hsum, zpow_add₀ two_ne_zero, zpow_natCast, spacing]
  push_cast
  rfl

/-! ## Roundings -/

/-- A rounding that keeps the doubles and never crosses one. -/
structure Faithful (rounding : ℚ → ℚ) : Prop where
  keeps {value : ℚ} : Representable value → rounding value = value
  nonneg {value : ℚ} : 0 ≤ value → 0 ≤ rounding value
  le {value bound : ℚ} : 0 ≤ value → value ≤ bound → Representable bound →
    rounding value ≤ bound

/-- Exact computation rounds nothing. -/
theorem faithful_id : Faithful id where
  keeps _ := rfl
  nonneg hnonneg := hnonneg
  le _ hle _ := hle

theorem round_mul_spacing {value : ℚ} {number : ℤ}
    (heq : value = number * spacing value) : round value = value := by
  have hquotient : value / spacing value = number :=
    (div_eq_iff (spacing_pos value).ne').mpr heq
  rw [round, hquotient, roundHalfEven_intCast, ← heq]

theorem round_nonneg {value : ℚ} (hnonneg : 0 ≤ value) : 0 ≤ round value := by
  have hquotient : 0 ≤ value / spacing value :=
    div_nonneg hnonneg (spacing_pos value).le
  have hrounded : 0 ≤ roundHalfEven (value / spacing value) :=
    (Int.floor_nonneg.mpr hquotient).trans (floor_le_roundHalfEven _)
  exact mul_nonneg (Int.cast_nonneg hrounded) (spacing_pos value).le

theorem round_le {value bound : ℚ} (hnonneg : 0 ≤ value) (hle : value ≤ bound)
    (hbound : Representable bound) : round value ≤ bound := by
  rcases hnonneg.eq_or_lt with rfl | hpositive
  · have hzero : (0 : ℚ) = (0 : ℤ) * spacing 0 := by simp
    rwa [round_mul_spacing hzero]
  · obtain ⟨number, hnumber⟩ := hbound.exists_mul_spacing
    obtain ⟨factor, hfactor⟩ := exists_spacing_mul hpositive hle
    have hgrid : bound = (number * factor : ℤ) * spacing value := by
      rw [hnumber, hfactor]
      push_cast
      ring
    have hquotient : value / spacing value ≤ (number * factor : ℤ) :=
      (div_le_iff₀ (spacing_pos value)).mpr (hgrid ▸ hle)
    calc round value
        ≤ (number * factor : ℤ) * spacing value :=
          mul_le_mul_of_nonneg_right
            (Int.cast_le.mpr (roundHalfEven_le hquotient)) (spacing_pos value).le
      _ = bound := hgrid.symm

theorem faithful_round : Faithful round where
  keeps hvalue := round_mul_spacing hvalue.exists_mul_spacing.choose_spec
  nonneg := round_nonneg
  le := round_le

/-- A double has no other denominator than a power of two. -/
theorem exists_round_mul_pow (value : ℚ) :
    ∃ (exponent : ℕ) (number : ℤ), round value * 2 ^ exponent = number := by
  have hexponent : -1074 ≤ lastExponent value := le_max_right _ _
  obtain ⟨more, hmore⟩ :=
    Int.eq_ofNat_of_zero_le (neg_le_iff_add_nonneg.mp hexponent)
  refine ⟨1074, roundHalfEven (value / spacing value) * 2 ^ more, ?_⟩
  have hpower : spacing value * 2 ^ 1074 = 2 ^ more := by
    rw [spacing, ← zpow_natCast, ← zpow_natCast, ← zpow_add₀ two_ne_zero]
    congr 1
  rw [round, mul_assoc, hpower]
  push_cast
  rfl

end UTTG.Binary64
