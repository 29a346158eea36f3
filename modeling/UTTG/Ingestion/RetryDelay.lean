import UTTG.Ingestion.Guarded

/-!
# Retry delays

The delay after a failed run doubles from `_FIRST_RETRY_SECONDS` on, up to the
interval of the job.  The exponent has a bound of its own, so the doubling ends
below the interval of a job that runs once a day.
-/

namespace UTTG.Guarded

/-- The greatest delay before the jitter. -/
def greatestDelay : ℕ := firstRetrySeconds * 2 ^ 10

/-- The delay of `_retry_delay` before the jitter. -/
def baseDelay (consecutiveFailures intervalSeconds : ℕ) : ℚ :=
  min ((firstRetrySeconds * 2 ^ min (consecutiveFailures - 1) 10 : ℕ) : ℚ)
    intervalSeconds

/-- The delays stay within the jitter around a base that starts at 60 seconds,
doubles up to the interval and stays there. -/
structure BacksOff (intervalSeconds : ℕ) (base : ℕ → ℚ) : Prop where
  within : ∀ failures, 1 ≤ failures → ∀ jitter,
    4 / 5 * base failures ≤ retryDelay failures intervalSeconds jitter ∧
      retryDelay failures intervalSeconds jitter ≤ 6 / 5 * base failures
  starts : base 1 = 60
  monotone : ∀ failures, 1 ≤ failures → base failures ≤ base (failures + 1)
  capped : ∀ failures, 1 ≤ failures → base failures ≤ intervalSeconds
  doubles : ∀ failures, 1 ≤ failures → base failures < intervalSeconds →
    2 * base failures ≤ base (failures + 1) ∨
      base (failures + 1) = intervalSeconds
  reaches : ∃ failures, 1 ≤ failures ∧ base failures = intervalSeconds

theorem baseDelay_nonneg (failures intervalSeconds : ℕ) :
    0 ≤ baseDelay failures intervalSeconds :=
  le_min (Nat.cast_nonneg _) (Nat.cast_nonneg _)

/-- The delays determine the base. -/
theorem BacksOff.eq_baseDelay {intervalSeconds : ℕ} {base : ℕ → ℚ}
    (hbase : BacksOff intervalSeconds base) {failures : ℕ}
    (hfailures : 1 ≤ failures) :
    base failures = baseDelay failures intervalSeconds := by
  have hleast := (hbase.within failures hfailures
    ⟨4 / 5, le_rfl, by norm_num⟩).1
  have hgreatest := (hbase.within failures hfailures
    ⟨6 / 5, by norm_num, le_rfl⟩).2
  change 4 / 5 * base failures ≤ baseDelay failures intervalSeconds * (4 / 5)
    at hleast
  change baseDelay failures intervalSeconds * (6 / 5) ≤ 6 / 5 * base failures
    at hgreatest
  linarith

/-- The base does not go beyond the greatest delay. -/
theorem BacksOff.le_greatestDelay {intervalSeconds : ℕ} {base : ℕ → ℚ}
    (hbase : BacksOff intervalSeconds base) :
    intervalSeconds ≤ greatestDelay := by
  obtain ⟨failures, hfailures, hreached⟩ := hbase.reaches
  rw [hbase.eq_baseDelay hfailures, baseDelay, min_eq_right_iff,
    Nat.cast_le] at hreached
  have hpower : 2 ^ min (failures - 1) 10 ≤ 2 ^ 10 :=
    Nat.pow_le_pow_right (by decide) (min_le_right _ _)
  exact hreached.trans (Nat.mul_le_mul_left firstRetrySeconds hpower)

section Capped

variable {intervalSeconds : ℕ} (hinterval : intervalSeconds ≤ greatestDelay)
include hinterval

/-- As long as the interval is not reached, the exponent is not bounded. -/
theorem baseDelay_succ {failures : ℕ} (hfailures : 1 ≤ failures)
    (hbelow : baseDelay failures intervalSeconds < intervalSeconds) :
    baseDelay (failures + 1) intervalSeconds =
      min (2 * baseDelay failures intervalSeconds) intervalSeconds := by
  have hpower : (firstRetrySeconds * 2 ^ min (failures - 1) 10 : ℕ) <
      intervalSeconds := by
    rw [baseDelay, min_lt_iff, Nat.cast_lt] at hbelow
    exact hbelow.resolve_right (lt_irrefl _)
  have hexponent : failures - 1 < 10 := by
    by_contra hlarge
    rw [min_eq_right (not_lt.mp hlarge)] at hpower
    exact absurd hinterval (not_le.mpr hpower)
  have hbase : baseDelay failures intervalSeconds =
      (firstRetrySeconds * 2 ^ (failures - 1) : ℕ) := by
    rw [min_eq_left hexponent.le] at hpower
    rw [baseDelay, min_eq_left hexponent.le,
      min_eq_left (Nat.cast_le.mpr hpower.le)]
  have hnext : min (failures + 1 - 1) 10 = failures - 1 + 1 := by omega
  rw [hbase, baseDelay, hnext, pow_succ, ← mul_assoc, mul_comm _ 2]
  push_cast
  rfl

theorem backsOff_baseDelay (hfirst : 60 ≤ intervalSeconds) :
    BacksOff intervalSeconds fun failures =>
      baseDelay failures intervalSeconds where
  within failures _ jitter := by
    have hnonneg := baseDelay_nonneg failures intervalSeconds
    change 4 / 5 * _ ≤ baseDelay failures intervalSeconds * jitter.val ∧
      baseDelay failures intervalSeconds * jitter.val ≤ 6 / 5 * _
    rw [mul_comm (baseDelay failures intervalSeconds)]
    exact ⟨mul_le_mul_of_nonneg_right jitter.property.1 hnonneg,
      mul_le_mul_of_nonneg_right jitter.property.2 hnonneg⟩
  starts := by
    have hcast : (60 : ℚ) ≤ intervalSeconds := by exact_mod_cast hfirst
    simpa [baseDelay, firstRetrySeconds] using hcast
  monotone failures _ := by
    refine min_le_min_right _ (Nat.cast_le.mpr ?_)
    exact Nat.mul_le_mul_left _ (Nat.pow_le_pow_right (by decide)
      (min_le_min_right 10 (by omega)))
  capped failures _ := min_le_right _ _
  doubles failures hfailures hbelow := by
    rw [baseDelay_succ hinterval hfailures hbelow]
    rcases min_choice (2 * baseDelay failures intervalSeconds)
      (intervalSeconds : ℚ) with hleft | hright
    · exact Or.inl hleft.ge
    · exact Or.inr hright
  reaches := by
    refine ⟨11, by decide, min_eq_right (Nat.cast_le.mpr ?_)⟩
    exact hinterval

end Capped

/-- The delays of a job back off up to its interval exactly when the exponent
reaches that. -/
theorem backsOff_iff {intervalSeconds : ℕ} (hfirst : 60 ≤ intervalSeconds) :
    (∃ base, BacksOff intervalSeconds base) ↔
      intervalSeconds ≤ firstRetrySeconds * 2 ^ 10 :=
  ⟨fun ⟨_, hbase⟩ => hbase.le_greatestDelay,
    fun hinterval => ⟨_, backsOff_baseDelay hinterval hfirst⟩⟩

theorem hourly_backsOff : ∃ base, BacksOff 3600 base :=
  (backsOff_iff (by decide)).mpr (by decide)

/-- The interval of the SATCAT job is never reached. -/
theorem satcat_delays_stop_short :
    (∀ failures, baseDelay failures 86400 ≤ 61440) ∧
      ¬∃ base, BacksOff 86400 base := by
  refine ⟨fun failures => (min_le_left _ _).trans ?_, ?_⟩
  · have hpower : 2 ^ min (failures - 1) 10 ≤ 2 ^ 10 :=
      Nat.pow_le_pow_right (by decide) (min_le_right _ _)
    exact_mod_cast Nat.mul_le_mul_left firstRetrySeconds hpower
  · rintro ⟨base, hbase⟩
    exact absurd hbase.le_greatestDelay (by decide)

end UTTG.Guarded
