import UTTG.Core.Binary64
import UTTG.Python.Calendar
import UTTG.Python.Text

/-!
# The position of a satellite at a given time

`get_position` brings the time of the request to UTC, refuses it where the whole
days between it and now are more than 30, and hands the two parts of its Julian
date to SGP4.  Whole days are rounded down, so the bound is 31 days ahead and 30
days back, and a time whose UTC form is outside the calendar raises an exception
of the `datetime` type.
-/

namespace UTTG.Api.Position

open Python Binary64

/-- The offset of a zone, less than a day. -/
structure Offset where
  microseconds : ℤ
  abs_lt : |microseconds| < dayLength

/-- A datetime as the query has it; it may have no zone. -/
structure QueryTime where
  fields : Naive
  offset : Option Offset

/-- The lines of the latest orbital element of the satellite. -/
structure Element where
  tle_line1 : Option Text
  tle_line2 : Option Text

/-- The functions of the package that propagates, and the conversion of a vector
to coordinates, which has no influence on the time. -/
structure Propagator (Satellite Vector Geodetic : Type) where
  twoline2rv : Text → Text → Satellite
  sgp4 : Satellite → ℚ → ℚ → ℤ × Vector
  temeToGeodetic : Vector → Naive → Geodetic

/-- What a request ends with. -/
inductive Answer (Geodetic : Type) where
  | response (norad_id : ℤ) (timestamp : Naive) (position : Geodetic)
  | http (status : ℕ) (detail : Text)
  | raised (error : OverflowError)

/-- The answer, and the calls of `sgp4` that were made for it. -/
structure Outcome (Satellite Geodetic : Type) where
  calls : List (Satellite × ℚ × ℚ)
  answer : Answer Geodetic

/-! ## The endpoint -/

/-- A time without a zone is read as UTC; `astimezone(UTC)` subtracts the offset
of the others. -/
def QueryTime.astimezone (at_ : QueryTime) : Except OverflowError Naive :=
  match at_.offset with
  | none => .ok at_.fields
  | some offset => at_.fields.subtract offset.microseconds

/-- `(instant - now).days`. -/
def daysBetween (instant now : Naive) : ℤ :=
  (instant.microseconds - now.microseconds) / dayLength

section Endpoint

variable (rounding : ℚ → ℚ)

/-- `_julian_date`, with every operation on floats rounded. -/
def julianDate (dt : Naive) : ℚ × ℚ :=
  let jd := rounding (dt.date.toordinal + 1721424.5)
  let fr := rounding
    (rounding (dt.time.seconds + rounding (dt.time.microsecond / 1e6)) / 86400)
  (jd, fr)

variable {Satellite Vector Geodetic : Type}
  (propagator : Propagator Satellite Vector Geodetic)

/-- What follows the test of the time. -/
def propagate (norad_id : ℤ) (satellite : Satellite) (instant : Naive) :
    Outcome Satellite Geodetic :=
  let (jd, fr) := julianDate rounding instant
  let (error, vector) := propagator.sgp4 satellite jd fr
  { calls := [(satellite, jd, fr)]
    answer :=
      if error ≠ 0 then
        .http 500 (text "SGP4 propagation error code " ++ signed error)
      else
        .response norad_id instant (propagator.temeToGeodetic vector instant) }

/-- The refusal of a time. -/
def tooFar : Answer Geodetic :=
  .http 422 (text "Position time must be within 30 days of now")

/-- What follows the reading of the element; the clock is read once for a
request without a time, and once to compare. -/
def positionAt (norad_id : ℤ) (satellite : Satellite) (at_ : Option QueryTime)
    (first now : Naive) : Outcome Satellite Geodetic :=
  match (at_.getD ⟨first, none⟩).astimezone with
  | .error error => ⟨[], .raised error⟩
  | .ok instant =>
      if 30 < |daysBetween instant now| then ⟨[], tooFar⟩
      else propagate rounding propagator norad_id satellite instant

/-- `get_position`. -/
def getPosition (norad_id : ℤ) (element : Option Element)
    (at_ : Option QueryTime) (first now : Naive) : Outcome Satellite Geodetic :=
  let lines := do
    let element ← element
    let line1 ← element.tle_line1
    let line2 ← element.tle_line2
    if line1.isEmpty || line2.isEmpty then none else some (line1, line2)
  match lines with
  | none => ⟨[], .http 404 (text "TLE not available for this satellite")⟩
  | some (line1, line2) =>
      positionAt rounding propagator norad_id (propagator.twoline2rv line1 line2)
        at_ first now

end Endpoint

/-! ## What is asked of the times -/

/-- The instant of a time, in microseconds on the scale of `Naive`. -/
def QueryTime.instant (at_ : QueryTime) : ℤ :=
  at_.fields.microseconds - (at_.offset.map (·.microseconds)).getD 0

/-- The Julian date of an instant, by the days since the Unix epoch. -/
def julianDay (instant : ℤ) : ℚ :=
  2440587.5 + ((instant - 719163 * dayLength : ℤ) : ℚ) / dayLength

/-- More than 30 days from now. -/
def Far (instant : ℤ) (now : Naive) : Prop :=
  30 * (dayLength : ℤ) < |instant - now.microseconds|

/-- Between 30 and 31 days ahead of now. -/
def Between (instant : ℤ) (now : Naive) : Prop :=
  30 * (dayLength : ℤ) < instant - now.microseconds ∧
    instant - now.microseconds < 31 * (dayLength : ℤ)

section Property

variable {Satellite Vector Geodetic : Type}

/-- What a request with the time `at_` must come to; `outcome` tells it for
every time. -/
structure Handled (outcome : QueryTime → Outcome Satellite Geodetic)
    (at_ : QueryTime) (now : Naive) : Prop where
  raises : ∀ error, (outcome at_).answer ≠ .raised error
  refuses : (outcome at_).answer = tooFar ↔ Far at_.instant now
  propagates : ¬Far at_.instant now →
    ∃ satellite jd fr, (outcome at_).calls = [(satellite, jd, fr)] ∧
      0 ≤ fr ∧ fr < 1 ∧ jd + fr = julianDay at_.instant
  agrees : ∀ other : QueryTime, other.instant = at_.instant →
    (outcome other).calls = (outcome at_).calls

/-- The time is handled in every request for a satellite with an element. -/
def Upheld (rounding : ℚ → ℚ)
    (propagator : Propagator Satellite Vector Geodetic) (at_ : QueryTime)
    (now : Naive) : Prop :=
  ∀ norad_id line1 line2 first, line1 ≠ [] → line2 ≠ [] →
    Handled
      (fun time => getPosition rounding propagator norad_id
        (some ⟨some line1, some line2⟩) (some time) first now)
      at_ now

end Property

/-! ## Times in UTC -/

theorem QueryTime.exists_astimezone {at_ : QueryTime}
    (hcalendar : InCalendar at_.instant) :
    ∃ instant, at_.astimezone = .ok instant ∧
      instant.microseconds = at_.instant := by
  obtain ⟨fields, _ | offset⟩ := at_
  · exact ⟨fields, rfl, (sub_zero _).symm⟩
  · exact Naive.exists_subtract_eq_ok hcalendar

theorem QueryTime.astimezone_error {at_ : QueryTime}
    (hcalendar : ¬InCalendar at_.instant) :
    at_.astimezone = .error .dateValueOutOfRange := by
  obtain ⟨fields, _ | offset⟩ := at_
  · have hinstant : QueryTime.instant ⟨fields, none⟩ = fields.microseconds :=
      sub_zero _
    rw [hinstant] at hcalendar
    exact absurd fields.inCalendar hcalendar
  · exact Naive.subtract_eq_error hcalendar

theorem Between.far {instant : ℤ} {now : Naive} (hbetween : Between instant now) :
    Far instant now :=
  hbetween.1.trans_le (le_abs_self _)

/-- Whole days are rounded down. -/
theorem daysBetween_far_iff (instant now : Naive) :
    30 < |daysBetween instant now| ↔
      Far instant.microseconds now ∧ ¬Between instant.microseconds now := by
  have hday : (dayLength : ℤ) = 86400000000 := rfl
  simp only [daysBetween, Far, Between, hday, lt_abs]
  omega

/-! ## The parts of a Julian date -/

section Parts

variable {rounding : ℚ → ℚ}

/-- The fraction of a day, from the microseconds of the day. -/
def fraction (rounding : ℚ → ℚ) (microseconds : ℕ) : ℚ :=
  rounding
    (rounding ((microseconds / 1000000 : ℕ) +
      rounding ((microseconds % 1000000 : ℕ) / 1e6)) / 86400)

theorem julianDate_eq (rounding : ℚ → ℚ) (dt : Naive) :
    julianDate rounding dt =
      (rounding ((dt.microseconds / dayLength : ℤ) + 1721424.5),
        fraction rounding (dt.microseconds % dayLength).toNat) := by
  rw [← dt.ordinal_eq, ← dt.time_eq, Int.toNat_natCast, fraction,
    ← Time.seconds_eq, ← Time.microsecond_eq]
  rfl

/-- The first part is a half-integer, which is a double. -/
theorem rounding_jd (hfaithful : Faithful rounding) {ordinal : ℤ}
    (hordinal : 0 < ordinal ∧ ordinal ≤ maxOrdinal) :
    rounding (ordinal + 1721424.5) = ordinal + 1721424.5 := by
  have hhalf : (ordinal + 1721424.5 : ℚ) = (2 * ordinal + 3442849 : ℤ) / 2 ^ 1 := by
    push_cast
    ring
  rw [hhalf]
  refine hfaithful.keeps (representable_div_pow ?_ (by decide))
  rw [maxOrdinal] at hordinal
  rw [abs_lt]
  omega

theorem fraction_nonneg (hfaithful : Faithful rounding) (microseconds : ℕ) :
    0 ≤ fraction rounding microseconds := by
  have hsecond :
      0 ≤ rounding ((microseconds % 1000000 : ℕ) / 1e6) :=
    hfaithful.nonneg (by positivity)
  have hsum := hfaithful.nonneg
    (add_nonneg (Nat.cast_nonneg (microseconds / 1000000)) hsecond)
  exact hfaithful.nonneg (div_nonneg hsum (by norm_num))

/-- Each of the three roundings is kept below a double that is below the next
bound. -/
theorem fraction_lt_one (hfaithful : Faithful rounding) {microseconds : ℕ}
    (hlt : microseconds < dayLength) : fraction rounding microseconds < 1 := by
  have hsecond : rounding ((microseconds % 1000000 : ℕ) / 1e6) ≤
      ((2 ^ 20 - 1 : ℤ) : ℚ) / 2 ^ 20 := by
    refine hfaithful.le (by positivity) ?_
      (representable_div_pow (by decide) (by decide))
    have hle : ((microseconds % 1000000 : ℕ) : ℚ) ≤ 999999 := by
      exact_mod_cast (by omega : microseconds % 1000000 ≤ 999999)
    calc ((microseconds % 1000000 : ℕ) : ℚ) / 1e6
        ≤ 999999 / 1e6 := by gcongr
      _ ≤ ((2 ^ 20 - 1 : ℤ) : ℚ) / 2 ^ 20 := by norm_num
  have hsum : rounding ((microseconds / 1000000 : ℕ) +
      rounding ((microseconds % 1000000 : ℕ) / 1e6)) ≤
        ((86400 * 2 ^ 20 - 1 : ℤ) : ℚ) / 2 ^ 20 := by
    refine hfaithful.le ?_ ?_ (representable_div_pow (by decide) (by decide))
    · exact add_nonneg (Nat.cast_nonneg _) (hfaithful.nonneg (by positivity))
    · rw [dayLength] at hlt
      have hle : ((microseconds / 1000000 : ℕ) : ℚ) ≤ 86399 := by
        exact_mod_cast (by omega : microseconds / 1000000 ≤ 86399)
      calc _ ≤ (86399 : ℚ) + ((2 ^ 20 - 1 : ℤ) : ℚ) / 2 ^ 20 :=
            add_le_add hle hsecond
        _ = ((86400 * 2 ^ 20 - 1 : ℤ) : ℚ) / 2 ^ 20 := by norm_num
  calc fraction rounding microseconds
      ≤ ((2 ^ 37 - 1 : ℤ) : ℚ) / 2 ^ 37 := by
        refine hfaithful.le ?_ ?_ (representable_div_pow (by decide) (by decide))
        · refine div_nonneg (hfaithful.nonneg (add_nonneg (Nat.cast_nonneg _) ?_))
            (by norm_num)
          exact hfaithful.nonneg (by positivity)
        · calc _ ≤ ((86400 * 2 ^ 20 - 1 : ℤ) : ℚ) / 2 ^ 20 / 86400 := by
                gcongr
            _ ≤ ((2 ^ 37 - 1 : ℤ) : ℚ) / 2 ^ 37 := by norm_num
    _ < 1 := by norm_num

/-- The fraction is the part of the day that has gone by. -/
def IsExact (rounding : ℚ → ℚ) (microseconds : ℕ) : Prop :=
  fraction rounding microseconds = (microseconds : ℚ) / dayLength

theorem isExact_id (microseconds : ℕ) : IsExact id microseconds := by
  have hsplit : (microseconds : ℚ) =
      (microseconds / 1000000 : ℕ) * 1000000 + (microseconds % 1000000 : ℕ) := by
    exact_mod_cast (Nat.div_add_mod' microseconds 1000000).symm
  rw [IsExact, fraction, hsplit, dayLength]
  simp only [id]
  push_cast
  ring

end Parts

/-- On doubles the fraction is exact for the multiples of `10.546875` seconds,
which are those of the day's 8192nd part. -/
theorem isExact_round_iff {microseconds : ℕ} (hlt : microseconds < dayLength) :
    IsExact Binary64.round microseconds ↔ 10546875 ∣ microseconds := by
  rw [dayLength] at hlt
  constructor
  · intro hexact
    obtain ⟨exponent, number, hnumber⟩ := exists_round_mul_pow
      (Binary64.round ((microseconds / 1000000 : ℕ) +
        Binary64.round ((microseconds % 1000000 : ℕ) / 1e6)) / 86400)
    have hquotient : (microseconds : ℚ) / dayLength * 2 ^ exponent = number :=
      hexact ▸ hnumber
    have hcleared :
        (microseconds : ℚ) * 2 ^ exponent = 10546875 * (8192 * number) := by
      rw [← hquotient, dayLength]
      push_cast
      ring
    have hdvd : (10546875 : ℤ) ∣ microseconds * 2 ^ exponent :=
      ⟨8192 * number, by exact_mod_cast hcleared⟩
    have hcoprime : IsCoprime (10546875 : ℤ) (2 ^ exponent) :=
      IsCoprime.pow_right ⟨1, -5273437, by norm_num⟩
    exact_mod_cast hcoprime.dvd_of_dvd_mul_right hdvd
  · rintro ⟨part, rfl⟩
    generalize hseconds : 10546875 * part / 1000000 = seconds
    generalize hrest : 10546875 * part % 1000000 = rest
    have hsecond : (rest : ℚ) / 1e6 = (675 * part - 64 * seconds : ℤ) / 2 ^ 6 := by
      have hsplit : (10546875 * part : ℚ) = 1000000 * seconds + rest := by
        exact_mod_cast (by omega : 10546875 * part = 1000000 * seconds + rest)
      push_cast
      linarith
    have hsum : (seconds : ℚ) + (675 * part - 64 * seconds : ℤ) / 2 ^ 6 =
        (675 * part : ℤ) / 2 ^ 6 := by
      push_cast
      ring
    have hday : ((675 * part : ℤ) : ℚ) / 2 ^ 6 / 86400 = (part : ℤ) / 2 ^ 13 := by
      push_cast
      ring
    have hkeeps {significand : ℤ} {exponent : ℕ} (hbits : |significand| < 2 ^ 53)
        (hexponent : exponent ≤ 1074) :
        Binary64.round (significand / 2 ^ exponent) = significand / 2 ^ exponent :=
      faithful_round.keeps (representable_div_pow hbits hexponent)
    rw [IsExact, fraction, hseconds, hrest, hsecond,
      hkeeps (abs_lt.mpr (by omega)) (by decide), hsum,
      hkeeps (abs_lt.mpr (by omega)) (by decide), hday,
      hkeeps (abs_lt.mpr (by omega)) (by decide), dayLength]
    push_cast
    ring

/-- The two parts make the Julian date where the fraction is exact. -/
theorem sum_eq_iff {rounding : ℚ → ℚ} (hfaithful : Faithful rounding)
    (dt : Naive) :
    (julianDate rounding dt).1 + (julianDate rounding dt).2 =
        julianDay dt.microseconds ↔
      IsExact rounding (dt.microseconds % dayLength).toNat := by
  have hrest : 0 ≤ dt.microseconds % dayLength := Int.emod_nonneg _ (by decide)
  have hcast : (((dt.microseconds % dayLength).toNat : ℕ) : ℚ) =
      (dt.microseconds % dayLength : ℤ) := by
    exact_mod_cast congrArg (Int.cast (R := ℚ)) (Int.toNat_of_nonneg hrest)
  have hsplit : (dt.microseconds : ℚ) =
      (dt.microseconds / dayLength : ℤ) * dayLength +
        (dt.microseconds % dayLength : ℤ) := by
    exact_mod_cast (Int.ediv_mul_add_emod dt.microseconds dayLength).symm
  have hday : (dayLength : ℚ) ≠ 0 := by norm_num [dayLength]
  have hjulian : julianDay dt.microseconds =
      (dt.microseconds / dayLength : ℤ) + 1721424.5 +
        (dt.microseconds % dayLength : ℤ) / dayLength := by
    rw [julianDay]
    push_cast
    rw [hsplit]
    field_simp
    ring
  rw [julianDate_eq, rounding_jd hfaithful dt.inCalendar, hjulian, IsExact,
    hcast]
  exact add_right_inj _

/-! ## Requests -/

section Requests

variable {rounding : ℚ → ℚ} {Satellite Vector Geodetic : Type}
  {propagator : Propagator Satellite Vector Geodetic}

theorem getPosition_lines {line1 line2 : Text} (hline1 : line1 ≠ [])
    (hline2 : line2 ≠ []) (norad_id : ℤ) (at_ : Option QueryTime)
    (first now : Naive) :
    getPosition rounding propagator norad_id (some ⟨some line1, some line2⟩)
        at_ first now =
      positionAt rounding propagator norad_id
        (propagator.twoline2rv line1 line2) at_ first now := by
  simp [getPosition, hline1, hline2]

theorem positionAt_of_not_inCalendar {at_ : QueryTime}
    (hcalendar : ¬InCalendar at_.instant) (norad_id : ℤ) (satellite : Satellite)
    (first now : Naive) :
    positionAt rounding propagator norad_id satellite (some at_) first now =
      ⟨[], .raised .dateValueOutOfRange⟩ := by
  rw [positionAt, Option.getD_some, QueryTime.astimezone_error hcalendar]

theorem positionAt_of_far {at_ : QueryTime} {now : Naive}
    (hcalendar : InCalendar at_.instant) (hfar : Far at_.instant now)
    (hbetween : ¬Between at_.instant now) (norad_id : ℤ) (satellite : Satellite)
    (first : Naive) :
    positionAt rounding propagator norad_id satellite (some at_) first now =
      ⟨[], tooFar⟩ := by
  obtain ⟨instant, hzone, hinstant⟩ := QueryTime.exists_astimezone hcalendar
  rw [positionAt, Option.getD_some, hzone]
  refine if_pos ((daysBetween_far_iff instant now).mpr ?_)
  rw [hinstant]
  exact ⟨hfar, hbetween⟩

theorem positionAt_of_near {at_ : QueryTime} {now : Naive}
    (hcalendar : InCalendar at_.instant)
    (hnear : Far at_.instant now → Between at_.instant now) (norad_id : ℤ)
    (satellite : Satellite) (first : Naive) :
    ∃ instant, instant.microseconds = at_.instant ∧
      positionAt rounding propagator norad_id satellite (some at_) first now =
        propagate rounding propagator norad_id satellite instant := by
  obtain ⟨instant, hzone, hinstant⟩ := QueryTime.exists_astimezone hcalendar
  refine ⟨instant, hinstant, ?_⟩
  rw [positionAt, Option.getD_some, hzone]
  refine if_neg fun hdays => ?_
  obtain ⟨hfar, hbetween⟩ := (daysBetween_far_iff instant now).mp hdays
  rw [hinstant] at hfar hbetween
  exact hbetween (hnear hfar)

/-- The calls of `sgp4` depend on the instant alone. -/
theorem calls_eq_of_instant_eq {at_ other : QueryTime}
    (heq : other.instant = at_.instant) (norad_id : ℤ) (satellite : Satellite)
    (first now : Naive) :
    (positionAt rounding propagator norad_id satellite (some other) first
        now).calls =
      (positionAt rounding propagator norad_id satellite (some at_) first
        now).calls := by
  by_cases hcalendar : InCalendar at_.instant
  · have hother : InCalendar other.instant := by rwa [heq]
    by_cases hnear : Far at_.instant now → Between at_.instant now
    · have hothernear : Far other.instant now → Between other.instant now := by
        rwa [heq]
      obtain ⟨left, hleft, hleftcalls⟩ :=
        positionAt_of_near hother hothernear norad_id satellite first
      obtain ⟨right, hright, hrightcalls⟩ :=
        positionAt_of_near hcalendar hnear norad_id satellite first
      have hjulian : julianDate rounding left = julianDate rounding right := by
        rw [julianDate_eq, julianDate_eq, hleft, heq, hright]
      rw [hleftcalls, hrightcalls]
      simp only [propagate, hjulian]
    · obtain ⟨hfar, hbetween⟩ := Classical.not_imp.mp hnear
      rw [positionAt_of_far hcalendar hfar hbetween,
        positionAt_of_far hother (by rwa [heq]) (by rwa [heq])]
  · rw [positionAt_of_not_inCalendar hcalendar,
      positionAt_of_not_inCalendar (by rwa [heq])]

theorem propagate_ne_raised (norad_id : ℤ) (satellite : Satellite)
    (instant : Naive) (error : OverflowError) :
    (propagate rounding propagator norad_id satellite instant).answer ≠
      .raised error := by
  simp only [propagate]
  split_ifs
  · simp
  · simp

theorem propagate_ne_tooFar (norad_id : ℤ) (satellite : Satellite)
    (instant : Naive) :
    (propagate rounding propagator norad_id satellite instant).answer ≠
      tooFar := by
  simp only [propagate, tooFar]
  split_ifs
  · simp
  · simp

/-- The parts of the Julian date that a request hands on. -/
theorem julianDate_spec (hfaithful : Faithful rounding) {instant : Naive}
    (hexact : IsExact rounding (instant.microseconds % dayLength).toNat) :
    0 ≤ (julianDate rounding instant).2 ∧ (julianDate rounding instant).2 < 1 ∧
      (julianDate rounding instant).1 + (julianDate rounding instant).2 =
        julianDay instant.microseconds := by
  have hlt : (instant.microseconds % dayLength).toNat < dayLength :=
    (Int.toNat_lt_of_ne_zero (by decide)).mpr (Int.emod_lt_of_pos _ (by decide))
  refine ⟨?_, ?_, (sum_eq_iff hfaithful instant).mpr hexact⟩
  · rw [julianDate_eq]
    exact fraction_nonneg hfaithful _
  · rw [julianDate_eq]
    exact fraction_lt_one hfaithful hlt

section Handled

variable {at_ : QueryTime} {now first : Naive} {norad_id : ℤ}
  {satellite : Satellite}

/-- A time that is too far away is refused. -/
theorem handled_of_far (hcalendar : InCalendar at_.instant)
    (hfar : Far at_.instant now) (hbetween : ¬Between at_.instant now) :
    Handled (fun time => positionAt rounding propagator norad_id satellite
      (some time) first now) at_ now := by
  have hposition : positionAt rounding propagator norad_id satellite (some at_)
      first now = ⟨[], tooFar⟩ :=
    positionAt_of_far hcalendar hfar hbetween _ _ _
  exact
    { raises := fun error => by simp [hposition, tooFar]
      refuses := by simp [hposition, hfar]
      propagates := fun hnear => absurd hfar hnear
      agrees := fun other heq => calls_eq_of_instant_eq heq _ _ _ _ }

/-- A time that is near enough is propagated to, if its part of the day is
computed exactly. -/
theorem handled_of_near (hfaithful : Faithful rounding)
    (hcalendar : InCalendar at_.instant) (hnear : ¬Far at_.instant now)
    (hexact : IsExact rounding (at_.instant % dayLength).toNat) :
    Handled (fun time => positionAt rounding propagator norad_id satellite
      (some time) first now) at_ now := by
  obtain ⟨instant, hinstant, hposition⟩ :
      ∃ instant, instant.microseconds = at_.instant ∧
        positionAt rounding propagator norad_id satellite (some at_) first now =
          propagate rounding propagator norad_id satellite instant :=
    positionAt_of_near hcalendar (fun hfar => absurd hfar hnear) _ _ _
  rw [← hinstant] at hexact
  obtain ⟨hnonneg, hlt, hsum⟩ := julianDate_spec hfaithful hexact
  refine
    { raises := fun error => ?_
      refuses := ?_
      propagates := fun _ => ?_
      agrees := fun other heq => calls_eq_of_instant_eq heq _ _ _ _ }
  · rw [hposition]
    exact propagate_ne_raised _ _ _ _
  · rw [hposition]
    exact iff_of_false (propagate_ne_tooFar _ _ _) hnear
  · rw [hposition, ← hinstant]
    exact ⟨_, _, _, rfl, hnonneg, hlt, hsum⟩

variable (hhandled : Handled (fun time =>
  positionAt rounding propagator norad_id satellite (some time) first now)
    at_ now)

include hhandled

theorem inCalendar_of_handled : InCalendar at_.instant := by
  by_contra hcalendar
  apply hhandled.raises .dateValueOutOfRange
  rw [positionAt_of_not_inCalendar hcalendar]

theorem not_between_of_handled : ¬Between at_.instant now := by
  intro hbetween
  obtain ⟨instant, -, hposition⟩ := positionAt_of_near
    (inCalendar_of_handled hhandled) (fun _ => hbetween) norad_id satellite first
  have hrefused := hhandled.refuses.mpr hbetween.far
  rw [hposition] at hrefused
  exact propagate_ne_tooFar _ _ _ hrefused

theorem isExact_of_handled (hfaithful : Faithful rounding)
    (hnear : ¬Far at_.instant now) :
    IsExact rounding (at_.instant % dayLength).toNat := by
  obtain ⟨instant, hinstant, hposition⟩ := positionAt_of_near
    (inCalendar_of_handled hhandled) (fun hfar => absurd hfar hnear) norad_id
    satellite first
  obtain ⟨propagated, jd, fr, hcalls, -, -, hsum⟩ := hhandled.propagates hnear
  rw [hposition] at hcalls
  obtain ⟨-, hparts⟩ : _ ∧ julianDate rounding instant = (jd, fr) := by
    simpa [propagate] using hcalls
  have hjulian := sum_eq_iff hfaithful instant
  rw [hparts, hinstant] at hjulian
  exact hjulian.mp hsum

end Handled

/-- Where the time is handled, by the instant, the clock and the rounding. -/
theorem upheld_iff_of_faithful (hfaithful : Faithful rounding)
    (propagator : Propagator Satellite Vector Geodetic) (at_ : QueryTime)
    (now : Naive) :
    Upheld rounding propagator at_ now ↔
      InCalendar at_.instant ∧ ¬Between at_.instant now ∧
        (Far at_.instant now ∨
          IsExact rounding (at_.instant % dayLength).toNat) := by
  constructor
  · intro hupheld
    have hline : text "1" ≠ [] := by decide
    have hhandled := hupheld 0 (text "1") (text "1") now hline hline
    simp only [getPosition_lines hline hline] at hhandled
    refine ⟨inCalendar_of_handled hhandled, not_between_of_handled hhandled, ?_⟩
    by_cases hfar : Far at_.instant now
    · exact .inl hfar
    · exact .inr (isExact_of_handled hhandled hfaithful hfar)
  · rintro ⟨hcalendar, hbetween, hexact⟩ norad_id line1 line2 first hline1 hline2
    simp only [getPosition_lines hline1 hline2]
    by_cases hfar : Far at_.instant now
    · exact handled_of_far hcalendar hfar hbetween
    · exact handled_of_near hfaithful hcalendar hfar (hexact.resolve_left hfar)

end Requests

/-- Every time within the calendar is handled unless it is between 30 and 31
days ahead, if floats are taken as exact.  On doubles the parts of the Julian
date are moreover exact only for the multiples of `10.546875` seconds. -/
theorem times_handled_iff {Satellite Vector Geodetic : Type}
    (propagator : Propagator Satellite Vector Geodetic) (at_ : QueryTime)
    (now : Naive) :
    (Upheld id propagator at_ now ↔
        InCalendar at_.instant ∧ ¬Between at_.instant now) ∧
      (Upheld Binary64.round propagator at_ now ↔
        InCalendar at_.instant ∧ ¬Between at_.instant now ∧
          (Far at_.instant now ∨ (10546875 : ℤ) ∣ at_.instant)) := by
  have hlt : (at_.instant % dayLength).toNat < dayLength :=
    (Int.toNat_lt_of_ne_zero (by decide)).mpr (Int.emod_lt_of_pos _ (by decide))
  have hrest : 0 ≤ at_.instant % dayLength := Int.emod_nonneg _ (by decide)
  have hdvd : 10546875 ∣ (at_.instant % dayLength).toNat ↔
      (10546875 : ℤ) ∣ at_.instant := by
    rw [← Int.natCast_dvd_natCast, Int.toNat_of_nonneg hrest]
    exact EuclideanDomain.dvd_mod_iff (by decide)
  constructor
  · rw [upheld_iff_of_faithful faithful_id]
    simp only [isExact_id, or_true, and_true]
  · rw [upheld_iff_of_faithful faithful_round, isExact_round_iff hlt, hdvd]

/-! ## Times that are not handled -/

/-- The first of January 2026. -/
def newYear : Naive :=
  { date := ⟨2026, 1, 1, by decide, by decide, by decide, by decide, by decide,
      by decide⟩
    time := ⟨0, 0, 0, 0, by decide, by decide, by decide, by decide⟩ }

/-- Noon of the 31st. -/
def endOfJanuary : QueryTime :=
  { fields :=
      { date := ⟨2026, 1, 31, by decide, by decide, by decide, by decide,
          by decide, by decide⟩
        time := ⟨12, 0, 0, 0, by decide, by decide, by decide, by decide⟩ }
    offset := none }

/-- A propagator that always succeeds. -/
def still : Propagator Unit Unit Unit where
  twoline2rv _ _ := ()
  sgp4 _ _ _ := (0, ())
  temeToGeodetic _ _ := ()

/-- A time 30.5 days ahead is accepted. -/
theorem half_day_late_accepted :
    ¬Upheld id still endOfJanuary newYear ∧
      ¬Upheld Binary64.round still endOfJanuary newYear := by
  have hbetween : Between endOfJanuary.instant newYear := by
    constructor <;> decide
  constructor
  · rw [upheld_iff_of_faithful faithful_id]
    exact fun hhandled => hhandled.2.1 hbetween
  · rw [upheld_iff_of_faithful faithful_round]
    exact fun hhandled => hhandled.2.1 hbetween

end UTTG.Api.Position
