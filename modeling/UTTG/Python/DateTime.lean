import UTTG.Python.Text

/-!
# Timezone-aware datetimes as text

`isoformat` with any separator; `str` of a datetime is `isoformat` with a
space.  Up to the separator every form of the datetime is its date.
-/

namespace UTTG.Python

/-- A timezone-aware `datetime`; the offset from UTC is in microseconds. -/
structure DateTime where
  year : ℕ
  month : ℕ
  day : ℕ
  hour : ℕ
  minute : ℕ
  second : ℕ
  microsecond : ℕ
  utcOffset : ℤ
  deriving DecidableEq

/-- `f"{number:0{width}d}"`. -/
def padded (width number : ℕ) : Text :=
  List.replicate (width - (decimal number).length) (point 0x30) ++
    decimal number

namespace DateTime

/-- `f"{year:04d}-{month:02d}-{day:02d}"`. -/
def date (value : DateTime) : Text :=
  padded 4 value.year ++ point 0x2D :: padded 2 value.month ++
    point 0x2D :: padded 2 value.day

/-- A point and six digits, unless the microseconds are zero. -/
def fraction (microsecond : ℕ) : Text :=
  if microsecond = 0 then [] else point 0x2E :: padded 6 microsecond

/-- `_format_time` and `_format_offset`. -/
def time (value : DateTime) : Text :=
  let offset := value.utcOffset.natAbs
  let sign := if value.utcOffset < 0 then point 0x2D else point 0x2B
  padded 2 value.hour ++ point 0x3A :: padded 2 value.minute ++
    point 0x3A :: padded 2 value.second ++ fraction value.microsecond ++
    sign :: padded 2 (offset / 3600000000) ++
    point 0x3A :: padded 2 (offset / 60000000 % 60) ++
    if offset % 60000000 = 0 then []
    else point 0x3A :: padded 2 (offset / 1000000 % 60) ++
      fraction (offset % 1000000)

/-- `datetime.isoformat(separator)`. -/
def isoformat (separator : CodePoint) (value : DateTime) : Text :=
  value.date ++ separator :: value.time

/-- `datetime.__str__`. -/
def str (value : DateTime) : Text := value.isoformat (point 0x20)

end DateTime

/-! ## The date survives the joining of split pairs -/

theorem joinPairs_cons {code : CodePoint} (hcode : isHigh code = false)
    (rest : Text) : joinPairs (code :: rest) = code :: joinPairs rest := by
  cases rest with
  | nil => rfl
  | cons next rest =>
      rw [joinPairs, hcode, Bool.false_and, if_neg Bool.false_ne_true]

theorem joinPairs_append {left : Text}
    (hleft : ∀ code ∈ left, isHigh code = false) (right : Text) :
    joinPairs (left ++ right) = left ++ joinPairs right := by
  induction left with
  | nil => rfl
  | cons code left ih =>
      obtain ⟨hcode, hrest⟩ := List.forall_mem_cons.mp hleft
      rw [List.cons_append, joinPairs_cons hcode, ih hrest]
      rfl

theorem isHigh_of_isDigit {code : CodePoint} (hdigit : isDigit code = true) :
    isHigh code = false := by
  simp only [isDigit, Bool.and_eq_true, decide_eq_true_eq] at hdigit
  simp only [isHigh, Bool.and_eq_false_iff, decide_eq_false_iff_not]
  omega

theorem isHigh_of_mem_padded {width number : ℕ} {code : CodePoint}
    (hmem : code ∈ padded width number) : isHigh code = false := by
  rcases List.mem_append.mp hmem with hzero | hdigit
  · rw [(List.mem_replicate.mp hzero).2]
    rfl
  · exact isHigh_of_isDigit (isDigit_of_mem_decimal hdigit)

namespace DateTime

theorem isHigh_of_mem_date {value : DateTime} {code : CodePoint}
    (hmem : code ∈ value.date) : isHigh code = false := by
  simp only [date, List.mem_append, List.mem_cons] at hmem
  rcases hmem with (hyear | rfl | hmonth) | rfl | hday
  · exact isHigh_of_mem_padded hyear
  · rfl
  · exact isHigh_of_mem_padded hmonth
  · rfl
  · exact isHigh_of_mem_padded hday

/-- After any round trip the string form still has a space where another
rendering has its separator. -/
theorem joinPairs_str_ne {separator : CodePoint}
    (hseparator : separator ≠ point 0x20) (value : DateTime) (rest : Text) :
    joinPairs value.str ≠ value.date ++ separator :: rest := by
  rw [str, isoformat, joinPairs_append fun code hmem => isHigh_of_mem_date hmem,
    joinPairs_cons rfl]
  intro hsame
  exact hseparator (List.cons.inj (List.append_cancel_left hsame)).1.symm

end DateTime

end UTTG.Python
