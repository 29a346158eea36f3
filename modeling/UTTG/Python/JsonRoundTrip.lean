import UTTG.Python.Json

/-!
# Reading back what was written

Reading the text that `dumps` wrote gives the value back, except that a split
surrogate pair inside a string comes back as one character and that objects
serialised by the `default` function come back as strings.  The theorem is
exact: `readBack` says what comes back for every value that can be written.
-/

namespace UTTG.Python

/-! ## Strings -/

/-- How the code points of a string are written: each with whether it is
written as a `\u` escape. -/
def unitsOf (code : CodePoint) : List (CodePoint × Bool) :=
  if code = point 0x22 ∨ code = point 0x5C ∨ code = point 0x0A ∨
      code = point 0x0D ∨ code = point 0x09 ∨ code = point 0x0C ∨
      code = point 0x08 then [(code, false)]
  else if 0x20 ≤ code.val ∧ code.val < 0x7F then [(code, false)]
  else if code.val < 0x10000 then [(code, true)]
  else [(highOf code, true), (lowOf code, true)]

theorem scanUnits_quote (rest : Text) :
    scanUnits (point 0x22 :: rest) = some ([], rest) := by
  rw [scanUnits.eq_def]
  simp only [if_true]

theorem scanUnits_plain {code : CodePoint} {tail after : Text}
    {units : List (CodePoint × Bool)} (hquote : code ≠ point 0x22)
    (hslash : code ≠ point 0x5C) (hcontrol : ¬code.val < 0x20)
    (htail : scanUnits tail = some (units, after)) :
    scanUnits (code :: tail) = some ((code, false) :: units, after) := by
  rw [scanUnits.eq_def]
  simp only [if_neg hquote, if_neg hslash, if_neg hcontrol, htail]

theorem scanUnits_short {letter char : CodePoint} {tail after : Text}
    {units : List (CodePoint × Bool)} (hletter : letter ≠ point 0x75)
    (hshort : shortEscape letter = some char)
    (htail : scanUnits tail = some (units, after)) :
    scanUnits (point 0x5C :: letter :: tail) =
      some ((char, false) :: units, after) := by
  have hslash : point 0x5C ≠ point 0x22 := by decide
  rw [scanUnits.eq_def]
  rcases tail with _ | ⟨first, _ | ⟨second, _ | ⟨third, _ | ⟨fourth, tail⟩⟩⟩⟩ <;>
    simp only [if_neg hslash, if_true, hshort, htail, if_neg hletter]

theorem scanUnits_escape {code : CodePoint} {tail after : Text}
    {units : List (CodePoint × Bool)} (hcode : code.val < 0x10000)
    (htail : scanUnits tail = some (units, after)) :
    scanUnits (escape code ++ tail) =
      some ((code, true) :: units, after) := by
  have hslash : point 0x5C ≠ point 0x22 := by decide
  have htext : escape code ++ tail = point 0x5C :: point 0x75 ::
      hexDigit (code.val / 0x1000 % 16) :: hexDigit (code.val / 0x100 % 16) ::
      hexDigit (code.val / 0x10 % 16) :: hexDigit (code.val % 16) :: tail :=
    rfl
  have hpoint : point code.val = code := Fin.ext (val_point code.isLt)
  rw [htext, scanUnits.eq_def]
  simp only [if_neg hslash, if_true, unhex4_hex4 hcode, htail, hpoint]

/-- Scanning one encoded code point. -/
theorem scanUnits_encodePoint (code : CodePoint) {tail after : Text}
    {units : List (CodePoint × Bool)}
    (htail : scanUnits tail = some (units, after)) :
    scanUnits (encodePoint code ++ tail) =
      some (unitsOf code ++ units, after) := by
  unfold encodePoint
  split
  · next hcode =>
      rw [hcode]
      exact scanUnits_short (by decide) rfl htail
  split
  · next hcode =>
      rw [hcode]
      exact scanUnits_short (by decide) rfl htail
  split
  · next hcode =>
      rw [hcode]
      exact scanUnits_short (by decide) rfl htail
  split
  · next hcode =>
      rw [hcode]
      exact scanUnits_short (by decide) rfl htail
  split
  · next hcode =>
      rw [hcode]
      exact scanUnits_short (by decide) rfl htail
  split
  · next hcode =>
      rw [hcode]
      exact scanUnits_short (by decide) rfl htail
  split
  · next hcode =>
      rw [hcode]
      exact scanUnits_short (by decide) rfl htail
  next hquote hslash hline hreturn htab hfeed hback =>
    have hspecial : ¬(code = point 0x22 ∨ code = point 0x5C ∨
        code = point 0x0A ∨ code = point 0x0D ∨ code = point 0x09 ∨
        code = point 0x0C ∨ code = point 0x08) := by
      simp only [hquote, hslash, hline, hreturn, htab, hfeed, hback, or_self,
        not_false_eq_true]
    rw [unitsOf, if_neg hspecial]
    split
    · next hprintable =>
        have hcontrol : ¬code.val < 0x20 := not_lt.mpr hprintable.1
        exact scanUnits_plain hquote hslash hcontrol htail
    · split
      · next hbasic => exact scanUnits_escape hbasic htail
      · have hbound := code.isLt
        have hlow : (lowOf code).val < 0x10000 := by
          rw [val_lowOf]
          omega
        have hhigh : (highOf code).val < 0x10000 := by
          rw [val_highOf]
          omega
        rw [List.append_assoc]
        exact scanUnits_escape hhigh (scanUnits_escape hlow htail)

theorem scanUnits_encoded (string after : Text) :
    scanUnits (string.flatMap encodePoint ++ point 0x22 :: after) =
      some (string.flatMap unitsOf, after) := by
  induction string with
  | nil => exact scanUnits_quote after
  | cons code string ih =>
      rw [List.flatMap_cons, List.flatMap_cons, List.append_assoc]
      exact scanUnits_encodePoint code ih

/-- A code point below `0x10000` is one unit, and the surrogates are written
as escapes. -/
theorem unitsOf_basic {code : CodePoint} (hcode : code.val < 0x10000) :
    ∃ escaped, unitsOf code = [(code, escaped)] ∧
      (isHigh code = true ∨ isLow code = true → escaped = true) := by
  unfold unitsOf
  split
  · next hspecial =>
      refine ⟨false, rfl, fun hsurrogate => ?_⟩
      rcases hspecial with rfl | rfl | rfl | rfl | rfl | rfl | rfl <;>
        exact absurd hsurrogate (by decide)
  · split
    · next hprintable =>
        refine ⟨false, rfl, fun hsurrogate => ?_⟩
        simp only [isHigh, isLow, Bool.and_eq_true, decide_eq_true_eq]
          at hsurrogate
        omega
    · exact ⟨true, rfl, fun _ => rfl⟩

theorem unitsOf_extended {code : CodePoint} (hcode : ¬code.val < 0x10000) :
    unitsOf code = [(highOf code, true), (lowOf code, true)] := by
  have hspecial : ¬(code = point 0x22 ∨ code = point 0x5C ∨
      code = point 0x0A ∨ code = point 0x0D ∨ code = point 0x09 ∨
      code = point 0x0C ∨ code = point 0x08) := by
    rintro (rfl | rfl | rfl | rfl | rfl | rfl | rfl) <;>
      exact hcode (by decide)
  have hprintable : ¬(0x20 ≤ code.val ∧ code.val < 0x7F) := by omega
  rw [unitsOf, if_neg hspecial, if_neg hprintable, if_neg hcode]

/-- The first unit of a code point is not a low surrogate unless the code
point is one. -/
theorem unitsOf_head (code : CodePoint) :
    ∃ first rest, unitsOf code = first :: rest ∧
      (isLow first.1 = true → isLow code = true) := by
  by_cases hcode : code.val < 0x10000
  · obtain ⟨escaped, hunits, -⟩ := unitsOf_basic hcode
    exact ⟨_, _, hunits, fun hlow => hlow⟩
  · refine ⟨_, _, unitsOf_extended hcode, fun hlow => ?_⟩
    have hhigh := isHigh_highOf code
    simp only [isHigh, isLow, Bool.and_eq_true, decide_eq_true_eq]
      at hhigh hlow
    omega

theorem mergeUnits_pair {high low : CodePoint} (hhigh : isHigh high = true)
    (hlow : isLow low = true) (units : List (CodePoint × Bool)) :
    mergeUnits ((high, true) :: (low, true) :: units) =
      join high low :: mergeUnits units := by
  have hpair : (true && true && isHigh high && isLow low) = true := by
    rw [hhigh, hlow]
    rfl
  rw [mergeUnits]
  exact if_pos hpair

/-- A code point that does not start a pair with the next one is merged into
nothing. -/
theorem mergeUnits_cons {code : CodePoint} {next : Text}
    (hpair : ∀ low ∈ next.head?, ¬(isHigh code = true ∧ isLow low = true)) :
    mergeUnits (unitsOf code ++ next.flatMap unitsOf) =
      code :: mergeUnits (next.flatMap unitsOf) := by
  by_cases hcode : code.val < 0x10000
  · obtain ⟨escaped, hunits, -⟩ := unitsOf_basic hcode
    rw [hunits]
    cases next with
    | nil => rfl
    | cons low rest =>
        obtain ⟨first, others, hfirst, hlow⟩ := unitsOf_head low
        have hno : ¬(isHigh code = true ∧ isLow first.1 = true) := fun hboth =>
          hpair low rfl ⟨hboth.1, hlow hboth.2⟩
        rw [List.flatMap_cons, hfirst]
        change mergeUnits ((code, escaped) :: first :: _) = _
        rw [mergeUnits, if_neg]
        · rfl
        · simp only [Bool.and_eq_true]
          exact fun hall => hno ⟨hall.1.2, hall.2⟩
  · rw [unitsOf_extended hcode]
    have hmerged := mergeUnits_pair (isHigh_highOf code) (isLow_lowOf code)
      (next.flatMap unitsOf)
    rw [join_highOf_lowOf (not_lt.mp hcode)] at hmerged
    exact hmerged

theorem mergeUnits_encoded (string : Text) :
    mergeUnits (string.flatMap unitsOf) = joinPairs string := by
  fun_induction joinPairs string with
  | case1 => rfl
  | case2 code =>
      have hnone : ∀ low ∈ ([] : Text).head?,
          ¬(isHigh code = true ∧ isLow low = true) := by
        simp
      simpa [mergeUnits] using mergeUnits_cons hnone
  | case3 high low rest hpair ih =>
      rw [Bool.and_eq_true] at hpair
      have hbasic : ∀ code : CodePoint, isHigh code = true ∨ isLow code = true →
          unitsOf code = [(code, true)] := by
        intro code hsurrogate
        have hcode : code.val < 0x10000 := by
          simp only [isHigh, isLow, Bool.and_eq_true, decide_eq_true_eq]
            at hsurrogate
          omega
        obtain ⟨escaped, hunits, hescaped⟩ := unitsOf_basic hcode
        rw [hunits, hescaped hsurrogate]
      rw [List.flatMap_cons, List.flatMap_cons, hbasic high (.inl hpair.1),
        hbasic low (.inr hpair.2)]
      have hmerged := mergeUnits_pair hpair.1 hpair.2 (rest.flatMap unitsOf)
      rw [ih] at hmerged
      exact hmerged
  | case4 high low rest hpair ih =>
      rw [Bool.and_eq_true] at hpair
      rw [List.flatMap_cons, mergeUnits_cons, ih]
      intro other hother
      obtain rfl : low = other := by simpa using hother
      exact hpair

/-- An encoded string is read back with its split pairs joined. -/
theorem scanString_encoded (string after : Text) :
    scanString (string.flatMap encodePoint ++ point 0x22 :: after) =
      some (joinPairs string, after) := by
  rw [scanString, scanUnits_encoded, Option.map_some]
  dsimp only
  rw [mergeUnits_encoded]

/-! ## Numbers -/

/-- What may follow a number without becoming part of it. -/
def Stops (rest : Text) : Prop :=
  ∀ code ∈ rest.head?, isDigit code = false ∧ code ≠ point 0x2E ∧
    code ≠ point 0x65 ∧ code ≠ point 0x45 ∧ code ≠ point 0x2B ∧
    code ≠ point 0x2D

theorem stops_nil : Stops [] := by
  simp [Stops]

theorem stops_cons {code : CodePoint} {rest : Text}
    (hcode : code = point 0x2C ∨ code = point 0x5D ∨ code = point 0x7D) :
    Stops (code :: rest) := by
  intro other hother
  obtain rfl : code = other := by simpa using hother
  rcases hcode with rfl | rfl | rfl <;> decide

theorem spanDigits_append {source digits after rest : Text}
    (hspan : spanDigits source = (digits, after)) (hstops : Stops rest) :
    spanDigits (source ++ rest) = (digits, after ++ rest) := by
  induction source generalizing digits with
  | nil =>
      obtain ⟨rfl, rfl⟩ := Prod.mk.inj hspan
      cases rest with
      | nil => rfl
      | cons code rest =>
          have hdigit := (hstops code rfl).1
          rw [List.nil_append, spanDigits, hdigit]
          rfl
  | cons code source ih =>
      rw [List.cons_append, spanDigits]
      rw [spanDigits] at hspan
      cases hdigit : isDigit code with
      | true =>
          rw [hdigit, if_pos rfl] at hspan
          obtain ⟨rfl, rfl⟩ := Prod.mk.inj hspan
          rw [ih rfl]
          rfl
      | false =>
          rw [hdigit, if_neg Bool.false_ne_true] at hspan
          obtain ⟨rfl, rfl⟩ := Prod.mk.inj hspan
          rfl

theorem spanInteger_append {source digits after rest : Text}
    (hspan : spanInteger source = some (digits, after))
    (hstops : Stops rest) :
    spanInteger (source ++ rest) = some (digits, after ++ rest) := by
  cases source with
  | nil => simp [spanInteger] at hspan
  | cons code source =>
      rw [List.cons_append, spanInteger]
      rw [spanInteger] at hspan
      by_cases hzero : code = point 0x30
      · rw [if_pos hzero] at hspan ⊢
        obtain ⟨rfl, rfl⟩ := Prod.mk.inj (Option.some.inj hspan)
        rfl
      · rw [if_neg hzero] at hspan ⊢
        cases hdigit : isDigit code with
        | true =>
            rw [hdigit, if_pos rfl] at hspan
            obtain ⟨rfl, rfl⟩ := Prod.mk.inj (Option.some.inj hspan)
            rw [spanDigits_append rfl hstops]
            rfl
        | false => simp [hdigit] at hspan

theorem spanFraction_append {source fraction after rest : Text}
    (hspan : spanFraction source = (fraction, after)) (hstops : Stops rest) :
    spanFraction (source ++ rest) = (fraction, after ++ rest) := by
  cases source with
  | nil =>
      obtain ⟨rfl, rfl⟩ := Prod.mk.inj hspan
      cases rest with
      | nil => rfl
      | cons code rest =>
          have hpoint := (hstops code rfl).2.1
          rw [List.nil_append, spanFraction, if_neg hpoint]
  | cons code source =>
      rw [List.cons_append, spanFraction]
      rw [spanFraction] at hspan
      by_cases hpoint : code = point 0x2E
      · rw [if_pos hpoint] at hspan ⊢
        rw [spanDigits_append rfl hstops]
        cases hdigits : spanDigits source with
        | mk digits remaining =>
            rw [hdigits] at hspan
            cases digits with
            | nil =>
                obtain ⟨rfl, rfl⟩ := Prod.mk.inj hspan
                rfl
            | cons digit digits =>
                obtain ⟨rfl, rfl⟩ := Prod.mk.inj hspan
                rfl
      · rw [if_neg hpoint] at hspan ⊢
        obtain ⟨rfl, rfl⟩ := Prod.mk.inj hspan
        rfl

theorem spanSign_append {source sign after rest : Text}
    (hspan : spanSign source = (sign, after)) (hstops : Stops rest) :
    spanSign (source ++ rest) = (sign, after ++ rest) := by
  cases source with
  | nil =>
      obtain ⟨rfl, rfl⟩ := Prod.mk.inj hspan
      cases rest with
      | nil => rfl
      | cons code rest =>
          obtain ⟨-, -, -, -, hplus, hminus⟩ := hstops code rfl
          rw [List.nil_append, spanSign, if_neg (not_or.mpr ⟨hminus, hplus⟩)]
  | cons code source =>
      rw [List.cons_append, spanSign]
      rw [spanSign] at hspan
      split at hspan
      · obtain ⟨rfl, rfl⟩ := Prod.mk.inj hspan
        rw [if_pos ‹_›]
      · obtain ⟨rfl, rfl⟩ := Prod.mk.inj hspan
        rw [if_neg ‹_›]
        rfl

theorem spanExponent_append {source exponent after rest : Text}
    (hspan : spanExponent source = (exponent, after)) (hstops : Stops rest) :
    spanExponent (source ++ rest) = (exponent, after ++ rest) := by
  cases source with
  | nil =>
      obtain ⟨rfl, rfl⟩ := Prod.mk.inj hspan
      cases rest with
      | nil => rfl
      | cons code rest =>
          obtain ⟨-, -, hlower, hupper, -⟩ := hstops code rfl
          rw [List.nil_append, spanExponent,
            if_neg (not_or.mpr ⟨hlower, hupper⟩)]
  | cons code source =>
      rw [List.cons_append, spanExponent]
      rw [spanExponent] at hspan
      by_cases hletter : code = point 0x65 ∨ code = point 0x45
      · rw [if_pos hletter] at hspan ⊢
        cases hsign : spanSign source with
        | mk sign unsigned =>
            cases hdigits : spanDigits unsigned with
            | mk digits remaining =>
                rw [spanSign_append hsign hstops]
                rw [hsign] at hspan
                dsimp only at hspan ⊢
                rw [spanDigits_append hdigits hstops]
                rw [hdigits] at hspan
                cases digits with
                | nil =>
                    obtain ⟨rfl, rfl⟩ := Prod.mk.inj hspan
                    rfl
                | cons digit digits =>
                    obtain ⟨rfl, rfl⟩ := Prod.mk.inj hspan
                    rfl
      · rw [if_neg hletter] at hspan ⊢
        obtain ⟨rfl, rfl⟩ := Prod.mk.inj hspan
        rfl

theorem spanUnsigned_append {source literal after rest : Text}
    {isFloat : Bool}
    (hspan : spanUnsigned source = some (literal, isFloat, after))
    (hstops : Stops rest) :
    spanUnsigned (source ++ rest) =
      some (literal, isFloat, after ++ rest) := by
  unfold spanUnsigned at hspan ⊢
  cases hinteger : spanInteger source with
  | none => simp [hinteger] at hspan
  | some parts =>
      obtain ⟨integer, remaining⟩ := parts
      cases hfraction : spanFraction remaining with
      | mk fraction afterFraction =>
          cases hexponent : spanExponent afterFraction with
          | mk exponent afterExponent =>
              rw [hinteger] at hspan
              rw [spanInteger_append hinteger hstops]
              dsimp only at hspan ⊢
              rw [hfraction] at hspan
              rw [spanFraction_append hfraction hstops]
              dsimp only at hspan ⊢
              rw [hexponent] at hspan
              rw [spanExponent_append hexponent hstops]
              dsimp only at hspan ⊢
              rw [Option.some.injEq, Prod.mk.injEq, Prod.mk.injEq] at hspan
              obtain ⟨hliteral, hfloat, hafter⟩ := hspan
              rw [hliteral, hfloat, hafter]

/-- A number literal is recognised whatever stops it. -/
theorem spanNumber_append {source literal after rest : Text}
    {isFloat : Bool}
    (hspan : spanNumber source = some (literal, isFloat, after))
    (hstops : Stops rest) :
    spanNumber (source ++ rest) = some (literal, isFloat, after ++ rest) := by
  cases source with
  | nil => simp [spanNumber] at hspan
  | cons code source =>
      rw [List.cons_append, spanNumber]
      rw [spanNumber] at hspan
      by_cases hminus : code = point 0x2D
      · rw [if_pos hminus] at hspan ⊢
        cases hunsigned : spanUnsigned source with
        | none => simp [hunsigned] at hspan
        | some parts =>
            obtain ⟨unsigned, float, remaining⟩ := parts
            rw [spanUnsigned_append hunsigned hstops]
            rw [hunsigned] at hspan
            obtain ⟨rfl, rfl, rfl⟩ := by simpa using hspan
            rfl
      · rw [if_neg hminus] at hspan ⊢
        exact spanUnsigned_append hspan hstops

theorem spanDigits_of_forall {digits : Text}
    (hdigits : ∀ code ∈ digits, isDigit code = true) :
    spanDigits digits = (digits, []) := by
  induction digits with
  | nil => rfl
  | cons code digits ih =>
      have hcode := hdigits code List.mem_cons_self
      rw [spanDigits, hcode, if_pos rfl,
        ih fun other hother => hdigits other (List.mem_cons_of_mem code hother)]

theorem spanUnsigned_decimal (number : ℕ) :
    spanUnsigned (decimal number) = some (decimal number, false, []) := by
  have hinteger : spanInteger (decimal number) =
      some (decimal number, []) := by
    rcases decimal_cases number with hzero | ⟨first, rest, hsplit, hfirst,
      hnonzero, hrest⟩
    · rw [hzero]
      rfl
    · have hne : first ≠ point 0x30 := by
        rintro rfl
        exact hnonzero rfl
      rw [hsplit, spanInteger, if_neg hne, hfirst, if_pos rfl,
        spanDigits_of_forall hrest]
  rw [spanUnsigned, hinteger]
  dsimp only [spanFraction, spanExponent]
  simp

theorem decimal_head (number : ℕ) :
    ∃ first rest, decimal number = first :: rest ∧
      isDigit first = true := by
  rcases decimal_cases number with hzero | ⟨first, rest, hsplit, hfirst, -⟩
  · exact ⟨point 0x30, [], hzero, rfl⟩
  · exact ⟨first, rest, hsplit, hfirst⟩

theorem ne_of_isDigit {code other : CodePoint} (hcode : isDigit code = true)
    (hother : isDigit other = false) : code ≠ other := by
  rintro rfl
  rw [hcode] at hother
  simp at hother

theorem spanNumber_intText {value : ℤ} {literal : Text}
    (htext : intText value = some literal) :
    spanNumber literal = some (literal, false, []) := by
  unfold intText at htext
  split at htext
  case isFalse => simp at htext
  case isTrue =>
    obtain rfl := Option.some.inj htext
    split
    · rw [spanNumber, if_pos rfl, spanUnsigned_decimal]
    · obtain ⟨first, rest, hsplit, hfirst⟩ := decimal_head value.natAbs
      have hminus : first ≠ point 0x2D := ne_of_isDigit hfirst rfl
      have hunsigned := spanUnsigned_decimal value.natAbs
      rw [hsplit] at hunsigned ⊢
      rw [spanNumber, if_neg hminus, hunsigned]

theorem readInt_intText {value : ℤ} {literal : Text}
    (htext : intText value = some literal) :
    readInt literal = some value := by
  unfold intText at htext
  split at htext
  case isFalse => simp at htext
  case isTrue hlength =>
    obtain rfl := Option.some.inj htext
    split
    · next hnegative =>
        rw [readInt, if_pos rfl, if_pos hlength, digitsValue_decimal]
        congr 1
        omega
    · next hnonneg =>
        obtain ⟨first, rest, hsplit, hfirst⟩ := decimal_head value.natAbs
        have hminus : first ≠ point 0x2D := ne_of_isDigit hfirst rfl
        have hvalue := digitsValue_decimal value.natAbs
        rw [hsplit] at hvalue hlength ⊢
        rw [readInt, if_neg hminus, if_pos hlength, hvalue]
        congr 1
        omega

/-! ## Scalars -/

theorem spanUnsigned_head {source literal after : Text} {isFloat : Bool}
    (hspan : spanUnsigned source = some (literal, isFloat, after)) :
    ∃ code rest, source = code :: rest ∧ isDigit code = true := by
  unfold spanUnsigned at hspan
  cases source with
  | nil => simp [spanInteger] at hspan
  | cons code rest =>
      refine ⟨code, rest, rfl, ?_⟩
      by_contra hdigit
      have hzero : code ≠ point 0x30 := by
        rintro rfl
        exact hdigit rfl
      have hnone : spanInteger (code :: rest) = none := by
        rw [spanInteger, if_neg hzero, if_neg hdigit]
      rw [hnone] at hspan
      simp at hspan

/-- A number starts with a digit, or with a minus sign and a digit. -/
theorem spanNumber_head {source literal after : Text} {isFloat : Bool}
    (hspan : spanNumber source = some (literal, isFloat, after)) :
    ∃ code rest, source = code :: rest ∧ (isDigit code = true ∨
      code = point 0x2D ∧ ∃ digit more, rest = digit :: more ∧
        isDigit digit = true) := by
  cases source with
  | nil => simp [spanNumber] at hspan
  | cons code rest =>
      refine ⟨code, rest, rfl, ?_⟩
      rw [spanNumber] at hspan
      by_cases hminus : code = point 0x2D
      · right
        rw [if_pos hminus] at hspan
        cases hunsigned : spanUnsigned rest with
        | none => simp [hunsigned] at hspan
        | some parts =>
            obtain ⟨unsigned, float, remaining⟩ := parts
            obtain ⟨digit, more, hrest, hdigit⟩ := spanUnsigned_head hunsigned
            exact ⟨hminus, digit, more, hrest, hdigit⟩
      · left
        rw [if_neg hminus] at hspan
        obtain ⟨first, others, hsource, hdigit⟩ := spanUnsigned_head hspan
        obtain ⟨rfl, -⟩ := List.cons.inj hsource
        exact hdigit

theorem stripLiteral_append (literal rest : Text) :
    stripLiteral literal (literal ++ rest) = some rest := by
  have hprefix : literal.isPrefixOf (literal ++ rest) = true :=
    List.isPrefixOf_iff_prefix.mpr (List.prefix_append literal rest)
  rw [stripLiteral, if_pos hprefix, List.drop_left]

theorem stripLiteral_eq_none {literal source : Text}
    (hliteral : ¬literal <+: source) :
    stripLiteral literal source = none := by
  rw [stripLiteral, if_neg]
  exact fun hprefix => hliteral (List.isPrefixOf_iff_prefix.mp hprefix)

section Scalars

variable {F D : Type} (format : FloatFormat F)

/-- A number is not mistaken for another literal. -/
theorem scanScalar_number {source literal rest : Text} {isFloat : Bool}
    (hspan : spanNumber source = some (literal, isFloat, [])) :
    (scanScalar format (source ++ rest) : Option (Value F D × Text)) =
      scanNumber format (source ++ rest) := by
  obtain ⟨code, more, rfl, hhead⟩ := spanNumber_head hspan
  have hletters : ∀ letter : CodePoint, isDigit letter = false →
      letter ≠ point 0x2D → code ≠ letter := by
    intro letter hletter hminus
    rcases hhead with hdigit | ⟨rfl, -⟩
    · exact ne_of_isDigit hdigit hletter
    · exact hminus.symm
  have hinfinity : ¬text "-Infinity" <+: code :: more ++ rest := by
    have htext : text "-Infinity" =
        point 0x2D :: point 0x49 :: text "nfinity" := by decide
    rw [htext, List.cons_append, List.cons_prefix_cons]
    rintro ⟨hminus, htail⟩
    rcases hhead with hdigit | ⟨-, digit, others, rfl, hdigit⟩
    · exact ne_of_isDigit hdigit rfl hminus.symm
    · rw [List.cons_append, List.cons_prefix_cons] at htail
      exact ne_of_isDigit hdigit rfl htail.1.symm
  rw [List.cons_append] at hinfinity ⊢
  rw [scanScalar]
  rw [if_neg (hletters (point 0x6E) rfl (by decide)),
    if_neg (hletters (point 0x74) rfl (by decide)),
    if_neg (hletters (point 0x66) rfl (by decide)),
    if_neg (hletters (point 0x4E) rfl (by decide)),
    if_neg (hletters (point 0x49) rfl (by decide)),
    stripLiteral_eq_none hinfinity]

theorem scanScalar_int {value : ℤ} {literal rest : Text}
    (htext : intText value = some literal) (hstops : Stops rest) :
    (scanScalar format (literal ++ rest) : Option (Value F D × Text)) =
      some (.int value, rest) := by
  have hspan := spanNumber_intText htext
  rw [scanScalar_number format hspan, scanNumber,
    spanNumber_append hspan hstops]
  dsimp only
  rw [readInt_intText htext]
  rfl

theorem scanScalar_float (value : PyFloat F) {rest : Text}
    (hstops : Stops rest) :
    (scanScalar format (floatText format value ++ rest) :
      Option (Value F D × Text)) = some (.float value, rest) := by
  cases value with
  | finite value =>
      have hspan := format.literal value
      rw [floatText, scanScalar_number format hspan, scanNumber,
        spanNumber_append hspan hstops]
      dsimp only
      rw [format.read_repr]
      rfl
  | infinity negative =>
      cases negative with
      | true =>
          have htext : text "-Infinity" ++ rest =
              point 0x2D :: (text "Infinity" ++ rest) := rfl
          have hstrip := stripLiteral_append (text "-Infinity") rest
          rw [floatText]
          rw [htext] at hstrip ⊢
          rw [scanScalar, if_neg (by decide), if_neg (by decide),
            if_neg (by decide), if_neg (by decide), if_neg (by decide),
            hstrip]
      | false =>
          have htext : text "Infinity" ++ rest =
              point 0x49 :: (text "nfinity" ++ rest) := rfl
          have hstrip := stripLiteral_append (text "Infinity") rest
          rw [floatText]
          rw [htext] at hstrip ⊢
          rw [scanScalar, if_neg (by decide), if_neg (by decide),
            if_neg (by decide), if_neg (by decide), if_pos rfl, hstrip]
          rfl
  | nan =>
      have htext : text "NaN" ++ rest =
          point 0x4E :: (text "aN" ++ rest) := rfl
      have hstrip := stripLiteral_append (text "NaN") rest
      rw [floatText]
      rw [htext] at hstrip ⊢
      rw [scanScalar, if_neg (by decide), if_neg (by decide),
        if_neg (by decide), if_pos rfl, hstrip]
      rfl

end Scalars

/-! ## Values -/

section RoundTrip

variable {F D : Type} (format : FloatFormat F) (default : D → Option Text)

mutual

/-- The value that comes back when a written value is read. -/
def readBack : Value F D → Value F D
  | .str value => .str (joinPairs value)
  | .list items => .list (readBackItems items)
  | .dict items => .dict (Dict.ofPairs (readBackMembers items))
  | .other value =>
      match default value with
      | some string => .str (joinPairs string)
      | none => .other value
  | value => value

def readBackItems : List (Value F D) → List (Value F D)
  | [] => []
  | item :: items => readBack item :: readBackItems items

def readBackMembers : List (Text × Value F D) → List (Text × Value F D)
  | [] => []
  | (key, item) :: items =>
      (joinPairs key, readBack item) :: readBackMembers items

end

/-- The first character of a written value: neither a space, nor a closing
bracket, nor a byte order mark. -/
def Opens (code : CodePoint) : Prop :=
  isSpace code = false ∧ code ≠ point 0x5D ∧ code ≠ point 0x7D ∧
    code ≠ point 0xFEFF

theorem opens_of_isDigit {code : CodePoint} (hdigit : isDigit code = true) :
    Opens code := by
  refine ⟨?_, ne_of_isDigit hdigit rfl, ne_of_isDigit hdigit rfl,
    ne_of_isDigit hdigit rfl⟩
  simp only [isSpace, Bool.or_eq_false_iff, decide_eq_false_iff_not]
  exact ⟨⟨⟨ne_of_isDigit hdigit rfl, ne_of_isDigit hdigit rfl⟩,
    ne_of_isDigit hdigit rfl⟩, ne_of_isDigit hdigit rfl⟩

theorem opens_of_spanNumber {source literal after : Text} {isFloat : Bool}
    (hspan : spanNumber source = some (literal, isFloat, after)) :
    ∃ code rest, source = code :: rest ∧ Opens code ∧
      code ≠ point 0x22 ∧ code ≠ point 0x7B ∧ code ≠ point 0x5B := by
  obtain ⟨code, rest, hsource, hdigit | ⟨rfl, -⟩⟩ := spanNumber_head hspan
  · exact ⟨code, rest, hsource, opens_of_isDigit hdigit,
      ne_of_isDigit hdigit rfl, ne_of_isDigit hdigit rfl,
      ne_of_isDigit hdigit rfl⟩
  · exact ⟨_, rest, hsource, by unfold Opens; decide, by decide, by decide,
      by decide⟩

theorem skipSpace_of_opens {code : CodePoint} (hopens : Opens code)
    (rest : Text) : skipSpace (code :: rest) = code :: rest := by
  rw [skipSpace, List.dropWhile_cons_of_neg]
  rw [hopens.1]
  exact Bool.false_ne_true

theorem skipSpace_of_not_space {code : CodePoint}
    (hspace : isSpace code = false) (rest : Text) :
    skipSpace (code :: rest) = code :: rest := by
  rw [skipSpace, List.dropWhile_cons_of_neg]
  rw [hspace]
  exact Bool.false_ne_true

variable {format default}

/-! What writing a container writes for its parts. -/

theorem dumps_list_cons {item : Value F D} {items : List (Value F D)}
    {written : Text}
    (hdumps : dumps format default (.list (item :: items)) = some written) :
    ∃ first others, dumps format default item = some first ∧
      dumpsItems format default items = some others ∧
      written = point 0x5B :: (first ++ others ++ [point 0x5D]) := by
  rw [dumps] at hdumps
  obtain ⟨first, hfirst, hrest⟩ := Option.bind_eq_some_iff.mp hdumps
  obtain ⟨others, hothers, hwritten⟩ := Option.bind_eq_some_iff.mp hrest
  exact ⟨first, others, hfirst, hothers, (Option.some.inj hwritten).symm⟩

theorem dumpsItems_cons {item : Value F D} {items : List (Value F D)}
    {written : Text}
    (hdumps : dumpsItems format default (item :: items) = some written) :
    ∃ first others, dumps format default item = some first ∧
      dumpsItems format default items = some others ∧
      written = point 0x2C :: (first ++ others) := by
  rw [dumpsItems] at hdumps
  obtain ⟨first, hfirst, hrest⟩ := Option.bind_eq_some_iff.mp hdumps
  obtain ⟨others, hothers, hwritten⟩ := Option.bind_eq_some_iff.mp hrest
  exact ⟨first, others, hfirst, hothers, (Option.some.inj hwritten).symm⟩

theorem dumps_dict_cons {key : Text} {item : Value F D}
    {items : List (Text × Value F D)} {written : Text}
    (hdumps : dumps format default (.dict ((key, item) :: items)) =
      some written) :
    ∃ first others, dumps format default item = some first ∧
      dumpsMembers format default items = some others ∧
      written = point 0x7B ::
        (encodeString key ++ (point 0x3A :: first) ++ others ++
          [point 0x7D]) := by
  rw [dumps] at hdumps
  obtain ⟨first, hfirst, hrest⟩ := Option.bind_eq_some_iff.mp hdumps
  obtain ⟨others, hothers, hwritten⟩ := Option.bind_eq_some_iff.mp hrest
  exact ⟨first, others, hfirst, hothers, (Option.some.inj hwritten).symm⟩

theorem dumpsMembers_cons {key : Text} {item : Value F D}
    {items : List (Text × Value F D)} {written : Text}
    (hdumps : dumpsMembers format default ((key, item) :: items) =
      some written) :
    ∃ first others, dumps format default item = some first ∧
      dumpsMembers format default items = some others ∧
      written = point 0x2C ::
        (encodeString key ++ (point 0x3A :: first) ++ others) := by
  rw [dumpsMembers] at hdumps
  obtain ⟨first, hfirst, hrest⟩ := Option.bind_eq_some_iff.mp hdumps
  obtain ⟨others, hothers, hwritten⟩ := Option.bind_eq_some_iff.mp hrest
  exact ⟨first, others, hfirst, hothers, (Option.some.inj hwritten).symm⟩

/-- A written value opens with a character that starts a value. -/
theorem dumps_head {value : Value F D} {written : Text}
    (hdumps : dumps format default value = some written) :
    ∃ code rest, written = code :: rest ∧ Opens code := by
  have hliteral : ∀ (code : CodePoint) (rest : Text), Opens code →
      some (code :: rest) = some written →
        ∃ code rest, written = code :: rest ∧ Opens code := by
    intro code rest hopens hsome
    exact ⟨code, rest, (Option.some.inj hsome).symm, hopens⟩
  cases value with
  | null =>
      rw [dumps] at hdumps
      exact hliteral (point 0x6E) (text "ull") (by unfold Opens; decide) hdumps
  | bool value =>
      cases value with
      | true =>
          rw [dumps] at hdumps
          exact hliteral (point 0x74) (text "rue") (by unfold Opens; decide)
            hdumps
      | false =>
          rw [dumps] at hdumps
          exact hliteral (point 0x66) (text "alse") (by unfold Opens; decide)
            hdumps
  | int value =>
      rw [dumps] at hdumps
      obtain ⟨code, rest, hwritten, hopens, -⟩ :=
        opens_of_spanNumber (spanNumber_intText hdumps)
      exact ⟨code, rest, hwritten, hopens⟩
  | float value =>
      rw [dumps] at hdumps
      obtain rfl := Option.some.inj hdumps
      cases value with
      | finite value =>
          obtain ⟨code, rest, hwritten, hopens, -⟩ :=
            opens_of_spanNumber (format.literal value)
          exact ⟨code, rest, hwritten, hopens⟩
      | infinity negative =>
          cases negative with
          | true =>
              exact ⟨point 0x2D, text "Infinity", rfl,
                by unfold Opens; decide⟩
          | false =>
              exact ⟨point 0x49, text "nfinity", rfl,
                by unfold Opens; decide⟩
      | nan => exact ⟨point 0x4E, text "aN", rfl, by unfold Opens; decide⟩
  | str value =>
      rw [dumps] at hdumps
      exact hliteral (point 0x22) _ (by unfold Opens; decide) hdumps
  | list items =>
      cases items with
      | nil =>
          rw [dumps] at hdumps
          exact hliteral (point 0x5B) (text "]") (by unfold Opens; decide)
            hdumps
      | cons item items =>
          obtain ⟨first, others, -, -, hwritten⟩ := dumps_list_cons hdumps
          exact ⟨_, _, hwritten, by unfold Opens; decide⟩
  | dict items =>
      cases items with
      | nil =>
          rw [dumps] at hdumps
          exact hliteral (point 0x7B) (text "\x7d") (by unfold Opens; decide)
            hdumps
      | cons entry items =>
          obtain ⟨key, item⟩ := entry
          obtain ⟨first, others, -, -, hwritten⟩ := dumps_dict_cons hdumps
          exact ⟨_, _, hwritten, by unfold Opens; decide⟩
  | other value =>
      rw [dumps, Option.map_eq_some_iff] at hdumps
      obtain ⟨string, -, rfl⟩ := hdumps
      exact ⟨point 0x22, _, rfl, by unfold Opens; decide⟩

/-- Scalars are dispatched on their first character. -/
theorem scanOnce_scalar {fuel : ℕ} {code : CodePoint} {rest : Text}
    (hquote : code ≠ point 0x22) (hbrace : code ≠ point 0x7B)
    (hbracket : code ≠ point 0x5B) :
    (scanOnce format (fuel + 1) (code :: rest) :
      Option (Value F D × Text)) = scanScalar format (code :: rest) := by
  rw [scanOnce, if_neg hquote, if_neg hbrace, if_neg hbracket]

theorem scanOnce_number {fuel : ℕ} {source literal rest : Text}
    {isFloat : Bool}
    (hspan : spanNumber source = some (literal, isFloat, [])) :
    (scanOnce format (fuel + 1) (source ++ rest) :
      Option (Value F D × Text)) = scanScalar format (source ++ rest) := by
  obtain ⟨code, more, rfl, -, hquote, hbrace, hbracket⟩ :=
    opens_of_spanNumber hspan
  exact scanOnce_scalar hquote hbrace hbracket

theorem scanOnce_encodeString {fuel : ℕ} (string rest : Text) :
    (scanOnce format (fuel + 1) (encodeString string ++ rest) :
      Option (Value F D × Text)) = some (.str (joinPairs string), rest) := by
  have htext : encodeString string ++ rest = point 0x22 ::
      (string.flatMap encodePoint ++ point 0x22 :: rest) := by
    simp [encodeString]
  rw [htext, scanOnce, if_pos rfl, scanString_encoded]
  rfl

theorem scanOnce_float {fuel : ℕ} (value : PyFloat F) {rest : Text}
    (hstops : Stops rest) :
    (scanOnce format (fuel + 1) (floatText format value ++ rest) :
      Option (Value F D × Text)) = some (.float value, rest) := by
  rw [← scanScalar_float format value hstops]
  cases value with
  | finite value => exact scanOnce_number (format.literal value)
  | infinity negative =>
      cases negative with
      | true => exact scanOnce_scalar (by decide) (by decide) (by decide)
      | false => exact scanOnce_scalar (by decide) (by decide) (by decide)
  | nan => exact scanOnce_scalar (by decide) (by decide) (by decide)

mutual

/-- Scanning a written value followed by text that stops numbers gives the
value back and leaves that text. -/
theorem scanOnce_dumps :
    ∀ (fuel : ℕ) (value : Value F D) {written rest : Text},
      dumps format default value = some written → Stops rest →
      written.length < fuel →
      scanOnce format fuel (written ++ rest) =
        some (readBack default value, rest)
  | 0, _, _, _, _, _, hfuel => absurd hfuel (Nat.not_lt_zero _)
  | fuel + 1, value, written, rest, hdumps, hstops, hfuel => by
    cases value with
    | null =>
        rw [dumps] at hdumps
        obtain rfl := Option.some.inj hdumps
        exact scanOnce_scalar (by decide) (by decide) (by decide)
    | bool value =>
        cases value with
        | true =>
            rw [dumps] at hdumps
            obtain rfl := Option.some.inj hdumps
            exact scanOnce_scalar (by decide) (by decide) (by decide)
        | false =>
            rw [dumps] at hdumps
            obtain rfl := Option.some.inj hdumps
            exact scanOnce_scalar (by decide) (by decide) (by decide)
    | int value =>
        rw [dumps] at hdumps
        rw [scanOnce_number (spanNumber_intText hdumps),
          scanScalar_int format hdumps hstops, readBack]
        all_goals simp
    | float value =>
        rw [dumps] at hdumps
        obtain rfl := Option.some.inj hdumps
        rw [scanOnce_float value hstops, readBack]
        all_goals simp
    | str value =>
        rw [dumps] at hdumps
        obtain rfl := Option.some.inj hdumps
        rw [scanOnce_encodeString, readBack]
    | list items =>
        cases items with
        | nil =>
            rw [dumps] at hdumps
            obtain rfl := Option.some.inj hdumps
            rfl
        | cons item items =>
            obtain ⟨first, others, hfirst, hothers, rfl⟩ :=
              dumps_list_cons hdumps
            simp only [List.length_cons, List.length_append, List.length_nil]
              at hfuel
            have hitems := scanItems_dumps fuel item items hfirst hothers rest
              (by omega)
            obtain ⟨code, more, rfl, hopens⟩ := dumps_head hfirst
            have htext : point 0x5B :: (code :: more ++ others ++
                [point 0x5D]) ++ rest =
                point 0x5B :: code ::
                  (more ++ others ++ point 0x5D :: rest) := by
              simp
            rw [List.cons_append, List.cons_append] at hitems
            rw [htext, scanOnce, if_neg (by decide), if_neg (by decide),
              if_pos rfl, skipSpace_of_opens hopens]
            dsimp only
            rw [if_neg hopens.2.1, hitems, readBack, readBackItems]
    | dict items =>
        cases items with
        | nil =>
            rw [dumps] at hdumps
            obtain rfl := Option.some.inj hdumps
            rfl
        | cons entry items =>
            obtain ⟨key, item⟩ := entry
            obtain ⟨first, others, hfirst, hothers, rfl⟩ :=
              dumps_dict_cons hdumps
            simp only [List.length_cons, List.length_append, List.length_nil]
              at hfuel
            have hitems := scanMembers_dumps fuel key item items hfirst
              hothers rest (by omega)
            have htext : point 0x7B :: (encodeString key ++
                (point 0x3A :: first) ++ others ++ [point 0x7D]) ++ rest =
                point 0x7B :: point 0x22 :: (key.flatMap encodePoint ++
                  point 0x22 :: (point 0x3A :: first ++ others ++
                    point 0x7D :: rest)) := by
              simp [encodeString]
            rw [htext, scanOnce, if_neg (by decide), if_pos rfl,
              skipSpace_of_not_space rfl]
            dsimp only
            rw [if_neg (by decide), hitems, readBack, readBackMembers]
    | other value =>
        rw [dumps, Option.map_eq_some_iff] at hdumps
        obtain ⟨string, hstring, rfl⟩ := hdumps
        rw [scanOnce_encodeString, readBack, hstring]

/-- The items of a list up to the closing bracket. -/
theorem scanItems_dumps :
    ∀ (fuel : ℕ) (item : Value F D) (items : List (Value F D))
      {first others : Text}, dumps format default item = some first →
      dumpsItems format default items = some others → ∀ rest : Text,
      first.length + others.length + 1 < fuel →
      scanItems format fuel (first ++ others ++ point 0x5D :: rest) =
        some (readBack default item :: readBackItems default items, rest)
  | 0, _, _, _, _, _, _, _, hfuel => absurd hfuel (Nat.not_lt_zero _)
  | fuel + 1, item, items, first, others, hfirst, hothers, rest, hfuel => by
    cases items with
    | nil =>
        rw [dumpsItems] at hothers
        obtain rfl := Option.some.inj hothers
        rw [List.length_nil] at hfuel
        have hstops : Stops (point 0x5D :: rest) :=
          stops_cons (.inr (.inl rfl))
        have hitem := scanOnce_dumps fuel item hfirst hstops (by omega)
        rw [List.append_nil, scanItems, hitem]
        dsimp only
        rw [skipSpace_of_not_space rfl]
        dsimp only
        rw [if_pos rfl, readBackItems]
    | cons other items =>
        obtain ⟨second, more, hsecond, hmore, rfl⟩ := dumpsItems_cons hothers
        simp only [List.length_cons, List.length_append] at hfuel
        have hstops : Stops (point 0x2C ::
            (second ++ more ++ point 0x5D :: rest)) :=
          stops_cons (.inl rfl)
        have hitem := scanOnce_dumps fuel item hfirst hstops (by omega)
        have hitems := scanItems_dumps fuel other items hsecond hmore rest
          (by omega)
        have htext : first ++ point 0x2C :: (second ++ more) ++
            point 0x5D :: rest = first ++ point 0x2C ::
              (second ++ more ++ point 0x5D :: rest) := by
          simp
        have hskip : skipSpace (second ++ more ++ point 0x5D :: rest) =
            second ++ more ++ point 0x5D :: rest := by
          obtain ⟨code, tail, rfl, hopens⟩ := dumps_head hsecond
          exact skipSpace_of_opens hopens _
        rw [htext, scanItems, hitem]
        dsimp only
        rw [skipSpace_of_not_space rfl]
        dsimp only
        rw [if_neg (by decide), if_pos rfl, hskip, hitems, readBackItems]

/-- The members of an object up to the closing brace. -/
theorem scanMembers_dumps :
    ∀ (fuel : ℕ) (key : Text) (item : Value F D)
      (items : List (Text × Value F D)) {first others : Text},
      dumps format default item = some first →
      dumpsMembers format default items = some others → ∀ rest : Text,
      first.length + others.length + 1 < fuel →
      scanMembers format fuel (point 0x22 :: (key.flatMap encodePoint ++
        point 0x22 ::
          (point 0x3A :: first ++ others ++ point 0x7D :: rest))) =
        some ((joinPairs key, readBack default item) ::
          readBackMembers default items, rest)
  | 0, _, _, _, _, _, _, _, _, hfuel => absurd hfuel (Nat.not_lt_zero _)
  | fuel + 1, key, item, items, first, others, hfirst, hothers, rest,
      hfuel => by
    have hskipFirst : ∀ after,
        skipSpace (first ++ after) = first ++ after := by
      intro after
      obtain ⟨code, tail, rfl, hopens⟩ := dumps_head hfirst
      exact skipSpace_of_opens hopens _
    cases items with
    | nil =>
        rw [dumpsMembers] at hothers
        obtain rfl := Option.some.inj hothers
        rw [List.length_nil] at hfuel
        have hstops : Stops (point 0x7D :: rest) :=
          stops_cons (.inr (.inr rfl))
        have hitem := scanOnce_dumps fuel item hfirst hstops (by omega)
        have htext : point 0x3A :: first ++ [] ++ point 0x7D :: rest =
            point 0x3A :: (first ++ point 0x7D :: rest) := by
          simp
        rw [htext, scanMembers, if_pos rfl, scanString_encoded]
        dsimp only
        rw [skipSpace_of_not_space rfl]
        dsimp only
        rw [if_pos rfl, hskipFirst, hitem]
        dsimp only
        rw [skipSpace_of_not_space rfl]
        dsimp only
        rw [if_pos rfl, readBackMembers]
    | cons entry items =>
        obtain ⟨next, other⟩ := entry
        obtain ⟨second, more, hsecond, hmore, rfl⟩ :=
          dumpsMembers_cons hothers
        simp only [List.length_cons, List.length_append] at hfuel
        have hitems := scanMembers_dumps fuel next other items hsecond hmore
          rest (by omega)
        have htext : point 0x3A :: first ++ point 0x2C :: (encodeString next ++
            (point 0x3A :: second) ++ more) ++ point 0x7D :: rest =
            point 0x3A :: (first ++ point 0x2C :: point 0x22 ::
              (next.flatMap encodePoint ++ point 0x22 ::
                (point 0x3A :: second ++ more ++ point 0x7D :: rest))) := by
          simp [encodeString]
        have hstops : Stops (point 0x2C :: point 0x22 ::
            (next.flatMap encodePoint ++ point 0x22 ::
              (point 0x3A :: second ++ more ++ point 0x7D :: rest))) :=
          stops_cons (.inl rfl)
        have hitem := scanOnce_dumps fuel item hfirst hstops (by omega)
        rw [htext, scanMembers, if_pos rfl, scanString_encoded]
        dsimp only
        rw [skipSpace_of_not_space rfl]
        dsimp only
        rw [if_pos rfl, hskipFirst, hitem]
        dsimp only
        rw [skipSpace_of_not_space rfl]
        dsimp only
        rw [if_neg (by decide), if_pos rfl, skipSpace_of_not_space rfl,
          hitems, readBackMembers]

end

/-- `json.loads` inverts `json.dumps` up to `readBack`. -/
theorem loads_dumps {value : Value F D} {written : Text}
    (hdumps : dumps format default value = some written) :
    loads format written = some (readBack default value) := by
  have hscan := scanOnce_dumps (written.length + 1) value hdumps stops_nil
    (Nat.lt_succ_self _)
  rw [List.append_nil] at hscan
  obtain ⟨code, rest, rfl, hopens⟩ := dumps_head hdumps
  have hmark : (code :: rest).head? ≠ some (point 0xFEFF) := by
    rw [List.head?_cons, Ne, Option.some.injEq]
    exact hopens.2.2.2
  rw [loads, if_neg hmark, skipSpace_of_opens hopens, hscan]
  rfl

end RoundTrip

end UTTG.Python
