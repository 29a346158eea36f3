import Mathlib

/-!
# Python strings

A string is a sequence of code points in which surrogates may occur.  This
module has the arithmetic of surrogate pairs, hexadecimal and decimal digits,
and what it means for a string to hold a split pair: a high surrogate directly
followed by a low one, two code points where one character is meant.
-/

namespace UTTG.Python

abbrev CodePoint := Fin 0x110000

abbrev Text := List CodePoint

instance lawfulBEqText : LawfulBEq Text := inferInstance

/-- The code point with a number below the bound. -/
abbrev point (number : ℕ) : CodePoint := Fin.ofNat 0x110000 number

/-- The text of a literal. -/
def text (literal : String) : Text :=
  literal.toList.map fun char => point char.toNat

/-! ## Surrogates -/

def isHigh (code : CodePoint) : Bool := 0xD800 ≤ code.val && code.val < 0xDC00

def isLow (code : CodePoint) : Bool := 0xDC00 ≤ code.val && code.val < 0xE000

/-- The character that a surrogate pair encodes. -/
def join (high low : CodePoint) : CodePoint :=
  point (0x10000 + (high.val - 0xD800) * 0x400 + (low.val - 0xDC00))

/-- The surrogate pair of a character outside the basic plane. -/
def highOf (code : CodePoint) : CodePoint :=
  point (0xD800 + (code.val - 0x10000) / 0x400)

def lowOf (code : CodePoint) : CodePoint :=
  point (0xDC00 + (code.val - 0x10000) % 0x400)

theorem val_point {number : ℕ} (hbound : number < 0x110000) :
    (point number).val = number :=
  Nat.mod_eq_of_lt hbound

theorem val_highOf {code : CodePoint} :
    (highOf code).val = 0xD800 + (code.val - 0x10000) / 0x400 := by
  have hbound := code.isLt
  rw [highOf, val_point (by omega)]

theorem val_lowOf {code : CodePoint} :
    (lowOf code).val = 0xDC00 + (code.val - 0x10000) % 0x400 := by
  rw [lowOf, val_point (by omega)]

theorem isHigh_highOf (code : CodePoint) : isHigh (highOf code) = true := by
  have hbound := code.isLt
  simp only [isHigh, val_highOf, Bool.and_eq_true, decide_eq_true_eq]
  omega

theorem isLow_lowOf (code : CodePoint) : isLow (lowOf code) = true := by
  simp only [isLow, val_lowOf, Bool.and_eq_true, decide_eq_true_eq]
  omega

theorem join_highOf_lowOf {code : CodePoint} (hcode : 0x10000 ≤ code.val) :
    join (highOf code) (lowOf code) = code := by
  have hbound := code.isLt
  apply Fin.ext
  rw [join, val_highOf, val_lowOf, val_point (by omega)]
  omega

/-- Read left to right, replace each split pair by its character. -/
def joinPairs : Text → Text
  | [] => []
  | [code] => [code]
  | high :: low :: rest =>
      if isHigh high && isLow low then join high low :: joinPairs rest
      else high :: joinPairs (low :: rest)

/-- No high surrogate is directly followed by a low one. -/
def Unsplit (string : Text) : Prop :=
  string.IsChain fun high low => ¬(isHigh high = true ∧ isLow low = true)

instance (string : Text) : Decidable (Unsplit string) :=
  inferInstanceAs (Decidable (List.IsChain _ _))

theorem length_joinPairs_le (string : Text) :
    (joinPairs string).length ≤ string.length := by
  fun_induction joinPairs string with
  | case1 => simp
  | case2 code => simp
  | case3 high low rest hpair ih =>
      simp only [List.length_cons]
      omega
  | case4 high low rest hpair ih =>
      simp only [List.length_cons] at ih ⊢
      omega

/-- Joining changes exactly the strings with a split pair. -/
theorem joinPairs_eq_self_iff (string : Text) :
    joinPairs string = string ↔ Unsplit string := by
  fun_induction joinPairs string with
  | case1 => exact iff_of_true rfl List.isChain_nil
  | case2 code => exact iff_of_true rfl (List.isChain_singleton code)
  | case3 high low rest hpair ih =>
      rw [Bool.and_eq_true] at hpair
      refine iff_of_false (fun heq => ?_) fun hchain => ?_
      · have hlength := length_joinPairs_le rest
        have hsame := congrArg List.length heq
        simp only [List.length_cons] at hsame
        omega
      · exact (List.isChain_cons_cons.mp hchain).1 hpair
  | case4 high low rest hpair ih =>
      rw [Bool.and_eq_true] at hpair
      have hcons : Unsplit (high :: low :: rest) ↔ Unsplit (low :: rest) := by
        unfold Unsplit
        rw [List.isChain_cons_cons]
        exact and_iff_right hpair
      rw [List.cons_inj_right, ih, hcons]

theorem le_val_join {high low : CodePoint} (hhigh : isHigh high = true)
    (hlow : isLow low = true) : 0x10000 ≤ (join high low).val := by
  simp only [isHigh, isLow, Bool.and_eq_true, decide_eq_true_eq] at hhigh hlow
  rw [join, val_point (by omega)]
  omega

/-- A joined string that starts with a low surrogate started with it. -/
theorem head?_joinPairs {low code : CodePoint} {rest : Text}
    (hhead : (joinPairs (low :: rest)).head? = some code)
    (hlow : isLow code = true) : code = low := by
  cases rest with
  | nil => exact (Option.some.inj hhead).symm
  | cons next rest =>
      rw [joinPairs] at hhead
      split at hhead
      · next hpair =>
          rw [Bool.and_eq_true] at hpair
          obtain rfl := Option.some.inj hhead
          have hval := le_val_join hpair.1 hpair.2
          simp only [isLow, Bool.and_eq_true, decide_eq_true_eq] at hlow
          omega
      · exact (Option.some.inj hhead).symm

/-- No pair is left to join. -/
theorem unsplit_joinPairs (string : Text) : Unsplit (joinPairs string) := by
  fun_induction joinPairs string with
  | case1 => exact List.isChain_nil
  | case2 code => exact List.isChain_singleton code
  | case3 high low rest hpair ih =>
      rw [Bool.and_eq_true] at hpair
      have hval := le_val_join hpair.1 hpair.2
      apply List.isChain_cons.mpr
      constructor
      · intro code _ hboth
        simp only [isHigh, Bool.and_eq_true, decide_eq_true_eq] at hboth
        omega
      · exact ih
  | case4 high low rest hpair ih =>
      rw [Bool.and_eq_true] at hpair
      apply List.isChain_cons.mpr
      constructor
      · intro code hcode hboth
        rw [head?_joinPairs hcode hboth.2] at hboth
        exact hpair hboth
      · exact ih

@[simp]
theorem joinPairs_joinPairs (string : Text) :
    joinPairs (joinPairs string) = joinPairs string :=
  (joinPairs_eq_self_iff _).mpr (unsplit_joinPairs string)

/-! ## Hexadecimal -/

def hexDigit (digit : ℕ) : CodePoint :=
  point (if digit < 10 then 0x30 + digit else 0x57 + digit)

def hexValue (code : CodePoint) : Option ℕ :=
  if 0x30 ≤ code.val ∧ code.val ≤ 0x39 then some (code.val - 0x30)
  else if 0x41 ≤ code.val ∧ code.val ≤ 0x46 then some (code.val - 0x37)
  else if 0x61 ≤ code.val ∧ code.val ≤ 0x66 then some (code.val - 0x57)
  else none

/-- Four lower-case digits. -/
def hex4 (number : ℕ) : Text :=
  [hexDigit (number / 0x1000 % 16), hexDigit (number / 0x100 % 16),
    hexDigit (number / 0x10 % 16), hexDigit (number % 16)]

/-- The number that four digits write. -/
def unhex4 (first second third fourth : CodePoint) : Option ℕ := do
  let first ← hexValue first
  let second ← hexValue second
  let third ← hexValue third
  let fourth ← hexValue fourth
  return first * 0x1000 + second * 0x100 + third * 0x10 + fourth

theorem hexValue_hexDigit {digit : ℕ} (hdigit : digit < 16) :
    hexValue (hexDigit digit) = some digit := by
  have hall : ∀ digit : Fin 16,
      hexValue (hexDigit digit.val) = some digit.val := by
    decide
  exact hall ⟨digit, hdigit⟩

theorem unhex4_hex4 {number : ℕ} (hnumber : number < 0x10000) :
    unhex4 (hexDigit (number / 0x1000 % 16)) (hexDigit (number / 0x100 % 16))
      (hexDigit (number / 0x10 % 16)) (hexDigit (number % 16)) =
        some number := by
  have hlt : ∀ value : ℕ, value % 16 < 16 := fun value =>
    Nat.mod_lt value (by norm_num)
  have hsum : number / 0x1000 % 16 * 0x1000 + number / 0x100 % 16 * 0x100 +
      number / 0x10 % 16 * 0x10 + number % 16 = number := by
    omega
  simp only [unhex4, hexValue_hexDigit (hlt _), Option.bind_eq_bind,
    Option.bind_some, Option.pure_def, hsum]

/-! ## Decimal -/

def isDigit (code : CodePoint) : Bool := 0x30 ≤ code.val && code.val ≤ 0x39

/-- The decimal digits of a number, most significant first. -/
def decimal (number : ℕ) : Text :=
  if number = 0 then [point 0x30]
  else (Nat.digits 10 number).reverse.map fun digit => point (0x30 + digit)

/-- The number that a string of digits writes. -/
def digitsValue (digits : Text) : ℕ :=
  digits.foldl (fun value code => value * 10 + (code.val - 0x30)) 0

theorem isDigit_point {digit : ℕ} (hdigit : digit < 10) :
    isDigit (point (0x30 + digit)) = true := by
  rw [isDigit, val_point (by omega)]
  simp only [Bool.and_eq_true, decide_eq_true_eq]
  omega

theorem isDigit_of_mem_decimal {number : ℕ} {code : CodePoint}
    (hmem : code ∈ decimal number) : isDigit code = true := by
  unfold decimal at hmem
  split at hmem
  · rw [List.mem_singleton] at hmem
    rw [hmem]
    rfl
  · obtain ⟨digit, hdigit, rfl⟩ := List.mem_map.mp hmem
    exact isDigit_point
      (Nat.digits_lt_base (by norm_num) (List.mem_reverse.mp hdigit))

theorem digitsValue_map (digits : List ℕ)
    (hdigits : ∀ digit ∈ digits, digit < 10) :
    digitsValue (digits.reverse.map fun digit => point (0x30 + digit)) =
      Nat.ofDigits 10 digits := by
  induction digits with
  | nil => rfl
  | cons digit rest ih =>
      have hdigit := hdigits digit List.mem_cons_self
      have hrest := ih fun other hother =>
        hdigits other (List.mem_cons_of_mem digit hother)
      rw [List.reverse_cons, List.map_append, List.map_singleton, digitsValue,
        List.foldl_append, List.foldl_cons, List.foldl_nil]
      change digitsValue _ * 10 + _ = _
      rw [hrest, val_point (by omega), Nat.ofDigits_cons]
      omega

theorem digitsValue_decimal (number : ℕ) :
    digitsValue (decimal number) = number := by
  unfold decimal
  split
  · next hzero =>
      rw [hzero]
      rfl
  · rw [digitsValue_map _ fun digit hdigit =>
      Nat.digits_lt_base (by norm_num) hdigit]
    exact Nat.ofDigits_digits 10 number

/-- A number starts with a zero only when it is zero. -/
theorem decimal_cases (number : ℕ) :
    decimal number = [point 0x30] ∨
      ∃ first rest, decimal number = first :: rest ∧
        isDigit first = true ∧ first.val ≠ 0x30 ∧
          ∀ code ∈ rest, isDigit code = true := by
  by_cases hzero : number = 0
  · exact .inl (by rw [decimal, if_pos hzero])
  · right
    have hdigits : Nat.digits 10 number ≠ [] := by
      simpa [Nat.digits_ne_nil_iff_ne_zero] using hzero
    obtain ⟨lower, hlower⟩ : ∃ lower, Nat.digits 10 number =
        lower ++ [(Nat.digits 10 number).getLast hdigits] :=
      ⟨_, (List.dropLast_append_getLast hdigits).symm⟩
    have hlast := Nat.getLast_digit_ne_zero 10 hzero
    have hbound : (Nat.digits 10 number).getLast hdigits < 10 :=
      Nat.digits_lt_base (by norm_num) (List.getLast_mem hdigits)
    generalize (Nat.digits 10 number).getLast hdigits = last at *
    have hsplit : decimal number = point (0x30 + last) ::
        lower.reverse.map fun digit => point (0x30 + digit) := by
      rw [decimal, if_neg hzero, hlower]
      simp
    refine ⟨_, _, hsplit, isDigit_point hbound, ?_, fun code hmem => ?_⟩
    · rw [val_point (by omega)]
      omega
    · have hdecimal : code ∈ decimal number := by
        rw [hsplit]
        exact List.mem_cons_of_mem _ hmem
      exact isDigit_of_mem_decimal hdecimal

theorem decimal_injective : Function.Injective decimal :=
  Function.LeftInverse.injective digitsValue_decimal

/-- `str` of an integer. -/
def signed (value : ℤ) : Text :=
  if value < 0 then point 0x2D :: decimal value.natAbs
  else decimal value.natAbs

theorem mem_signed {value : ℤ} {code : CodePoint}
    (hmem : code ∈ signed value) : code = point 0x2D ∨ isDigit code = true := by
  unfold signed at hmem
  split at hmem
  · rcases List.mem_cons.mp hmem with hsign | hdigit
    · exact .inl hsign
    · exact .inr (isDigit_of_mem_decimal hdigit)
  · exact .inr (isDigit_of_mem_decimal hmem)

theorem notMem_signed {code : CodePoint} (hdigit : isDigit code = false)
    (hsign : code ≠ point 0x2D) (value : ℤ) : code ∉ signed value := by
  intro hmem
  rcases mem_signed hmem with heq | hmem
  · exact hsign heq
  · rw [hdigit] at hmem
    exact Bool.false_ne_true hmem

theorem signed_injective : Function.Injective signed := by
  have hsign : ∀ left right : ℕ,
      point 0x2D :: decimal left ≠ decimal right := by
    intro left right heq
    have hmem : point 0x2D ∈ decimal right := heq ▸ List.mem_cons_self
    exact absurd (isDigit_of_mem_decimal hmem) (by decide)
  intro left right heq
  unfold signed at heq
  by_cases hleft : left < 0
  · by_cases hright : right < 0
    · rw [if_pos hleft, if_pos hright, List.cons_inj_right] at heq
      have habs := decimal_injective heq
      omega
    · rw [if_pos hleft, if_neg hright] at heq
      exact absurd heq (hsign _ _)
  · by_cases hright : right < 0
    · rw [if_neg hleft, if_pos hright] at heq
      exact absurd heq.symm (hsign _ _)
    · rw [if_neg hleft, if_neg hright] at heq
      have habs := decimal_injective heq
      omega

end UTTG.Python
