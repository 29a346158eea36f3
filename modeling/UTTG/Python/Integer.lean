import UTTG.Python.Codec
import UTTG.Python.Whitespace

/-!
# `int` on strings

`int` skips white space at both ends, takes a sign, and reads decimal digits of
any script with single underscores between them.  The values of the digits are a
parameter.  A number may be written with any white space around it and any
zeros before it.
-/

namespace UTTG.Python

def underscore : CodePoint := point 0x5F

/-- The white space that `int` skips, which is that of `strip` without the
separators of ASCII. -/
def isIntSpace (code : CodePoint) : Bool :=
  isWhitespace code && !(0x1C ≤ code.val && code.val ≤ 0x1F)

def trimInt (string : Text) : Text :=
  ((string.dropWhile isIntSpace).reverse.dropWhile isIntSpace).reverse

section Reading

variable (decimalValue : CodePoint → Option ℕ)

/-- The digits after those of `number`; `afterDigit` where an underscore may
follow. -/
def readDigits : Bool → ℕ → Text → Option ℕ
  | afterDigit, number, [] => if afterDigit then some number else none
  | afterDigit, number, code :: rest =>
      if code = underscore then
        if afterDigit then readDigits false number rest else none
      else
        match decimalValue code with
        | none => none
        | some digit => readDigits true (number * 10 + digit) rest

/-- `int(string)` for a string within the limit on digits; `none` where it
raises. -/
def intOf (string : Text) : Option ℤ :=
  match trimInt string with
  | [] => none
  | code :: rest =>
      if code = point 0x2D then
        (readDigits decimalValue false 0 rest).map fun number => -(number : ℤ)
      else if code = point 0x2B then
        (readDigits decimalValue false 0 rest).map Int.ofNat
      else (readDigits decimalValue false 0 (code :: rest)).map Int.ofNat

/-- The digits of ASCII have their values. -/
def ReadsDecimal : Prop :=
  ∀ code : CodePoint, isDigit code = true →
    decimalValue code = some (code.val - 0x30)

end Reading

/-- The digits of ASCII, read with their values. -/
def asciiDecimal (code : CodePoint) : Option ℕ :=
  if isDigit code then some (code.val - 0x30) else none

theorem readsDecimal_ascii : ReadsDecimal asciiDecimal :=
  fun _ hdigit => if_pos hdigit

/-- `int(string)` for bytes, of which those of ASCII count. -/
def intOfBytes (string : List Byte) : Option ℤ :=
  let codes := string.map fun unit => point unit.val
  if maxDigits < (codes.filter isDigit).length then none
  else if codes.all (·.val < 0x80) then intOf asciiDecimal codes
  else none

/-! ## Numbers as they are written -/

/-- A number with white space around it and zeros before it. -/
structure Written where
  before : Text
  zeros : ℕ
  number : ℕ
  after : Text
  before_space : ∀ code ∈ before, isIntSpace code = true
  after_space : ∀ code ∈ after, isIntSpace code = true

/-- Its digits. -/
def Written.digits (written : Written) : Text :=
  List.replicate written.zeros (point 0x30) ++ decimal written.number

def Written.text (written : Written) : Text :=
  written.before ++ written.digits ++ written.after

theorem isDigit_of_mem_digits {written : Written} {code : CodePoint}
    (hmem : code ∈ written.digits) : isDigit code = true := by
  rcases List.mem_append.mp hmem with hzero | hdigit
  · rw [List.eq_of_mem_replicate hzero]
    rfl
  · exact isDigit_of_mem_decimal hdigit

theorem isIntSpace_of_isDigit {code : CodePoint}
    (hdigit : isDigit code = true) : isIntSpace code = false := by
  simp only [isDigit, Bool.and_eq_true, decide_eq_true_eq] at hdigit
  have hspace : isWhitespace code = false := by
    simp only [isWhitespace, Bool.or_eq_false_iff, Bool.and_eq_false_iff,
      decide_eq_false_iff_not, beq_eq_false_iff_ne]
    omega
  rw [isIntSpace, hspace, Bool.false_and]

theorem digits_ne_nil (written : Written) : written.digits ≠ [] := by
  intro hnil
  have hdecimal := (List.append_eq_nil_iff.mp hnil).2
  rcases decimal_cases written.number with hzero | ⟨first, rest, hcons, -⟩
  · rw [hzero] at hdecimal
    exact List.cons_ne_nil _ _ hdecimal
  · rw [hcons] at hdecimal
    exact List.cons_ne_nil _ _ hdecimal

/-- White space before a string of digits is dropped. -/
theorem dropWhile_before {before digits : Text}
    (hbefore : ∀ code ∈ before, isIntSpace code = true)
    (hdigits : ∀ code ∈ digits, isIntSpace code = false)
    (hne : digits ≠ []) (after : Text) :
    (before ++ (digits ++ after)).dropWhile isIntSpace = digits ++ after := by
  rw [List.dropWhile_append_of_pos hbefore]
  obtain ⟨first, rest, rfl⟩ := List.exists_cons_of_ne_nil hne
  have hfirst := hdigits first List.mem_cons_self
  rw [List.cons_append, List.dropWhile_cons_of_neg (by simp [hfirst])]

theorem trimInt_text (written : Written) :
    trimInt written.text = written.digits := by
  have hdigits : ∀ code ∈ written.digits, isIntSpace code = false :=
    fun code hmem => isIntSpace_of_isDigit (isDigit_of_mem_digits hmem)
  have hreversed : ∀ code ∈ written.digits.reverse,
      isIntSpace code = false :=
    fun code hmem => hdigits code (List.mem_reverse.mp hmem)
  have hafter : ∀ code ∈ written.after.reverse, isIntSpace code = true :=
    fun code hmem => written.after_space code (List.mem_reverse.mp hmem)
  have hne : written.digits.reverse ≠ [] := by
    rw [Ne, List.reverse_eq_nil_iff]
    exact digits_ne_nil written
  have hend := dropWhile_before hafter hreversed hne []
  rw [List.append_nil] at hend
  rw [trimInt, Written.text, List.append_assoc,
    dropWhile_before written.before_space hdigits (digits_ne_nil written),
    List.reverse_append, hend, List.reverse_reverse]

theorem ne_of_digit {code : CodePoint} (hdigit : isDigit code = true) :
    code ≠ underscore ∧ code ≠ point 0x2D ∧ code ≠ point 0x2B := by
  refine ⟨?_, ?_, ?_⟩
  · rintro rfl
    exact absurd hdigit (by decide)
  · rintro rfl
    exact absurd hdigit (by decide)
  · rintro rfl
    exact absurd hdigit (by decide)

theorem readDigits_of_digits {decimalValue : CodePoint → Option ℕ}
    (hdecimal : ReadsDecimal decimalValue) {digits : Text}
    (hdigits : ∀ code ∈ digits, isDigit code = true) (afterDigit : Bool)
    (hne : digits ≠ [] ∨ afterDigit = true) (number : ℕ) :
    readDigits decimalValue afterDigit number digits =
      some (digits.foldl
        (fun value code => value * 10 + (code.val - 0x30)) number) := by
  induction digits generalizing afterDigit number with
  | nil => simp [readDigits, hne.resolve_left (not_not_intro rfl)]
  | cons code rest ih =>
      obtain ⟨hcode, hrest⟩ := List.forall_mem_cons.mp hdigits
      rw [readDigits, if_neg (ne_of_digit hcode).1, hdecimal code hcode]
      exact ih hrest true (.inr rfl) _

theorem digitsValue_digits (written : Written) :
    digitsValue written.digits = written.number := by
  rw [digitsValue, Written.digits, List.foldl_append]
  have hzeros : (List.replicate written.zeros (point 0x30)).foldl
      (fun value code => value * 10 + (code.val - 0x30)) 0 = 0 := by
    induction written.zeros with
    | zero => rfl
    | succ zeros ih =>
        rw [List.replicate_succ, List.foldl_cons]
        exact ih
  rw [hzeros]
  exact digitsValue_decimal written.number

/-- `int` reads a number however it is written. -/
theorem intOf_text {decimalValue : CodePoint → Option ℕ}
    (hdecimal : ReadsDecimal decimalValue) (written : Written) :
    intOf decimalValue written.text = some (written.number : ℤ) := by
  have hread := readDigits_of_digits hdecimal
    (fun code hmem => isDigit_of_mem_digits hmem) false
    (.inl (digits_ne_nil written)) 0
  have hvalue := digitsValue_digits written
  rw [digitsValue] at hvalue
  rw [hvalue] at hread
  rw [intOf, trimInt_text]
  obtain ⟨first, rest, hdigits⟩ :=
    List.exists_cons_of_ne_nil (digits_ne_nil written)
  have hfirst : isDigit first = true :=
    isDigit_of_mem_digits (by rw [hdigits]; exact List.mem_cons_self)
  rw [hdigits] at hread ⊢
  simp only [if_neg (ne_of_digit hfirst).2.1, if_neg (ne_of_digit hfirst).2.2,
    hread, Option.map_some]
  rfl

end UTTG.Python
