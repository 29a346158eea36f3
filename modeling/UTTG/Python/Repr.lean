import UTTG.Python.Json

/-!
# `str` and `repr`

`str` of a parsed JSON value.  Which characters outside ASCII are printable is
up to the Unicode database, so `isPrintable` is a parameter.
-/

namespace UTTG.Python

section Repr

variable {F : Type} (format : FloatFormat F) (isPrintable : CodePoint → Bool)

/-- Two lower-case hexadecimal digits. -/
def hex2 (number : ℕ) : Text :=
  [hexDigit (number / 0x10 % 16), hexDigit (number % 16)]

/-- One character inside a literal that is quoted with `quote`. -/
def reprPoint (quote code : CodePoint) : Text :=
  if code = quote ∨ code = point 0x5C then [point 0x5C, code]
  else if code = point 0x09 then text "\\t"
  else if code = point 0x0A then text "\\n"
  else if code = point 0x0D then text "\\r"
  else if code.val < 0x20 ∨ code.val = 0x7F then text "\\x" ++ hex2 code.val
  else if code.val < 0x7F ∨ isPrintable code then [code]
  else if code.val < 0x100 then text "\\x" ++ hex2 code.val
  else if code.val < 0x10000 then text "\\u" ++ hex4 code.val
  else text "\\U" ++ hex4 (code.val / 0x10000) ++ hex4 (code.val % 0x10000)

/-- `str.__repr__`: double quotes when there are single quotes only. -/
def reprString (string : Text) : Text :=
  let quote :=
    if point 0x27 ∈ string ∧ point 0x22 ∉ string then point 0x22
    else point 0x27
  quote :: (string.flatMap (reprPoint isPrintable quote) ++ [quote])

/-- `float.__repr__`. -/
def reprFloat : PyFloat F → Text
  | .finite value => format.repr value
  | .infinity true => text "-inf"
  | .infinity false => text "inf"
  | .nan => text "nan"

mutual

/-- `repr`, which raises on an integer with too many digits. -/
def repr : Value F Empty → Option Text
  | .null => some (text "None")
  | .bool true => some (text "True")
  | .bool false => some (text "False")
  | .int value => intText value
  | .float value => some (reprFloat format value)
  | .str value => some (reprString isPrintable value)
  | .list [] => some (text "[]")
  | .list (item :: items) => do
      let first ← repr item
      let rest ← reprItems items
      return point 0x5B :: (first ++ rest ++ [point 0x5D])
  | .dict [] => some (text "\x7b\x7d")
  | .dict ((key, item) :: items) => do
      let first ← repr item
      let rest ← reprMembers items
      return point 0x7B :: (reprString isPrintable key ++ text ": " ++ first ++
        rest ++ [point 0x7D])

/-- The items of a list after the first one. -/
def reprItems : List (Value F Empty) → Option Text
  | [] => some []
  | item :: items => do
      let first ← repr item
      let rest ← reprItems items
      return text ", " ++ first ++ rest

/-- The items of a dictionary after the first one. -/
def reprMembers : List (Text × Value F Empty) → Option Text
  | [] => some []
  | (key, item) :: items => do
      let first ← repr item
      let rest ← reprMembers items
      return text ", " ++ reprString isPrintable key ++ text ": " ++ first ++
        rest

end

/-- `str(value)`. -/
def str : Value F Empty → Option Text
  | .str value => some value
  | value => repr format isPrintable value

end Repr

end UTTG.Python
