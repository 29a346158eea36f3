import UTTG.Python.Dict
import UTTG.Python.Repr

/-!
# Built-ins on JSON values

What the provider code does with parsed JSON before it interprets it: `str`,
`int`, `float`, truth values, `get` with a default, `isdigit` and `strip`.
The Unicode database and floating-point arithmetic are parameters.
-/

namespace UTTG.Python

/-- A JSON value as `json.loads` returns it. -/
abbrev Json (F : Type) := Value F Empty

/-- What a call of `float` gives. -/
inductive Floated (F : Type) where
  | number (value : PyFloat F)
  /-- It raises `ValueError` or `TypeError`. -/
  | invalid
  /-- It raises `OverflowError`, as for an integer beyond the range. -/
  | overflow

/-- What a dictionary compares when a JSON value is a key or a part of one.
Numbers compare by value; lists and dictionaries cannot be keys. -/
inductive HashKey where
  | null
  | number (value : ℚ)
  | infinity (negative : Bool)
  | nan
  | str (value : Text)
  | unhashable
  deriving DecidableEq

/-- The Unicode properties and the float operations that the code uses. -/
structure Runtime (F : Type) where
  format : FloatFormat F
  isPrintable : CodePoint → Bool
  isSpace : CodePoint → Bool
  /-- The characters for which `str.isdigit` holds. -/
  isDigit : CodePoint → Bool
  /-- The value of a character in `int`; some digits have none. -/
  decimalValue : CodePoint → Option ℕ
  float : Json F → Floated F
  /-- The number that a float stands for. -/
  rational : F → ℚ
  /-- `round(number, 2)`. -/
  round2 : F → F

namespace Runtime

variable {F : Type} (runtime : Runtime F)

def str (value : Json F) : Option Text :=
  Python.str runtime.format runtime.isPrintable value

/-- `bool(value)`. -/
def truthy : Json F → Bool
  | .null => false
  | .bool value => value
  | .int value => value ≠ 0
  | .float (.finite value) => runtime.rational value ≠ 0
  | .float _ => true
  | .str value => !value.isEmpty
  | .list items => !items.isEmpty
  | .dict items => !items.isEmpty

/-- `value or other`. -/
def orElse (value other : Json F) : Json F :=
  if runtime.truthy value then value else other

def hashKey : Json F → HashKey
  | .null => .null
  | .bool value => .number (if value then 1 else 0)
  | .int value => .number value
  | .float (.finite value) => .number (runtime.rational value)
  | .float (.infinity negative) => .infinity negative
  | .float .nan => .nan
  | .str value => .str value
  | .list _ | .dict _ => .unhashable

/-- `text.isdigit()`. -/
def isdigit (string : Text) : Bool :=
  !string.isEmpty && string.all runtime.isDigit

/-- `int` on an integer or on a string of digits; `none` where it raises. -/
def int : Json F → Option ℤ
  | .int value => some value
  | .str digits =>
      if digits.isEmpty ∨ maxDigits < digits.length then none
      else (digits.mapM runtime.decimalValue).map fun values =>
        ((values.foldl (fun number digit => number * 10 + digit) 0 : ℕ) : ℤ)
  | _ => none

/-- `text.strip()`. -/
def strip (string : Text) : Text :=
  ((string.dropWhile runtime.isSpace).reverse.dropWhile
    runtime.isSpace).reverse

end Runtime

section Access

variable {F : Type}

/-- `record.get(key)` on a dictionary. -/
def getOrNone (record : Dict Text (Json F)) (key : String) : Json F :=
  (Dict.get record (text key)).getD .null

/-- A value used as a dictionary; `none` where that raises. -/
def asDict : Json F → Option (Dict Text (Json F))
  | .dict items => some items
  | _ => none

/-- `value.get(key, {})`, where both are used as dictionaries. -/
def getDict (record : Dict Text (Json F)) (key : String) :
    Option (Dict Text (Json F)) :=
  match Dict.get record (text key) with
  | none => some []
  | some value => asDict value

/-- What a `for` loop runs over; `none` where iterating raises. -/
def iterate : Json F → Option (List (Json F))
  | .list items => some items
  | .str value => some (value.map fun code => .str [code])
  | .dict items => some (items.map fun item => .str item.1)
  | _ => none

end Access

end UTTG.Python
