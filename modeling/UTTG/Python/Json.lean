import UTTG.Python.Dict
import UTTG.Python.Text

/-!
# JSON as Python's `json` module reads and writes it

`dumps` is `json.dumps` with compact separators and ASCII output; `loads` is
`json.loads` on a string.  Both follow the module beyond the standard: `NaN`
and the infinities are written and read, an integer of more than 4300 digits is
refused, and an escaped surrogate pair is read as one character.  The type of
values has a further leaf for objects that only a `default` function can
serialise.
-/

namespace UTTG.Python

/-- Floats over a type of finite ones. -/
inductive PyFloat (F : Type) where
  | finite (value : F)
  | infinity (negative : Bool)
  | nan
  deriving DecidableEq

/-- JSON values, and leaves of another type. -/
inductive Value (F D : Type) where
  | null
  | bool (value : Bool)
  | int (value : ℤ)
  | float (value : PyFloat F)
  | str (value : Text)
  | list (items : List (Value F D))
  | dict (items : List (Text × Value F D))
  | other (value : D)

/-! ## Numbers -/

/-- The digits at the start and what follows them. -/
def spanDigits : Text → Text × Text
  | [] => ([], [])
  | code :: rest =>
      if isDigit code then
        let (digits, after) := spanDigits rest
        (code :: digits, after)
      else ([], code :: rest)

/-- `-?(?:0|[1-9][0-9]*)` without the sign. -/
def spanInteger : Text → Option (Text × Text)
  | [] => none
  | code :: rest =>
      if code = point 0x30 then some ([code], rest)
      else if isDigit code then
        let (digits, after) := spanDigits rest
        some (code :: digits, after)
      else none

/-- `(\.[0-9]+)?`. -/
def spanFraction : Text → Text × Text
  | [] => ([], [])
  | code :: rest =>
      if code = point 0x2E then
        match spanDigits rest with
        | ([], _) => ([], code :: rest)
        | (digits, after) => (code :: digits, after)
      else ([], code :: rest)

/-- `[-+]?`. -/
def spanSign : Text → Text × Text
  | [] => ([], [])
  | code :: rest =>
      if code = point 0x2D ∨ code = point 0x2B then ([code], rest)
      else ([], code :: rest)

/-- `([eE][-+]?[0-9]+)?`. -/
def spanExponent : Text → Text × Text
  | [] => ([], [])
  | code :: rest =>
      if code = point 0x65 ∨ code = point 0x45 then
        let (sign, unsigned) := spanSign rest
        match spanDigits unsigned with
        | ([], _) => ([], code :: rest)
        | (digits, after) => (code :: sign ++ digits, after)
      else ([], code :: rest)

/-- A number literal: its text, whether it has a fraction or an exponent, and
what follows. -/
def spanUnsigned (source : Text) : Option (Text × Bool × Text) :=
  match spanInteger source with
  | none => none
  | some (integer, afterInteger) =>
      let (fraction, afterFraction) := spanFraction afterInteger
      let (exponent, after) := spanExponent afterFraction
      some (integer ++ fraction ++ exponent,
        !(fraction.isEmpty && exponent.isEmpty), after)

def spanNumber : Text → Option (Text × Bool × Text)
  | [] => none
  | code :: rest =>
      if code = point 0x2D then
        match spanUnsigned rest with
        | none => none
        | some (literal, isFloat, after) =>
            some (code :: literal, isFloat, after)
      else spanUnsigned (code :: rest)

/-- How finite floats are written and read: `float.__repr__` writes a literal
with a fraction or an exponent, and reading it gives the float back.  Other
literals may be read as an infinity. -/
structure FloatFormat (F : Type) where
  repr : F → Text
  read : Text → PyFloat F
  literal : ∀ value, spanNumber (repr value) = some (repr value, true, [])
  read_repr : ∀ value, read (repr value) = .finite value

/-- The format where no finite float occurs. -/
def FloatFormat.empty : FloatFormat Empty where
  repr := Empty.elim
  read _ := .nan
  literal value := value.elim
  read_repr value := value.elim

/-- `sys.get_int_max_str_digits()`. -/
def maxDigits : ℕ := 4300

/-- `int.__repr__`, which raises above the limit. -/
def intText (value : ℤ) : Option Text :=
  if (decimal value.natAbs).length ≤ maxDigits then
    some (if value < 0 then point 0x2D :: decimal value.natAbs
      else decimal value.natAbs)
  else none

/-- `int` on an integer literal. -/
def readInt (literal : Text) : Option ℤ :=
  match literal with
  | [] => none
  | code :: digits =>
      if code = point 0x2D then
        if digits.length ≤ maxDigits then some (-(digitsValue digits : ℤ))
        else none
      else if literal.length ≤ maxDigits then some (digitsValue literal)
      else none

/-! ## Writing -/

/-- The escape of one code point below `0x10000`. -/
def escape (code : CodePoint) : Text := text "\\u" ++ hex4 code.val

/-- `ESCAPE_DCT` and the escapes of everything else outside printable
ASCII. -/
def encodePoint (code : CodePoint) : Text :=
  if code = point 0x22 then text "\\\""
  else if code = point 0x5C then text "\\\\"
  else if code = point 0x0A then text "\\n"
  else if code = point 0x0D then text "\\r"
  else if code = point 0x09 then text "\\t"
  else if code = point 0x0C then text "\\f"
  else if code = point 0x08 then text "\\b"
  else if 0x20 ≤ code.val ∧ code.val < 0x7F then [code]
  else if code.val < 0x10000 then escape code
  else escape (highOf code) ++ escape (lowOf code)

/-- `py_encode_basestring_ascii`. -/
def encodeString (string : Text) : Text :=
  point 0x22 :: (string.flatMap encodePoint ++ [point 0x22])

/-- `floatstr`. -/
def floatText {F : Type} (format : FloatFormat F) : PyFloat F → Text
  | .finite value => format.repr value
  | .infinity true => text "-Infinity"
  | .infinity false => text "Infinity"
  | .nan => text "NaN"

section Dumps

variable {F D : Type} (format : FloatFormat F) (default : D → Option Text)

mutual

/-- `json.dumps(value, default=default, separators=(",", ":"))` where the
`default` function gives a string or raises. -/
def dumps : Value F D → Option Text
  | .null => some (text "null")
  | .bool true => some (text "true")
  | .bool false => some (text "false")
  | .int value => intText value
  | .float value => some (floatText format value)
  | .str value => some (encodeString value)
  | .list [] => some (text "[]")
  | .list (item :: items) => do
      let first ← dumps item
      let rest ← dumpsItems items
      return point 0x5B :: (first ++ rest ++ [point 0x5D])
  | .dict [] => some (text "\x7b\x7d")
  | .dict ((key, item) :: items) => do
      let first ← dumps item
      let rest ← dumpsMembers items
      return point 0x7B ::
        (encodeString key ++ (point 0x3A :: first) ++ rest ++ [point 0x7D])
  | .other value => (default value).map encodeString

/-- The items of a list after the first one. -/
def dumpsItems : List (Value F D) → Option Text
  | [] => some []
  | item :: items => do
      let first ← dumps item
      let rest ← dumpsItems items
      return point 0x2C :: (first ++ rest)

/-- The items of a dictionary after the first one. -/
def dumpsMembers : List (Text × Value F D) → Option Text
  | [] => some []
  | (key, item) :: items => do
      let first ← dumps item
      let rest ← dumpsMembers items
      return point 0x2C ::
        (encodeString key ++ (point 0x3A :: first) ++ rest)

end

end Dumps

/-! ## Reading -/

/-- `WHITESPACE`. -/
def isSpace (code : CodePoint) : Bool :=
  code = point 0x20 || code = point 0x09 || code = point 0x0A ||
    code = point 0x0D

def skipSpace (source : Text) : Text := source.dropWhile isSpace

/-- The character of a short escape. -/
def shortEscape (code : CodePoint) : Option CodePoint :=
  if code = point 0x22 then some (point 0x22)
  else if code = point 0x5C then some (point 0x5C)
  else if code = point 0x2F then some (point 0x2F)
  else if code = point 0x62 then some (point 0x08)
  else if code = point 0x66 then some (point 0x0C)
  else if code = point 0x6E then some (point 0x0A)
  else if code = point 0x72 then some (point 0x0D)
  else if code = point 0x74 then some (point 0x09)
  else none

/-- The code points of a string literal after its opening quote, each with
whether it was written as `\u`, and what follows the closing quote. -/
def scanUnits : Text → Option (List (CodePoint × Bool) × Text)
  | [] => none
  | code :: rest =>
      if code = point 0x22 then some ([], rest)
      else if code = point 0x5C then
        match rest with
        | letter :: first :: second :: third :: fourth :: after =>
            if letter = point 0x75 then
              match unhex4 first second third fourth, scanUnits after with
              | some number, some (units, after) =>
                  some ((point number, true) :: units, after)
              | _, _ => none
            else
              match shortEscape letter,
                scanUnits (first :: second :: third :: fourth :: after) with
              | some char, some (units, after) =>
                  some ((char, false) :: units, after)
              | _, _ => none
        | letter :: after =>
            match shortEscape letter, scanUnits after with
            | some char, some (units, after) =>
                some ((char, false) :: units, after)
            | _, _ => none
        | [] => none
      else if code.val < 0x20 then none
      else
        match scanUnits rest with
        | some (units, after) => some ((code, false) :: units, after)
        | none => none

/-- An escaped high surrogate directly followed by an escaped low one is one
character. -/
def mergeUnits : List (CodePoint × Bool) → Text
  | [] => []
  | [unit] => [unit.1]
  | first :: second :: rest =>
      if first.2 && second.2 && isHigh first.1 && isLow second.1 then
        join first.1 second.1 :: mergeUnits rest
      else first.1 :: mergeUnits (second :: rest)

/-- `scanstring` after the opening quote. -/
def scanString (source : Text) : Option (Text × Text) :=
  (scanUnits source).map fun (units, after) => (mergeUnits units, after)

/-- The rest of `source` after a literal. -/
def stripLiteral (literal source : Text) : Option Text :=
  if literal.isPrefixOf source then some (source.drop literal.length)
  else none

section Loads

variable {F D : Type} (format : FloatFormat F)

/-- `_match_number`. -/
def scanNumber (source : Text) : Option (Value F D × Text) :=
  match spanNumber source with
  | none => none
  | some (literal, true, after) =>
      some (.float (format.read literal), after)
  | some (literal, false, after) =>
      (readInt literal).map fun value => (.int value, after)

/-- The literals other than strings and containers, tried by first letter. -/
def scanScalar (source : Text) : Option (Value F D × Text) :=
  match source with
  | [] => none
  | code :: rest =>
      if code = point 0x6E then
        (stripLiteral (text "null") source).map fun after => (.null, after)
      else if code = point 0x74 then
        (stripLiteral (text "true") source).map fun after =>
          (.bool true, after)
      else if code = point 0x66 then
        (stripLiteral (text "false") source).map fun after =>
          (.bool false, after)
      else if code = point 0x4E then
        (stripLiteral (text "NaN") source).map fun after =>
          (.float .nan, after)
      else if code = point 0x49 then
        (stripLiteral (text "Infinity") source).map fun after =>
          (.float (.infinity false), after)
      else
        match stripLiteral (text "-Infinity") (code :: rest) with
        | some after => some (.float (.infinity true), after)
        | none => scanNumber format source

mutual

/-- `scan_once`, for values nested at most `fuel` deep in tokens. -/
def scanOnce : ℕ → Text → Option (Value F D × Text)
  | 0, _ => none
  | _ + 1, [] => none
  | fuel + 1, code :: rest =>
      if code = point 0x22 then
        (scanString rest).map fun (string, after) => (.str string, after)
      else if code = point 0x7B then
        match skipSpace rest with
        | [] => none
        | next :: after =>
            if next = point 0x7D then some (.dict [], after)
            else
              match scanMembers fuel (next :: after) with
              | none => none
              | some (items, after) => some (.dict (Dict.ofPairs items), after)
      else if code = point 0x5B then
        match skipSpace rest with
        | [] => none
        | next :: after =>
            if next = point 0x5D then some (.list [], after)
            else
              match scanItems fuel (next :: after) with
              | none => none
              | some (items, after) => some (.list items, after)
      else scanScalar format (code :: rest)

/-- The items of `JSONArray` up to the bracket. -/
def scanItems : ℕ → Text → Option (List (Value F D) × Text)
  | 0, _ => none
  | fuel + 1, source =>
      match scanOnce fuel source with
      | none => none
      | some (item, after) =>
          match skipSpace after with
          | [] => none
          | code :: rest =>
              if code = point 0x5D then some ([item], rest)
              else if code = point 0x2C then
                match scanItems fuel (skipSpace rest) with
                | none => none
                | some (items, after) => some (item :: items, after)
              else none

/-- The pairs of `JSONObject` up to the brace. -/
def scanMembers : ℕ → Text → Option (List (Text × Value F D) × Text)
  | 0, _ => none
  | _ + 1, [] => none
  | fuel + 1, quote :: source =>
      if quote = point 0x22 then
        match scanString source with
        | none => none
        | some (key, afterKey) =>
            match skipSpace afterKey with
            | [] => none
            | colon :: afterColon =>
                if colon = point 0x3A then
                  match scanOnce fuel (skipSpace afterColon) with
                  | none => none
                  | some (item, after) =>
                      match skipSpace after with
                      | [] => none
                      | code :: rest =>
                          if code = point 0x7D then some ([(key, item)], rest)
                          else if code = point 0x2C then
                            match scanMembers fuel (skipSpace rest) with
                            | none => none
                            | some (items, after) =>
                                some ((key, item) :: items, after)
                          else none
                else none
      else none

end

/-- `json.loads` on a string. -/
def loads (source : Text) : Option (Value F D) :=
  if source.head? = some (point 0xFEFF) then none
  else
    match scanOnce format (source.length + 1) (skipSpace source) with
    | none => none
    | some (value, after) =>
        if skipSpace after = [] then some value else none

end Loads

end UTTG.Python
