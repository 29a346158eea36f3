import UTTG.Python.JsonLoads

/-!
# Strings and bytes

`encode` is `str.encode()`, and `loadsBytes` is `json.loads` on bytes: it
guesses the encoding from the first four bytes and decodes with the
`surrogatepass` handler, which lets the encoding of a lone surrogate through.
What `dumps` writes is printable ASCII, so encoding it never fails and decoding
gives it back.
-/

namespace UTTG.Python

abbrev Byte := Fin 256

instance neZeroByte : NeZero (256 : ℕ) := ⟨by decide⟩

abbrev byte (number : ℕ) : Byte := Fin.ofNat 256 number

/-! ## Encoding -/

/-- The UTF-8 bytes of a code point; surrogates have none. -/
def utf8 (code : CodePoint) : Option (List Byte) :=
  if code.val < 0x80 then some [byte code.val]
  else if code.val < 0x800 then
    some [byte (0xC0 + code.val / 0x40), byte (0x80 + code.val % 0x40)]
  else if code.val < 0x10000 then
    if isHigh code || isLow code then none
    else
      some [byte (0xE0 + code.val / 0x1000),
        byte (0x80 + code.val / 0x40 % 0x40), byte (0x80 + code.val % 0x40)]
  else
    some [byte (0xF0 + code.val / 0x40000),
      byte (0x80 + code.val / 0x1000 % 0x40),
      byte (0x80 + code.val / 0x40 % 0x40), byte (0x80 + code.val % 0x40)]

/-- `str.encode()`. -/
def encode : Text → Option (List Byte)
  | [] => some []
  | code :: rest => do
      let first ← utf8 code
      let others ← encode rest
      return first ++ others

/-! ## Decoding with `surrogatepass` -/

def isTail (unit : Byte) : Bool := 0x80 ≤ unit.val && unit.val < 0xC0

/-- Surrogates are let through; other three-byte forms must not be overlong. -/
def decodeUtf8 : List Byte → Option Text
  | [] => some []
  | first :: rest =>
      if first.val < 0x80 then
        (decodeUtf8 rest).map (point first.val :: ·)
      else if 0xC2 ≤ first.val ∧ first.val < 0xE0 then
        match rest with
        | second :: rest =>
            if isTail second then
              (decodeUtf8 rest).map
                (point ((first.val - 0xC0) * 0x40 + (second.val - 0x80)) :: ·)
            else none
        | [] => none
      else if 0xE0 ≤ first.val ∧ first.val < 0xF0 then
        match rest with
        | second :: third :: rest =>
            let number := (first.val - 0xE0) * 0x1000 +
              (second.val - 0x80) * 0x40 + (third.val - 0x80)
            if isTail second && isTail third && 0x800 ≤ number then
              (decodeUtf8 rest).map (point number :: ·)
            else none
        | _ => none
      else if 0xF0 ≤ first.val ∧ first.val < 0xF5 then
        match rest with
        | second :: third :: fourth :: rest =>
            let number := (first.val - 0xF0) * 0x40000 +
              (second.val - 0x80) * 0x1000 + (third.val - 0x80) * 0x40 +
              (fourth.val - 0x80)
            if isTail second && isTail third && isTail fourth &&
                (0x10000 ≤ number && number < 0x110000) then
              (decodeUtf8 rest).map (point number :: ·)
            else none
        | _ => none
      else none

/-- The 16-bit units of a byte string. -/
def units16 (unit : Byte → Byte → ℕ) : List Byte → Option Text
  | [] => some []
  | [_] => none
  | first :: second :: rest =>
      (units16 unit rest).map (point (unit first second) :: ·)

/-- Surrogate pairs are characters, lone surrogates are let through. -/
def decodeUtf16 (unit : Byte → Byte → ℕ) (bytes : List Byte) : Option Text :=
  (units16 unit bytes).map joinPairs

def decodeUtf32 (unit : Byte → Byte → Byte → Byte → ℕ) :
    List Byte → Option Text
  | [] => some []
  | first :: second :: third :: fourth :: rest =>
      if unit first second third fourth < 0x110000 then
        (decodeUtf32 unit rest).map
          (point (unit first second third fourth) :: ·)
      else none
  | _ => none

def big16 (first second : Byte) : ℕ := first.val * 0x100 + second.val

def little16 (first second : Byte) : ℕ := big16 second first

def big32 (first second third fourth : Byte) : ℕ :=
  big16 first second * 0x10000 + big16 third fourth

def little32 (first second third fourth : Byte) : ℕ :=
  big32 fourth third second first

inductive Encoding where
  | utf8
  | utf8Sig
  | utf16
  | utf16be
  | utf16le
  | utf32
  | utf32be
  | utf32le
  deriving DecidableEq

/-- `json.detect_encoding`: byte order marks first, then the zero bytes among
the first four. -/
def detectEncoding (bytes : List Byte) : Encoding :=
  if [0x00, 0x00, 0xFE, 0xFF].isPrefixOf bytes ||
      [0xFF, 0xFE, 0x00, 0x00].isPrefixOf bytes then .utf32
  else if [0xFE, 0xFF].isPrefixOf bytes || [0xFF, 0xFE].isPrefixOf bytes then
    .utf16
  else if [0xEF, 0xBB, 0xBF].isPrefixOf bytes then .utf8Sig
  else
    match bytes with
    | first :: second :: third :: fourth :: _ =>
        if first = 0 then if second = 0 then .utf32be else .utf16be
        else if second = 0 then
          if third = 0 ∧ fourth = 0 then .utf32le else .utf16le
        else .utf8
    | [first, second] =>
        if first = 0 then .utf16be
        else if second = 0 then .utf16le
        else .utf8
    | _ => .utf8

/-- `bytes.decode(encoding, "surrogatepass")`. -/
def decode (encoding : Encoding) (bytes : List Byte) : Option Text :=
  match encoding with
  | .utf8 => decodeUtf8 bytes
  | .utf8Sig => decodeUtf8 (bytes.drop 3)
  | .utf16 =>
      if [0xFE, 0xFF].isPrefixOf bytes then decodeUtf16 big16 (bytes.drop 2)
      else decodeUtf16 little16 (bytes.drop 2)
  | .utf16be => decodeUtf16 big16 bytes
  | .utf16le => decodeUtf16 little16 bytes
  | .utf32 =>
      if [0x00, 0x00, 0xFE, 0xFF].isPrefixOf bytes then
        decodeUtf32 big32 (bytes.drop 4)
      else decodeUtf32 little32 (bytes.drop 4)
  | .utf32be => decodeUtf32 big32 bytes
  | .utf32le => decodeUtf32 little32 bytes

/-- `json.loads` on bytes. -/
def loadsBytes {F D : Type} (format : FloatFormat F) (bytes : List Byte) :
    Option (Value F D) := do
  let source ← decode (detectEncoding bytes) bytes
  loads format source

/-! ## What `dumps` writes is printable ASCII -/

def Printable (source : Text) : Prop :=
  ∀ code ∈ source, 0x20 ≤ code.val ∧ code.val < 0x7F

instance (source : Text) : Decidable (Printable source) :=
  List.decidableBAll _ source

theorem Printable.append {left right : Text} (hleft : Printable left)
    (hright : Printable right) : Printable (left ++ right) := by
  intro code hmem
  rcases List.mem_append.mp hmem with hmem | hmem
  · exact hleft code hmem
  · exact hright code hmem

theorem Printable.cons {code : CodePoint} {rest : Text}
    (hcode : 0x20 ≤ code.val ∧ code.val < 0x7F) (hrest : Printable rest) :
    Printable (code :: rest) :=
  List.forall_mem_cons.mpr ⟨hcode, hrest⟩

theorem printable_nil : Printable [] := by
  simp [Printable]

theorem printable_of_isDigit {code : CodePoint}
    (hdigit : isDigit code = true) : 0x20 ≤ code.val ∧ code.val < 0x7F := by
  simp only [isDigit, Bool.and_eq_true, decide_eq_true_eq] at hdigit
  omega

theorem printable_spanDigits (source : Text) :
    Printable (spanDigits source).1 := by
  fun_induction spanDigits source with
  | case1 => exact printable_nil
  | case2 code rest hdigit digits after hspan ih =>
      rw [hspan] at ih
      exact .cons (printable_of_isDigit hdigit) ih
  | case3 => exact printable_nil

theorem printable_spanInteger {source digits after : Text}
    (hspan : spanInteger source = some (digits, after)) :
    Printable digits := by
  cases source with
  | nil => simp [spanInteger] at hspan
  | cons code rest =>
      rw [spanInteger] at hspan
      split at hspan
      · next hzero =>
          obtain ⟨rfl, -⟩ := Prod.mk.inj (Option.some.inj hspan)
          rw [hzero]
          decide
      · split at hspan
        · next hdigit =>
            obtain ⟨rfl, -⟩ := Prod.mk.inj (Option.some.inj hspan)
            exact .cons (printable_of_isDigit hdigit)
              (printable_spanDigits rest)
        · simp at hspan

theorem printable_spanFraction (source : Text) :
    Printable (spanFraction source).1 := by
  cases source with
  | nil => exact printable_nil
  | cons code rest =>
      have hdigits := printable_spanDigits rest
      rw [spanFraction]
      split
      · next hpoint =>
          split
          · exact printable_nil
          · next hspan =>
              rw [hspan] at hdigits
              rw [hpoint]
              exact .cons (by decide) hdigits
      · exact printable_nil

theorem printable_spanSign (source : Text) :
    Printable (spanSign source).1 := by
  cases source with
  | nil => exact printable_nil
  | cons code rest =>
      rw [spanSign]
      split
      · next hsign =>
          have hcode : 0x20 ≤ code.val ∧ code.val < 0x7F := by
            rcases hsign with rfl | rfl
            · decide
            · decide
          exact .cons hcode printable_nil
      · exact printable_nil

theorem printable_spanExponent (source : Text) :
    Printable (spanExponent source).1 := by
  cases source with
  | nil => exact printable_nil
  | cons code rest =>
      have hsign := printable_spanSign rest
      have hdigits := printable_spanDigits (spanSign rest).2
      rw [spanExponent]
      split
      · next hletter =>
          dsimp only
          split
          · exact printable_nil
          · next hspan =>
              rw [hspan] at hdigits
              have hcode : 0x20 ≤ code.val ∧ code.val < 0x7F := by
                rcases hletter with rfl | rfl
                · decide
                · decide
              exact .append (.cons hcode hsign) hdigits
      · exact printable_nil

theorem printable_spanUnsigned {source literal after : Text} {isFloat : Bool}
    (hspan : spanUnsigned source = some (literal, isFloat, after)) :
    Printable literal := by
  rw [spanUnsigned] at hspan
  cases hinteger : spanInteger source with
  | none => simp [hinteger] at hspan
  | some parts =>
      obtain ⟨integer, afterInteger⟩ := parts
      simp only [hinteger, Option.some.injEq, Prod.mk.injEq] at hspan
      obtain ⟨rfl, -, -⟩ := hspan
      exact .append (.append (printable_spanInteger hinteger)
        (printable_spanFraction _)) (printable_spanExponent _)

theorem printable_spanNumber {source literal after : Text} {isFloat : Bool}
    (hspan : spanNumber source = some (literal, isFloat, after)) :
    Printable literal := by
  cases source with
  | nil => simp [spanNumber] at hspan
  | cons code rest =>
      rw [spanNumber] at hspan
      split at hspan
      · next hminus =>
          cases hunsigned : spanUnsigned rest with
          | none => simp [hunsigned] at hspan
          | some parts =>
              simp only [hunsigned, Option.some.injEq, Prod.mk.injEq] at hspan
              obtain ⟨rfl, -, -⟩ := hspan
              rw [hminus]
              exact .cons (by decide) (printable_spanUnsigned hunsigned)
      · exact printable_spanUnsigned hspan

theorem printable_hex4 (number : ℕ) : Printable (hex4 number) := by
  have hdigit : ∀ digit : Fin 16, 0x20 ≤ (hexDigit digit.val).val ∧
      (hexDigit digit.val).val < 0x7F := by
    decide
  have hall : ∀ value : ℕ, 0x20 ≤ (hexDigit (value % 16)).val ∧
      (hexDigit (value % 16)).val < 0x7F := fun value =>
    hdigit ⟨value % 16, Nat.mod_lt value (by norm_num)⟩
  exact .cons (hall _) (.cons (hall _) (.cons (hall _)
    (.cons (hall _) printable_nil)))

theorem printable_escape (code : CodePoint) : Printable (escape code) :=
  .append (by decide) (printable_hex4 code.val)

theorem printable_encodePoint (code : CodePoint) :
    Printable (encodePoint code) := by
  unfold encodePoint
  repeat' split
  case isFalse.isFalse.isFalse.isFalse.isFalse.isFalse.isFalse.isTrue hplain =>
    exact .cons hplain printable_nil
  all_goals first
    | exact printable_escape code
    | exact .append (printable_escape _) (printable_escape _)
    | decide

theorem printable_encodeString (string : Text) :
    Printable (encodeString string) := by
  refine .cons (by decide) (.append ?_ (by decide))
  intro code hmem
  obtain ⟨source, -, hcode⟩ := List.mem_flatMap.mp hmem
  exact printable_encodePoint source code hcode

section Dumps

variable {F D : Type} {format : FloatFormat F} {default : D → Option Text}

theorem printable_floatText (value : PyFloat F) :
    Printable (floatText format value) := by
  cases value with
  | finite value => exact printable_spanNumber (format.literal value)
  | infinity negative =>
      have htexts : Printable (text "-Infinity") ∧
          Printable (text "Infinity") := by
        decide
      cases negative with
      | true => exact htexts.1
      | false => exact htexts.2
  | nan =>
      have htext : Printable (text "NaN") := by decide
      exact htext

mutual

theorem printable_dumps : ∀ (value : Value F D) {written : Text},
    dumps format default value = some written → Printable written
  | .null, _, hdumps => by
      rw [dumps] at hdumps
      rw [← Option.some.inj hdumps]
      decide
  | .bool true, _, hdumps => by
      rw [dumps] at hdumps
      rw [← Option.some.inj hdumps]
      decide
  | .bool false, _, hdumps => by
      rw [dumps] at hdumps
      rw [← Option.some.inj hdumps]
      decide
  | .int value, _, hdumps => by
      rw [dumps] at hdumps
      exact printable_spanNumber (spanNumber_intText hdumps)
  | .float value, _, hdumps => by
      rw [dumps] at hdumps
      rw [← Option.some.inj hdumps]
      exact printable_floatText value
  | .str value, _, hdumps => by
      rw [dumps] at hdumps
      rw [← Option.some.inj hdumps]
      exact printable_encodeString value
  | .list [], _, hdumps => by
      rw [dumps] at hdumps
      rw [← Option.some.inj hdumps]
      decide
  | .list (item :: items), _, hdumps => by
      obtain ⟨first, others, hfirst, hothers, rfl⟩ := dumps_list_cons hdumps
      exact .cons (by decide) (.append (.append (printable_dumps item hfirst)
        (printable_dumpsItems items hothers)) (by decide))
  | .dict [], _, hdumps => by
      rw [dumps] at hdumps
      rw [← Option.some.inj hdumps]
      decide
  | .dict ((key, item) :: items), _, hdumps => by
      obtain ⟨first, others, hfirst, hothers, rfl⟩ := dumps_dict_cons hdumps
      exact .cons (by decide) (.append (.append
        (.append (printable_encodeString key)
          (.cons (by decide) (printable_dumps item hfirst)))
        (printable_dumpsMembers items hothers)) (by decide))
  | .other value, _, hdumps => by
      rw [dumps, Option.map_eq_some_iff] at hdumps
      obtain ⟨string, -, rfl⟩ := hdumps
      exact printable_encodeString string

theorem printable_dumpsItems : ∀ (items : List (Value F D)) {written : Text},
    dumpsItems format default items = some written → Printable written
  | [], _, hdumps => by
      rw [dumpsItems] at hdumps
      rw [← Option.some.inj hdumps]
      exact printable_nil
  | item :: items, _, hdumps => by
      obtain ⟨first, others, hfirst, hothers, rfl⟩ := dumpsItems_cons hdumps
      exact .cons (by decide) (.append (printable_dumps item hfirst)
        (printable_dumpsItems items hothers))

theorem printable_dumpsMembers :
    ∀ (items : List (Text × Value F D)) {written : Text},
    dumpsMembers format default items = some written → Printable written
  | [], _, hdumps => by
      rw [dumpsMembers] at hdumps
      rw [← Option.some.inj hdumps]
      exact printable_nil
  | (key, item) :: items, _, hdumps => by
      obtain ⟨first, others, hfirst, hothers, rfl⟩ :=
        dumpsMembers_cons hdumps
      exact .cons (by decide) (.append (.append (printable_encodeString key)
        (.cons (by decide) (printable_dumps item hfirst)))
        (printable_dumpsMembers items hothers))

end

end Dumps

/-! ## Bytes back to text -/

theorem encode_printable {source : Text} (hprintable : Printable source) :
    encode source = some (source.map fun code => byte code.val) := by
  induction source with
  | nil => rfl
  | cons code rest ih =>
      obtain ⟨hcode, hrest⟩ := List.forall_mem_cons.mp hprintable
      rw [encode, ih hrest, utf8, if_pos (by omega)]
      rfl

theorem val_byte {number : ℕ} (hbound : number < 256) :
    (byte number).val = number :=
  Nat.mod_eq_of_lt hbound

theorem decodeUtf8_printable {source : Text} (hprintable : Printable source) :
    decodeUtf8 (source.map fun code => byte code.val) = some source := by
  induction source with
  | nil => rfl
  | cons code rest ih =>
      obtain ⟨hcode, hrest⟩ := List.forall_mem_cons.mp hprintable
      have hbyte := val_byte (show code.val < 256 by omega)
      have hpoint : point code.val = code := Fin.ext (val_point code.isLt)
      rw [List.map_cons, decodeUtf8.eq_def]
      dsimp only
      rw [hbyte, if_pos (by omega), ih hrest, Option.map_some, hpoint]

theorem detectEncoding_printable {source : Text}
    (hprintable : Printable source) :
    detectEncoding (source.map fun code => byte code.val) = .utf8 := by
  have hbytes : ∀ unit ∈ source.map fun code => byte code.val,
      0x20 ≤ unit.val ∧ unit.val < 0x7F := by
    intro unit hunit
    obtain ⟨code, hcode, rfl⟩ := List.mem_map.mp hunit
    have hbounds := hprintable code hcode
    rw [val_byte (by omega)]
    exact hbounds
  generalize source.map (fun code => byte code.val) = bytes at hbytes
  have hmark : ∀ (mark : Byte) (more : List Byte),
      ¬(0x20 ≤ mark.val ∧ mark.val < 0x7F) →
        (mark :: more).isPrefixOf bytes = false := by
    intro mark more houtside
    rw [Bool.eq_false_iff]
    intro hmark
    have hmem := (List.isPrefixOf_iff_prefix.mp hmark).subset
      List.mem_cons_self
    exact houtside (hbytes mark hmem)
  have hzero : ∀ unit ∈ bytes, unit ≠ 0 := by
    rintro unit hunit rfl
    exact absurd (hbytes 0 hunit).1 (by decide)
  unfold detectEncoding
  rw [hmark 0x00 _ (by decide), hmark 0xFF _ (by decide),
    hmark 0xFE _ (by decide), hmark 0xFF _ (by decide),
    hmark 0xEF _ (by decide)]
  simp only [Bool.or_self, Bool.false_eq_true, if_false]
  match bytes, hzero with
  | [], _ => rfl
  | [_], _ => rfl
  | [first, second], hzero =>
      have hfirst : first ≠ 0 := hzero first (by simp)
      have hsecond : second ≠ 0 := hzero second (by simp)
      simp only [if_neg hfirst, if_neg hsecond]
  | [_, _, _], _ => rfl
  | first :: second :: third :: fourth :: rest, hzero =>
      have hfirst : first ≠ 0 := hzero first (by simp)
      have hsecond : second ≠ 0 := hzero second (by simp)
      simp only [if_neg hfirst, if_neg hsecond]

/-- What `json.dumps(...).encode()` sends is read back as `readBack` says. -/
theorem loadsBytes_dumps {F D : Type} {format : FloatFormat F}
    {default : D → Option Text} {value : Value F D} {written : Text}
    {bytes : List Byte} (hdumps : dumps format default value = some written)
    (hencode : encode written = some bytes) :
    loadsBytes format bytes = some (readBack default value) := by
  have hprintable := printable_dumps value hdumps
  rw [encode_printable hprintable] at hencode
  obtain rfl := Option.some.inj hencode
  rw [loadsBytes, detectEncoding_printable hprintable, decode,
    decodeUtf8_printable hprintable]
  exact loads_dumps hdumps

end UTTG.Python
