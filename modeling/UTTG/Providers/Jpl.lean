import UTTG.Core.Loops
import UTTG.Ingestion.Statements
import UTTG.Python.Whitespace

/-!
# The close-approach tables of JPL

`parse_close_approaches` reads rows by position, with the columns that the
header names.  `parse_designations` reads one column of a table that comes as
objects or as a header and rows.  Neither catches every exception of the
conversions it makes, so a result is a value or the exception that ends it.
-/

namespace UTTG.Jpl

open Python Ingestion
open Launches (Instant)

/-- The exceptions of the two parsers. -/
inductive Raised where
  | attributeError
  | indexError
  | keyError
  | overflowError
  | typeError
  | valueError
  deriving DecidableEq

/-- The value, or the exception where there is none. -/
def orRaise {Result : Type} (raised : Raised) :
    Option Result → Except Raised Result
  | none => .error raised
  | some value => .ok value

/-- What `_diameter_from_magnitude` computes with; `10.0 ** exponent` is `none`
where it raises `OverflowError`. -/
structure Arithmetic (F N : Type) where
  ofFloat : F → N
  literal : ℚ → N
  neg : N → N
  mul : N → N → N
  div : N → N → N
  sqrt : N → N
  tenTo : N → Option N

section Parsers

variable {F : Type} (runtime : Runtime F)

/-- `str(value)`. -/
def strOf (value : Json F) : Except Raised Text :=
  orRaise .valueError (runtime.str value)

/-- A field that is this name. -/
def isName (name : Text) : Json F → Bool
  | .str other => other == name
  | _ => false

/-! ## Designations -/

/-- `data and isinstance(data[0], dict)`. -/
def startsWithDict (data : Json F) : Except Raised Bool :=
  if runtime.truthy data then
    match data with
    | .list (.dict _ :: _) => .ok true
    | .list _ | .str _ => .ok false
    | .dict _ => .error .keyError
    | _ => .error .typeError
  else .ok false

/-- `fields.index(key)`, and `none` where `key not in fields`. -/
def indexOf (key : Text) : Json F → Except Raised (Option ℕ)
  | .list names => .ok (names.findIdx? (isName key))
  | .str string => .ok (string.tails.findIdx? key.isPrefixOf)
  | .dict items =>
      if key ∈ Dict.keys items then .error .attributeError else .ok none
  | _ => .error .typeError

/-- `str(value).strip()`. -/
def rendering (value : Json F) : Except Raised Text :=
  (strOf runtime value).map strip

/-- The comprehension over objects, for one of them. -/
def objectDesignation (key : Text) : Json F → Except Raised (Option Text)
  | .dict record =>
      let value := (Dict.get record key).getD .null
      if runtime.truthy value then (rendering runtime value).map some
      else .ok none
  | _ => .error .attributeError

/-- The comprehension over rows, for one of them. -/
def rowDesignation (index : ℕ) : Json F → Except Raised (Option Text)
  | .list values => do
      let value ← orRaise .indexError values[index]?
      (rendering runtime value).map some
  | _ => .ok none

/-- `parse_designations`. -/
def parseDesignations (payload : Dict Text (Json F)) (key : Text) :
    Except Raised (Finset Text) := do
  let data := runtime.orElse (getOrNone payload "data") (.list [])
  if ← startsWithDict runtime data then
    let items ← orRaise .typeError (iterate data)
    let designations ← items.mapM (objectDesignation runtime key)
    return designations.reduceOption.toFinset
  else
    let fields := runtime.orElse (getOrNone payload "fields") (.list [])
    match ← indexOf key fields with
    | none => return ∅
    | some index =>
        let rows ← orRaise .typeError (iterate data)
        let designations ← rows.mapM (rowDesignation runtime index)
        return designations.reduceOption.toFinset

/-! ## Close approaches -/

/-- `_number`. -/
def numberOf (value : Json F) : Except Raised (Option F) :=
  match runtime.float value with
  | .number (.finite number) => .ok (some number)
  | .number _ | .invalid => .ok none
  | .overflow => .error .overflowError

variable {N : Type} (arithmetic : Arithmetic F N)

/-- `_diameter_from_magnitude`. -/
def diameterFromMagnitude (magnitude : F) (albedo : ℚ) :
    Except Raised N := do
  let power ← orRaise .overflowError (arithmetic.tenTo
    (arithmetic.div (arithmetic.neg (arithmetic.ofFloat magnitude))
      (arithmetic.literal 5)))
  return arithmetic.mul (arithmetic.div (arithmetic.literal 1329)
    (arithmetic.sqrt (arithmetic.literal albedo))) power

/-- `_HIGH_ALBEDO`. -/
def highAlbedo : ℚ := 1 / 4

/-- `_LOW_ALBEDO`. -/
def lowAlbedo : ℚ := 1 / 20

/-- `{name: index for index, name in enumerate(fields)}`, for the names that are
strings; a name that cannot be hashed raises. -/
def columnsOf (names : List (Json F)) : Except Raised (Dict Text ℕ) :=
  if names.any fun name => runtime.hashKey name = .unhashable then
    .error .typeError
  else
    .ok (Dict.ofPairs (names.zipIdx.filterMap fun item =>
      match item.1 with
      | .str name => some (name, item.2)
      | _ => none))

/-- `required`. -/
def required : List String := ["des", "cd", "dist", "v_rel"]

/-- `row[column[name]]`. -/
def cell (column : Dict Text ℕ) (values : List (Json F)) (name : String) :
    Except Raised (Json F) := do
  let index ← orRaise .keyError (Dict.get column (text name))
  orRaise .indexError values[index]?

/-- `_number(row[column[name]]) if name in column else None`. -/
def optionalNumber (column : Dict Text ℕ) (values : List (Json F))
    (name : String) : Except Raised (Option F) :=
  match Dict.get column (text name) with
  | none => .ok none
  | some _ => do numberOf runtime (← cell column values name)

/-- `diameter_min` and `diameter_max`. -/
def diametersOf (measured magnitude : Option F) :
    Except Raised (Option N × Option N) :=
  match measured, magnitude with
  | some measured, _ =>
      .ok (some (arithmetic.ofFloat measured),
        some (arithmetic.ofFloat measured))
  | none, some magnitude => do
      let smallest ← diameterFromMagnitude arithmetic magnitude highAlbedo
      let largest ← diameterFromMagnitude arithmetic magnitude lowAlbedo
      return (some smallest, some largest)
  | none, none => .ok (none, none)

/-- `name`, before it is cut. -/
def fullNameOf (column : Dict Text ℕ) (values : List (Json F))
    (designation : Text) : Except Raised Text :=
  match Dict.get column (text "fullname") with
  | none => .ok designation
  | some _ => do
      let value ← cell column values "fullname"
      rendering runtime value

variable (strptime : String → Text → Option Instant)

/-- What a row must have to be a record: a designation, a distance, a velocity
and a date. -/
structure Essentials (F : Type) where
  designation : Text
  distance : F
  velocity : F
  approachAt : Instant

/-- The loop body up to the last `continue`; `none` where it continues. -/
def essentialsOf (column : Dict Text ℕ) (values : List (Json F)) :
    Except Raised (Option (Essentials F)) := do
  let designation := (← rendering runtime (← cell column values "des")).take 64
  let distance ← numberOf runtime (← cell column values "dist")
  let velocity ← numberOf runtime (← cell column values "v_rel")
  let date ← cell column values "cd"
  return do
    -- A `ValueError` of `str` is caught like those of `strptime`.
    let approachAt ← (runtime.str date).bind (strptime "%Y-%b-%d %H:%M")
    let distance ← distance
    let velocity ← velocity
    if designation = [] then none
    else some ⟨designation, distance, velocity, approachAt⟩

/-- The rest of the loop body. -/
def recordOf (column : Dict Text ℕ) (values : List (Json F))
    (essentials : Essentials F) : Except Raised (CloseApproachRecord N) := do
  let magnitude ← optionalNumber runtime column values "h"
  let measured ← optionalNumber runtime column values "diameter"
  let (smallest, largest) ← diametersOf arithmetic measured magnitude
  let name ← fullNameOf runtime column values essentials.designation
  return {
    designation := essentials.designation
    name := if name.take 128 = [] then essentials.designation
      else name.take 128
    approachAt := essentials.approachAt
    missDistanceAu := arithmetic.ofFloat essentials.distance
    relativeVelocityKms := arithmetic.ofFloat essentials.velocity
    absoluteMagnitudeH := magnitude.map arithmetic.ofFloat
    diameterMinKm := smallest
    diameterMaxKm := largest }

/-- The loop body, for a row that is long enough. -/
def readRow (column : Dict Text ℕ) (values : List (Json F)) :
    Except Raised (Option (CloseApproachRecord N)) := do
  match ← essentialsOf runtime strptime column values with
  | none => return none
  | some essentials =>
      (recordOf runtime arithmetic column values essentials).map some

/-- The loop body. -/
def approachOf (width : ℕ) (column : Dict Text ℕ) :
    Json F → Except Raised (Option (CloseApproachRecord N))
  | .list values =>
      if values.length < width then .ok none
      else readRow runtime arithmetic strptime column values
  | _ => .ok none

/-- `parse_close_approaches`. -/
def parseCloseApproaches (payload : Dict Text (Json F)) :
    Except Raised (List (CloseApproachRecord N)) :=
  match runtime.orElse (getOrNone payload "fields") (.list []) with
  | .list names => do
      let column ← columnsOf runtime names
      if required.all fun name => (Dict.get column (text name)).isSome then
        let rows ← orRaise .typeError
          (iterate (runtime.orElse (getOrNone payload "data") (.list [])))
        let records ← rows.mapM
          (approachOf runtime arithmetic strptime names.length column)
        return records.reduceOption
      else return []
  | _ => .ok []

end Parsers

end UTTG.Jpl
