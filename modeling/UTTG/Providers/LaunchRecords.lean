import UTTG.Core.Loops
import UTTG.Ingestion.Catalog
import UTTG.Ingestion.Statements
import UTTG.Ingestion.Upserts
import UTTG.Python.Whitespace

/-!
# Launch records of two providers

`parse_rocketlaunch_launches` and `parse_spacedevs_launches` read each record of
a payload on its own and skip the records without an id or a date.  Nothing
catches an exception in between, so one record whose members make an access
raise takes every launch of the payload with it.
-/

namespace UTTG.LaunchRecords

open Python Ingestion UTTG.Loops

open Launches (Instant)

/-- What `datetime.fromtimestamp(seconds, UTC)` gives. -/
inductive Timestamped where
  | instant (value : Instant)
  /-- It raises `ValueError` or `OverflowError`. -/
  | rejected
  /-- It raises `OSError`: the C library has no date for the number. -/
  | failed

/-- What the parsers call. -/
structure Library (F : Type) where
  /-- A naive datetime is read as UTC; `none` where it raises. -/
  fromisoformat : Text → Option Instant
  fromtimestamp : ℤ → Timestamped
  /-- `none` where it raises `TypeError`, `ValueError` or `OverflowError`. -/
  int : Json F → Option ℤ
  casefold : Text → Text
  isalnum : CodePoint → Bool
  /-- `(number - 32.0) * 5.0 / 9.0`. -/
  celsius : PyFloat F → PyFloat F
  /-- `number * _MILES_PER_HOUR_TO_METRES_PER_SECOND`. -/
  metresPerSecond : PyFloat F → PyFloat F
  /-- `round` of a finite number. -/
  round : F → ℤ

/-- `UpcomingLaunch`, with its texts and floats as they were read. -/
structure UpcomingLaunch (F : Type) where
  id : Text
  name : Text
  status : Option Text
  windowStart : Instant
  windowEnd : Option Instant
  provider : Text
  operator : Option Text
  vehicle : Option Text
  pad : Option Text
  location : Option Text
  latitude : Option (PyFloat F)
  longitude : Option (PyFloat F)
  missionDescription : Option Text
  weatherSummary : Option Text
  infoUrl : Option Text

/-- `_KNOWN_SITE_COORDINATES`, with the literals of its floats. -/
def knownSites : List (String × String × String) :=
  [("cape canaveral", "28.4889", "-80.5778"),
    ("kennedy", "28.5729", "-80.6490"),
    ("vandenberg", "34.7420", "-120.5724"),
    ("starbase", "25.9972", "-97.1566"),
    ("boca chica", "25.9972", "-97.1566"),
    ("wallops", "37.8337", "-75.4881"),
    ("mahia", "-39.2615", "177.8649"),
    ("baikonur", "45.9650", "63.3050"),
    ("plesetsk", "62.9271", "40.5777"),
    ("vostochny", "51.8844", "128.3339"),
    ("jiuquan", "40.9581", "100.2914"),
    ("xichang", "28.2463", "102.0269"),
    ("taiyuan", "38.8491", "111.6081"),
    ("wenchang", "19.6145", "110.9510"),
    ("yellow sea", "34.9000", "121.2000"),
    ("haiyang", "36.6880", "121.2500"),
    ("tanegashima", "30.4009", "130.9753"),
    ("uchinoura", "31.2510", "131.0820"),
    ("satish dhawan", "13.7199", "80.2304"),
    ("sriharikota", "13.7199", "80.2304"),
    ("kourou", "5.2360", "-52.7686"),
    ("guiana", "5.2360", "-52.7686"),
    ("esrange", "67.8932", "21.1069"),
    ("andøya", "69.2945", "16.0208"),
    ("naro", "34.4317", "127.5350")]

section Members

variable {F : Type}

/-- `string or None`. -/
def orNone (string : Text) : Option Text :=
  if string = [] then none else some string

/-- `bounded_text`. -/
def boundedText (value : Json F) (limit : ℕ) : Option Text :=
  match value with
  | .str string =>
      orNone (([point 0x20].intercalate (split string)).take limit)
  | _ => none

/-- `isinstance(part, str) and part`. -/
def nonEmptyString : Json F → Option Text
  | .str string => orNone string
  | _ => none

variable (runtime : Runtime F) (library : Library F)

/-- `parse_timestamp`. -/
def parseTimestamp : Json F → Option Instant
  | .str [] => none
  | .str string => library.fromisoformat (replaceZ string)
  | _ => none

/-- `coordinate`; the outer `none` is an `OverflowError`. -/
def coordinate (value : Json F) (bound : ℚ) : Option (Option (PyFloat F)) :=
  match runtime.float value with
  | .number (.finite number) =>
      some (if -bound ≤ runtime.rational number ∧
          runtime.rational number ≤ bound then some (.finite number) else none)
  | .number _ | .invalid => some none
  | .overflow => none

/-- `known_site_coordinates`. -/
def knownSiteCoordinates (location : Option Text) :
    Option (PyFloat F) × Option (PyFloat F) :=
  match location with
  | none => (none, none)
  | some location =>
      match knownSites.find? fun site =>
          text site.1 <:+: library.casefold location with
      | none => (none, none)
      | some (_, latitude, longitude) =>
          (some (runtime.format.read (text latitude)),
            some (runtime.format.read (text longitude)))

/-- `record.get(key) or {}`, of which members are read; `none` where that
raises `AttributeError`. -/
def memberDict (record : Dict Text (Json F)) (key : String) :
    Option (Dict Text (Json F)) :=
  asDict (runtime.orElse (getOrNone record key) (.dict []))

/-! ## RocketLaunch.Live -/

/-- `parse_timestamp(record.get("t0")) or ...`. -/
def exactStart (record : Dict Text (Json F)) : Option Instant :=
  (parseTimestamp library (getOrNone record "t0")).or
    (parseTimestamp library (getOrNone record "win_open"))

/-- `int(record.get("sort_date") or "")`. -/
def sortDate (record : Dict Text (Json F)) : Option ℤ :=
  library.int (runtime.orElse (getOrNone record "sort_date") (.str []))

/-- `_window_start`; the outer `none` is an `OSError`. -/
def windowStart (record : Dict Text (Json F)) :
    Option (Option Instant × Bool) :=
  match exactStart library record with
  | some exact => some (some exact, true)
  | none =>
      match sortDate runtime library record with
      | none => some (none, false)
      | some seconds =>
          match library.fromtimestamp seconds with
          | .instant value => some (some value, false)
          | .rejected => some (none, false)
          | .failed => none

/-- `round` of a converted number; `none` where it raises anything but a
`ValueError`. -/
def rounded (convert : PyFloat F → PyFloat F) :
    Floated F → Option (Option ℤ)
  | .overflow => none
  | .invalid => some none
  | .number number =>
      match convert number with
      | .finite value => some (some (library.round value))
      -- nan gives a `ValueError`, an infinity an `OverflowError`
      | .nan => some none
      | .infinity _ => none

/-- One of the `try` blocks of `_weather_summary`: the number that is written,
if any. -/
def measurement (convert : PyFloat F → PyFloat F) (value : Json F) :
    Option (Option ℤ) :=
  match runtime.orElse value (.str []) with
  -- `float` raises a `TypeError` here
  | .list _ | .dict _ => none
  | value => rounded library convert (runtime.float value)

/-- `_weather_summary`. -/
def weatherSummary (record : Dict Text (Json F)) : Option (Option Text) := do
  let condition := boundedText (getOrNone record "weather_condition") 64
  let temperature ← measurement runtime library library.celsius
    (getOrNone record "weather_temp")
  let wind ← measurement runtime library library.metresPerSecond
    (getOrNone record "weather_wind_mph")
  let parts := condition.toList ++
    (temperature.map fun degrees => signed degrees ++ text " °C").toList ++
    (wind.map fun speed => text "wind " ++ signed speed ++ text " m/s").toList
  return orNone ((text " · ").intercalate parts)

/-- The page of a launch. -/
def infoUrl (slug : Json F) : Option Text :=
  match slug with
  | .str slug =>
      let name := slug.filter fun code => code ≠ point 0x2D
      if name ≠ [] ∧ name.all library.isalnum then
        some (text "https://www.rocketlaunch.live/launch/" ++ slug)
      else none
  | _ => none

/-- The rest of the loop body of `parse_rocketlaunch_launches`, once the record
has an id and a date. -/
def rocketlaunchLaunch (record : Dict Text (Json F)) (id : Json F)
    (start : Instant) (exact : Bool) : Option (UpcomingLaunch F) := do
  let pad ← memberDict runtime record "pad"
  let place ← memberDict runtime pad "location"
  let location := boundedText (F := F) (.str ((text ", ").intercalate
    ([getOrNone place "name", getOrNone place "country"].filterMap
      nonEmptyString))) 160
  let (latitude, longitude) := knownSiteCoordinates runtime library location
  let idText ← runtime.str id
  let provider ← memberDict runtime record "provider"
  let vehicle ← memberDict runtime record "vehicle"
  let weather ← weatherSummary runtime library record
  return {
    id := text "rll-" ++ idText
    name := (boundedText (getOrNone record "name") 200).getD idText
    status := some (text (if exact then "Scheduled" else "TBD"))
    windowStart := start
    windowEnd := parseTimestamp library (getOrNone record "win_close")
    provider := text "rocketlaunch-live"
    operator := boundedText (getOrNone provider "name") 120
    vehicle := boundedText (getOrNone vehicle "name") 120
    pad := boundedText (getOrNone pad "name") 120
    location := location
    latitude := latitude
    longitude := longitude
    missionDescription := boundedText
      (runtime.orElse (getOrNone record "mission_description")
        (getOrNone record "launch_description")) 600
    weatherSummary := weather
    infoUrl := infoUrl library (getOrNone record "slug") }

/-- The loop body of `parse_rocketlaunch_launches`: no launch where the record
is skipped, `none` where it raises. -/
def rocketlaunchRecord : Json F → Option (Option (UpcomingLaunch F))
  | .dict record =>
      match getOrNone record "id" with
      | .null => some none
      | id => do
          match ← windowStart runtime library record with
          | (none, _) => return none
          | (some start, exact) =>
              return some
                (← rocketlaunchLaunch runtime library record id start exact)
  | _ => some none

/-! ## The Space Devs -/

/-- `parse_timestamp(record.get("net")) or ...`. -/
def netStart (record : Dict Text (Json F)) : Option Instant :=
  (parseTimestamp library (getOrNone record "net")).or
    (parseTimestamp library (getOrNone record "window_start"))

/-- The rest of the loop body of `parse_spacedevs_launches`, once the record has
an id and a date. -/
def spacedevsLaunch (record : Dict Text (Json F)) (start : Instant) :
    Option (UpcomingLaunch F) := do
  let pad ← memberDict runtime record "pad"
  let rocket ← memberDict runtime record "rocket"
  let configuration ← memberDict runtime rocket "configuration"
  let operator ← memberDict runtime record "launch_service_provider"
  let mission ← memberDict runtime record "mission"
  let idText ← runtime.str (getOrNone record "id")
  let status ← memberDict runtime record "status"
  let location ← memberDict runtime pad "location"
  let latitude ← coordinate runtime (getOrNone pad "latitude") 90
  let longitude ← coordinate runtime (getOrNone pad "longitude") 180
  return {
    id := idText
    name := (boundedText (getOrNone record "name") 200).getD idText
    status := boundedText (getOrNone status "abbrev") 32
    windowStart := start
    windowEnd := parseTimestamp library (getOrNone record "window_end")
    provider := text "the-space-devs"
    operator := boundedText (getOrNone operator "name") 120
    vehicle := boundedText
      (runtime.orElse (getOrNone configuration "full_name")
        (getOrNone configuration "name")) 120
    pad := boundedText (getOrNone pad "name") 120
    location := boundedText (getOrNone location "name") 160
    latitude := latitude
    longitude := longitude
    missionDescription := boundedText (getOrNone mission "description") 600
    weatherSummary := none
    infoUrl := none }

/-- The loop body of `parse_spacedevs_launches`. -/
def spacedevsRecord : Json F → Option (Option (UpcomingLaunch F))
  | .dict record =>
      if runtime.truthy (getOrNone record "id") then
        match netStart library record with
        | none => some none
        | some start => (spacedevsLaunch runtime library record start).map some
      else some none
  | _ => some none

/-! ## Payloads -/

/-- The loop of a parser over `payload.get(key) or []`. -/
def parseRecords (record : Json F → Option (Option (UpcomingLaunch F)))
    (key : String) (payload : Dict Text (Json F)) :
    Option (List (UpcomingLaunch F)) := do
  let records ← iterate (runtime.orElse (getOrNone payload key) (.list []))
  (records.mapM record).map List.reduceOption

/-- `parse_rocketlaunch_launches`. -/
def parseRocketlaunchLaunches (payload : Dict Text (Json F)) :
    Option (List (UpcomingLaunch F)) :=
  parseRecords runtime (rocketlaunchRecord runtime library) "result" payload

/-- `parse_spacedevs_launches`. -/
def parseSpacedevsLaunches (payload : Dict Text (Json F)) :
    Option (List (UpcomingLaunch F)) :=
  parseRecords runtime (spacedevsRecord runtime library) "results" payload

/-! ## What a record must be -/

/-- Missing, falsy or an object. -/
def FalsyOrDict (value : Json F) : Prop :=
  runtime.truthy value = true → ∃ items, value = .dict items

def isContainer : Json F → Bool
  | .list _ | .dict _ => true
  | _ => false

/-- `float(value or "")` is a number that can be rounded after the conversion,
or it raises `ValueError`. -/
structure Measurable (convert : PyFloat F → PyFloat F) (value : Json F) :
    Prop where
  scalar : isContainer (runtime.orElse value (.str [])) = false
  fits : runtime.float (runtime.orElse value (.str [])) ≠ .overflow
  rounds : ∀ number negative,
    runtime.float (runtime.orElse value (.str [])) = .number number →
      convert number ≠ .infinity negative

/-- The record has a date, from `sort_date` if from nothing else. -/
def Dated (record : Dict Text (Json F)) : Prop :=
  (∃ exact, exactStart library record = some exact) ∨
    ∃ seconds value, sortDate runtime library record = some seconds ∧
      library.fromtimestamp seconds = .instant value

/-- What `parse_rocketlaunch_launches` relies on in a record with an id and a
date. -/
structure RocketlaunchReadable (record : Dict Text (Json F)) : Prop where
  pad : FalsyOrDict runtime (getOrNone record "pad")
  location : ∀ pad, memberDict runtime record "pad" = some pad →
    FalsyOrDict runtime (getOrNone pad "location")
  id : (runtime.str (getOrNone record "id")).isSome = true
  provider : FalsyOrDict runtime (getOrNone record "provider")
  vehicle : FalsyOrDict runtime (getOrNone record "vehicle")
  temperature : Measurable runtime library.celsius
    (getOrNone record "weather_temp")
  wind : Measurable runtime library.metresPerSecond
    (getOrNone record "weather_wind_mph")

/-- Not an object, without an id, or an object whose `sort_date` is no number
without a date, if it is needed, and which is readable if it has a date. -/
def RocketlaunchHarmless (value : Json F) : Prop :=
  ∀ record, value = .dict record → getOrNone record "id" ≠ .null →
    (exactStart library record = none → ∀ seconds,
      sortDate runtime library record = some seconds →
        library.fromtimestamp seconds ≠ .failed) ∧
    (Dated runtime library record →
      RocketlaunchReadable runtime library record)

/-- What `parse_spacedevs_launches` relies on in a record with an id and a
date. -/
structure SpacedevsReadable (record : Dict Text (Json F)) : Prop where
  pad : FalsyOrDict runtime (getOrNone record "pad")
  rocket : FalsyOrDict runtime (getOrNone record "rocket")
  configuration : ∀ rocket, memberDict runtime record "rocket" = some rocket →
    FalsyOrDict runtime (getOrNone rocket "configuration")
  operator : FalsyOrDict runtime (getOrNone record "launch_service_provider")
  mission : FalsyOrDict runtime (getOrNone record "mission")
  id : (runtime.str (getOrNone record "id")).isSome = true
  status : FalsyOrDict runtime (getOrNone record "status")
  location : ∀ pad, memberDict runtime record "pad" = some pad →
    FalsyOrDict runtime (getOrNone pad "location")
  latitude : ∀ pad, memberDict runtime record "pad" = some pad →
    runtime.float (getOrNone pad "latitude") ≠ .overflow
  longitude : ∀ pad, memberDict runtime record "pad" = some pad →
    runtime.float (getOrNone pad "longitude") ≠ .overflow

/-- Not an object, without an id or a date, or readable. -/
def SpacedevsHarmless (value : Json F) : Prop :=
  ∀ record, value = .dict record →
    runtime.truthy (getOrNone record "id") = true →
      (∃ start, netStart library record = some start) →
        SpacedevsReadable runtime record

/-! ## Members -/

variable {runtime library}

theorem isSome_memberDict_iff {record : Dict Text (Json F)} {key : String} :
    (memberDict runtime record key).isSome = true ↔
      FalsyOrDict runtime (getOrNone record key) := by
  rw [memberDict, Runtime.orElse, FalsyOrDict]
  generalize getOrNone record key = value
  by_cases htruthy : runtime.truthy value = true
  · rw [if_pos htruthy]
    cases value with
    | dict items => simp [asDict]
    | _ => simp [asDict, htruthy]
  · rw [if_neg htruthy]
    exact iff_of_true rfl fun hcontra => absurd hcontra htruthy

theorem isSome_coordinate_iff (value : Json F) (bound : ℚ) :
    (coordinate runtime value bound).isSome = true ↔
      runtime.float value ≠ .overflow := by
  unfold coordinate
  cases runtime.float value with
  | number number => cases number <;> simp
  | invalid => simp
  | overflow => simp

theorem isSome_rounded_iff (convert : PyFloat F → PyFloat F)
    (floated : Floated F) :
    (rounded library convert floated).isSome = true ↔
      floated ≠ .overflow ∧ ∀ number negative, floated = .number number →
        convert number ≠ .infinity negative := by
  cases floated with
  | overflow => simp [rounded]
  | invalid => simp [rounded]
  | number number =>
      rw [rounded]
      constructor
      · intro hsome
        refine ⟨by simp, fun other negative hnumber hinfinity => ?_⟩
        obtain rfl := Floated.number.inj hnumber
        rw [hinfinity] at hsome
        cases hsome
      · rintro ⟨-, hrounds⟩
        cases hconvert : convert number with
        | finite value => rfl
        | nan => rfl
        | infinity negative =>
            exact absurd hconvert (hrounds number negative rfl)

theorem isSome_measurement_iff (convert : PyFloat F → PyFloat F)
    (value : Json F) :
    (measurement runtime library convert value).isSome = true ↔
      Measurable runtime convert value := by
  have hsplit : Measurable runtime convert value ↔
      isContainer (runtime.orElse value (.str [])) = false ∧
        (rounded library convert
          (runtime.float (runtime.orElse value (.str [])))).isSome = true := by
    rw [isSome_rounded_iff]
    exact ⟨fun hall => ⟨hall.scalar, hall.fits, hall.rounds⟩,
      fun hall => ⟨hall.1, hall.2.1, hall.2.2⟩⟩
  rw [hsplit, measurement]
  cases runtime.orElse value (.str []) with
  | list items => simp [isContainer]
  | dict items => simp [isContainer]
  | other value => exact value.elim
  | _ => simp [isContainer]

theorem isSome_weatherSummary_iff (record : Dict Text (Json F)) :
    (weatherSummary runtime library record).isSome = true ↔
      Measurable runtime library.celsius (getOrNone record "weather_temp") ∧
        Measurable runtime library.metresPerSecond
          (getOrNone record "weather_wind_mph") := by
  rw [← isSome_measurement_iff, ← isSome_measurement_iff, weatherSummary]
  cases measurement runtime library library.celsius
      (getOrNone record "weather_temp") with
  | none => simp
  | some temperature =>
      cases measurement runtime library library.metresPerSecond
          (getOrNone record "weather_wind_mph") with
      | none => simp
      | some wind => simp

/-! ## Records -/

/-- A launch is built exactly from a readable record. -/
theorem isSome_rocketlaunchLaunch_iff (record : Dict Text (Json F))
    (start : Instant) (exact : Bool) :
    (rocketlaunchLaunch runtime library record (getOrNone record "id") start
        exact).isSome = true ↔ RocketlaunchReadable runtime library record := by
  constructor
  · intro hsome
    obtain ⟨launch, hlaunch⟩ := Option.isSome_iff_exists.mp hsome
    simp only [rocketlaunchLaunch, Option.bind_eq_bind,
      Option.bind_eq_some_iff] at hlaunch
    obtain ⟨pad, hpad, place, hplace, idText, hid, provider, hprovider,
      vehicle, hvehicle, weather, hweather, -⟩ := hlaunch
    have hmeasured := (isSome_weatherSummary_iff record).mp
      (by rw [hweather]; rfl)
    refine ⟨isSome_memberDict_iff.mp (by rw [hpad]; rfl), fun other hother => ?_,
      by rw [hid]; rfl, isSome_memberDict_iff.mp (by rw [hprovider]; rfl),
      isSome_memberDict_iff.mp (by rw [hvehicle]; rfl), hmeasured.1,
      hmeasured.2⟩
    obtain rfl := Option.some.inj (hpad.symm.trans hother)
    exact isSome_memberDict_iff.mp (by rw [hplace]; rfl)
  · intro hreadable
    obtain ⟨pad, hpad⟩ := Option.isSome_iff_exists.mp
      (isSome_memberDict_iff.mpr hreadable.pad)
    obtain ⟨place, hplace⟩ := Option.isSome_iff_exists.mp
      (isSome_memberDict_iff.mpr (hreadable.location pad hpad))
    obtain ⟨idText, hid⟩ := Option.isSome_iff_exists.mp hreadable.id
    obtain ⟨provider, hprovider⟩ := Option.isSome_iff_exists.mp
      (isSome_memberDict_iff.mpr hreadable.provider)
    obtain ⟨vehicle, hvehicle⟩ := Option.isSome_iff_exists.mp
      (isSome_memberDict_iff.mpr hreadable.vehicle)
    obtain ⟨weather, hweather⟩ := Option.isSome_iff_exists.mp
      ((isSome_weatherSummary_iff record).mpr
        ⟨hreadable.temperature, hreadable.wind⟩)
    simp only [rocketlaunchLaunch, hpad, hplace, hid, hprovider, hvehicle,
      hweather, Option.bind_eq_bind, Option.bind_some]
    rfl

theorem isSome_spacedevsLaunch_iff (record : Dict Text (Json F))
    (start : Instant) :
    (spacedevsLaunch runtime library record start).isSome = true ↔
      SpacedevsReadable runtime record := by
  constructor
  · intro hsome
    obtain ⟨launch, hlaunch⟩ := Option.isSome_iff_exists.mp hsome
    simp only [spacedevsLaunch, Option.bind_eq_bind,
      Option.bind_eq_some_iff] at hlaunch
    obtain ⟨pad, hpad, rocket, hrocket, configuration, hconfiguration, operator,
      hoperator, mission, hmission, idText, hid, status, hstatus, location,
      hlocation, latitude, hlatitude, longitude, hlongitude, -⟩ := hlaunch
    have hsame : ∀ other, memberDict runtime record "pad" = some other →
        pad = other := fun other hother =>
      Option.some.inj (hpad.symm.trans hother)
    refine ⟨isSome_memberDict_iff.mp (by rw [hpad]; rfl),
      isSome_memberDict_iff.mp (by rw [hrocket]; rfl), fun other hother => ?_,
      isSome_memberDict_iff.mp (by rw [hoperator]; rfl),
      isSome_memberDict_iff.mp (by rw [hmission]; rfl), by rw [hid]; rfl,
      isSome_memberDict_iff.mp (by rw [hstatus]; rfl), fun other hother => ?_,
      fun other hother => ?_, fun other hother => ?_⟩
    · obtain rfl := Option.some.inj (hrocket.symm.trans hother)
      exact isSome_memberDict_iff.mp (by rw [hconfiguration]; rfl)
    · obtain rfl := hsame other hother
      exact isSome_memberDict_iff.mp (by rw [hlocation]; rfl)
    · obtain rfl := hsame other hother
      exact (isSome_coordinate_iff _ _).mp (by rw [hlatitude]; rfl)
    · obtain rfl := hsame other hother
      exact (isSome_coordinate_iff _ _).mp (by rw [hlongitude]; rfl)
  · intro hreadable
    obtain ⟨pad, hpad⟩ := Option.isSome_iff_exists.mp
      (isSome_memberDict_iff.mpr hreadable.pad)
    obtain ⟨rocket, hrocket⟩ := Option.isSome_iff_exists.mp
      (isSome_memberDict_iff.mpr hreadable.rocket)
    obtain ⟨configuration, hconfiguration⟩ := Option.isSome_iff_exists.mp
      (isSome_memberDict_iff.mpr (hreadable.configuration rocket hrocket))
    obtain ⟨operator, hoperator⟩ := Option.isSome_iff_exists.mp
      (isSome_memberDict_iff.mpr hreadable.operator)
    obtain ⟨mission, hmission⟩ := Option.isSome_iff_exists.mp
      (isSome_memberDict_iff.mpr hreadable.mission)
    obtain ⟨idText, hid⟩ := Option.isSome_iff_exists.mp hreadable.id
    obtain ⟨status, hstatus⟩ := Option.isSome_iff_exists.mp
      (isSome_memberDict_iff.mpr hreadable.status)
    obtain ⟨location, hlocation⟩ := Option.isSome_iff_exists.mp
      (isSome_memberDict_iff.mpr (hreadable.location pad hpad))
    obtain ⟨latitude, hlatitude⟩ := Option.isSome_iff_exists.mp
      ((isSome_coordinate_iff _ 90).mpr (hreadable.latitude pad hpad))
    obtain ⟨longitude, hlongitude⟩ := Option.isSome_iff_exists.mp
      ((isSome_coordinate_iff _ 180).mpr (hreadable.longitude pad hpad))
    simp only [spacedevsLaunch, hpad, hrocket, hconfiguration, hoperator,
      hmission, hid, hstatus, hlocation, hlatitude, hlongitude,
      Option.bind_eq_bind, Option.bind_some]
    rfl

/-- `_window_start` with its outcomes. -/
theorem windowStart_cases (record : Dict Text (Json F)) :
    (windowStart runtime library record = none ∧
        exactStart library record = none ∧
        ∃ seconds, sortDate runtime library record = some seconds ∧
          library.fromtimestamp seconds = .failed) ∨
      (windowStart runtime library record = some (none, false) ∧
        exactStart library record = none ∧
        ∀ seconds, sortDate runtime library record = some seconds →
          library.fromtimestamp seconds = .rejected) ∨
      ∃ start exact,
        windowStart runtime library record = some (some start, exact) ∧
          Dated runtime library record ∧
          (exactStart library record = none → ∀ seconds,
            sortDate runtime library record = some seconds →
              library.fromtimestamp seconds ≠ .failed) := by
  unfold windowStart
  cases hexact : exactStart library record with
  | some exact =>
      exact .inr (.inr ⟨exact, true, rfl, .inl ⟨exact, hexact⟩, by simp⟩)
  | none =>
      cases hsort : sortDate runtime library record with
      | none => exact .inr (.inl ⟨rfl, rfl, by simp⟩)
      | some seconds =>
          cases hstamp : library.fromtimestamp seconds with
          | instant value =>
              refine .inr (.inr ⟨value, false, by simp only [hstamp],
                .inr ⟨seconds, value, hsort, hstamp⟩, fun _ other hother => ?_⟩)
              obtain rfl := Option.some.inj hother
              rw [hstamp]
              simp
          | rejected =>
              refine .inr (.inl ⟨by simp only [hstamp], rfl,
                fun other hother => ?_⟩)
              obtain rfl := Option.some.inj hother
              exact hstamp
          | failed =>
              exact .inl ⟨by simp only [hstamp], rfl, seconds, rfl, hstamp⟩

theorem rocketlaunchRecord_of_ne_null {record : Dict Text (Json F)}
    (hid : getOrNone record "id" ≠ .null) :
    rocketlaunchRecord runtime library (.dict record) =
      (windowStart runtime library record).bind fun
        | (none, _) => some none
        | (some start, exact) =>
            (rocketlaunchLaunch runtime library record (getOrNone record "id")
              start exact).map some := by
  rw [rocketlaunchRecord]
  split
  case h_1 hnull => exact absurd hnull hid
  case h_2 =>
    rw [Option.bind_eq_bind]
    congr
    funext window
    rcases window with ⟨_ | start, exact⟩
    · rfl
    · exact Option.map_eq_bind.symm

/-- The loop body raises exactly for the records that are not harmless. -/
theorem isSome_rocketlaunchRecord_iff (value : Json F) :
    (rocketlaunchRecord runtime library value).isSome = true ↔
      RocketlaunchHarmless runtime library value := by
  cases value with
  | dict record =>
      by_cases hid : getOrNone record "id" = .null
      · refine iff_of_true (by rw [rocketlaunchRecord, hid]; rfl) ?_
        intro other hother hne
        obtain rfl := Value.dict.inj hother
        exact absurd hid hne
      have hharmless : RocketlaunchHarmless runtime library (.dict record) ↔
          (exactStart library record = none → ∀ seconds,
            sortDate runtime library record = some seconds →
              library.fromtimestamp seconds ≠ .failed) ∧
          (Dated runtime library record →
            RocketlaunchReadable runtime library record) :=
        ⟨fun hall => hall record rfl hid, fun hall other hother _ => by
          obtain rfl := Value.dict.inj hother
          exact hall⟩
      rw [hharmless, rocketlaunchRecord_of_ne_null hid]
      rcases @windowStart_cases F runtime library record with
          ⟨hwindow, hexact, seconds, hsort, hfailed⟩ |
          ⟨hwindow, hexact, hrejected⟩ |
          ⟨start, exact, hwindow, hdated, hstamp⟩
      · rw [hwindow]
        exact iff_of_false (by simp) fun hall =>
          hall.1 hexact seconds hsort hfailed
      · rw [hwindow]
        refine iff_of_true rfl ⟨fun _ seconds hsort => ?_, ?_⟩
        · rw [hrejected seconds hsort]
          simp
        · rintro (⟨exact, hother⟩ | ⟨seconds, value, hsort, hvalue⟩)
          · rw [hexact] at hother
            cases hother
          · rw [hrejected seconds hsort] at hvalue
            cases hvalue
      · rw [hwindow, Option.bind_some, Option.isSome_map,
          isSome_rocketlaunchLaunch_iff]
        exact ⟨fun hreadable => ⟨hstamp, fun _ => hreadable⟩,
          fun hall => hall.2 hdated⟩
  | _ =>
      refine iff_of_true rfl fun record hrecord => ?_
      cases hrecord

theorem isSome_spacedevsRecord_iff (value : Json F) :
    (spacedevsRecord runtime library value).isSome = true ↔
      SpacedevsHarmless runtime library value := by
  cases value with
  | dict record =>
      have hharmless : SpacedevsHarmless runtime library (.dict record) ↔
          (runtime.truthy (getOrNone record "id") = true →
            (∃ start, netStart library record = some start) →
              SpacedevsReadable runtime record) :=
        ⟨fun hall => hall record rfl, fun hall other hother => by
          obtain rfl := Value.dict.inj hother
          exact hall⟩
      rw [hharmless, spacedevsRecord]
      by_cases hid : runtime.truthy (getOrNone record "id") = true
      · rw [if_pos hid]
        cases hstart : netStart library record with
        | none => simp
        | some start =>
            rw [Option.isSome_map, isSome_spacedevsLaunch_iff]
            simp [hid]
      · rw [if_neg hid]
        simp [hid]
  | _ =>
      refine iff_of_true rfl fun record hrecord => ?_
      cases hrecord

/-! ## Payloads of many records -/

/-- What a parser gives for the records of a payload, whatever else the payload
has. -/
theorem parseRecords_of_list
    {record : Json F → Option (Option (UpcomingLaunch F))} {key : String}
    {payload : Dict Text (Json F)} {records : List (Json F)}
    (hrecords : Dict.get payload (text key) = some (.list records)) :
    parseRecords runtime record key payload =
      (records.mapM record).map List.reduceOption := by
  have hmember : runtime.orElse (getOrNone payload key) (.list []) =
      .list records := by
    rw [getOrNone, hrecords, Option.getD_some, Runtime.orElse]
    cases records with
    | nil => rfl
    | cons first rest => rfl
  rw [parseRecords, hmember]
  rfl

/-- For payloads whose member `key` has these records, and both of them in one
list, the parser returns, and the launches of the whole are those of its two
parts. -/
def Concatenates
    (parse : Dict Text (Json F) → Option (List (UpcomingLaunch F)))
    (key : String) (left right : List (Json F)) : Prop :=
  ∀ first second whole : Dict Text (Json F),
    Dict.get first (text key) = some (.list left) →
    Dict.get second (text key) = some (.list right) →
    Dict.get whole (text key) = some (.list (left ++ right)) →
      ∃ launches others, parse first = some launches ∧
        parse second = some others ∧ parse whole = some (launches ++ others)

/-- A loop over the records concatenates exactly when it raises for none. -/
theorem concatenates_iff
    (record : Json F → Option (Option (UpcomingLaunch F))) (key : String)
    (left right : List (Json F)) :
    Concatenates (parseRecords runtime record key) key left right ↔
      ∀ value ∈ left ++ right, (record value).isSome = true := by
  constructor
  · intro hconcatenates
    have hget : ∀ records : List (Json F),
        Dict.get [(text key, Value.list records)] (text key) =
          some (.list records) := by
      intro records
      simp [Dict.get]
    obtain ⟨launches, others, -, -, hwhole⟩ := hconcatenates _ _ _
      (hget left) (hget right) (hget (left ++ right))
    rw [parseRecords_of_list (hget (left ++ right))] at hwhole
    obtain ⟨results, hresults, -⟩ := Option.map_eq_some_iff.mp hwhole
    exact (isSome_mapM_iff (left ++ right)).mp (by rw [hresults]; rfl)
  · intro hall first second whole hfirst hsecond hwhole
    obtain ⟨launches, hlaunches⟩ := Option.isSome_iff_exists.mp
      ((@isSome_mapM_iff _ _ record left).mpr fun value hvalue =>
        hall value (List.mem_append_left right hvalue))
    obtain ⟨others, hothers⟩ := Option.isSome_iff_exists.mp
      ((@isSome_mapM_iff _ _ record right).mpr fun value hvalue =>
        hall value (List.mem_append_right left hvalue))
    refine ⟨launches.reduceOption, others.reduceOption, ?_, ?_, ?_⟩
    · rw [parseRecords_of_list hfirst, hlaunches]
      rfl
    · rw [parseRecords_of_list hsecond, hothers]
      rfl
    · rw [parseRecords_of_list hwhole, List.mapM_append, hlaunches, hothers]
      exact congrArg some (List.reduceOption_append launches others)

/-- Each parser returns for two lists of records, and for both together the
launches of both, exactly when every record is harmless. -/
theorem launch_parsers_concatenate_iff (left right : List (Json F)) :
    (Concatenates (parseRocketlaunchLaunches runtime library) "result" left
        right ↔
      ∀ value ∈ left ++ right, RocketlaunchHarmless runtime library value) ∧
    (Concatenates (parseSpacedevsLaunches runtime library) "results" left
        right ↔
      ∀ value ∈ left ++ right, SpacedevsHarmless runtime library value) := by
  constructor
  · simp only [← isSome_rocketlaunchRecord_iff]
    exact concatenates_iff _ _ left right
  · simp only [← isSome_spacedevsRecord_iff]
    exact concatenates_iff _ _ left right

end Members

/-! ## Members of another type -/

/-- A library that reads the one date of the records below. -/
def newYearLibrary : Library Unit where
  fromisoformat string :=
    if string = text "2026-01-01T00:00+00:00" then some 1767225600000000
    else none
  fromtimestamp _ := .rejected
  int _ := none
  casefold := id
  isalnum code := isDigit code
  celsius := id
  metresPerSecond := id
  round _ := 0

/-- A launch of the new year, with a further member. -/
def newYearLaunch (date key : String) (value : Json Unit) : Json Unit :=
  .dict [(text "id", .int 1), (text date, .str (text "2026-01-01T00:00Z")),
    (text key, value)]

/-- The pads of a launch in a list, or its status as a string, end the whole
schedule of a provider, while a launch without them is read. -/
theorem wrong_member_ends_schedule :
    (parseRocketlaunchLaunches unitRuntime newYearLibrary
      [(text "result", .list [newYearLaunch "t0" "pad" .null])]).isSome =
        true ∧
    (parseSpacedevsLaunches unitRuntime newYearLibrary
      [(text "results", .list [newYearLaunch "net" "status" .null])]).isSome =
        true ∧
    ¬Concatenates (parseRocketlaunchLaunches unitRuntime newYearLibrary)
      "result" [newYearLaunch "t0" "pad" .null]
      [newYearLaunch "t0" "pad" (.list [.str (text "LC-39A")])] ∧
    ¬Concatenates (parseSpacedevsLaunches unitRuntime newYearLibrary)
      "results" [newYearLaunch "net" "status" .null]
      [newYearLaunch "net" "status" (.str (text "Go"))] := by
  refine ⟨by decide +kernel, by decide +kernel, fun hconcatenates => ?_,
    fun hconcatenates => ?_⟩
  · have hraises := (concatenates_iff _ _ _ _).mp hconcatenates
      (newYearLaunch "t0" "pad" (.list [.str (text "LC-39A")]))
      (by simp)
    exact absurd hraises (by decide +kernel)
  · have hraises := (concatenates_iff _ _ _ _).mp hconcatenates
      (newYearLaunch "net" "status" (.str (text "Go")))
      (by simp)
    exact absurd hraises (by decide +kernel)

end UTTG.LaunchRecords
