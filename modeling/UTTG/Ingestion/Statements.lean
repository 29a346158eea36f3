import UTTG.Analytics.Aggregate
import UTTG.Ingestion.Batches
import UTTG.Ingestion.Launches
import UTTG.Python.Runtime

/-!
# The statements of the ingestion jobs

The rows that each job hands to its `INSERT … ON CONFLICT` statements, from the
records its provider client returns.  Columns that are drawn at random (`id`
where it is a UUID) are left out.  A job that raises while it builds its rows
executes no statement.
-/

namespace UTTG.Ingestion

open Python
open Launches (Instant UpcomingLaunch)
open Analytics (Metric Bucket)

/-! ## Rows -/

/-- A row for `satellites`.  A column that the job does not list keeps its
default or its old value. -/
structure Satellite (F : Type) where
  noradId : ℤ
  cosparId : Json F
  name : Text
  country : Json F
  objectType : Json F
  status : Option Text

structure OrbitalElement (F : Type) where
  noradId : ℤ
  epoch : Instant
  inclination : F
  rightAscension : F
  eccentricity : F
  argumentOfPerigee : F
  meanAnomaly : F
  meanMotion : F
  tleLine1 : Text
  tleLine2 : Text
  provider : Text

/-- A row for `space_weather_indices`. -/
structure GeomagneticObservation (F : Type) where
  timestamp : Instant
  kpIndex : F

/-- A row for `solar_wind`. -/
structure SolarWindObservation (F : Type) where
  timestamp : Instant
  speedKmS : F
  densityCm3 : F
  temperatureK : F

structure NearEarthObject (F : Type) where
  id : Text
  name : Json F
  absoluteMagnitudeH : Option (PyFloat F)
  estimatedDiameterMinKm : Option (PyFloat F)
  estimatedDiameterMaxKm : Option (PyFloat F)
  isPotentiallyHazardous : Bool
  isSentryObject : Bool

structure CloseApproach (F : Type) where
  neoId : Text
  closeApproachDate : Instant
  relativeVelocityKms : PyFloat F
  missDistanceAu : PyFloat F
  orbitingBody : Json F

abbrev ApproachKey := Text × Instant × HashKey

/-- `(neo_id, close_approach_date, orbiting_body)`. -/
def CloseApproach.key {F : Type} (runtime : Runtime F)
    (row : CloseApproach F) : ApproachKey :=
  (row.neoId, row.closeApproachDate, runtime.hashKey row.orbitingBody)

inductive Statement (F : Type) where
  | satellites (rows : List (Satellite F))
  | orbitalElements (rows : List (OrbitalElement F))
  | spaceWeatherIndices (rows : List (GeomagneticObservation F))
  | solarWind (rows : List (SolarWindObservation F))
  | nearEarthObjects (rows : List (NearEarthObject F))
  | closeApproaches (rows : List (CloseApproach F))
  | launches (rows : List UpcomingLaunch)
  | endpointMetricBuckets (rows : List (Bucket F))

/-- `DO UPDATE`; the statement for `orbital_elements` says `DO NOTHING`. -/
def Statement.doesUpdate {F : Type} : Statement F → Bool
  | .orbitalElements _ => false
  | _ => true

def Statement.KeysDistinct {F : Type} (runtime : Runtime F) :
    Statement F → Prop
  | .satellites rows => (rows.map Satellite.noradId).Nodup
  | .orbitalElements rows =>
      (rows.map fun row => (row.noradId, row.provider, row.epoch)).Nodup
  | .spaceWeatherIndices rows =>
      (rows.map GeomagneticObservation.timestamp).Nodup
  | .solarWind rows => (rows.map SolarWindObservation.timestamp).Nodup
  | .nearEarthObjects rows => (rows.map NearEarthObject.id).Nodup
  | .closeApproaches rows => (rows.map (CloseApproach.key runtime)).Nodup
  | .launches rows => (rows.map UpcomingLaunch.id).Nodup
  | .endpointMetricBuckets rows => (rows.map Bucket.key).Nodup

/-! ## Space-Track and CelesTrak -/

section Orbits

variable {F : Type} (runtime : Runtime F)

/-- `str(record.get("NORAD_CAT_ID", "")).isdigit()`. -/
def isCatalogued (record : Dict Text (Json F)) : Option Bool :=
  match Dict.get record (text "NORAD_CAT_ID") with
  | none => some (runtime.isdigit [])
  | some number => (runtime.str number).map runtime.isdigit

/-- `(record.get("SATNAME") or "").strip()`. -/
def satelliteName (record : Dict Text (Json F)) : Option Text :=
  match runtime.orElse (getOrNone record "SATNAME") (.str []) with
  | .str name => some (runtime.strip name)
  | _ => none

def satcatRow (record : Dict Text (Json F)) : Option (Satellite F) := do
  let number ← Dict.get record (text "NORAD_CAT_ID")
  let noradId ← runtime.int number
  let name ← satelliteName runtime record
  return {
    noradId := noradId
    cosparId := getOrNone record "INTLDES"
    name := name
    country := getOrNone record "COUNTRY"
    objectType := getOrNone record "OBJECT_TYPE"
    status := some (text (if runtime.truthy (getOrNone record "DECAY") then
      "decayed" else "active")) }

/-- One turn of the list comprehension of `_ingest_satcat`; `none` where it
raises, and `some none` where the record is filtered out. -/
def satcatRecord (value : Json F) : Option (Option (Satellite F)) := do
  let record ← asDict value
  let catalogued ← isCatalogued runtime record
  if catalogued then (satcatRow runtime record).map some else some none

def satcatRows (records : List (Json F)) : Option (List (Satellite F)) :=
  (records.mapM (satcatRecord runtime)).map List.reduceOption

/-- `_ingest_satcat` on the parsed reply. -/
def ingestSatcat (payload : Json F) : Option (List (Statement F)) := do
  let records ← iterate payload
  let values ← satcatRows runtime records
  return (batches values 500).map .satellites

structure TwoLineElementSet (F : Type) where
  noradId : ℤ
  name : Text
  cosparId : Option Text
  epoch : Instant
  inclination : F
  rightAscension : F
  eccentricity : F
  argumentOfPerigee : F
  meanAnomaly : F
  meanMotion : F
  tleLine1 : Text
  tleLine2 : Text

/-- A column that may be missing, as the driver receives it. -/
def optional : Option Text → Json F
  | none => .null
  | some value => .str value

/-- The row for `satellites`; the other columns are not listed. -/
def TwoLineElementSet.satellite (record : TwoLineElementSet F) :
    Satellite F where
  noradId := record.noradId
  cosparId := optional record.cosparId
  name := record.name
  country := .null
  objectType := .null
  status := none

def TwoLineElementSet.element (record : TwoLineElementSet F) :
    OrbitalElement F where
  noradId := record.noradId
  epoch := record.epoch
  inclination := record.inclination
  rightAscension := record.rightAscension
  eccentricity := record.eccentricity
  argumentOfPerigee := record.argumentOfPerigee
  meanAnomaly := record.meanAnomaly
  meanMotion := record.meanMotion
  tleLine1 := record.tleLine1
  tleLine2 := record.tleLine2
  provider := text "celestrak"

/-- `_ingest_orbital_elements`, which raises without records. -/
def ingestOrbitalElements (records : List (TwoLineElementSet F)) :
    Option (List (Statement F)) :=
  if records.isEmpty then none
  else
    let satellites := Dict.values (Dict.ofPairs (records.map fun record =>
      (record.noradId, record.satellite)))
    let elements := records.map TwoLineElementSet.element
    some ((batches satellites 1000).map .satellites ++
      (batches elements 1000).map .orbitalElements)

end Orbits

/-! ## NOAA -/

section SpaceWeather

variable {F : Type} (runtime : Runtime F)
variable (fromisoformat : Text → Option Instant)

/-- `text.replace("Z", "+00:00")`. -/
def replaceZ (value : Text) : Text :=
  value.flatMap fun code =>
    if code = point 0x5A then text "+00:00" else [code]

/-- `_timestamp`.  `fromisoformat` reads a naive datetime as UTC and is `none`
where it raises. -/
def timestampOf (value : Json F) : Option Instant :=
  if runtime.truthy value then
    (runtime.str value).bind fun string => fromisoformat (replaceZ string)
  else none

/-- `_finite`; the outer `none` is an `OverflowError`. -/
def finiteOf : Json F → Option (Option F)
  | .bool _ | .null => some none
  | value =>
      match runtime.float value with
      | .number (.finite number) => some (some number)
      | .number _ | .invalid => some none
      | .overflow => none

/-- `_OBSERVATION_LOOKBACK`, in microseconds. -/
def observationLookback : Instant := 3 * 3600 * 1000000

/-- `[item for at, item in sorted(parsed.items()) if _recent(at, newest)]`,
where `newest` is the latest key. -/
def recentSorted {Row : Type} (parsed : Dict Instant Row) : List Row :=
  match (Dict.keys parsed).max? with
  | none => []
  | some newest =>
      ((parsed.mergeSort fun left right => decide (left.1 ≤ right.1)).filter
        fun item => decide (newest - item.1 ≤ observationLookback)).map Prod.snd

/-- `estimated_kp`, or `kp_index` where that is not finite. -/
def kpOf (record : Dict Text (Json F)) : Option (Option F) := do
  match ← finiteOf runtime (getOrNone record "estimated_kp") with
  | some kp => return some kp
  | none => finiteOf runtime (getOrNone record "kp_index")

/-- One record of `parse_planetary_k`; `none` where it raises, and `some none`
where the record is skipped. -/
def planetaryK (value : Json F) :
    Option (Option (Instant × GeomagneticObservation F)) := do
  let record ← asDict value
  let index ← kpOf runtime record
  match timestampOf runtime fromisoformat (getOrNone record "time_tag"),
    index with
  | some observedAt, some kp =>
      if 0 ≤ runtime.rational kp ∧ runtime.rational kp ≤ 9 then
        return some (observedAt, ⟨observedAt, runtime.round2 kp⟩)
      else return none
  | _, _ => return none

/-- `parse_planetary_k`: the latest observation is dropped. -/
def parsePlanetaryK (payload : Json F) :
    Option (List (GeomagneticObservation F)) := do
  let records ← iterate payload
  let observations ← records.mapM (planetaryK runtime fromisoformat)
  let parsed := Dict.ofPairs observations.reduceOption
  if parsed.length < 2 then return []
  else
    match (Dict.keys parsed).max? with
    | none => return []
    | some latest =>
        return recentSorted
          (parsed.filter fun item => decide (item.1 ≠ latest))

def isInactive (record : Dict Text (Json F)) : Bool :=
  match getOrNone record "active" with
  | .bool false => true
  | _ => false

def solarWind (value : Json F) :
    Option (Option (Instant × SolarWindObservation F)) := do
  let record ← asDict value
  if isInactive record then return none
  let speed ← finiteOf runtime (getOrNone record "proton_speed")
  let density ← finiteOf runtime (getOrNone record "proton_density")
  let temperature ← finiteOf runtime (getOrNone record "proton_temperature")
  match timestampOf runtime fromisoformat (getOrNone record "time_tag"),
    speed, density, temperature with
  | some observedAt, some speed, some density, some temperature =>
      if 100 ≤ runtime.rational speed ∧ runtime.rational speed ≤ 3000 ∧
          0 ≤ runtime.rational density ∧
          0 ≤ runtime.rational temperature then
        return some (observedAt, ⟨observedAt, speed, density, temperature⟩)
      else return none
  | _, _, _, _ => return none

def parseSolarWind (payload : Json F) :
    Option (List (SolarWindObservation F)) := do
  let records ← iterate payload
  let observations ← records.mapM (solarWind runtime fromisoformat)
  return recentSorted (Dict.ofPairs observations.reduceOption)

/-- `_ingest_space_weather`, which raises without observations. -/
def ingestSpaceWeather (planetaryKPayload solarWindPayload : Json F) :
    Option (List (Statement F)) := do
  let indices ← parsePlanetaryK runtime fromisoformat planetaryKPayload
  let winds ← parseSolarWind runtime fromisoformat solarWindPayload
  if indices.isEmpty && winds.isEmpty then none
  else
    return (if indices.isEmpty then [] else [.spaceWeatherIndices indices]) ++
      if winds.isEmpty then [] else [.solarWind winds]

end SpaceWeather

/-! ## Near-Earth objects -/

section CloseApproaches

variable {F : Type}

def storeCloseApproaches (objects : List (NearEarthObject F))
    (approaches : List (CloseApproach F)) : List (Statement F) :=
  (batches objects 1000).map .nearEarthObjects ++
    (batches approaches 1000).map .closeApproaches

structure CloseApproachRecord (F : Type) where
  designation : Text
  name : Text
  approachAt : Instant
  missDistanceAu : F
  relativeVelocityKms : F
  absoluteMagnitudeH : Option F
  diameterMinKm : Option F
  diameterMaxKm : Option F

def CloseApproachRecord.object (hazardous sentry : List Text)
    (record : CloseApproachRecord F) : NearEarthObject F where
  id := record.designation
  name := .str record.name
  absoluteMagnitudeH := record.absoluteMagnitudeH.map .finite
  estimatedDiameterMinKm := record.diameterMinKm.map .finite
  estimatedDiameterMaxKm := record.diameterMaxKm.map .finite
  isPotentiallyHazardous := decide (record.designation ∈ hazardous)
  isSentryObject := decide (record.designation ∈ sentry)

def CloseApproachRecord.approach (record : CloseApproachRecord F) :
    CloseApproach F where
  neoId := record.designation
  closeApproachDate := record.approachAt
  relativeVelocityKms := .finite record.relativeVelocityKms
  missDistanceAu := .finite record.missDistanceAu
  orbitingBody := .str (text "Earth")

def ingestJplCloseApproaches (records : List (CloseApproachRecord F))
    (hazardous sentry : List Text) : List (Statement F) :=
  let objects := Dict.ofPairs (records.map fun record =>
    (record.designation, record.object hazardous sentry))
  let approaches := Dict.ofPairs (records.map fun record =>
    ((record.designation, record.approachAt), record.approach))
  storeCloseApproaches (Dict.values objects) (Dict.values approaches)

variable (runtime : Runtime F)
variable (strptime : String → Text → Option Instant)
variable (fromisoformat : Text → Option Instant)

/-- `_parse_nasa_datetime`; `none` where it raises. -/
def parseNasaDatetime (value : Text) : Option Instant :=
  (strptime "%Y-%b-%d %H:%M" value).or
    ((strptime "%Y-%m-%d" value).or (fromisoformat (replaceZ value)))

/-- `_float`; the outer `none` is an `OverflowError`. -/
def floatOf : Json F → Option (Option (PyFloat F))
  | .null | .str [] => some none
  | value =>
      match runtime.float value with
      | .number number => some (some number)
      | .invalid => some none
      | .overflow => none

abbrev Objects (F : Type) := Dict Text (NearEarthObject F)

abbrev Approaches (F : Type) := Dict ApproachKey (CloseApproach F)

/-- One turn of the inner loop of `_ingest_nasa_neos`. -/
def nasaApproach (neoId : Text) (approaches : Approaches F)
    (value : Json F) : Option (Approaches F) := do
  let approach ← asDict value
  let timestamp := runtime.orElse
    (getOrNone approach "close_approach_date_full")
    (getOrNone approach "close_approach_date")
  let velocities ← getDict approach "relative_velocity"
  let velocity ← floatOf runtime
    (getOrNone velocities "kilometers_per_second")
  let distances ← getDict approach "miss_distance"
  let distance ← floatOf runtime (getOrNone distances "astronomical")
  match runtime.truthy timestamp, velocity, distance with
  | true, some velocity, some distance =>
      let string ← runtime.str timestamp
      let approachAt ← parseNasaDatetime strptime fromisoformat string
      let body := runtime.orElse (getOrNone approach "orbiting_body")
        (.str (text "Earth"))
      let row : CloseApproach F :=
        ⟨neoId, approachAt, velocity, distance, body⟩
      if runtime.hashKey body = .unhashable then none
      else return Dict.set approaches (row.key runtime) row
  | _, _, _ => return approaches

def nasaObject (state : Objects F × Approaches F) (value : Json F) :
    Option (Objects F × Approaches F) := do
  let item ← asDict value
  let id ← Dict.get item (text "id")
  let neoId ← runtime.str id
  let diameters ← getDict item "estimated_diameter"
  let kilometers ← getDict diameters "kilometers"
  let magnitude ← floatOf runtime (getOrNone item "absolute_magnitude_h")
  let diameterMin ←
    floatOf runtime (getOrNone kilometers "estimated_diameter_min")
  let diameterMax ←
    floatOf runtime (getOrNone kilometers "estimated_diameter_max")
  let object : NearEarthObject F := {
    id := neoId
    name := runtime.orElse (getOrNone item "name") (.str neoId)
    absoluteMagnitudeH := magnitude
    estimatedDiameterMinKm := diameterMin
    estimatedDiameterMaxKm := diameterMax
    isPotentiallyHazardous :=
      runtime.truthy (getOrNone item "is_potentially_hazardous_asteroid")
    isSentryObject := runtime.truthy (getOrNone item "is_sentry_object") }
  let listed ← iterate
    ((Dict.get item (text "close_approach_data")).getD (.list []))
  let approaches ← listed.foldlM
    (nasaApproach runtime strptime fromisoformat neoId) state.2
  return (Dict.set state.1 neoId object, approaches)

def nasaDay (state : Objects F × Approaches F) (value : Json F) :
    Option (Objects F × Approaches F) := do
  let items ← iterate value
  items.foldlM (nasaObject runtime strptime fromisoformat) state

def ingestNasaNeos (payload : Json F) : Option (List (Statement F)) := do
  let feed ← asDict payload
  let days ← getDict feed "near_earth_objects"
  let (objects, approaches) ← (Dict.values days).foldlM
    (nasaDay runtime strptime fromisoformat) ([], [])
  return storeCloseApproaches (Dict.values objects) (Dict.values approaches)

end CloseApproaches

end UTTG.Ingestion
