import UTTG.Core.Loops
import UTTG.Ingestion.Statements

/-!
# Distinct keys in upserts

PostgreSQL rejects an `INSERT … ON CONFLICT DO UPDATE` that would update one
row twice.  The jobs that collect their rows in a dictionary under the
conflict key never send such a statement.  `_ingest_satcat` and
`_replace_upcoming_launches` send the rows as the provider lists them, so
their statements have distinct keys exactly when the provider repeats none.
-/

namespace UTTG.Ingestion

open Python UTTG.Loops
open Launches (Instant UpcomingLaunch)
open Analytics (Metric Bucket aggregate nodup_aggregate)

section Jobs

variable {F : Type} (runtime : Runtime F)

/-! ## Space-Track -/

/-- The catalogue number of a record that the comprehension keeps. -/
def catalogueNumber (value : Json F) : Option ℤ := do
  let record ← asDict value
  let number ← Dict.get record (text "NORAD_CAT_ID")
  let string ← runtime.str number
  if runtime.isdigit string then runtime.int number else none

theorem satcatRow_noradId {record : Dict Text (Json F)} {row : Satellite F}
    (hrow : satcatRow runtime record = some row) :
    ∃ number, Dict.get record (text "NORAD_CAT_ID") = some number ∧
      runtime.int number = some row.noradId := by
  obtain ⟨number, hnumber, hrow⟩ := Option.bind_eq_some_iff.mp hrow
  obtain ⟨noradId, hint, hrow⟩ := Option.bind_eq_some_iff.mp hrow
  obtain ⟨name, -, hrow⟩ := Option.bind_eq_some_iff.mp hrow
  obtain rfl := Option.some.inj hrow
  exact ⟨number, hnumber, hint⟩

/-- A record that does not raise is kept under its catalogue number or
filtered out for want of one. -/
theorem satcatRecord_spec {value : Json F} {result : Option (Satellite F)}
    (hrecord : satcatRecord runtime value = some result) :
    result.map Satellite.noradId = catalogueNumber runtime value := by
  obtain ⟨record, hdict, hrecord⟩ := Option.bind_eq_some_iff.mp hrecord
  obtain ⟨catalogued, hcatalogued, hrow⟩ := Option.bind_eq_some_iff.mp hrecord
  unfold isCatalogued at hcatalogued
  unfold catalogueNumber
  cases hnumber : Dict.get record (text "NORAD_CAT_ID") with
  | none =>
      obtain rfl : false = catalogued := by
        simpa [hnumber, Runtime.isdigit] using hcatalogued
      obtain rfl : none = result := by simpa using hrow
      simp [hdict, hnumber]
  | some number =>
      simp only [hnumber] at hcatalogued
      obtain ⟨string, hstring, rfl⟩ := Option.map_eq_some_iff.mp hcatalogued
      cases hdigits : runtime.isdigit string with
      | false =>
          obtain rfl : none = result := by simpa [hdigits] using hrow
          simp [hdict, hnumber, hstring, hdigits]
      | true =>
          simp only [hdigits, if_true] at hrow
          obtain ⟨row, hkept, rfl⟩ := Option.map_eq_some_iff.mp hrow
          obtain ⟨same, hsame, hint⟩ := satcatRow_noradId runtime hkept
          obtain rfl : number = same := by simpa [hnumber] using hsame
          simp [hdict, hnumber, hstring, hdigits, hint]

/-- The comprehension reads every record without raising. -/
def Readable (records : List (Json F)) : Prop :=
  ∀ value ∈ records, (satcatRecord runtime value).isSome = true

/-- The comprehension gives rows exactly for readable records, one for each
catalogue number. -/
theorem satcatRows_eq_some_iff {records : List (Json F)} :
    (∃ rows, satcatRows runtime records = some rows) ↔
      Readable runtime records := by
  rw [Readable, ← isSome_mapM_iff, ← Option.isSome_iff_exists, satcatRows,
    Option.isSome_map]

theorem noradIds_satcatRows {records : List (Json F)}
    {rows : List (Satellite F)}
    (hrows : satcatRows runtime records = some rows) :
    rows.map Satellite.noradId =
      records.filterMap (catalogueNumber runtime) := by
  obtain ⟨results, hresults, rfl⟩ := Option.map_eq_some_iff.mp hrows
  exact map_reduceOption_of_mapM
    (fun value _ result => satcatRecord_spec runtime) hresults

/-! ## NOAA -/

omit runtime in
/-- The recent observations in order of time, out of a dictionary that has
every observation under its own time. -/
theorem nodup_recentSorted {Row : Type} {time : Row → Instant}
    {parsed : Dict Instant Row} (hkeyed : Dict.Keyed time parsed) :
    ((recentSorted parsed).map time).Nodup := by
  unfold recentSorted
  split
  · exact List.nodup_nil
  · exact ((hkeyed.perm (List.mergeSort_perm _ _)).sublist
      List.filter_sublist).nodup

variable (fromisoformat : Text → Option Instant)

theorem planetaryK_timestamp {value : Json F}
    {item : Instant × GeomagneticObservation F}
    (hitem : planetaryK runtime fromisoformat value = some (some item)) :
    item.2.timestamp = item.1 := by
  obtain ⟨record, -, hitem⟩ := Option.bind_eq_some_iff.mp hitem
  obtain ⟨index, -, hitem⟩ := Option.bind_eq_some_iff.mp hitem
  split at hitem
  · split at hitem
    · obtain rfl := Option.some.inj (Option.some.inj hitem)
      rfl
    · exact absurd (Option.some.inj hitem) (by simp)
  · exact absurd (Option.some.inj hitem) (by simp)

theorem solarWind_timestamp {value : Json F}
    {item : Instant × SolarWindObservation F}
    (hitem : solarWind runtime fromisoformat value = some (some item)) :
    item.2.timestamp = item.1 := by
  obtain ⟨record, -, hitem⟩ := Option.bind_eq_some_iff.mp hitem
  split at hitem
  · exact absurd (Option.some.inj hitem) (by simp)
  · obtain ⟨speed, -, hitem⟩ := Option.bind_eq_some_iff.mp hitem
    obtain ⟨density, -, hitem⟩ := Option.bind_eq_some_iff.mp hitem
    obtain ⟨temperature, -, hitem⟩ := Option.bind_eq_some_iff.mp hitem
    split at hitem
    · split at hitem
      · obtain rfl := Option.some.inj (Option.some.inj hitem)
        rfl
      · exact absurd (Option.some.inj hitem) (by simp)
    · exact absurd (Option.some.inj hitem) (by simp)

omit runtime fromisoformat in
/-- Observations that a loop collects under their own time. -/
theorem keyed_ofPairs_mapM {Row : Type} {time : Row → Instant}
    {parse : Json F → Option (Option (Instant × Row))}
    (hparse : ∀ value item, parse value = some (some item) →
      time item.2 = item.1)
    {records : List (Json F)} {observations : List (Option (Instant × Row))}
    (hrecords : records.mapM parse = some observations) :
    Dict.Keyed time (Dict.ofPairs observations.reduceOption) := by
  apply Dict.keyed_ofPairs
  intro item hitem
  rw [List.reduceOption_mem_iff] at hitem
  obtain ⟨value, -, hvalue⟩ := mem_of_mapM hrecords hitem
  exact hparse value item hvalue

theorem nodup_parsePlanetaryK {payload : Json F}
    {indices : List (GeomagneticObservation F)}
    (hindices : parsePlanetaryK runtime fromisoformat payload =
      some indices) :
    (indices.map GeomagneticObservation.timestamp).Nodup := by
  obtain ⟨records, -, hindices⟩ := Option.bind_eq_some_iff.mp hindices
  obtain ⟨observations, hobservations, hindices⟩ :=
    Option.bind_eq_some_iff.mp hindices
  have hkeyed := keyed_ofPairs_mapM
    (fun value item => planetaryK_timestamp runtime fromisoformat)
    hobservations
  simp only at hindices
  split at hindices
  · obtain rfl := Option.some.inj hindices
    exact List.nodup_nil
  · split at hindices
    · obtain rfl := Option.some.inj hindices
      exact List.nodup_nil
    · obtain rfl := Option.some.inj hindices
      exact nodup_recentSorted (hkeyed.sublist List.filter_sublist)

theorem nodup_parseSolarWind {payload : Json F}
    {winds : List (SolarWindObservation F)}
    (hwinds : parseSolarWind runtime fromisoformat payload = some winds) :
    (winds.map SolarWindObservation.timestamp).Nodup := by
  obtain ⟨records, -, hwinds⟩ := Option.bind_eq_some_iff.mp hwinds
  obtain ⟨observations, hobservations, hwinds⟩ :=
    Option.bind_eq_some_iff.mp hwinds
  obtain rfl := Option.some.inj hwinds
  exact nodup_recentSorted (keyed_ofPairs_mapM
    (fun value item => solarWind_timestamp runtime fromisoformat)
    hobservations)

/-! ## Near-Earth objects -/

/-- The tables of `_ingest_nasa_neos` hold every row under its key. -/
structure Collected (state : Objects F × Approaches F) : Prop where
  objects : Dict.Keyed NearEarthObject.id state.1
  approaches : Dict.Keyed (CloseApproach.key runtime) state.2

variable (strptime : String → Text → Option Instant)

theorem keyed_nasaApproach {neoId : Text} {approaches next : Approaches F}
    {value : Json F}
    (hkeyed : Dict.Keyed (CloseApproach.key runtime) approaches)
    (hturn : nasaApproach runtime strptime fromisoformat neoId approaches
      value = some next) :
    Dict.Keyed (CloseApproach.key runtime) next := by
  obtain ⟨approach, -, hturn⟩ := Option.bind_eq_some_iff.mp hturn
  obtain ⟨velocities, -, hturn⟩ := Option.bind_eq_some_iff.mp hturn
  obtain ⟨velocity, -, hturn⟩ := Option.bind_eq_some_iff.mp hturn
  obtain ⟨distances, -, hturn⟩ := Option.bind_eq_some_iff.mp hturn
  obtain ⟨distance, -, hturn⟩ := Option.bind_eq_some_iff.mp hturn
  split at hturn
  · obtain ⟨string, -, hturn⟩ := Option.bind_eq_some_iff.mp hturn
    obtain ⟨approachAt, -, hturn⟩ := Option.bind_eq_some_iff.mp hturn
    simp only at hturn
    split at hturn
    · exact absurd hturn (by simp)
    · obtain rfl := Option.some.inj hturn
      exact hkeyed.set rfl
  · obtain rfl := Option.some.inj hturn
    exact hkeyed

theorem collected_nasaObject {state next : Objects F × Approaches F}
    {value : Json F} (hcollected : Collected runtime state)
    (hturn : nasaObject runtime strptime fromisoformat state value =
      some next) : Collected runtime next := by
  obtain ⟨item, -, hturn⟩ := Option.bind_eq_some_iff.mp hturn
  obtain ⟨id, -, hturn⟩ := Option.bind_eq_some_iff.mp hturn
  obtain ⟨neoId, -, hturn⟩ := Option.bind_eq_some_iff.mp hturn
  obtain ⟨diameters, -, hturn⟩ := Option.bind_eq_some_iff.mp hturn
  obtain ⟨kilometers, -, hturn⟩ := Option.bind_eq_some_iff.mp hturn
  obtain ⟨magnitude, -, hturn⟩ := Option.bind_eq_some_iff.mp hturn
  obtain ⟨diameterMin, -, hturn⟩ := Option.bind_eq_some_iff.mp hturn
  obtain ⟨diameterMax, -, hturn⟩ := Option.bind_eq_some_iff.mp hturn
  obtain ⟨listed, -, hturn⟩ := Option.bind_eq_some_iff.mp hturn
  obtain ⟨approaches, hloop, hturn⟩ := Option.bind_eq_some_iff.mp hturn
  obtain rfl := Option.some.inj hturn
  have happroaches := foldlM_induction
    (fun dict _ other hdict hnext =>
      keyed_nasaApproach runtime fromisoformat strptime hdict hnext)
    listed hcollected.approaches hloop
  exact ⟨hcollected.objects.set rfl, happroaches⟩

theorem collected_nasaDay {state next : Objects F × Approaches F}
    {value : Json F} (hcollected : Collected runtime state)
    (hturn : nasaDay runtime strptime fromisoformat state value =
      some next) : Collected runtime next := by
  obtain ⟨items, -, hloop⟩ := Option.bind_eq_some_iff.mp hturn
  exact foldlM_induction
    (fun _ _ _ hstate hnext =>
      collected_nasaObject runtime fromisoformat strptime hstate hnext)
    items hcollected hloop

omit fromisoformat strptime in
/-- Batches of rows with distinct keys. -/
theorem keysDistinct_storeCloseApproaches {objects : Objects F}
    {approaches : List (CloseApproach F)}
    (hobjects : Dict.Keyed NearEarthObject.id objects)
    (happroaches : (approaches.map (CloseApproach.key runtime)).Nodup) :
    ∀ statement ∈ storeCloseApproaches (Dict.values objects) approaches,
      statement.KeysDistinct runtime := by
  intro statement hstatement
  rcases List.mem_append.mp hstatement with hstatement | hstatement
  · obtain ⟨batch, hbatch, rfl⟩ := List.mem_map.mp hstatement
    exact nodup_of_mem_batches hobjects.nodup hbatch
  · obtain ⟨batch, hbatch, rfl⟩ := List.mem_map.mp hstatement
    exact nodup_of_mem_batches happroaches hbatch

end Jobs

/-! ## All jobs -/

/-- A run of a job or of the metric writer with what it was given.  The
records of CelesTrak and JPL and the launches are those that the client
parsed; the other jobs parse the payload themselves. -/
inductive Job (F : Type) where
  | satcat (payload : Json F)
  | orbitalElements (records : List (TwoLineElementSet F))
  | spaceWeather (planetaryK solarWind : Json F)
  | jplCloseApproaches (records : List (CloseApproachRecord F))
      (hazardous sentry : List Text)
  | nasaNeos (payload : Json F)
  | launches (listed : List UpcomingLaunch)
  | metrics (batch : List (Metric F))

namespace Job

variable {F : Type} (runtime : Runtime F)
variable (fromisoformat : Text → Option Instant)
variable (strptime : String → Text → Option Instant)

/-- The statements that a job executes; none where it raises before.
Without launches `values[0]` raises. -/
def statements [Zero F] [Add F] [Max F] : Job F → List (Statement F)
  | satcat payload => (ingestSatcat runtime payload).getD []
  | orbitalElements records => (ingestOrbitalElements records).getD []
  | spaceWeather planetaryK solarWind =>
      (ingestSpaceWeather runtime fromisoformat planetaryK solarWind).getD []
  | jplCloseApproaches records hazardous sentry =>
      ingestJplCloseApproaches records hazardous sentry
  | nasaNeos payload =>
      (ingestNasaNeos runtime strptime fromisoformat payload).getD []
  | launches [] => []
  | launches (first :: rest) => [.launches (first :: rest)]
  | metrics batch => [.endpointMetricBuckets (aggregate batch)]

/-- The provider repeats no key: SATCAT no catalogue number within a block of
500 of the records that are kept, and the launch list no id. -/
def NoRepeat : Job F → Prop
  | satcat payload => ∀ records, iterate payload = some records →
      Readable runtime records →
        BlocksDistinct id 500 (records.filterMap (catalogueNumber runtime))
  | launches listed => (listed.map UpcomingLaunch.id).Nodup
  | _ => True

variable {runtime fromisoformat strptime}

theorem satcat_keysDistinct_iff {payload : Json F} :
    (∀ statement ∈ (ingestSatcat runtime payload).getD [],
      statement.doesUpdate = true → statement.KeysDistinct runtime) ↔
      (satcat payload).NoRepeat runtime := by
  have hblocks : ∀ {records rows}, satcatRows runtime records = some rows →
      ((∀ batch ∈ batches rows 500, (batch.map Satellite.noradId).Nodup) ↔
        BlocksDistinct id 500
          (records.filterMap (catalogueNumber runtime))) := by
    intro records rows hrows
    rw [nodup_batches_iff Satellite.noradId (by decide),
      ← noradIds_satcatRows runtime hrows, blocksDistinct_map]
    rfl
  unfold NoRepeat ingestSatcat
  cases hiterate : iterate payload with
  | none => simp [hiterate]
  | some records =>
      cases hrows : satcatRows runtime records with
      | none =>
          have hraises : ¬Readable runtime records := by
            rw [← satcatRows_eq_some_iff]
            simp [hrows]
          simp [hiterate, hrows, hraises]
      | some rows =>
          have hreadable : Readable runtime records :=
            (satcatRows_eq_some_iff runtime).mp ⟨rows, hrows⟩
          simp [hiterate, hrows, hreadable, Statement.doesUpdate,
            Statement.KeysDistinct, ← hblocks hrows]

theorem orbitalElements_keysDistinct
    {records : List (TwoLineElementSet F)} :
    ∀ statement ∈ (ingestOrbitalElements records).getD [],
      statement.doesUpdate = true → statement.KeysDistinct runtime := by
  have hkeyed : Dict.Keyed Satellite.noradId (Dict.ofPairs
      (records.map fun record => (record.noradId, record.satellite))) := by
    apply Dict.keyed_ofPairs
    intro pair hpair
    obtain ⟨record, -, rfl⟩ := List.mem_map.mp hpair
    rfl
  intro statement hstatement hupdate
  unfold ingestOrbitalElements at hstatement
  split at hstatement
  · exact absurd hstatement List.not_mem_nil
  · rcases List.mem_append.mp hstatement with hstatement | hstatement
    · obtain ⟨batch, hbatch, rfl⟩ := List.mem_map.mp hstatement
      exact nodup_of_mem_batches hkeyed.nodup hbatch
    · obtain ⟨batch, -, rfl⟩ := List.mem_map.mp hstatement
      exact absurd hupdate (by simp [Statement.doesUpdate])

theorem spaceWeather_keysDistinct {planetaryK solarWind : Json F} :
    ∀ statement ∈ (ingestSpaceWeather runtime fromisoformat planetaryK
      solarWind).getD [], statement.KeysDistinct runtime := by
  intro statement hstatement
  cases hjob : ingestSpaceWeather runtime fromisoformat planetaryK
    solarWind with
  | none =>
      rw [hjob] at hstatement
      exact absurd hstatement List.not_mem_nil
  | some statements =>
      rw [hjob] at hstatement
      obtain ⟨indices, hindices, hjob⟩ := Option.bind_eq_some_iff.mp hjob
      obtain ⟨winds, hwinds, hjob⟩ := Option.bind_eq_some_iff.mp hjob
      split at hjob
      · exact absurd hjob (by simp)
      · obtain rfl := Option.some.inj hjob
        rcases List.mem_append.mp hstatement with hstatement | hstatement
        · split at hstatement
          · exact absurd hstatement List.not_mem_nil
          · obtain rfl := List.mem_singleton.mp hstatement
            exact nodup_parsePlanetaryK runtime fromisoformat hindices
        · split at hstatement
          · exact absurd hstatement List.not_mem_nil
          · obtain rfl := List.mem_singleton.mp hstatement
            exact nodup_parseSolarWind runtime fromisoformat hwinds

theorem jplCloseApproaches_keysDistinct
    {records : List (CloseApproachRecord F)} {hazardous sentry : List Text} :
    ∀ statement ∈ ingestJplCloseApproaches records hazardous sentry,
      statement.KeysDistinct runtime := by
  have hobjects : Dict.Keyed NearEarthObject.id (Dict.ofPairs
      (records.map fun record =>
        (record.designation, record.object hazardous sentry))) := by
    apply Dict.keyed_ofPairs
    intro pair hpair
    obtain ⟨record, -, rfl⟩ := List.mem_map.mp hpair
    rfl
  have happroaches : Dict.Keyed
      (fun row : CloseApproach F => (row.neoId, row.closeApproachDate))
      (Dict.ofPairs (records.map fun record =>
        ((record.designation, record.approachAt), record.approach))) := by
    apply Dict.keyed_ofPairs
    intro pair hpair
    obtain ⟨record, -, rfl⟩ := List.mem_map.mp hpair
    rfl
  -- the body is a third column of the key
  have hkeys := List.Nodup.of_map
    (fun key : ApproachKey => (key.1, key.2.1))
    (l := (Dict.values (Dict.ofPairs (records.map fun record =>
      ((record.designation, record.approachAt),
        record.approach)))).map (CloseApproach.key runtime)) (by
      rw [List.map_map]
      exact happroaches.nodup)
  exact keysDistinct_storeCloseApproaches runtime hobjects hkeys

theorem nasaNeos_keysDistinct {payload : Json F} :
    ∀ statement ∈ (ingestNasaNeos runtime strptime fromisoformat
      payload).getD [], statement.KeysDistinct runtime := by
  intro statement hstatement
  cases hjob : ingestNasaNeos runtime strptime fromisoformat payload with
  | none =>
      rw [hjob] at hstatement
      exact absurd hstatement List.not_mem_nil
  | some statements =>
      rw [hjob] at hstatement
      obtain ⟨feed, -, hjob⟩ := Option.bind_eq_some_iff.mp hjob
      obtain ⟨days, -, hjob⟩ := Option.bind_eq_some_iff.mp hjob
      obtain ⟨state, hloop, hjob⟩ := Option.bind_eq_some_iff.mp hjob
      obtain rfl := Option.some.inj hjob
      have hcollected : Collected runtime state :=
        foldlM_induction (fun _ _ _ hstate hnext =>
          collected_nasaDay runtime fromisoformat strptime hstate hnext) _
          ⟨Dict.keyed_nil, Dict.keyed_nil⟩ hloop
      exact keysDistinct_storeCloseApproaches runtime hcollected.objects
        hcollected.approaches.nodup statement hstatement

variable [Zero F] [Add F] [Max F]

/-- Every upsert of a run has distinct keys exactly when the provider repeats
none of those that the job takes as they come. -/
theorem upsert_keys_distinct_iff (job : Job F) :
    (∀ statement ∈ job.statements runtime fromisoformat strptime,
      statement.doesUpdate = true → statement.KeysDistinct runtime) ↔
      job.NoRepeat runtime := by
  cases job with
  | satcat payload => exact satcat_keysDistinct_iff
  | orbitalElements records =>
      exact iff_of_true orbitalElements_keysDistinct trivial
  | spaceWeather planetaryK solarWind =>
      exact iff_of_true
        (fun statement hstatement _ =>
          spaceWeather_keysDistinct statement hstatement) trivial
  | jplCloseApproaches records hazardous sentry =>
      exact iff_of_true
        (fun statement hstatement _ =>
          jplCloseApproaches_keysDistinct statement hstatement) trivial
  | nasaNeos payload =>
      exact iff_of_true
        (fun statement hstatement _ =>
          nasaNeos_keysDistinct statement hstatement) trivial
  | launches listed =>
      cases listed with
      | nil => simp [statements, NoRepeat]
      | cons first rest =>
          simp [statements, NoRepeat, Statement.doesUpdate,
            Statement.KeysDistinct]
  | metrics batch =>
      refine iff_of_true (fun statement hstatement _ => ?_) trivial
      obtain rfl := List.mem_singleton.mp hstatement
      exact nodup_aggregate batch

end Job

/-- ASCII, without floats. -/
def asciiRuntime : Runtime Empty where
  format := .empty
  isPrintable code := decide (0x20 ≤ code.val ∧ code.val ≤ 0x7E)
  isSpace code := decide (code.val = 0x20 ∨ 0x09 ≤ code.val ∧ code.val ≤ 0x0D)
  isDigit := Python.isDigit
  decimalValue code :=
    if Python.isDigit code then some (code.val - 0x30) else none
  float _ := .invalid
  rational := Empty.elim
  round2 := id

/-- A SATCAT record of object 7. -/
def seventh : Json Empty :=
  .dict [(text "NORAD_CAT_ID", .str (text "7"))]

/-- A reply that lists one object twice gives a statement that PostgreSQL
rejects. -/
theorem repeated_record_keys_not_distinct :
    ∃ statement ∈ (ingestSatcat asciiRuntime (.list [seventh, seventh])).getD
      [], statement.doesUpdate = true ∧
        ¬statement.KeysDistinct asciiRuntime := by
  have hrow : ∃ row : Satellite Empty,
      ingestSatcat asciiRuntime (.list [seventh, seventh]) =
        some [.satellites [row, row]] := ⟨_, rfl⟩
  obtain ⟨row, hrow⟩ := hrow
  exact ⟨.satellites [row, row], by simp [hrow], rfl,
    by simp [Statement.KeysDistinct]⟩

end UTTG.Ingestion
