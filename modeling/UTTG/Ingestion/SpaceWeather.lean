import UTTG.Core.Readings
import UTTG.Core.Table
import UTTG.Core.Transition
import UTTG.Ingestion.Catalog
import UTTG.Ingestion.Upserts

/-!
# Space-weather observations

Each parser collects the valid observations of a payload under their instants
and keeps those of the last three hours.  `parse_planetary_k` first drops the
newest instant, whose value is provisional, so no poll stores a provisional
value and the storm alert never looks at one.
-/

namespace UTTG.Ingestion

open Python UTTG.Loops UTTG.Readings Transition
open Launches (Instant)

/-! ## The window -/

section Window

variable {Row : Type} {time : Row → Instant} {dict : Dict Instant Row}

/-- The items that a window of a dictionary is made of. -/
theorem exists_items {newest : Instant}
    (hnewest : (Dict.keys dict).max? = some newest)
    (hkeyed : Dict.Keyed time dict) :
    ∃ items, recentSorted dict = Dict.values items ∧
      Dict.Keyed time items ∧ (Dict.keys items).Pairwise (· < ·) ∧
        ∀ item, item ∈ items ↔
          item ∈ dict ∧ newest - item.1 ≤ observationLookback := by
  have hperm := List.mergeSort_perm dict
    (fun left right => decide (left.1 ≤ right.1))
  have hsorted : ((dict.mergeSort fun left right =>
      decide (left.1 ≤ right.1)).map Prod.fst).Pairwise (· ≤ ·) := by
    rw [List.pairwise_map]
    refine (List.pairwise_mergeSort ?_ ?_ dict).imp fun hle => by
      simpa using hle
    · intro left middle right
      simpa using le_trans
    · intro left right
      simpa using le_total left.1 right.1
  refine ⟨(dict.mergeSort fun left right => decide (left.1 ≤ right.1)).filter
      fun item => decide (newest - item.1 ≤ observationLookback), ?_,
    (hkeyed.perm hperm).sublist List.filter_sublist, ?_, ?_⟩
  · rw [recentSorted, hnewest]
    rfl
  · have hstrict := hsorted.and (hkeyed.perm hperm).distinct
    exact (hstrict.imp fun hboth => lt_of_le_of_ne hboth.1 hboth.2).sublist
      (List.filter_sublist.map _)
  · intro item
    rw [List.mem_filter, hperm.mem_iff, decide_eq_true_eq]

/-- The recent observations of a dictionary are the window of what it has. -/
theorem shows_recentSorted {readings : List (Instant × Row)}
    {counts : Instant → Prop} (hkeyed : Dict.Keyed time dict)
    (hitems : ∀ instant row, (instant, row) ∈ dict ↔
      counts instant ∧ lastAt readings instant = some row) :
    Shows readings counts observationLookback time (recentSorted dict) := by
  cases hnewest : (Dict.keys dict).max? with
  | none =>
      obtain rfl : dict = [] := by
        simpa [Dict.keys] using List.max?_eq_none_iff.mp hnewest
      have hnone : ∀ instant, counts instant →
          (lastAt readings instant).isSome = true → False := by
        intro instant hcounts hsome
        obtain ⟨row, hrow⟩ := Option.isSome_iff_exists.mp hsome
        exact List.not_mem_nil ((hitems instant row).mpr ⟨hcounts, hrow⟩)
      exact ⟨List.Pairwise.nil, fun instant hcounts hsome =>
        (hnone instant hcounts hsome).elim, by simp [recentSorted, Dict.keys],
        by simp [recentSorted, Dict.keys], by simp [recentSorted, Dict.keys]⟩
  | some newest =>
      obtain ⟨items, hshown, hkeyeditems, hascending, hmem⟩ :=
        exists_items hnewest hkeyed
      obtain ⟨hnewestmem, hgreatest⟩ := List.max?_eq_some_iff.mp hnewest
      have hvalue : ∀ row, row ∈ Dict.values items ↔
          (time row, row) ∈ dict ∧ newest - time row ≤ observationLookback := by
        intro row
        rw [Dict.values, List.mem_map]
        constructor
        · rintro ⟨item, hitem, rfl⟩
          rw [hkeyeditems.key_of_mem hitem]
          exact (hmem item).mp hitem
        · intro hrow
          exact ⟨(time row, row), (hmem _).mpr hrow, rfl⟩
      have htimes : ((Dict.values items).map time).Pairwise (· < ·) := by
        rw [hkeyeditems.map_values]
        exact hascending
      -- The newest instant is within the window, and the last of it.
      obtain ⟨last, hlastmem, htime⟩ :
          ∃ last ∈ (Dict.values items).getLast?, time last = newest := by
        obtain ⟨item, hitem, rfl⟩ := List.mem_map.mp hnewestmem
        have htime := hkeyed.key_of_mem hitem
        have hshows : item.2 ∈ Dict.values items := by
          rw [hvalue, htime]
          exact ⟨hitem, by rw [sub_self]; decide⟩
        refine ⟨item.2, getLast?_of_greatest htimes hshows ?_, htime⟩
        intro other hother
        rw [htime]
        exact hgreatest _ (List.mem_map_of_mem ((hvalue other).mp hother).1)
      rw [hshown]
      refine ⟨htimes, fun instant hcounts hsome => ?_, fun row hrow => ?_,
        fun other hother row hrow => ?_,
        fun other hother instant row hcounts hrow hrecent => ?_⟩
      · obtain ⟨row, hrow⟩ := Option.isSome_iff_exists.mp hsome
        refine ⟨last, hlastmem, ?_⟩
        rw [htime]
        exact hgreatest _ (List.mem_map_of_mem
          ((hitems instant row).mpr ⟨hcounts, hrow⟩))
      · exact (hitems _ _).mp ((hvalue row).mp hrow).1
      · obtain rfl := Option.mem_unique hlastmem hother
        rw [htime]
        exact ((hvalue row).mp hrow).2
      · obtain rfl := Option.mem_unique hlastmem hother
        have hitem := (hitems instant row).mpr ⟨hcounts, hrow⟩
        obtain rfl : time row = instant := hkeyed.key_of_mem hitem
        rw [htime] at hrecent
        exact (hvalue row).mpr ⟨hitem, hrecent⟩

end Window

/-! ## The parsers -/

section Parsers

variable {F : Type} (runtime : Runtime F)
  (fromisoformat : Text → Option Instant)

/-- The payload with these records. -/
def payloadOf (records : List (Dict Text (Json F))) : Json F :=
  .list (records.map .dict)

/-- The valid observations of planetary K, in the order of the records. -/
def planetaryKReadings (records : List (Dict Text (Json F))) :
    List (Instant × GeomagneticObservation F) :=
  records.filterMap fun record =>
    (planetaryK runtime fromisoformat (.dict record)).join

/-- The valid observations of the solar wind, in the order of the records. -/
def solarWindReadings (records : List (Dict Text (Json F))) :
    List (Instant × SolarWindObservation F) :=
  records.filterMap fun record =>
    (solarWind runtime fromisoformat (.dict record)).join

/-- An instant with a newer one among the readings. -/
def Settled {Row : Type} (readings : List (Instant × Row))
    (instant : Instant) : Prop :=
  ∃ newer ∈ readings.map Prod.fst, instant < newer

omit runtime fromisoformat in
/-- The observations that a loop collects are the valid ones in order. -/
theorem reduceOption_of_mapM {Row : Type}
    {step : Json F → Option (Option (Instant × Row))}
    {records : List (Dict Text (Json F))}
    {observations : List (Option (Instant × Row))}
    (hobservations : (records.map Value.dict).mapM step =
      some observations) :
    observations.reduceOption =
      records.filterMap fun record => (step (.dict record)).join := by
  have hexpected : ∀ value ∈ records.map Value.dict, ∀ result,
      step value = some result → result.map id = (step value).join := by
    intro value _ result hresult
    rw [hresult, Option.map_id, Option.join_some]
    rfl
  have hview := map_reduceOption_of_mapM hexpected hobservations
  rw [List.map_id, List.filterMap_map] at hview
  exact hview

omit runtime fromisoformat in
/-- A dictionary of readings has the last one of every instant. -/
theorem mem_ofPairs_iff_lastAt {Row : Type}
    (readings : List (Instant × Row)) (instant : Instant) (row : Row) :
    (instant, row) ∈ Dict.ofPairs readings ↔
      lastAt readings instant = some row := by
  rw [← Dict.get_eq_some_iff (Dict.nodup_ofPairs readings), Dict.get_ofPairs,
    lastAt_eq_find?]

theorem time_of_mem_planetaryKReadings
    {records : List (Dict Text (Json F))}
    {item : Instant × GeomagneticObservation F}
    (hitem : item ∈ planetaryKReadings runtime fromisoformat records) :
    item.2.timestamp = item.1 := by
  obtain ⟨record, -, hrecord⟩ := List.mem_filterMap.mp hitem
  exact planetaryK_timestamp runtime fromisoformat
    (Option.join_eq_some_iff.mp hrecord)

theorem time_of_mem_solarWindReadings
    {records : List (Dict Text (Json F))}
    {item : Instant × SolarWindObservation F}
    (hitem : item ∈ solarWindReadings runtime fromisoformat records) :
    item.2.timestamp = item.1 := by
  obtain ⟨record, -, hrecord⟩ := List.mem_filterMap.mp hitem
  exact solarWind_timestamp runtime fromisoformat
    (Option.join_eq_some_iff.mp hrecord)

/-- The wind of the last three hours of the payload. -/
theorem parseSolarWind_shows {records : List (Dict Text (Json F))}
    {winds : List (SolarWindObservation F)}
    (hwinds : parseSolarWind runtime fromisoformat (payloadOf records) =
      some winds) :
    Shows (solarWindReadings runtime fromisoformat records) (fun _ => True)
      observationLookback SolarWindObservation.timestamp winds := by
  obtain ⟨observations, hobservations, hwinds⟩ :=
    Option.bind_eq_some_iff.mp hwinds
  obtain rfl := Option.some.inj hwinds
  rw [reduceOption_of_mapM hobservations]
  exact shows_recentSorted
    (Dict.keyed_ofPairs fun pair hpair =>
      time_of_mem_solarWindReadings runtime fromisoformat hpair)
    fun instant row => by
      rw [true_and]
      exact mem_ofPairs_iff_lastAt _ instant row

section Settled

variable {Row : Type} {time : Row → Instant}
  {readings : List (Instant × Row)}

omit runtime fromisoformat

/-- With one instant or none, nothing is settled. -/
theorem shows_nil (hshort : (Dict.ofPairs readings).length < 2) :
    Shows readings (Settled readings) observationLookback time [] := by
  refine ⟨List.Pairwise.nil, fun instant hsettled hsome => ?_, by simp, by simp,
    by simp⟩
  obtain ⟨newer, hnewer, hlt⟩ := hsettled
  rw [isSome_lastAt_iff, ← Dict.mem_keys_ofPairs] at hsome
  rw [← Dict.mem_keys_ofPairs] at hnewer
  have hpair : [instant, newer].Nodup := by simp [hlt.ne]
  have hsubset : [instant, newer] ⊆ Dict.keys (Dict.ofPairs readings) := by
    intro key hkey
    rcases List.mem_pair.mp hkey with rfl | rfl
    · exact hsome
    · exact hnewer
  have hlength := (hpair.subperm hsubset).length_le
  rw [Dict.keys, List.length_map] at hlength
  simp only [List.length_cons, List.length_nil] at hlength
  omega

/-- The items whose instant is not the latest are settled. -/
theorem shows_filter
    (hkeyed : Dict.Keyed time (Dict.ofPairs readings)) {latest : Instant}
    (hlatest : (Dict.keys (Dict.ofPairs readings)).max? = some latest) :
    Shows readings (Settled readings) observationLookback time
      (recentSorted ((Dict.ofPairs readings).filter
        fun item => decide (item.1 ≠ latest))) := by
  obtain ⟨hmem, hgreatest⟩ := List.max?_eq_some_iff.mp hlatest
  rw [Dict.mem_keys_ofPairs] at hmem
  refine shows_recentSorted (hkeyed.sublist List.filter_sublist)
    fun instant row => ?_
  rw [List.mem_filter, mem_ofPairs_iff_lastAt, decide_eq_true_eq, and_comm]
  refine and_congr_left fun hlast => ?_
  have hkey : instant ∈ readings.map Prod.fst :=
    (isSome_lastAt_iff readings instant).mp (by rw [hlast]; rfl)
  constructor
  · intro hne
    refine ⟨latest, hmem, lt_of_le_of_ne (hgreatest instant ?_) hne⟩
    rwa [Dict.mem_keys_ofPairs]
  · rintro ⟨newer, hnewer, hlt⟩ rfl
    rw [← Dict.mem_keys_ofPairs] at hnewer
    exact absurd (hgreatest newer hnewer) (not_le.mpr hlt)

end Settled

/-- The planetary K of the last three hours that are settled. -/
theorem parsePlanetaryK_shows {records : List (Dict Text (Json F))}
    {indices : List (GeomagneticObservation F)}
    (hindices : parsePlanetaryK runtime fromisoformat (payloadOf records) =
      some indices) :
    Shows (planetaryKReadings runtime fromisoformat records)
      (Settled (planetaryKReadings runtime fromisoformat records))
      observationLookback GeomagneticObservation.timestamp indices := by
  obtain ⟨observations, hobservations, hindices⟩ :=
    Option.bind_eq_some_iff.mp hindices
  have hkeyed := Dict.keyed_ofPairs fun pair
      (hpair : pair ∈ planetaryKReadings runtime fromisoformat records) =>
    time_of_mem_planetaryKReadings runtime fromisoformat hpair
  simp only [reduceOption_of_mapM hobservations] at hindices
  split at hindices
  · next hshort =>
      obtain rfl := Option.some.inj hindices
      exact shows_nil hshort
  · split at hindices
    · next hnone =>
        obtain rfl := Option.some.inj hindices
        rw [List.max?_eq_none_iff, Dict.keys, List.map_eq_nil_iff] at hnone
        exact shows_nil (by
          change (Dict.ofPairs (List.filterMap _ _)).length < 2
          rw [hnone]
          exact Nat.two_pos)
    · next latest hlatest =>
        obtain rfl := Option.some.inj hindices
        exact shows_filter hkeyed hlatest

/-! ## The order of the records -/

/-- The instant of a record. -/
def instantOf (record : Dict Text (Json F)) : Option Instant :=
  timestampOf runtime fromisoformat (getOrNone record "time_tag")

/-- The records in another order, in which those of one instant keep theirs. -/
structure Reordered (records others : List (Dict Text (Json F))) : Prop where
  perm : others.Perm records
  same : ∀ instant,
    (others.filter fun record =>
      instantOf runtime fromisoformat record = some instant) =
    records.filter fun record =>
      instantOf runtime fromisoformat record = some instant

theorem instantOf_planetaryK {value : Json F} {record : Dict Text (Json F)}
    (hvalue : asDict value = some record)
    {item : Instant × GeomagneticObservation F}
    (hitem : planetaryK runtime fromisoformat value = some (some item)) :
    instantOf runtime fromisoformat record = some item.1 := by
  obtain ⟨other, hother, hitem⟩ := Option.bind_eq_some_iff.mp hitem
  obtain rfl := Option.some.inj (hvalue.symm.trans hother)
  obtain ⟨index, -, hitem⟩ := Option.bind_eq_some_iff.mp hitem
  split at hitem
  · next observedAt kp hinstant =>
      split at hitem
      · obtain rfl := Option.some.inj (Option.some.inj hitem)
        exact hinstant
      · exact absurd (Option.some.inj hitem) (by simp)
  · exact absurd (Option.some.inj hitem) (by simp)

theorem instantOf_solarWind {value : Json F} {record : Dict Text (Json F)}
    (hvalue : asDict value = some record)
    {item : Instant × SolarWindObservation F}
    (hitem : solarWind runtime fromisoformat value = some (some item)) :
    instantOf runtime fromisoformat record = some item.1 := by
  obtain ⟨other, hother, hitem⟩ := Option.bind_eq_some_iff.mp hitem
  obtain rfl := Option.some.inj (hvalue.symm.trans hother)
  split at hitem
  · exact absurd (Option.some.inj hitem) (by simp)
  · obtain ⟨speed, -, hitem⟩ := Option.bind_eq_some_iff.mp hitem
    obtain ⟨density, -, hitem⟩ := Option.bind_eq_some_iff.mp hitem
    obtain ⟨temperature, -, hitem⟩ := Option.bind_eq_some_iff.mp hitem
    split at hitem
    · split at hitem
      · obtain rfl := Option.some.inj (Option.some.inj hitem)
        rw [instantOf]
        assumption
      · exact absurd (Option.some.inj hitem) (by simp)
    · exact absurd (Option.some.inj hitem) (by simp)

variable {runtime fromisoformat}

/-- A reordering has the same last value for every instant. -/
theorem lastAt_reordered {Row : Type}
    {read : Dict Text (Json F) → Option (Instant × Row)}
    (hread : ∀ record item, read record = some item →
      instantOf runtime fromisoformat record = some item.1)
    {records others : List (Dict Text (Json F))}
    (hreordered : Reordered runtime fromisoformat records others)
    (instant : Instant) :
    lastAt (others.filterMap read) instant =
      lastAt (records.filterMap read) instant := by
  have hfilter : ∀ list : List (Dict Text (Json F)),
      (list.filterMap read).filter (fun item => item.1 = instant) =
        (list.filter fun record =>
          instantOf runtime fromisoformat record = some instant).filterMap
            fun record => (read record).filter fun item =>
              item.1 = instant := by
    intro list
    rw [List.filter_filterMap, List.filterMap_filter]
    refine List.filterMap_congr fun record _ => ?_
    split
    · rfl
    · next hother =>
        rw [Option.filter_eq_none_iff]
        rintro item hitem heq
        have hinstant := hread record item hitem
        rw [of_decide_eq_true heq] at hinstant
        exact hother (decide_eq_true hinstant)
  rw [lastAt, lastAt, hfilter, hfilter, hreordered.same]

/-- Windows of records in another order show the same. -/
theorem shows_reordered {Row : Type} {time : Row → Instant}
    {step : Json F → Option (Option (Instant × Row))}
    (counts : List (Instant × Row) → Instant → Prop)
    (hread : ∀ record item, (step (.dict record)).join = some item →
      instantOf runtime fromisoformat record = some item.1)
    (hcounts : ∀ left right, (∀ instant, instant ∈ left.map Prod.fst ↔
      instant ∈ right.map Prod.fst) → counts left = counts right)
    {parse : Json F → Option (List Row)}
    (hparse : ∀ records rows, parse (payloadOf records) = some rows →
      Shows (records.filterMap fun record => (step (.dict record)).join)
        (counts (records.filterMap fun record => (step (.dict record)).join))
        observationLookback time rows)
    (hsome : ∀ records, (parse (payloadOf records)).isSome = true ↔
      ∀ record ∈ records, (step (.dict record)).isSome = true)
    {records others : List (Dict Text (Json F))}
    (hreordered : Reordered runtime fromisoformat records others) :
    parse (payloadOf others) = parse (payloadOf records) := by
  have hlast := lastAt_reordered hread hreordered
  have hsame := hcounts
    (others.filterMap fun record => (step (.dict record)).join)
    (records.filterMap fun record => (step (.dict record)).join)
    fun instant => by rw [← isSome_lastAt_iff, ← isSome_lastAt_iff, hlast]
  have hboth : (parse (payloadOf others)).isSome = true ↔
      (parse (payloadOf records)).isSome = true := by
    rw [hsome, hsome]
    simp only [hreordered.perm.mem_iff]
  cases hrecords : parse (payloadOf records) with
  | none =>
      rw [hrecords] at hboth
      simpa using hboth
  | some rows =>
      rw [hrecords] at hboth
      obtain ⟨otherRows, hothers⟩ := Option.isSome_iff_exists.mp
        (hboth.mpr rfl)
      rw [hothers]
      have hleft := hparse _ _ hothers
      rw [hsame] at hleft
      exact congrArg some (hleft.eq hlast (hparse _ _ hrecords))

variable (runtime fromisoformat)

/-- The parser returns exactly when it reads every record without an
exception. -/
theorem isSome_parsePlanetaryK_iff (records : List (Dict Text (Json F))) :
    (parsePlanetaryK runtime fromisoformat (payloadOf records)).isSome =
        true ↔
      ∀ record ∈ records,
        (planetaryK runtime fromisoformat (.dict record)).isSome = true := by
  have hmap : ((records.map Value.dict).mapM
      (planetaryK runtime fromisoformat)).isSome = true ↔ _ :=
    isSome_mapM_iff _
  rw [List.forall_mem_map] at hmap
  rw [← hmap]
  constructor
  · intro hsome
    obtain ⟨indices, hindices⟩ := Option.isSome_iff_exists.mp hsome
    obtain ⟨observations, hobservations, -⟩ :=
      Option.bind_eq_some_iff.mp hindices
    exact Option.isSome_iff_exists.mpr ⟨observations, hobservations⟩
  · intro hsome
    obtain ⟨observations, hobservations⟩ := Option.isSome_iff_exists.mp hsome
    simp only [parsePlanetaryK, payloadOf, iterate, hobservations,
      Option.bind_eq_bind, Option.bind_some]
    split
    · rfl
    · split <;> rfl

theorem isSome_parseSolarWind_iff (records : List (Dict Text (Json F))) :
    (parseSolarWind runtime fromisoformat (payloadOf records)).isSome =
        true ↔
      ∀ record ∈ records,
        (solarWind runtime fromisoformat (.dict record)).isSome = true := by
  have hmap : ((records.map Value.dict).mapM
      (solarWind runtime fromisoformat)).isSome = true ↔ _ :=
    isSome_mapM_iff _
  rw [List.forall_mem_map] at hmap
  rw [← hmap]
  constructor
  · intro hsome
    obtain ⟨winds, hwinds⟩ := Option.isSome_iff_exists.mp hsome
    obtain ⟨observations, hobservations, -⟩ :=
      Option.bind_eq_some_iff.mp hwinds
    exact Option.isSome_iff_exists.mpr ⟨observations, hobservations⟩
  · intro hsome
    obtain ⟨observations, hobservations⟩ := Option.isSome_iff_exists.mp hsome
    simp only [parseSolarWind, payloadOf, iterate, hobservations,
      Option.bind_eq_bind, Option.bind_some]
    rfl

theorem settled_congr {Row : Type} (left right : List (Instant × Row))
    (hsame : ∀ instant, instant ∈ left.map Prod.fst ↔
      instant ∈ right.map Prod.fst) : Settled left = Settled right := by
  funext instant
  simp only [Settled, hsame]

variable {runtime fromisoformat}

theorem parsePlanetaryK_reordered {records others : List (Dict Text (Json F))}
    (hreordered : Reordered runtime fromisoformat records others) :
    parsePlanetaryK runtime fromisoformat (payloadOf others) =
      parsePlanetaryK runtime fromisoformat (payloadOf records) :=
  shows_reordered Settled
    (fun _ _ hitem => instantOf_planetaryK runtime fromisoformat rfl
      (Option.join_eq_some_iff.mp hitem))
    settled_congr
    (fun _ _ => parsePlanetaryK_shows runtime fromisoformat)
    (isSome_parsePlanetaryK_iff runtime fromisoformat) hreordered

theorem parseSolarWind_reordered {records others : List (Dict Text (Json F))}
    (hreordered : Reordered runtime fromisoformat records others) :
    parseSolarWind runtime fromisoformat (payloadOf others) =
      parseSolarWind runtime fromisoformat (payloadOf records) :=
  shows_reordered (fun _ _ => True)
    (fun _ _ hitem => instantOf_solarWind runtime fromisoformat rfl
      (Option.join_eq_some_iff.mp hitem))
    (fun _ _ _ => rfl)
    (fun _ _ => parseSolarWind_shows runtime fromisoformat)
    (isSome_parseSolarWind_iff runtime fromisoformat) hreordered

end Parsers

/-! ## Polls -/

section Polls

variable {F : Type}

/-- The tables of `_ingest_space_weather`. -/
structure SpaceWeather (F : Type) where
  indices : Table (GeomagneticObservation.timestamp (F := F))
  winds : Table (SolarWindObservation.timestamp (F := F))

/-- The `set_` of the statement for `space_weather_indices`. -/
def GeomagneticObservation.set (excluded row : GeomagneticObservation F) :
    GeomagneticObservation F :=
  { row with kpIndex := excluded.kpIndex }

/-- The `set_` of the statement for `solar_wind`. -/
def SolarWindObservation.set (excluded row : SolarWindObservation F) :
    SolarWindObservation F :=
  { row with
    speedKmS := excluded.speedKmS
    densityCm3 := excluded.densityCm3
    temperatureK := excluded.temperatureK }

/-- Execute a statement; those for other tables touch neither of these. -/
def SpaceWeather.execute (tables : SpaceWeather F) :
    Statement F → Option (SpaceWeather F)
  | .spaceWeatherIndices rows =>
      (tables.indices.insertOnConflict id GeomagneticObservation.set
        (fun _ _ => rfl) rows).map fun indices =>
          { tables with indices := indices }
  | .solarWind rows =>
      (tables.winds.insertOnConflict id SolarWindObservation.set
        (fun _ _ => rfl) rows).map fun winds => { tables with winds := winds }
  | _ => some tables

/-- One run of the job: the records that it receives, and whether the database
refuses its transaction. -/
structure Poll (F : Type) where
  planetaryK : List (Dict Text (Json F))
  solarWind : List (Dict Text (Json F))
  refused : Bool

variable (runtime : Runtime F) (fromisoformat : Text → Option Instant)

namespace Poll

/-- The tables after the commit; `none` where there is none. -/
def commit (poll : Poll F) (tables : SpaceWeather F) :
    Option (SpaceWeather F) :=
  if poll.refused then none
  else do
    let statements ← ingestSpaceWeather runtime fromisoformat
      (payloadOf poll.planetaryK) (payloadOf poll.solarWind)
    statements.foldlM SpaceWeather.execute tables

/-- `_GEOMAGNETIC_STORM_KP`. -/
def stormKp : ℚ := 5

/-- The value of the `space_weather.alert` that is published after the
commit. -/
def alert (poll : Poll F) (tables : SpaceWeather F) : Option F := do
  let _ ← poll.commit runtime fromisoformat tables
  let indices ← parsePlanetaryK runtime fromisoformat
    (payloadOf poll.planetaryK)
  let newest ← indices.getLast?
  if stormKp ≤ runtime.rational newest.kpIndex then some newest.kpIndex
  else none

end Poll

/-- One poll after another. -/
def spaceWeatherSystem : System (SpaceWeather F) (Poll F) where
  Init tables := tables = ⟨Table.empty, Table.empty⟩
  step tables poll :=
    some ((poll.commit runtime fromisoformat tables).getD tables)

namespace Poll

/-- The Kp values that a poll stores. -/
def written (poll : Poll F) : List (GeomagneticObservation F) :=
  if poll.refused then []
  else
    ((ingestSpaceWeather runtime fromisoformat (payloadOf poll.planetaryK)
        (payloadOf poll.solarWind)).bind fun _ =>
      parsePlanetaryK runtime fromisoformat
        (payloadOf poll.planetaryK)).getD []

variable {runtime fromisoformat}

theorem indices_of_execute {tables next : SpaceWeather F}
    {statements : List (Statement F)} {indices : List (GeomagneticObservation F)}
    {winds : List (SolarWindObservation F)}
    (hstatements : statements =
      (if indices.isEmpty then [] else [.spaceWeatherIndices indices]) ++
        if winds.isEmpty then [] else [.solarWind winds])
    (hrun : statements.foldlM SpaceWeather.execute tables = some next) :
    next.indices = tables.indices.upsertAll id GeomagneticObservation.set
      (fun _ _ => rfl) indices := by
  -- The statement for the wind does not touch the table of Kp values.
  have hwinds : ∀ middle : SpaceWeather F,
      (if winds.isEmpty then [] else [Statement.solarWind winds]).foldlM
        SpaceWeather.execute middle = some next →
          next.indices = middle.indices := by
    intro middle hrun
    split at hrun
    · rw [Option.some.inj hrun]
    · rw [List.foldlM_cons] at hrun
      obtain ⟨last, hlast, hnil⟩ := Option.bind_eq_some_iff.mp hrun
      obtain ⟨stored, -, rfl⟩ := Option.map_eq_some_iff.mp hlast
      rw [← Option.some.inj hnil]
  rw [hstatements, List.foldlM_append] at hrun
  obtain ⟨middle, hmiddle, hrest⟩ := Option.bind_eq_some_iff.mp hrun
  rw [hwinds middle hrest]
  cases indices with
  | nil => rw [← Option.some.inj hmiddle]; rfl
  | cons first rest =>
      obtain ⟨last, hlast, hnil⟩ := Option.bind_eq_some_iff.mp hmiddle
      obtain ⟨stored, hstored, rfl⟩ := Option.map_eq_some_iff.mp hlast
      rw [← Option.some.inj hnil]
      unfold Table.insertOnConflict at hstored
      split at hstored
      · exact (Option.some.inj hstored).symm
      · cases hstored

/-- What a poll commits: its Kp values are stored, and are those of its
payload. -/
theorem indices_of_commit {poll : Poll F} {tables next : SpaceWeather F}
    (hcommit : poll.commit runtime fromisoformat tables = some next) :
    ∃ indices, parsePlanetaryK runtime fromisoformat
        (payloadOf poll.planetaryK) = some indices ∧
      poll.written runtime fromisoformat = indices ∧
        next.indices = tables.indices.upsertAll id GeomagneticObservation.set
          (fun _ _ => rfl) indices := by
  rw [commit] at hcommit
  split at hcommit
  · cases hcommit
  · next haccepted =>
      obtain ⟨statements, hstatements, hrun⟩ :=
        Option.bind_eq_some_iff.mp hcommit
      have hingest := hstatements
      obtain ⟨indices, hindices, hingest⟩ := Option.bind_eq_some_iff.mp hingest
      obtain ⟨winds, -, hingest⟩ := Option.bind_eq_some_iff.mp hingest
      split at hingest
      · cases hingest
      · refine ⟨indices, hindices, ?_, indices_of_execute
          (Option.some.inj hingest).symm hrun⟩
        rw [written, if_neg haccepted, hstatements, hindices]
        rfl

/-- The rows of a poll have distinct instants, so no statement is rejected. -/
theorem exists_execute (tables : SpaceWeather F)
    {indices : List (GeomagneticObservation F)}
    {winds : List (SolarWindObservation F)}
    (hindices : (indices.map GeomagneticObservation.timestamp).Nodup)
    (hwinds : (winds.map SolarWindObservation.timestamp).Nodup) :
    ∃ next, ((if indices.isEmpty then [] else
        [Statement.spaceWeatherIndices indices]) ++
      if winds.isEmpty then [] else [Statement.solarWind winds]).foldlM
        SpaceWeather.execute tables = some next := by
  have hfirst : ∀ tables : SpaceWeather F, ∃ next,
      tables.execute (.spaceWeatherIndices indices) = some next := by
    intro tables
    exact ⟨_, congrArg (Option.map _) (if_pos hindices)⟩
  have hsecond : ∀ tables : SpaceWeather F, ∃ next,
      tables.execute (.solarWind winds) = some next := by
    intro tables
    exact ⟨_, congrArg (Option.map _) (if_pos hwinds)⟩
  have hrest : ∀ tables : SpaceWeather F, ∃ next,
      (if winds.isEmpty then [] else [Statement.solarWind winds]).foldlM
        SpaceWeather.execute tables = some next := by
    intro tables
    split
    · exact ⟨tables, rfl⟩
    · obtain ⟨next, hnext⟩ := hsecond tables
      exact ⟨next, by rw [List.foldlM_cons, hnext]; rfl⟩
  rw [List.foldlM_append]
  split
  · exact hrest tables
  · obtain ⟨middle, hmiddle⟩ := hfirst tables
    obtain ⟨next, hnext⟩ := hrest middle
    exact ⟨next, by rw [List.foldlM_cons, hmiddle]; exact hnext⟩

/-- A poll that commits nothing writes nothing. -/
theorem written_of_commit_eq_none {poll : Poll F} {tables : SpaceWeather F}
    (hcommit : poll.commit runtime fromisoformat tables = none) :
    poll.written runtime fromisoformat = [] := by
  rw [written]
  split
  · rfl
  · next haccepted =>
      rw [commit, if_neg haccepted] at hcommit
      cases hstatements : ingestSpaceWeather runtime fromisoformat
          (payloadOf poll.planetaryK) (payloadOf poll.solarWind) with
      | none => rfl
      | some statements =>
          have hingest := hstatements
          obtain ⟨indices, hindices, hingest⟩ :=
            Option.bind_eq_some_iff.mp hingest
          obtain ⟨winds, hwinds, hingest⟩ := Option.bind_eq_some_iff.mp hingest
          split at hingest
          · cases hingest
          · obtain ⟨next, hnext⟩ := exists_execute tables
              (nodup_parsePlanetaryK runtime fromisoformat hindices)
              (nodup_parseSolarWind runtime fromisoformat hwinds)
            rw [hstatements, ← Option.some.inj hingest] at hcommit
            exact absurd (hcommit.symm.trans hnext) (by simp)

/-- What is found under an instant after a poll. -/
theorem find_step {poll : Poll F} {tables next : SpaceWeather F}
    (hstep : (spaceWeatherSystem runtime fromisoformat).step tables poll =
      some next) (instant : Instant) :
    (∃ row ∈ poll.written runtime fromisoformat, row.timestamp = instant ∧
        next.indices.find instant = some row) ∨
      (∀ row ∈ poll.written runtime fromisoformat,
        row.timestamp ≠ instant) ∧
          next.indices.find instant = tables.indices.find instant := by
  obtain rfl := Option.some.inj hstep
  cases hcommit : poll.commit runtime fromisoformat tables with
  | none =>
      refine Or.inr ⟨fun row hrow => ?_, rfl⟩
      rw [written_of_commit_eq_none hcommit] at hrow
      exact absurd hrow List.not_mem_nil
  | some next =>
      obtain ⟨indices, hindices, hwritten, hnext⟩ := indices_of_commit hcommit
      rw [Option.getD_some, hnext, hwritten]
      by_cases hinstant : instant ∈
          indices.map GeomagneticObservation.timestamp
      · obtain ⟨row, hrow, rfl⟩ := List.mem_map.mp hinstant
        refine Or.inl ⟨row, hrow, rfl, ?_⟩
        have hfind : (tables.indices.upsertAll id GeomagneticObservation.set
            (fun _ _ => rfl) indices).find row.timestamp =
              some ((tables.indices.find row.timestamp).elim row row.set) :=
          Table.find_upsertAll_of_mem
            (nodup_parsePlanetaryK runtime fromisoformat hindices) hrow
            tables.indices
        rw [hfind]
        cases hold : tables.indices.find row.timestamp with
        | none => rfl
        | some old =>
            have htime := ((Table.find_eq_some_iff _ _ _).mp hold).2
            refine congrArg some ?_
            simp only [Option.elim, GeomagneticObservation.set, htime]
      · refine Or.inr ⟨fun row hrow heq => hinstant ?_, ?_⟩
        · rw [← heq]
          exact List.mem_map_of_mem hrow
        · exact Table.find_upsertAll_of_not_mem (by simpa using hinstant) _

/-- A stored value is the one that the last poll to write its instant had for
it. -/
theorem stored_of_run {polls : List (Poll F)} {tables : SpaceWeather F}
    (hrun : (spaceWeatherSystem runtime fromisoformat).run
      ⟨Table.empty, Table.empty⟩ polls = some tables)
    {instant : Instant} {row : GeomagneticObservation F}
    (hfind : tables.indices.find instant = some row) :
    ∃ before poll after, polls = before ++ poll :: after ∧
      row ∈ poll.written runtime fromisoformat ∧ row.timestamp = instant ∧
        ∀ later ∈ after, ∀ other ∈ later.written runtime fromisoformat,
          other.timestamp ≠ instant := by
  refine System.run_induction
    (fun polls tables => ∀ row, tables.indices.find instant = some row →
      ∃ before poll after, polls = before ++ poll :: after ∧
        row ∈ poll.written runtime fromisoformat ∧ row.timestamp = instant ∧
          ∀ later ∈ after, ∀ other ∈ later.written runtime fromisoformat,
            other.timestamp ≠ instant) ?_ ?_ hrun row hfind
  · intro row hrow
    cases hrow
  · intro polls poll tables next hinv _ hstep row hrow
    rcases find_step hstep instant with ⟨other, hother, htime, hnew⟩ |
      ⟨habsent, hold⟩
    · obtain rfl := Option.some.inj (hnew.symm.trans hrow)
      exact ⟨polls, poll, [], rfl, hother, htime, by simp⟩
    · obtain ⟨before, writer, after, rfl, hwriter, htime, hafter⟩ :=
        hinv row (hold.symm.trans hrow)
      refine ⟨before, writer, after ++ [poll], by simp, hwriter, htime, ?_⟩
      intro later hlater
      rcases List.mem_append.mp hlater with hlater | hlater
      · exact hafter later hlater
      · rw [List.mem_singleton.mp hlater]
        exact habsent

/-- What a poll writes is settled in its payload. -/
theorem settled_of_mem_written {poll : Poll F}
    {row : GeomagneticObservation F}
    (hrow : row ∈ poll.written runtime fromisoformat) :
    Settled (planetaryKReadings runtime fromisoformat poll.planetaryK)
        row.timestamp ∧
      lastAt (planetaryKReadings runtime fromisoformat poll.planetaryK)
        row.timestamp = some row := by
  unfold written at hrow
  split at hrow
  · exact absurd hrow List.not_mem_nil
  · cases hindices : (ingestSpaceWeather runtime fromisoformat
        (payloadOf poll.planetaryK) (payloadOf poll.solarWind)).bind fun _ =>
          parsePlanetaryK runtime fromisoformat
            (payloadOf poll.planetaryK) with
    | none => rw [hindices] at hrow; exact absurd hrow List.not_mem_nil
    | some indices =>
        rw [hindices] at hrow
        obtain ⟨statements, -, hparse⟩ := Option.bind_eq_some_iff.mp hindices
        exact (parsePlanetaryK_shows runtime fromisoformat hparse).sound row
          hrow

end Poll

/-- The newest instant that is settled. -/
structure NewestSettled {Row : Type} (readings : List (Instant × Row))
    (instant : Instant) : Prop where
  mem : instant ∈ readings.map Prod.fst
  settled : Settled readings instant
  greatest : ∀ other ∈ readings.map Prod.fst, Settled readings other →
    other ≤ instant

variable {runtime fromisoformat}

/-- The last value of the parsed ones is that of the newest settled instant. -/
theorem getLast?_eq_some_iff {records : List (Dict Text (Json F))}
    {indices : List (GeomagneticObservation F)}
    (hindices : parsePlanetaryK runtime fromisoformat (payloadOf records) =
      some indices) (row : GeomagneticObservation F) :
    indices.getLast? = some row ↔
      NewestSettled (planetaryKReadings runtime fromisoformat records)
          row.timestamp ∧
        lastAt (planetaryKReadings runtime fromisoformat records)
          row.timestamp = some row := by
  have hshows := parsePlanetaryK_shows runtime fromisoformat hindices
  constructor
  · intro hlast
    obtain ⟨hsettled, hvalue⟩ :=
      hshows.sound row (List.mem_of_getLast? hlast)
    refine ⟨⟨(isSome_lastAt_iff _ _).mp (by rw [hvalue]; rfl), hsettled,
      fun other hother hcounts => ?_⟩, hvalue⟩
    obtain ⟨newest, hnewest, hle⟩ := hshows.newest other hcounts
      ((isSome_lastAt_iff _ _).mpr hother)
    obtain rfl := Option.mem_unique hlast hnewest
    exact hle
  · rintro ⟨hnewest, hvalue⟩
    obtain ⟨last, hlast, hle⟩ := hshows.newest row.timestamp hnewest.settled
      (by rw [hvalue]; rfl)
    obtain ⟨hsettled, hlastvalue⟩ :=
      hshows.sound last (List.mem_of_getLast? hlast)
    have hge := hnewest.greatest last.timestamp
      ((isSome_lastAt_iff _ _).mp (by rw [hlastvalue]; rfl)) hsettled
    rw [le_antisymm hle hge, hlastvalue] at hvalue
    exact hvalue ▸ hlast

/-! ## Records that a decoder gives -/

/-- A value as `orjson.loads` gives it: its integers have 64 bits. -/
def Decoded : Json F → Prop
  | .int number => -2 ^ 63 ≤ number ∧ number < 2 ^ 64
  | _ => True

variable (runtime) in
/-- `float` raises `OverflowError` for large integers only. -/
def OverflowsLate : Prop :=
  ∀ value, runtime.float value = .overflow →
    ∃ number : ℤ, value = .int number ∧ 2 ^ 1023 ≤ |number|

theorem float_ne_overflow (hfloat : OverflowsLate runtime) {value : Json F}
    (hvalue : Decoded value) : runtime.float value ≠ .overflow := by
  intro hoverflow
  obtain ⟨number, rfl, hlarge⟩ := hfloat value hoverflow
  have hbound : |number| ≤ 2 ^ 64 := abs_le.mpr ⟨by
    have := hvalue.1
    omega, by
    have := hvalue.2
    omega⟩
  have hpowers : (2 : ℤ) ^ 64 < 2 ^ 1023 :=
    pow_lt_pow_right₀ (by norm_num) (by norm_num)
  omega

theorem isSome_finiteOf (hfloat : OverflowsLate runtime) {value : Json F}
    (hvalue : Decoded value) : (finiteOf runtime value).isSome = true := by
  have hfits := float_ne_overflow hfloat hvalue
  unfold finiteOf
  split
  · rfl
  · rfl
  · split
    · rfl
    · rfl
    · rfl
    · next hoverflow => exact absurd hoverflow hfits

theorem decoded_getOrNone {record : Dict Text (Json F)}
    (hrecord : ∀ item ∈ record, Decoded item.2) (key : String) :
    Decoded (getOrNone record key) := by
  rw [getOrNone]
  cases hget : Dict.get record (text key) with
  | none => trivial
  | some value => exact hrecord _ (Dict.mem_of_get hget)

theorem isSome_planetaryK (hfloat : OverflowsLate runtime)
    {record : Dict Text (Json F)}
    (hrecord : ∀ item ∈ record, Decoded item.2) :
    (planetaryK runtime fromisoformat (.dict record)).isSome = true := by
  have hread := fun key => Option.isSome_iff_exists.mp
    (isSome_finiteOf hfloat (decoded_getOrNone hrecord key))
  have hindex : ∃ kp, kpOf runtime record = some kp := by
    obtain ⟨estimated, hestimated⟩ := hread "estimated_kp"
    cases estimated with
    | some kp => exact ⟨some kp, by simp [kpOf, hestimated]⟩
    | none =>
        obtain ⟨kp, hkp⟩ := hread "kp_index"
        exact ⟨kp, by simp [kpOf, hestimated, hkp]⟩
  obtain ⟨kp, hkp⟩ := hindex
  simp only [planetaryK, asDict, hkp, Option.bind_eq_bind, Option.bind_some]
  split
  · split <;> rfl
  · rfl

theorem isSome_solarWind (hfloat : OverflowsLate runtime)
    {record : Dict Text (Json F)}
    (hrecord : ∀ item ∈ record, Decoded item.2) :
    (solarWind runtime fromisoformat (.dict record)).isSome = true := by
  have hread := fun key => Option.isSome_iff_exists.mp
    (isSome_finiteOf hfloat (decoded_getOrNone hrecord key))
  obtain ⟨speed, hspeed⟩ := hread "proton_speed"
  obtain ⟨density, hdensity⟩ := hread "proton_density"
  obtain ⟨temperature, htemperature⟩ := hread "proton_temperature"
  simp only [solarWind, asDict, hspeed, hdensity, htemperature,
    Option.bind_eq_bind, Option.bind_some]
  split
  · rfl
  · split
    · split <;> rfl
    · rfl

/-- The parsers show the observations of the last three hours, without the
provisional one of planetary K, in whatever order the records come; no poll
stores a provisional value, and the alert looks at the newest settled one. -/
structure ShowsObservations (runtime : Runtime F)
    (fromisoformat : Text → Option Instant) : Prop where
  returns : ∀ records : List (Dict Text (Json F)),
    (∀ record ∈ records, ∀ item ∈ record, Decoded item.2) →
      (∃ indices, parsePlanetaryK runtime fromisoformat (payloadOf records) =
        some indices) ∧
      ∃ winds, parseSolarWind runtime fromisoformat (payloadOf records) =
        some winds
  planetaryK : ∀ records indices,
    parsePlanetaryK runtime fromisoformat (payloadOf records) =
        some indices →
      Shows (planetaryKReadings runtime fromisoformat records)
        (Settled (planetaryKReadings runtime fromisoformat records))
        observationLookback GeomagneticObservation.timestamp indices
  solarWind : ∀ records winds,
    parseSolarWind runtime fromisoformat (payloadOf records) = some winds →
      Shows (solarWindReadings runtime fromisoformat records) (fun _ => True)
        observationLookback SolarWindObservation.timestamp winds
  reordered : ∀ records others,
    Reordered runtime fromisoformat records others →
      parsePlanetaryK runtime fromisoformat (payloadOf others) =
          parsePlanetaryK runtime fromisoformat (payloadOf records) ∧
        parseSolarWind runtime fromisoformat (payloadOf others) =
          parseSolarWind runtime fromisoformat (payloadOf records)
  stored : ∀ (polls : List (Poll F)) tables,
    (spaceWeatherSystem runtime fromisoformat).run
        ⟨Table.empty, Table.empty⟩ polls = some tables →
      ∀ instant row, tables.indices.find instant = some row →
        ∃ before poll after, polls = before ++ poll :: after ∧
          row ∈ poll.written runtime fromisoformat ∧
            (∀ later ∈ after, ∀ other ∈ later.written runtime fromisoformat,
              other.timestamp ≠ instant) ∧
            Settled (planetaryKReadings runtime fromisoformat poll.planetaryK)
              instant ∧
            lastAt (planetaryKReadings runtime fromisoformat poll.planetaryK)
              instant = some row
  alert : ∀ (poll : Poll F) tables kp,
    poll.alert runtime fromisoformat tables = some kp ↔
      (∃ next, poll.commit runtime fromisoformat tables = some next) ∧
        ∃ row, NewestSettled (planetaryKReadings runtime fromisoformat
            poll.planetaryK) row.timestamp ∧
          lastAt (planetaryKReadings runtime fromisoformat poll.planetaryK)
            row.timestamp = some row ∧
          row.kpIndex = kp ∧ Poll.stormKp ≤ runtime.rational kp

theorem alert_eq_some_iff (poll : Poll F) (tables : SpaceWeather F) (kp : F) :
    poll.alert runtime fromisoformat tables = some kp ↔
      (∃ next, poll.commit runtime fromisoformat tables = some next) ∧
        ∃ row, NewestSettled (planetaryKReadings runtime fromisoformat
            poll.planetaryK) row.timestamp ∧
          lastAt (planetaryKReadings runtime fromisoformat poll.planetaryK)
            row.timestamp = some row ∧
          row.kpIndex = kp ∧ Poll.stormKp ≤ runtime.rational kp := by
  constructor
  · intro halert
    obtain ⟨next, hcommit, halert⟩ := Option.bind_eq_some_iff.mp halert
    obtain ⟨indices, hindices, halert⟩ := Option.bind_eq_some_iff.mp halert
    obtain ⟨row, hrow, halert⟩ := Option.bind_eq_some_iff.mp halert
    obtain ⟨hnewest, hvalue⟩ := (getLast?_eq_some_iff hindices row).mp hrow
    split at halert
    · next hstorm =>
        obtain rfl := Option.some.inj halert
        exact ⟨⟨next, hcommit⟩, row, hnewest, hvalue, rfl, hstorm⟩
    · cases halert
  · rintro ⟨⟨next, hcommit⟩, row, hnewest, hvalue, rfl, hstorm⟩
    obtain ⟨indices, hindices, -⟩ := Poll.indices_of_commit hcommit
    have hlast := (getLast?_eq_some_iff hindices row).mpr ⟨hnewest, hvalue⟩
    simp only [Poll.alert, hcommit, hindices, hlast, Option.bind_eq_bind,
      Option.bind_some, if_pos hstorm]

/-- Both parsers, every sequence of polls and the alert, where `float` raises
`OverflowError` for large integers only. -/
theorem observations_shown (hfloat : OverflowsLate runtime) :
    ShowsObservations runtime fromisoformat where
  returns records hdecoded := by
    have hplanetary := isSome_parsePlanetaryK_iff runtime fromisoformat records
    have hwind := isSome_parseSolarWind_iff runtime fromisoformat records
    exact ⟨Option.isSome_iff_exists.mp (hplanetary.mpr fun record hrecord =>
        isSome_planetaryK hfloat (hdecoded record hrecord)),
      Option.isSome_iff_exists.mp (hwind.mpr fun record hrecord =>
        isSome_solarWind hfloat (hdecoded record hrecord))⟩
  planetaryK _ _ := parsePlanetaryK_shows runtime fromisoformat
  solarWind _ _ := parseSolarWind_shows runtime fromisoformat
  reordered _ _ hreordered :=
    ⟨parsePlanetaryK_reordered hreordered, parseSolarWind_reordered hreordered⟩
  stored polls tables hrun instant row hfind := by
    obtain ⟨before, poll, after, hpolls, hrow, rfl, hafter⟩ :=
      Poll.stored_of_run hrun hfind
    obtain ⟨hsettled, hlast⟩ := Poll.settled_of_mem_written hrow
    exact ⟨before, poll, after, hpolls, hrow, hafter, hsettled, hlast⟩
  alert := alert_eq_some_iff

end Polls

/-- ASCII, with zero as the only float. -/
def calmRuntime : Runtime Unit :=
  { unitRuntime with
    float := fun value =>
      match value with
      | .float _ => .number (.finite ())
      | _ => .invalid }

/-- `datetime.fromisoformat` on the first minutes of the epoch. -/
def epochMinute (value : Text) : Option Instant :=
  if value = text "1970-01-01T00:00:00" then some 0
  else if value = text "1970-01-01T00:01:00" then some 60000000
  else none

/-- A record with the only float. -/
def calmRecord (timeTag : String) : Dict Text (Json Unit) :=
  [(text "time_tag", .str (text timeTag)),
    (text "estimated_kp", .float (.finite ()))]

/-- Of two minutes the older one is given. -/
theorem calm_minutes_shown :
    ShowsObservations calmRuntime epochMinute ∧
      parsePlanetaryK calmRuntime epochMinute (payloadOf
        [calmRecord "1970-01-01T00:01:00", calmRecord "1970-01-01T00:00:00"]) =
          some [⟨0, ()⟩] := by
  refine ⟨observations_shown fun value hoverflow => ?_, ?_⟩
  · cases value <;> cases hoverflow
  · have hparse : parsePlanetaryK calmRuntime epochMinute (payloadOf
        [calmRecord "1970-01-01T00:01:00", calmRecord "1970-01-01T00:00:00"]) =
          some (recentSorted [(0, ⟨0, ()⟩)]) := rfl
    rw [hparse]
    simp [recentSorted, Dict.keys, observationLookback]

end UTTG.Ingestion
