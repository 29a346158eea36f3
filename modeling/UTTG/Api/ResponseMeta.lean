import UTTG.Api.CacheKeys
import UTTG.Ingestion.ProviderHealth

/-!
# What responses say about their providers

`build_meta` and the endpoints `/providers` and `/capabilities` read the table
of provider health.  As long as the calls that write it do not overlap for one
provider, they tell the last outcome of every configured provider.
-/

namespace UTTG.Api

open Python Health UTTG.Transition
open Launches (Instant)

/-! ## `build_meta` -/

/-- A value of the map that `load_health` returns; the instant goes through
`isoformat` and back. -/
structure SourceHealth where
  status : Status
  lastSuccessAt : Option Instant

/-- `load_health`. -/
def loadHealth (sources : List Text) (table : HealthTable) :
    Dict Text SourceHealth :=
  (table.rows.filter fun row => sources.contains row.id).map fun row =>
    (row.id, ⟨row.status, row.lastSuccessAt⟩)

/-- `health_map.get(source, {}).get("status") == "active"`. -/
def isHealthy (healthMap : Dict Text SourceHealth) (source : Text) : Bool :=
  (Dict.get healthMap source).any fun health => health.status = .active

inductive Resilience where
  | high
  | medium
  | limited
  deriving DecidableEq

structure FreshnessMeta where
  state : Text
  ageSeconds : ℤ
  targetTtlSeconds : ℤ
  maxStaleSeconds : ℤ

structure ProviderCoverageMeta where
  configuredProviderCount : ℕ
  healthyProviderCount : ℕ
  independentProviderCount : ℕ
  resilience : Resilience

structure ResponseMeta where
  resource : Text
  canonicalSchemaVersion : Text
  requestedAt : Instant
  lastUpdatedAt : Instant
  freshness : FreshnessMeta
  providerCoverage : ProviderCoverageMeta
  sources : List Text
  isPartial : Bool
  warnings : List Text

def resilienceOf (configured healthy : ℕ) : Resilience :=
  if 2 ≤ configured ∧ 2 ≤ healthy then .high
  else if 2 ≤ configured ∧ healthy = 1 then .medium
  else .limited

/-- `f"Provider '{source}' is not active"`. -/
def inactiveWarning (source : Text) : Text :=
  text "Provider '" ++ source ++ text "' is not active"

/-- `max(last_success_values, default=now)`. -/
def lastUpdated (healthMap : Dict Text SourceHealth) (now : Instant) :
    Instant :=
  ((Dict.values healthMap).filterMap
    SourceHealth.lastSuccessAt).max?.getD now

/-- The rest of `build_meta`, with the map that `cached` returned. -/
def buildMeta (resource : Text) (sources : List Text) (ttl maxStale : ℤ)
    (healthMap : Dict Text SourceHealth) (now : Instant) : ResponseMeta :=
  let configured := sources.length
  let healthy := sources.countP (isHealthy healthMap)
  { resource := resource
    canonicalSchemaVersion := text "v1"
    requestedAt := now
    lastUpdatedAt := lastUpdated healthMap now
    freshness := ⟨text "fresh", 0, ttl, maxStale⟩
    providerCoverage :=
      ⟨configured, healthy, configured, resilienceOf configured healthy⟩
    sources := sources
    isPartial := healthy < configured
    warnings := (sources.filter fun source =>
      !isHealthy healthMap source).map inactiveWarning }

/-! ## `/providers` and `/capabilities` -/

/-- A provider without a row is `pending` or `not_yet_ingested`. -/
inductive ShownStatus where
  | recorded (status : Status)
  | absent
  deriving DecidableEq

structure ProviderItem where
  id : Text
  status : ShownStatus
  lastSuccessAt : Option Instant
  lastErrorAt : Option Instant
  deriving DecidableEq

def shownStatus (row : Option ProviderHealth) : ShownStatus :=
  row.elim .absent fun found => .recorded found.status

/-- The data of `providers`. -/
def providersData (settings : ProviderSettings) (table : HealthTable) :
    List ProviderItem :=
  (sortedSet (configuredProviders settings)).map fun providerId =>
    { id := providerId
      status := shownStatus (table.find providerId)
      lastSuccessAt := (table.find providerId).bind
        ProviderHealth.lastSuccessAt
      lastErrorAt := (table.find providerId).bind ProviderHealth.lastErrorAt }

/-- The data of `capabilities`. -/
def capabilitiesData (settings : ProviderSettings) (table : HealthTable) :
    Dict Text (ShownStatus × Option Instant) :=
  (sortedSet (configuredProviders settings)).map fun providerId =>
    (providerId, shownStatus (table.find providerId),
      (table.find providerId).bind ProviderHealth.lastSuccessAt)

/-! ## What they tell -/

section Tells

/-- The meta tells the last outcomes of the sources. -/
structure MetaTells (recorded : List Outcome) (asked : List Text)
    (now : Instant) (reply : ResponseMeta) : Prop where
  sources : reply.sources = asked
  configured : reply.providerCoverage.configuredProviderCount = asked.length
  healthy : reply.providerCoverage.healthyProviderCount =
    asked.countP (isActive recorded)
  high : reply.providerCoverage.resilience = .high ↔
    2 ≤ asked.countP (isActive recorded)
  medium : reply.providerCoverage.resilience = .medium ↔
    2 ≤ asked.length ∧ asked.countP (isActive recorded) = 1
  isPartial : reply.isPartial = true ↔
    ∃ source ∈ asked, isActive recorded source = false
  warnings : reply.warnings =
    (asked.filter fun source => !isActive recorded source).map inactiveWarning
  updated : (∃ source ∈ asked, (lastSuccess recorded source).isSome) →
    IsGreatest {instant | ∃ source ∈ asked,
      lastSuccess recorded source = some instant} reply.lastUpdatedAt
  never : (∀ source ∈ asked, lastSuccess recorded source = none) →
    reply.lastUpdatedAt = now

/-- An item tells the last outcome and the last times of its provider. -/
structure ItemTells (recorded : List Outcome) (item : ProviderItem) :
    Prop where
  status : item.status = ((own recorded item.id).head?.elim .absent
    fun latest => .recorded latest.write.status)
  success : item.lastSuccessAt = lastSuccess recorded item.id
  failure : item.lastErrorAt = lastFailure recorded item.id

end Tells

section Summaries

variable {recorded : List Outcome} {table : HealthTable}
  (hrows : ∀ providerId, table.find providerId = summary recorded providerId)

/-- Without an outcome there is no time of one. -/
theorem summary_bind (providerId : Text) :
    (summary recorded providerId).bind ProviderHealth.lastSuccessAt =
        lastSuccess recorded providerId ∧
      (summary recorded providerId).bind ProviderHealth.lastErrorAt =
        lastFailure recorded providerId := by
  unfold summary
  cases hown : own recorded providerId with
  | nil => simp [lastSuccess, lastFailure, hown]
  | cons latest rest => exact ⟨rfl, rfl⟩

theorem nodup_loadHealth (sources : List Text) (table : HealthTable) :
    (Dict.keys (loadHealth sources table)).Nodup := by
  have hkeys : Dict.keys (loadHealth sources table) =
      (table.rows.filter fun row => sources.contains row.id).map
        ProviderHealth.id := by
    rw [Dict.keys, loadHealth, List.map_map]
    rfl
  rw [hkeys]
  exact (List.filter_sublist.map _).nodup table.distinct

/-- The map has the rows of the sources. -/
theorem get_loadHealth {sources : List Text} (table : HealthTable)
    {source : Text} (hsource : source ∈ sources) :
    Dict.get (loadHealth sources table) source =
      (table.find source).map fun row => ⟨row.status, row.lastSuccessAt⟩ := by
  cases hfind : table.find source with
  | none =>
      refine Option.eq_none_iff_forall_ne_some.mpr fun health hget => ?_
      obtain ⟨row, hrow, hpair⟩ := List.mem_map.mp (Dict.mem_of_get hget)
      refine (table.find_eq_none_iff _).mp hfind ?_
      rw [← (Prod.mk.inj hpair).1]
      exact List.mem_map_of_mem (List.mem_of_mem_filter hrow)
  | some row =>
      obtain ⟨hmem, rfl⟩ := (table.find_eq_some_iff _ _).mp hfind
      rw [Option.map_some, Dict.get_eq_some_iff (nodup_loadHealth _ _)]
      refine List.mem_map.mpr ⟨row, List.mem_filter.mpr ⟨hmem, ?_⟩, rfl⟩
      simpa using hsource

include hrows

theorem isHealthy_eq {sources : List Text} {source : Text}
    (hsource : source ∈ sources) :
    isHealthy (loadHealth sources table) source = isActive recorded source := by
  rw [isHealthy, get_loadHealth table hsource, hrows, summary, isActive]
  cases (own recorded source).head? with
  | none => rfl
  | some latest => rfl

/-- The times of the map are the last successes of the sources. -/
theorem mem_lastSuccessAt_iff (sources : List Text) (instant : Instant) :
    instant ∈ (Dict.values (loadHealth sources table)).filterMap
        SourceHealth.lastSuccessAt ↔
      ∃ source ∈ sources, lastSuccess recorded source = some instant := by
  simp only [Dict.values, loadHealth, List.map_map, List.mem_filterMap,
    List.mem_map, List.mem_filter, Function.comp_apply]
  constructor
  · rintro ⟨_, ⟨row, ⟨hrow, hsource⟩, rfl⟩, hinstant⟩
    have hfind : table.find row.id = some row :=
      (table.find_eq_some_iff _ _).mpr ⟨hrow, rfl⟩
    refine ⟨row.id, by simpa using hsource, ?_⟩
    rw [← (summary_bind row.id).1, ← hrows, hfind]
    exact hinstant
  · rintro ⟨source, hsource, hinstant⟩
    rw [← (summary_bind source).1, ← hrows, Option.bind_eq_some_iff] at hinstant
    obtain ⟨row, hfind, hrow⟩ := hinstant
    obtain ⟨hmem, rfl⟩ := (table.find_eq_some_iff _ _).mp hfind
    exact ⟨_, ⟨row, ⟨hmem, by simpa using hsource⟩, rfl⟩, hrow⟩

theorem metaTells (resource : Text) (sources : List Text) (ttl maxStale : ℤ)
    (now : Instant) :
    MetaTells recorded sources now (buildMeta resource sources ttl maxStale
      (loadHealth sources table) now) := by
  have hcount : sources.countP (isHealthy (loadHealth sources table)) =
      sources.countP (isActive recorded) :=
    List.countP_congr fun source hsource => by
      rw [isHealthy_eq hrows hsource]
  have hle := List.countP_le_length (p := isActive recorded) (l := sources)
  have hgreatest := mem_lastSuccessAt_iff hrows sources
  refine ⟨rfl, rfl, hcount, ?_, ?_, ?_, ?_, ?_, ?_⟩
  · simp only [buildMeta, resilienceOf, hcount]
    split_ifs <;> simp <;> omega
  · simp only [buildMeta, resilienceOf, hcount]
    split_ifs <;> simp <;> omega
  · simp only [buildMeta, hcount, decide_eq_true_eq]
    rw [lt_iff_le_and_ne, ne_eq, List.countP_eq_length]
    simp [hle]
  · refine congrArg (List.map inactiveWarning) ?_
    exact List.filter_congr fun source hsource => by
      rw [isHealthy_eq hrows hsource]
  · rintro ⟨source, hsource, hsome⟩
    obtain ⟨instant, hinstant⟩ := Option.isSome_iff_exists.mp hsome
    have hmem := (hgreatest instant).mpr ⟨source, hsource, hinstant⟩
    obtain ⟨greatest, hmax⟩ := Option.isSome_iff_exists.mp
      (List.isSome_max?_of_mem hmem)
    obtain ⟨hgreatestMem, hall⟩ := List.max?_eq_some_iff.mp hmax
    have hupdated : lastUpdated (loadHealth sources table) now = greatest := by
      rw [lastUpdated, hmax, Option.getD_some]
    change IsGreatest _ (lastUpdated _ now)
    rw [hupdated]
    exact ⟨(hgreatest greatest).mp hgreatestMem,
      fun other hother => hall other ((hgreatest other).mpr hother)⟩
  · intro hnever
    have hempty : (Dict.values (loadHealth sources table)).filterMap
        SourceHealth.lastSuccessAt = [] := by
      rw [List.eq_nil_iff_forall_not_mem]
      intro instant hinstant
      obtain ⟨source, hsource, hsome⟩ := (hgreatest instant).mp hinstant
      rw [hnever source hsource] at hsome
      simp at hsome
    change lastUpdated _ now = now
    rw [lastUpdated, hempty]
    rfl

theorem itemTells (settings : ProviderSettings) :
    ∀ item ∈ providersData settings table, ItemTells recorded item := by
  intro item hitem
  obtain ⟨providerId, -, rfl⟩ := List.mem_map.mp hitem
  refine ⟨?_, ?_, ?_⟩
  · change shownStatus (table.find providerId) = _
    rw [hrows, summary]
    cases (own recorded providerId).head? with
    | none => rfl
    | some latest => rfl
  · change (table.find providerId).bind _ = _
    rw [hrows]
    exact (summary_bind providerId).1
  · change (table.find providerId).bind _ = _
    rw [hrows]
    exact (summary_bind providerId).2

end Summaries

/-- In every run whose calls for one provider do not overlap, the meta of every
response tells the last outcomes of its configured sources at the time the
health was loaded, and so do the items of `/providers` and `/capabilities` for
the configured providers. -/
theorem health_told {state : HealthState}
    (hreach : healthSystem.ReachableVia Serial state)
    (settings : ProviderSettings) :
    (∀ (resource : Text) (sources : Sources) (ttl maxStale : ℤ)
        (now : Instant),
      MetaTells state.recorded (configuredSources settings sources) now
        (buildMeta resource (configuredSources settings sources) ttl maxStale
          (loadHealth (configuredSources settings sources) state.table)
          now)) ∧
    (∀ item ∈ providersData settings state.table,
      ItemTells state.recorded item) ∧
    capabilitiesData settings state.table =
      (providersData settings state.table).map fun item =>
        (item.id, item.status, item.lastSuccessAt) := by
  have hrows := (summarised hreach).rows
  refine ⟨fun resource sources ttl maxStale now =>
    metaTells hrows resource _ ttl maxStale now, itemTells hrows settings, ?_⟩
  rw [capabilitiesData, providersData, List.map_map]
  rfl

/-- The call that records the last failure was begun while the row said so
already. -/
def overlappingCalls : List HealthAction :=
  [.select 0 ⟨text "celestrak", .error, some (text "TimeoutError")⟩,
    .commit 0 10,
    .select 1 ⟨text "celestrak", .active, none⟩,
    .select 2 ⟨text "celestrak", .error, some (text "TimeoutError")⟩,
    .commit 1 20, .commit 2 30]

/-- Why the calls for one provider must not overlap: such calls can leave a
provider active whose last outcome is a failure. -/
example :
    ∃ state ∈ healthSystem.run ⟨Table.empty, [], []⟩ overlappingCalls,
      (state.recorded.head?.map fun outcome => outcome.write.status) =
          some .error ∧
        (state.table.find (text "celestrak")).map ProviderHealth.status =
          some .active := by
  decide +kernel

/-- CelesTrak fails after a success, and NOAA succeeds. -/
def serialCalls : List HealthAction :=
  [.select 0 ⟨text "celestrak", .active, none⟩,
    .select 1 ⟨text "noaa-swpc", .active, none⟩,
    .commit 0 10, .commit 1 20,
    .select 2 ⟨text "celestrak", .error, some (text "TimeoutError")⟩,
    .commit 2 30]

def publicProviders : ProviderSettings where
  spaceTrackIdentity := none
  spaceTrackPassword := none
  enableCelestrak := true
  nasaApiKey := none
  enableJpl := false
  enableNoaaSwpc := true
  enableSpaceDevsPublicApi := false
  theSpaceDevsApiKey := none
  enableRocketlaunchLive := false
  enableEsa := false

theorem serial_health_told :
    ∃ state ∈ healthSystem.run ⟨Table.empty, [], []⟩ serialCalls,
      (state.recorded.map fun outcome => outcome.write.status) =
          [.error, .active, .active] ∧
        MetaTells state.recorded
          (configuredSources publicProviders .configured) 40
          (buildMeta (text "/providers")
            (configuredSources publicProviders .configured) 3600 86400
            (loadHealth (configuredSources publicProviders .configured)
              state.table) 40) := by
  obtain ⟨state, hrun, hstatuses⟩ :
      ∃ state ∈ healthSystem.run ⟨Table.empty, [], []⟩ serialCalls,
        (state.recorded.map fun outcome => outcome.write.status) =
          [.error, .active, .active] := by
    decide +kernel
  have hserial : healthSystem.Steps Serial ⟨Table.empty, [], []⟩
      serialCalls := by
    decide +kernel
  exact ⟨state, hrun, hstatuses,
    (health_told (.run (.init rfl) hserial hrun) publicProviders).1
      (text "/providers") .configured 3600 86400 40⟩

end UTTG.Api
