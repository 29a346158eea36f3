import UTTG.Api.Collections
import UTTG.Core.Loops
import UTTG.Core.Separated
import UTTG.Python.Integer

/-!
# The keys of the cache

Nine places call `cached`, each with a key that joins its parameters with
colons.  What goes between the colons has none itself: numbers, the search text
that the pattern of the endpoint lets through, and lists joined with commas.  So
a key tells the endpoint and the parameters that its statement uses.
-/

namespace UTTG.Api

open Python
open UTTG.Limits (HttpError)

def colon : CodePoint := point 0x3A

def comma : CodePoint := point 0x2C

/-! ## Sorted lists -/

section Sorting

variable {Item : Type} [LinearOrder Item]

def sorted (items : List Item) : List Item := items.insertionSort (· ≤ ·)

/-- `sorted` of a set. -/
def sortedSet (items : List Item) : List Item := sorted items.dedup

/-- The members of a set from the least to the greatest. -/
def inOrder (items : Finset Item) : List Item := items.sort

theorem mem_inOrder {items : Finset Item} {item : Item} :
    item ∈ inOrder items ↔ item ∈ items :=
  Finset.mem_sort _

theorem toFinset_inOrder [DecidableEq Item] (items : Finset Item) :
    (inOrder items).toFinset = items :=
  Finset.sort_toFinset items _

theorem inOrder_injective :
    Function.Injective (inOrder : Finset Item → List Item) := by
  intro left right heq
  ext item
  rw [← mem_inOrder, heq, mem_inOrder]

theorem sorted_eq [DecidableEq Item] {items : List Item}
    (hnodup : items.Nodup) : sorted items = inOrder items.toFinset := by
  have hperm : (sorted items).Perm items := List.perm_insertionSort _ _
  have hsorted : (sorted items).Nodup := hperm.nodup_iff.mpr hnodup
  rw [inOrder, ← List.toFinset_eq_of_perm _ _ hperm]
  exact ((List.toFinset_sort _ hsorted).mpr
    (List.pairwise_insertionSort _ _)).symm

theorem sortedSet_eq (items : List Item) :
    sortedSet items = inOrder items.toFinset := by
  have hmembers : items.dedup.toFinset = items.toFinset := by
    ext item
    rw [List.mem_toFinset, List.mem_toFinset, List.mem_dedup]
  rw [sortedSet, sorted_eq (List.nodup_dedup items), hmembers]

end Sorting

/-! ## `get_latest_tle_sets` -/

/-- The parameter `ids`, which `Query` bounds: too short for a number beyond
the limit of `int`. -/
structure IdsText where
  raw : Text
  length_le : raw.length ≤ 2400

/-- `_TLE_MAX_IDS`. -/
def maxIds : ℕ := 200

/-- `int(part)` for each part that is not blank; `none` where one raises. -/
def numbersOf (decimalValue : CodePoint → Option ℕ) (raw : Text) :
    Option (List ℤ) :=
  ((raw.splitOn comma).filter fun part => strip part ≠ []).mapM
    (intOf decimalValue)

def notIntegersError : HttpError where
  statusCode := 422
  detail := text "ids must be comma-separated integers"
  headers := []

def outOfRangeError : HttpError where
  statusCode := 422
  detail := text "ids accepts up to " ++ decimal maxIds ++
    text " positive catalog numbers"
  headers := []

/-- `_parse_norad_ids`. -/
def parseNoradIds (decimalValue : CodePoint → Option ℕ) :
    Option IdsText → Except HttpError (List ℤ)
  | none => .ok []
  | some ids =>
      if ids.raw = [] then .ok []
      else
        match numbersOf decimalValue ids.raw with
        | none => .error notIntegersError
        | some numbers =>
            if maxIds < (sortedSet numbers).length ∨
                (sortedSet numbers).any
                  fun id => ¬(0 < id ∧ id < 1000000000) then
              .error outOfRangeError
            else .ok (sortedSet numbers)

/-- `[A-Za-z0-9]`. -/
def isAlphanumeric (code : CodePoint) : Bool :=
  isDigit code || 0x41 ≤ code.val && code.val ≤ 0x5A ||
    0x61 ≤ code.val && code.val ≤ 0x7A

/-- `[A-Za-z0-9 \-]`. -/
def isSearchCharacter (code : CodePoint) : Bool :=
  isAlphanumeric code || code.val == 0x20 || code.val == 0x2D

/-- A string that matches `_TLE_SEARCH_PATTERN`. -/
structure SearchText where
  first : CodePoint
  rest : Text
  first_alphanumeric : isAlphanumeric first = true
  rest_characters : ∀ code ∈ rest, isSearchCharacter code = true
  length_bounds : 1 ≤ rest.length ∧ rest.length ≤ 31

/-- `upper` on the characters of the pattern. -/
def upper (code : CodePoint) : CodePoint :=
  if 0x61 ≤ code.val ∧ code.val ≤ 0x7A then point (code.val - 0x20) else code

/-- `search.strip().upper()`. -/
def SearchText.normalized (search : SearchText) : Text :=
  (strip (search.first :: search.rest)).map upper

def tleKey (noradIds : List ℤ) (normalizedSearch : Option Text)
    (limit : ℕ) : Text :=
  text "tle:" ++ [comma].intercalate (noradIds.map signed) ++ text ":" ++
    normalizedSearch.getD [] ++ text ":" ++ signed limit

/-! ## `build_meta` -/

/-- The settings that `configured_providers` reads. -/
structure ProviderSettings where
  spaceTrackIdentity : Option Text
  spaceTrackPassword : Option Text
  enableCelestrak : Bool
  nasaApiKey : Option Text
  enableJpl : Bool
  enableNoaaSwpc : Bool
  enableSpaceDevsPublicApi : Bool
  theSpaceDevsApiKey : Option Text
  enableRocketlaunchLive : Bool
  enableEsa : Bool

/-- `bool(value)` for an optional string. -/
def isGiven (value : Option Text) : Bool := value.getD [] ≠ []

/-- The tests of `configured_providers` with what each of them adds. -/
def providerTests (settings : ProviderSettings) : List (Bool × Text) :=
  [(isGiven settings.spaceTrackIdentity &&
      isGiven settings.spaceTrackPassword, text "space-track"),
    (settings.enableCelestrak, text "celestrak"),
    (isGiven settings.nasaApiKey, text "nasa-neows"),
    (settings.enableJpl, text "jpl-ssd"),
    (settings.enableNoaaSwpc, text "noaa-swpc"),
    (settings.enableSpaceDevsPublicApi ||
      isGiven settings.theSpaceDevsApiKey, text "the-space-devs"),
    (settings.enableRocketlaunchLive, text "rocketlaunch-live"),
    (settings.enableEsa, text "esa")]

/-- `configured_providers`. -/
def configuredProviders (settings : ProviderSettings) : List Text :=
  ((providerTests settings).filter Prod.fst).map Prod.snd

/-- The keys of `_TAG_PROVIDERS`. -/
inductive Tag where
  | satellite
  | orbital
  | neo
  | spaceWeather
  | launch
  | events
  | earthObservation
  deriving DecidableEq

/-- `_TAG_PROVIDERS`. -/
def tagProviders : Tag → List Text
  | .satellite => [text "space-track", text "celestrak"]
  | .orbital => [text "space-track", text "celestrak"]
  | .neo => [text "jpl-ssd", text "nasa-neows"]
  | .spaceWeather => [text "noaa-swpc"]
  | .launch => [text "the-space-devs", text "rocketlaunch-live"]
  | .events => [text "space-track"]
  | .earthObservation => [text "esa"]

/-- What the callers of `build_meta` pass as `sources`. -/
inductive Sources where
  /-- `tag_sources(tag)`. -/
  | tag (name : Tag)
  /-- A list of one provider. -/
  | single (provider : Text)
  /-- `_SOURCES` of the admin endpoints. -/
  | admin
  /-- `_SOURCES` of the webhook endpoints. -/
  | webhooks
  /-- `sorted(configured_providers())`. -/
  | configured

def Sources.names (settings : ProviderSettings) : Sources → List Text
  | .tag name => tagProviders name
  | .single provider => [provider]
  | .admin =>
      [text "space-track", text "celestrak", text "jpl-ssd",
        text "nasa-neows", text "noaa-swpc", text "the-space-devs",
        text "rocketlaunch-live"]
  | .webhooks => []
  | .configured => sortedSet (configuredProviders settings)

/-- `configured_sources` in `build_meta`. -/
def configuredSources (settings : ProviderSettings) (sources : Sources) :
    List Text :=
  (sources.names settings).filter (· ∈ configuredProviders settings)

def healthKey (configuredSources : List Text) : Text :=
  text "provider-health:" ++
    [comma].intercalate (sorted configuredSources)

/-! ## All calls of `cached` -/

/-- The routes of `_dimension_route`. -/
inductive Dimension where
  | countries
  | operators
  | objectTypes
  | statuses
  | orbitClasses
  deriving DecidableEq

def Dimension.cacheName : Dimension → Text
  | .countries => text "countries"
  | .operators => text "operators"
  | .objectTypes => text "object-types"
  | .statuses => text "statuses"
  | .orbitClasses => text "orbit-classes"

/-- A call of an endpoint, or of `build_meta`, with its parameters. -/
inductive CachedCall where
  | getOrbitalLatest (noradId : ℤ)
  | getLatestTleSets (ids : Option IdsText) (search : Option SearchText)
      (limit : ℕ)
  | getSatellite (noradId : ℤ)
  | getSatellites (limit : ℕ) (cursor : Option ℤ)
  | catalogSummary
  | dimension (route : Dimension) (limit : ℕ)
  | catalogDecays (limit : ℕ)
  | getOverview
  | buildMeta (settings : ProviderSettings) (sources : Sources)

/-- The key of the call; `none` where it is refused before `cached`. -/
def CachedCall.key (decimalValue : CodePoint → Option ℕ) :
    CachedCall → Option Text
  | .getOrbitalLatest noradId => some (text "oe:latest:" ++ signed noradId)
  | .getLatestTleSets ids search limit =>
      (parseNoradIds decimalValue ids).toOption.map fun noradIds =>
        tleKey noradIds (search.map SearchText.normalized) limit
  | .getSatellite noradId => some (text "satellite:" ++ signed noradId)
  | .getSatellites limit cursor => some (satellitesKey cursor limit)
  | .catalogSummary => some (text "catalog:summary")
  | .dimension route limit =>
      some (text "catalog:" ++ route.cacheName ++ text ":" ++ signed limit)
  | .catalogDecays limit => some (text "catalog:decays:" ++ signed limit)
  | .getOverview => some (text "space-weather:overview")
  | .buildMeta settings sources =>
      some (healthKey (configuredSources settings sources))

/-- `data_key`. -/
def dataKey (cacheKey : Text) : Text := text "cache:v1:" ++ cacheKey

/-- `lock_key`. -/
def lockKey (cacheKey : Text) : Text := text "cache:v1:lock:" ++ cacheKey

/-! ## What the calls ask for -/

/-- The loader of a call with the parameters that its statement uses. -/
inductive Query where
  | orbitalLatest (noradId : ℤ)
  | tleSets (ids : Finset ℤ) (search : Option Text) (limit : ℕ)
  | satellite (noradId : ℤ)
  | satellites (after : ℤ) (limit : ℕ)
  | summary
  | dimension (route : Dimension) (limit : ℕ)
  | decays (limit : ℕ)
  | overview
  | health (sources : Finset Text)

/-- The query of a call; `none` where it is refused before. -/
def CachedCall.query (decimalValue : CodePoint → Option ℕ) :
    CachedCall → Option Query
  | .getOrbitalLatest noradId => some (.orbitalLatest noradId)
  | .getLatestTleSets ids search limit =>
      (parseNoradIds decimalValue ids).toOption.map fun noradIds =>
        .tleSets noradIds.toFinset (search.map SearchText.normalized) limit
  | .getSatellite noradId => some (.satellite noradId)
  | .getSatellites limit cursor => some (.satellites (cursor.getD 0) limit)
  | .catalogSummary => some .summary
  | .dimension route limit => some (.dimension route limit)
  | .catalogDecays limit => some (.decays limit)
  | .getOverview => some .overview
  | .buildMeta settings sources =>
      some (.health (configuredSources settings sources).toFinset)

/-! ## Keys as fields between colons -/

/-- The endpoints that call `cached`. -/
inductive Endpoint where
  | orbitalLatest
  | tleSets
  | satellite
  | satellites
  | summary
  | dimension (route : Dimension)
  | decays
  | overview
  | health
  deriving DecidableEq

/-- The fixed fields at the start of a key. -/
def Endpoint.path : Endpoint → List Text
  | .orbitalLatest => [text "oe", text "latest"]
  | .tleSets => [text "tle"]
  | .satellite => [text "satellite"]
  | .satellites => [text "satellites"]
  | .summary => [text "catalog", text "summary"]
  | .dimension route => [text "catalog", route.cacheName]
  | .decays => [text "catalog", text "decays"]
  | .overview => [text "space-weather", text "overview"]
  | .health => [text "provider-health"]

def Query.endpoint : Query → Endpoint
  | .orbitalLatest _ => .orbitalLatest
  | .tleSets _ _ _ => .tleSets
  | .satellite _ => .satellite
  | .satellites _ _ => .satellites
  | .summary => .summary
  | .dimension route _ => .dimension route
  | .decays _ => .decays
  | .overview => .overview
  | .health _ => .health

/-- The fields with the parameters. -/
def Query.parameters : Query → List Text
  | .orbitalLatest noradId => [signed noradId]
  | .tleSets ids search limit =>
      [[comma].intercalate ((inOrder ids).map signed), search.getD [], signed limit]
  | .satellite noradId => [signed noradId]
  | .satellites after limit => [signed after, signed limit]
  | .summary => []
  | .dimension _ limit => [signed limit]
  | .decays limit => [signed limit]
  | .overview => []
  | .health sources => [[comma].intercalate (inOrder sources)]

def Query.fields (query : Query) : List Text :=
  query.endpoint.path ++ query.parameters

def Query.key (query : Query) : Text := [colon].intercalate query.fields

def Endpoint.all : List Endpoint :=
  [.orbitalLatest, .tleSets, .satellite, .satellites, .summary,
    .dimension .countries, .dimension .operators, .dimension .objectTypes,
    .dimension .statuses, .dimension .orbitClasses, .decays, .overview, .health]

theorem Endpoint.mem_all (endpoint : Endpoint) : endpoint ∈ Endpoint.all := by
  cases endpoint with
  | dimension route => cases route <;> decide
  | _ => decide

/-- No path starts another one. -/
theorem Endpoint.eq_of_path_starts {left right : Endpoint}
    (hstarts : left.path <+: right.path) : left = right := by
  have hall : ∀ left ∈ Endpoint.all, ∀ right ∈ Endpoint.all,
      left.path <+: right.path → left = right := by
    decide +kernel
  exact hall left left.mem_all right right.mem_all hstarts

/-- The fields start with one that is not `lock`, and no fixed field has a
colon. -/
theorem Endpoint.path_spec (endpoint : Endpoint) :
    endpoint.path ≠ [] ∧ endpoint.path.head? ≠ some (text "lock") ∧
      ∀ field ∈ endpoint.path, colon ∉ field := by
  have hall : ∀ endpoint ∈ Endpoint.all,
      endpoint.path ≠ [] ∧ endpoint.path.head? ≠ some (text "lock") ∧
        ∀ field ∈ endpoint.path, colon ∉ field := by
    decide +kernel
  exact hall endpoint endpoint.mem_all

theorem endpoint_eq_of_fields {left right : Query}
    (heq : left.fields = right.fields) : left.endpoint = right.endpoint := by
  rcases List.append_eq_append_iff.mp heq with
    ⟨middle, hpath, -⟩ | ⟨middle, hpath, -⟩
  · exact Endpoint.eq_of_path_starts ⟨middle, hpath.symm⟩
  · exact (Endpoint.eq_of_path_starts ⟨middle, hpath.symm⟩).symm

/-- What a call can ask for: a search text is not empty and has no colon, and
names of providers have neither colons nor commas. -/
def Query.Proper : Query → Prop
  | .tleSets _ search _ => ∀ words ∈ search, words ≠ [] ∧ colon ∉ words
  | .health sources =>
      ∀ source ∈ sources, source ≠ [] ∧ colon ∉ source ∧ comma ∉ source
  | _ => True

theorem colon_notMem_signed (value : ℤ) : colon ∉ signed value :=
  Limits.colon_not_mem_signed value

theorem comma_notMem_signed (value : ℤ) : comma ∉ signed value :=
  notMem_signed rfl (by decide) value

theorem signed_ne_nil (value : ℤ) : signed value ≠ [] := by
  rw [signed]
  split
  · exact List.cons_ne_nil _ _
  · rcases decimal_cases value.natAbs with heq | ⟨first, rest, heq, -⟩
    · rw [heq]
      exact List.cons_ne_nil _ _
    · rw [heq]
      exact List.cons_ne_nil _ _

theorem fields_free {query : Query} (hproper : query.Proper) :
    Separated.Free colon query.fields := by
  have hcomma : colon ≠ comma := by decide
  refine Separated.Free.append query.endpoint.path_spec.2.2 ?_
  cases query with
  | orbitalLatest noradId | satellite noradId =>
      exact List.forall_mem_singleton.mpr (colon_notMem_signed noradId)
  | tleSets ids search limit =>
      have hids : Separated.Free colon ((inOrder ids).map signed) :=
        List.forall_mem_map.mpr fun id _ => colon_notMem_signed id
      have hsearch : colon ∉ search.getD [] := by
        cases search with
        | none => exact List.not_mem_nil
        | some words => exact (hproper words rfl).2
      simp only [Query.parameters, Separated.Free, List.forall_mem_cons]
      exact ⟨Separated.notMem_intercalate hcomma hids, hsearch,
        colon_notMem_signed limit, List.forall_mem_nil _⟩
  | satellites after limit =>
      simp only [Query.parameters, Separated.Free, List.forall_mem_cons]
      exact ⟨colon_notMem_signed after, colon_notMem_signed limit,
        List.forall_mem_nil _⟩
  | summary | overview => exact List.forall_mem_nil _
  | dimension route limit =>
      exact List.forall_mem_singleton.mpr (colon_notMem_signed limit)
  | decays limit =>
      exact List.forall_mem_singleton.mpr (colon_notMem_signed limit)
  | health sources =>
      have hsources : Separated.Free colon (inOrder sources) := fun source hmem =>
        (hproper source (mem_inOrder.mp hmem)).2.1
      exact List.forall_mem_singleton.mpr
        (Separated.notMem_intercalate hcomma hsources)

theorem ids_eq_of_joined {left right : Finset ℤ}
    (heq : [comma].intercalate ((inOrder left).map signed) =
      [comma].intercalate ((inOrder right).map signed)) : left = right := by
  have hfree : ∀ ids : Finset ℤ,
      Separated.Free comma ((inOrder ids).map signed) := fun ids =>
    List.forall_mem_map.mpr fun id _ => comma_notMem_signed id
  have hwords : ∀ ids : Finset ℤ, ∀ word ∈ (inOrder ids).map signed, word ≠ [] :=
    fun ids => List.forall_mem_map.mpr fun id _ => signed_ne_nil id
  have hsorted := List.map_injective_iff.mpr signed_injective
    (Separated.intercalate_inj_of_nonempty (hfree left) (hfree right)
      (hwords left) (hwords right) heq)
  exact inOrder_injective hsorted

theorem sources_eq_of_joined {left right : Finset Text}
    (hleft : (Query.health left).Proper) (hright : (Query.health right).Proper)
    (heq : [comma].intercalate (inOrder left) =
      [comma].intercalate (inOrder right)) :
    left = right := by
  have hmem : ∀ {sources : Finset Text} {source : Text},
      source ∈ inOrder sources → source ∈ sources :=
    fun hmem => mem_inOrder.mp hmem
  have hsorted := Separated.intercalate_inj_of_nonempty
    (fun source hsource => (hleft source (hmem hsource)).2.2)
    (fun source hsource => (hright source (hmem hsource)).2.2)
    (fun source hsource => (hleft source (hmem hsource)).1)
    (fun source hsource => (hright source (hmem hsource)).1) heq
  exact inOrder_injective hsorted

theorem limit_eq_of_signed {left right : ℕ}
    (heq : signed (left : ℤ) = signed (right : ℤ)) : left = right :=
  Int.ofNat_inj.mp (signed_injective heq)

theorem search_eq_of_getD {left right : Option Text}
    (hleft : ∀ words ∈ left, words ≠ [] ∧ colon ∉ words)
    (hright : ∀ words ∈ right, words ≠ [] ∧ colon ∉ words)
    (heq : left.getD [] = right.getD []) : left = right := by
  cases left with
  | none =>
      cases right with
      | none => rfl
      | some words => exact absurd heq.symm (hright words rfl).1
  | some leftWords =>
      cases right with
      | none => exact absurd heq (hleft leftWords rfl).1
      | some rightWords => exact congrArg some heq

/-- The fields tell the query. -/
theorem fields_inj {left right : Query} (hleft : left.Proper)
    (hright : right.Proper) (heq : left.fields = right.fields) :
    left = right := by
  have hendpoint := endpoint_eq_of_fields heq
  have hparameters : left.parameters = right.parameters := by
    rw [Query.fields, Query.fields, hendpoint] at heq
    exact List.append_cancel_left heq
  cases left <;> cases right <;> try exact Endpoint.noConfusion hendpoint
  case orbitalLatest.orbitalLatest | satellite.satellite =>
    rw [signed_injective (List.cons.inj hparameters).1]
  case tleSets.tleSets =>
    simp only [Query.parameters, List.cons.injEq, and_true] at hparameters
    obtain ⟨hids, hsearch, hlimit⟩ := hparameters
    rw [ids_eq_of_joined hids, search_eq_of_getD hleft hright hsearch,
      limit_eq_of_signed hlimit]
  case satellites.satellites =>
    simp only [Query.parameters, List.cons.injEq, and_true] at hparameters
    rw [signed_injective hparameters.1, limit_eq_of_signed hparameters.2]
  case summary.summary | overview.overview => rfl
  case dimension.dimension =>
    rw [Endpoint.dimension.inj hendpoint,
      limit_eq_of_signed (List.cons.inj hparameters).1]
  case decays.decays =>
    rw [limit_eq_of_signed (List.cons.inj hparameters).1]
  case health.health =>
    rw [sources_eq_of_joined hleft hright (List.cons.inj hparameters).1]

theorem fields_ne_nil (query : Query) : query.fields ≠ [] :=
  List.append_ne_nil_of_left_ne_nil query.endpoint.path_spec.1 _

/-- The key tells the query. -/
theorem key_inj {left right : Query} (hleft : left.Proper)
    (hright : right.Proper) : left.key = right.key ↔ left = right := by
  constructor
  · intro heq
    exact fields_inj hleft hright
      ((Separated.intercalate_inj (fields_free hleft) (fields_free hright)
        (fields_ne_nil left) (fields_ne_nil right)).mp heq)
  · rintro rfl
    rfl

/-- No key goes on like that of a lock. -/
theorem dataKey_ne_lockKey {query : Query} (hproper : query.Proper)
    (other : Text) : dataKey query.key ≠ lockKey other := by
  intro heq
  have hlock : text "cache:v1:lock:" =
      text "cache:v1:" ++ (text "lock" ++ [colon]) := rfl
  rw [dataKey, lockKey, hlock, List.append_assoc, List.append_cancel_left_eq,
    List.append_assoc] at heq
  obtain ⟨hne, hhead, -⟩ := query.endpoint.path_spec
  obtain ⟨first, rest, hpath⟩ := List.exists_cons_of_ne_nil hne
  have hfields : query.fields = first :: (rest ++ query.parameters) := by
    rw [Query.fields, hpath, List.cons_append]
  have hfree := fields_free hproper
  rw [hfields] at hfree
  rw [Query.key, hfields] at heq
  have hfirst := Separated.eq_of_intercalate_cons hfree (by decide) heq
  rw [hpath, hfirst] at hhead
  exact hhead rfl

/-! ## The calls -/

theorem nodup_tagProviders (name : Tag) : (tagProviders name).Nodup := by
  cases name <;> decide

theorem Sources.nodup_names (settings : ProviderSettings) (sources : Sources) :
    (sources.names settings).Nodup := by
  cases sources with
  | tag name => exact nodup_tagProviders name
  | single provider => exact List.nodup_singleton provider
  | admin =>
      rw [Sources.names]
      decide
  | webhooks => exact List.nodup_nil
  | configured =>
      rw [Sources.names, sortedSet_eq, inOrder]
      exact Finset.sort_nodup _ _

/-- What `configured_providers` adds are names without separators. -/
theorem configuredProviders_spec {settings : ProviderSettings}
    {provider : Text} (hmem : provider ∈ configuredProviders settings) :
    provider ≠ [] ∧ colon ∉ provider ∧ comma ∉ provider := by
  have hnames : ∀ provider ∈ [text "space-track", text "celestrak",
      text "nasa-neows", text "jpl-ssd", text "noaa-swpc",
      text "the-space-devs", text "rocketlaunch-live", text "esa"],
      provider ≠ [] ∧ colon ∉ provider ∧ comma ∉ provider := by
    decide
  have hadded : provider ∈ (providerTests settings).map Prod.snd :=
    List.map_subset _ (List.filter_subset_self _) hmem
  exact hnames provider hadded

theorem isWhitespace_of_isAlphanumeric {code : CodePoint}
    (hcode : isAlphanumeric code = true) : isWhitespace code = false := by
  simp only [isAlphanumeric, isDigit, Bool.or_eq_true, Bool.and_eq_true,
    decide_eq_true_eq] at hcode
  simp only [isWhitespace, Bool.or_eq_false_iff, Bool.and_eq_false_iff,
    decide_eq_false_iff_not, beq_eq_false_iff_ne]
  omega

theorem upper_ne_colon {code : CodePoint}
    (hcode : isSearchCharacter code = true) : upper code ≠ colon := by
  have hbound := code.isLt
  have hcolon : colon.val = 0x3A := rfl
  simp only [isSearchCharacter, isAlphanumeric, isDigit, Bool.or_eq_true,
    Bool.and_eq_true, decide_eq_true_eq, beq_iff_eq] at hcode
  intro heq
  have hval := congrArg Fin.val heq
  rw [upper] at hval
  split at hval
  · rw [val_point (by omega)] at hval
    omega
  · omega

theorem mem_of_mem_strip {string : Text} {code : CodePoint}
    (hmem : code ∈ strip string) : code ∈ string :=
  List.dropWhile_subset _ (List.mem_reverse.mp
    (List.dropWhile_subset _ (List.mem_reverse.mp hmem)))

theorem SearchText.normalized_spec (search : SearchText) :
    search.normalized ≠ [] ∧ colon ∉ search.normalized := by
  have hcharacters : ∀ code ∈ search.first :: search.rest,
      isSearchCharacter code = true := by
    refine List.forall_mem_cons.mpr ⟨?_, search.rest_characters⟩
    rw [isSearchCharacter, search.first_alphanumeric, Bool.true_or,
      Bool.true_or]
  have hspace := isWhitespace_of_isAlphanumeric search.first_alphanumeric
  refine ⟨?_, ?_⟩
  · rw [SearchText.normalized, Ne, List.map_eq_nil_iff, strip_eq_nil_iff]
    intro hall
    have hfirst := hall search.first List.mem_cons_self
    rw [hspace] at hfirst
    exact Bool.false_ne_true hfirst
  · intro hmem
    obtain ⟨code, hcode, heq⟩ := List.mem_map.mp hmem
    exact upper_ne_colon (hcharacters code (mem_of_mem_strip hcode)) heq

/-- The catalog numbers that the parameter names. -/
def namedNumbers (decimalValue : CodePoint → Option ℕ) :
    Option IdsText → Set ℤ
  | none => ∅
  | some ids =>
      {number | ∃ part ∈ ids.raw.splitOn comma,
        strip part ≠ [] ∧ intOf decimalValue part = some number}

theorem mem_numbersOf {decimalValue : CodePoint → Option ℕ} {raw : Text}
    {numbers : List ℤ} (hnumbers : numbersOf decimalValue raw = some numbers)
    (number : ℤ) :
    number ∈ numbers ↔ ∃ part ∈ raw.splitOn comma,
      strip part ≠ [] ∧ intOf decimalValue part = some number := by
  constructor
  · intro hmem
    obtain ⟨part, hpart, hvalue⟩ := Loops.mem_of_mapM hnumbers hmem
    obtain ⟨hsplit, hstrip⟩ := List.mem_filter.mp hpart
    exact ⟨part, hsplit, of_decide_eq_true hstrip, hvalue⟩
  · rintro ⟨part, hsplit, hstrip, hvalue⟩
    have hpart : part ∈ (raw.splitOn comma).filter fun part =>
        strip part ≠ [] :=
      List.mem_filter.mpr ⟨hsplit, decide_eq_true hstrip⟩
    exact Loops.mem_results_of_mapM hnumbers hpart hvalue

/-- `_parse_norad_ids` gives the named numbers as `sorted` orders them. -/
theorem parseNoradIds_spec {decimalValue : CodePoint → Option ℕ}
    {ids : Option IdsText} {noradIds : List ℤ}
    (hparse : (parseNoradIds decimalValue ids).toOption = some noradIds) :
    noradIds = inOrder noradIds.toFinset ∧
      ∀ number, number ∈ noradIds ↔ number ∈ namedNumbers decimalValue ids := by
  have hempty : ([] : List ℤ) = inOrder ([] : List ℤ).toFinset := by
    rw [List.toFinset_nil, inOrder, Finset.sort_empty]
  cases ids with
  | none =>
      obtain rfl := Option.some.inj hparse
      exact ⟨hempty, fun number => by simp [namedNumbers]⟩
  | some ids =>
      rw [parseNoradIds] at hparse
      by_cases hnil : ids.raw = []
      · rw [if_pos hnil] at hparse
        obtain rfl := Option.some.inj hparse
        refine ⟨hempty, fun number => ?_⟩
        simp [namedNumbers, hnil, strip, rstrip]
      · rw [if_neg hnil] at hparse
        cases hnumbers : numbersOf decimalValue ids.raw with
        | none =>
            rw [hnumbers] at hparse
            cases hparse
        | some numbers =>
            simp only [hnumbers] at hparse
            split at hparse
            · cases hparse
            · obtain rfl := Option.some.inj hparse
              refine ⟨?_, fun number => ?_⟩
              · rw [sortedSet_eq, toFinset_inOrder]
              · rw [sortedSet_eq, mem_inOrder, List.mem_toFinset]
                exact mem_numbersOf hnumbers number

theorem mem_configuredSources {settings : ProviderSettings} {sources : Sources}
    {provider : Text} (hmem : provider ∈ configuredSources settings sources) :
    provider ∈ configuredProviders settings := by
  simpa using (List.mem_filter.mp hmem).2

theorem proper_query {decimalValue : CodePoint → Option ℕ} {call : CachedCall}
    {query : Query} (hquery : call.query decimalValue = some query) :
    query.Proper := by
  cases call with
  | getLatestTleSets ids search limit =>
      obtain ⟨noradIds, -, rfl⟩ := Option.map_eq_some_iff.mp hquery
      intro words hwords
      obtain ⟨searchText, -, rfl⟩ := Option.map_eq_some_iff.mp hwords
      exact searchText.normalized_spec
  | buildMeta settings sources =>
      obtain rfl := Option.some.inj hquery
      intro source hsource
      exact configuredProviders_spec
        (mem_configuredSources (List.mem_toFinset.mp hsource))
  | _ =>
      obtain rfl := Option.some.inj hquery
      trivial

theorem Query.key_two {query : Query} {first second : Text}
    (hfields : query.fields = [first, second]) :
    query.key = first ++ colon :: second := by
  simp [Query.key, hfields, List.intercalate]

theorem Query.key_three {query : Query} {first second third : Text}
    (hfields : query.fields = [first, second, third]) :
    query.key = first ++ colon :: (second ++ colon :: third) := by
  simp [Query.key, hfields, List.intercalate]

theorem tleKey_eq {noradIds : List ℤ} {ids : Finset ℤ}
    (hids : noradIds = inOrder ids) (search : Option Text) (limit : ℕ) :
    tleKey noradIds search limit = (Query.tleSets ids search limit).key := by
  simp only [Query.key, Query.fields, Query.endpoint, Endpoint.path,
    Query.parameters, List.cons_append, List.nil_append,
    List.intercalate_cons_cons, List.intercalate_singleton, tleKey, hids,
    List.append_assoc]
  rfl

theorem healthKey_eq {settings : ProviderSettings} {sources : Sources} :
    healthKey (configuredSources settings sources) =
      (Query.health (configuredSources settings sources).toFinset).key := by
  have hnodup : (configuredSources settings sources).Nodup :=
    (sources.nodup_names settings).filter _
  have hname : text "provider-health:" = text "provider-health" ++ [colon] :=
    rfl
  rw [Query.key_two rfl, healthKey, sorted_eq hnodup, hname,
    List.append_assoc, List.singleton_append]

/-- The key of a call is that of its query. -/
theorem CachedCall.key_eq (decimalValue : CodePoint → Option ℕ)
    (call : CachedCall) :
    call.key decimalValue = (call.query decimalValue).map Query.key := by
  cases call with
  | getLatestTleSets ids search limit =>
      rw [CachedCall.key, CachedCall.query, Option.map_map]
      apply Option.map_congr
      intro noradIds hparse
      exact tleKey_eq (parseNoradIds_spec hparse).1 _ limit
  | buildMeta settings sources => exact congrArg some healthKey_eq
  | getOrbitalLatest noradId =>
      rw [CachedCall.query, Option.map_some, Query.key_three rfl]
      rfl
  | getSatellite noradId =>
      rw [CachedCall.query, Option.map_some, Query.key_two rfl]
      rfl
  | getSatellites limit cursor =>
      rw [CachedCall.key, CachedCall.query, Option.map_some,
        Query.key_three rfl, satellitesKey, List.append_assoc]
      rfl
  | catalogSummary =>
      rw [CachedCall.query, Option.map_some, Query.key_two rfl]
      rfl
  | dimension route limit =>
      rw [CachedCall.key, CachedCall.query, Option.map_some,
        Query.key_three rfl]
      simp only [List.append_assoc]
      rfl
  | catalogDecays limit =>
      rw [CachedCall.query, Option.map_some, Query.key_three rfl]
      rfl
  | getOverview =>
      rw [CachedCall.query, Option.map_some, Query.key_two rfl]
      rfl

/-! ## How the ids may be written -/

/-- Numbers between commas, however each is written. -/
def spell (numbers : List Written) : Text :=
  [comma].intercalate (numbers.map Written.text)

theorem comma_notMem_text (written : Written) : comma ∉ written.text := by
  have hspace : isIntSpace comma = false := by decide
  have hdigit : isDigit comma = false := by decide
  simp only [Written.text, List.mem_append, not_or]
  refine ⟨⟨fun hmem => ?_, fun hmem => ?_⟩, fun hmem => ?_⟩
  · rw [written.before_space comma hmem] at hspace
    exact Bool.noConfusion hspace
  · rw [isDigit_of_mem_digits hmem] at hdigit
    exact Bool.noConfusion hdigit
  · rw [written.after_space comma hmem] at hspace
    exact Bool.noConfusion hspace

theorem strip_text_ne_nil (written : Written) : strip written.text ≠ [] := by
  rw [Ne, strip_eq_nil_iff]
  intro hall
  obtain ⟨first, rest, hdigits⟩ :=
    List.exists_cons_of_ne_nil (digits_ne_nil written)
  have hfirst : first ∈ written.digits := by
    rw [hdigits]
    exact List.mem_cons_self
  have halphanumeric : isAlphanumeric first = true := by
    rw [isAlphanumeric, isDigit_of_mem_digits hfirst]
    rfl
  have htext : first ∈ written.text := by
    rw [Written.text]
    exact List.mem_append_left _ (List.mem_append_right _ hfirst)
  have hspace := hall first htext
  rw [isWhitespace_of_isAlphanumeric halphanumeric] at hspace
  exact Bool.noConfusion hspace

/-- The parameter names the written numbers. -/
theorem namedNumbers_spell {decimalValue : CodePoint → Option ℕ}
    (hdecimal : ReadsDecimal decimalValue) {ids : IdsText}
    {numbers : List Written} (hraw : ids.raw = spell numbers) :
    namedNumbers decimalValue (some ids) =
      {number | ∃ written ∈ numbers, number = (written.number : ℤ)} := by
  ext number
  simp only [namedNumbers, Set.mem_ofPred_eq, hraw, spell]
  by_cases hnil : numbers = []
  · simp [hnil, strip, rstrip]
  · have hfree : Separated.Free comma (numbers.map Written.text) :=
      List.forall_mem_map.mpr fun written _ => comma_notMem_text written
    have hparts : numbers.map Written.text ≠ [] := by
      rwa [Ne, List.map_eq_nil_iff]
    rw [List.splitOn_intercalate comma hfree hparts]
    simp only [List.mem_map, exists_exists_and_eq_and]
    constructor
    · rintro ⟨written, hmem, -, hvalue⟩
      rw [intOf_text hdecimal] at hvalue
      exact ⟨written, hmem, (Option.some.inj hvalue).symm⟩
    · rintro ⟨written, hmem, rfl⟩
      exact ⟨written, hmem, strip_text_ne_nil written,
        intOf_text hdecimal written⟩

/-- Parsed lists have the same members exactly when the same numbers were
named. -/
theorem toFinset_eq_iff {decimalValue : CodePoint → Option ℕ}
    {leftIds rightIds : Option IdsText} {left right : List ℤ}
    (hleft : (parseNoradIds decimalValue leftIds).toOption = some left)
    (hright : (parseNoradIds decimalValue rightIds).toOption = some right) :
    left.toFinset = right.toFinset ↔
      namedNumbers decimalValue leftIds =
        namedNumbers decimalValue rightIds := by
  have hleftMem := (parseNoradIds_spec hleft).2
  have hrightMem := (parseNoradIds_spec hright).2
  rw [Finset.ext_iff, Set.ext_iff]
  apply forall_congr'
  intro number
  rw [List.mem_toFinset, List.mem_toFinset, hleftMem number,
    hrightMem number]

/-! ## Keys and queries -/

/-- The keys of calls tell what the calls ask for. -/
structure KeysExact (decimalValue : CodePoint → Option ℕ) : Prop where
  /-- Two calls have one key exactly when they ask for one query. -/
  key_eq_iff : ∀ {left right : CachedCall} {leftKey rightKey : Text},
    left.key decimalValue = some leftKey →
    right.key decimalValue = some rightKey →
    (leftKey = rightKey ↔
      left.query decimalValue = right.query decimalValue)
  /-- The data of a call is under no key that locks another. -/
  data_ne_lock : ∀ {left right : CachedCall} {leftKey rightKey : Text},
    left.key decimalValue = some leftKey →
    right.key decimalValue = some rightKey →
    dataKey leftKey ≠ lockKey rightKey
  /-- Element sets are asked for by numbers, search text and limit. -/
  tleSets_iff : ∀ {leftIds rightIds : Option IdsText}
    {leftSearch rightSearch : Option SearchText} {leftLimit rightLimit : ℕ}
    {leftKey rightKey : Text},
    (CachedCall.getLatestTleSets leftIds leftSearch leftLimit).key
      decimalValue = some leftKey →
    (CachedCall.getLatestTleSets rightIds rightSearch rightLimit).key
      decimalValue = some rightKey →
    (leftKey = rightKey ↔
      namedNumbers decimalValue leftIds = namedNumbers decimalValue rightIds ∧
        leftSearch.map SearchText.normalized =
          rightSearch.map SearchText.normalized ∧
        leftLimit = rightLimit)
  /-- Order, repetition, white space and zeros before the ids are nothing to
  the numbers named. -/
  spelling : ∀ {ids : IdsText} {numbers : List Written},
    ids.raw = spell numbers →
    namedNumbers decimalValue (some ids) =
      {number | ∃ written ∈ numbers, number = (written.number : ℤ)}

theorem key_eq_iff_query {decimalValue : CodePoint → Option ℕ}
    {left right : CachedCall} {leftKey rightKey : Text}
    (hleft : left.key decimalValue = some leftKey)
    (hright : right.key decimalValue = some rightKey) :
    leftKey = rightKey ↔
      left.query decimalValue = right.query decimalValue := by
  rw [CachedCall.key_eq] at hleft hright
  obtain ⟨leftQuery, hleftQuery, rfl⟩ := Option.map_eq_some_iff.mp hleft
  obtain ⟨rightQuery, hrightQuery, rfl⟩ := Option.map_eq_some_iff.mp hright
  rw [hleftQuery, hrightQuery, Option.some.injEq]
  exact key_inj (proper_query hleftQuery) (proper_query hrightQuery)

/-- A key of the cache tells its query, and no key is the lock of another. -/
theorem keys_exact {decimalValue : CodePoint → Option ℕ}
    (hdecimal : ReadsDecimal decimalValue) : KeysExact decimalValue where
  key_eq_iff hleft hright := key_eq_iff_query hleft hright
  data_ne_lock {left right leftKey rightKey} hleft _ := by
    rw [CachedCall.key_eq] at hleft
    obtain ⟨query, hquery, rfl⟩ := Option.map_eq_some_iff.mp hleft
    exact dataKey_ne_lockKey (proper_query hquery) rightKey
  tleSets_iff hleft hright := by
    rw [key_eq_iff_query hleft hright]
    obtain ⟨left, hleftParse, -⟩ := Option.map_eq_some_iff.mp hleft
    obtain ⟨right, hrightParse, -⟩ := Option.map_eq_some_iff.mp hright
    rw [CachedCall.query, CachedCall.query, hleftParse, hrightParse,
      Option.map_some, Option.map_some, Option.some.injEq,
      Query.tleSets.injEq, toFinset_eq_iff hleftParse hrightParse]
  spelling hraw := namedNumbers_spell hdecimal hraw

/-- The search text of a literal. -/
def searchOf (first : Char) (rest : String)
    (hfirst : isAlphanumeric (point first.toNat) = true)
    (hrest : (text rest).all isSearchCharacter = true)
    (hlength : 1 ≤ (text rest).length ∧ (text rest).length ≤ 31) :
    SearchText :=
  ⟨point first.toNat, text rest, hfirst, List.all_eq_true.mp hrest, hlength⟩

/-- Two spellings of one query have one key. -/
theorem respelled_calls_share_key :
    let spaced : CachedCall := .getLatestTleSets
      (some ⟨text " 0025544,2", by decide⟩)
      (some (searchOf 'i' "ss " (by decide) (by decide) (by decide))) 500
    let repeated : CachedCall := .getLatestTleSets
      (some ⟨text "2, 25544,25544", by decide⟩)
      (some (searchOf 'I' "SS" (by decide) (by decide) (by decide))) 500
    spaced.key asciiDecimal = some (text "tle:2,25544:ISS:500") ∧
      spaced.query asciiDecimal = repeated.query asciiDecimal := by
  intro spaced repeated
  have hspaced : spaced.key asciiDecimal =
      some (text "tle:2,25544:ISS:500") := by
    decide +kernel
  have hrepeated : repeated.key asciiDecimal =
      some (text "tle:2,25544:ISS:500") := by
    decide +kernel
  exact ⟨hspaced, ((keys_exact readsDecimal_ascii).key_eq_iff hspaced hrepeated).mp rfl⟩

end UTTG.Api
