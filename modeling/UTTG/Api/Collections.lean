import UTTG.Core.Pagination
import UTTG.Ingestion.Catalog
import UTTG.Limits.RateLimiter

/-!
# The satellite and NEO collections

`get_satellites` and `get_neos` page through a table by the id of the last row.
Both test the cursor for its truth value, so the id `0` and the empty id start
the walk again, and `get_neos` refuses cursors of more than 128 characters.
Pages of satellites come from a cache, under a key that has the cursor and the
limit.
-/

namespace UTTG.Api

open Python Ingestion Pagination UTTG.Transition

/-! ## The endpoints -/

/-- `if cursor` on an integer. -/
def satelliteReading : Reading ℤ where
  absent cursor := cursor = 0
  refused _ := false

/-- `load_satellites`; `Query` bounds the limit to 1 to 1000, and the statement
runs for any. -/
def loadSatellites (limit : ℕ) (cursor : Option ℤ) (catalog : Catalog) :
    List CatalogEntry :=
  page satelliteReading CatalogEntry.noradId limit cursor catalog.rows

/-- `f"satellites:{cursor or 0}:{limit}"`. -/
def satellitesKey (cursor : Option ℤ) (limit : ℕ) : Text :=
  text "satellites:" ++ signed (cursor.getD 0) ++ text ":" ++ signed limit

/-- The request that loaded a page, and the table at that time. -/
structure Loaded where
  cursor : Option ℤ
  limit : ℕ
  catalog : Catalog

/-- The key under which the page is kept. -/
def Loaded.key (loaded : Loaded) : Text :=
  satellitesKey loaded.cursor loaded.limit

def Loaded.data (loaded : Loaded) : List CatalogEntry :=
  loadSatellites loaded.limit loaded.cursor loaded.catalog

/-- A walk with `get_satellites`: each page was loaded at any time for a request
with the same key, be it the walk's own. -/
def satelliteWalks (limit : ℕ) :
    System (Walk CatalogEntry.noradId) Loaded where
  Init walk := walk = ⟨none, [], [], .walking⟩
  step walk loaded :=
    match walk.progress with
    | .walking =>
        if loaded.key = satellitesKey walk.cursor limit then
          some (walk.receive loaded.catalog loaded.data)
        else none
    | _ => none

/-- `if cursor` on a string, which `Query` bounds to 128 characters. -/
def neoReading : Reading Text where
  absent cursor := cursor.isEmpty
  refused cursor := 128 < cursor.length

section Neos

variable {F : Type} (collation : LinearOrder Text)

/-- `get_neos`, unless the request is refused; `Query` bounds the limit to 1 to
200, and the statement runs for any.  The database compares strings by its
collation. -/
def getNeos (limit : ℕ) (cursor : Option Text)
    (table : Table (NearEarthObject.id (F := F))) :
    List (NearEarthObject F) :=
  @page _ _ collation neoReading NearEarthObject.id limit cursor table.rows

/-- A walk with `get_neos`, as `step_neoWalks` has it. -/
def neoWalks (limit : ℕ) :
    System (Walk (NearEarthObject.id (F := F)))
      (Table (NearEarthObject.id (F := F))) :=
  @walks _ _ collation neoReading NearEarthObject.id limit

/-- A request of the walk that is not refused gets a page of `get_neos`. -/
theorem step_neoWalks {limit : ℕ} {walk : Walk (NearEarthObject.id (F := F))}
    (hwalking : walk.progress = .walking)
    (haccepted : walk.cursor.any neoReading.refused = false)
    (table : Table (NearEarthObject.id (F := F))) :
    (neoWalks collation limit).step walk table =
      some (walk.receive table (getNeos collation limit walk.cursor table)) := by
  change @request _ _ collation neoReading NearEarthObject.id limit walk table
    = _
  rw [request, hwalking, haccepted]
  rfl

end Neos

/-! ## What is asked of a walk -/

/-- A walk over the table ends after some requests, and the rows listed are
those of the table in ascending order. -/
def SatellitesComplete (limit : ℕ) (catalog : Catalog) : Prop :=
  ∃ loads final, (∀ loaded ∈ loads, loaded.catalog = catalog) ∧
    (satelliteWalks limit).run ⟨none, [], [], .walking⟩ loads = some final ∧
      final.progress = .ended ∧
        final.listed = ordered CatalogEntry.noradId catalog.rows

def NeosComplete {F : Type} (collation : LinearOrder Text) (limit : ℕ)
    (table : Table (NearEarthObject.id (F := F))) : Prop :=
  @Completes _ _ collation neoReading NearEarthObject.id limit table

/-- The ids listed are strictly ascending, no request was refused, and at its
end the walk has listed every id that was in each of the tables. -/
structure Listed {Row Id : Type} {key : Row → Id} (order : LinearOrder Id)
    (walk : Walk key) : Prop where
  accepted : walk.progress ≠ .refused
  ascending : (walk.listed.map key).Pairwise order.lt
  complete : walk.progress = .ended →
    ∀ id, (∀ table ∈ walk.loaded, id ∈ table.rows.map key) →
      id ∈ walk.listed.map key

/-! ## Pages from the cache -/

/-- The key tells the limit and what the statement makes of the cursor. -/
theorem satellitesKey_injective {left right : Option ℤ}
    {leftLimit rightLimit : ℕ}
    (heq : satellitesKey left leftLimit = satellitesKey right rightLimit) :
    left.getD 0 = right.getD 0 ∧ leftLimit = rightLimit := by
  have hcolon : text ":" = [point 0x3A] := rfl
  simp only [satellitesKey, hcolon, List.append_assoc, List.cons_append,
    List.nil_append, List.append_cancel_left_eq] at heq
  obtain ⟨hcursor, hlimit⟩ := Separated.append_cons_inj
    (Limits.colon_not_mem_signed _) (Limits.colon_not_mem_signed _) heq
  exact ⟨signed_injective hcursor,
    Int.ofNat_inj.mp (signed_injective hlimit)⟩

/-- Cursors that give the same key select the same rows. -/
theorem loadSatellites_congr {left right : Option ℤ}
    (heq : left.getD 0 = right.getD 0) (limit : ℕ) (catalog : Catalog) :
    loadSatellites limit left catalog = loadSatellites limit right catalog := by
  have hzero : ∀ cursor : Option ℤ, cursor.getD 0 = 0 →
      loadSatellites limit cursor catalog =
        (ordered CatalogEntry.noradId catalog.rows).take limit := by
    intro cursor hcursor
    cases cursor with
    | none => exact page_none catalog.rows
    | some id => exact page_absent (decide_eq_true hcursor) catalog.rows
  cases left with
  | none => rw [hzero none rfl, hzero right heq.symm]
  | some leftId =>
      cases right with
      | none => rw [hzero none rfl, hzero (some leftId) heq]
      | some rightId =>
          obtain rfl : leftId = rightId := heq
          rfl

/-- A page from the cache is the page of some table for the cursor. -/
theorem step_of_satelliteStep {limit : ℕ}
    {walk next : Walk CatalogEntry.noradId} {loaded : Loaded}
    (hstep : (satelliteWalks limit).step walk loaded = some next) :
    (walks satelliteReading CatalogEntry.noradId limit).step walk
      loaded.catalog = some next := by
  change request satelliteReading CatalogEntry.noradId limit walk
    loaded.catalog = some next
  simp only [satelliteWalks] at hstep
  split at hstep
  case h_2 => simp at hstep
  case h_1 hwalking =>
    split at hstep
    case isFalse => simp at hstep
    case isTrue hkey =>
      obtain ⟨hcursor, hlimit⟩ := satellitesKey_injective hkey
      have hdata : loaded.data =
          loadSatellites limit walk.cursor loaded.catalog := by
        rw [Loaded.data, hlimit]
        exact loadSatellites_congr hcursor limit loaded.catalog
      have hrefused : walk.cursor.any satelliteReading.refused = false := by
        cases walk.cursor <;> rfl
      rw [request, hwalking, hrefused]
      rw [hdata] at hstep
      exact hstep

theorem run_of_satelliteRun {limit : ℕ} {walk final : Walk CatalogEntry.noradId}
    {loads : List Loaded}
    (hrun : (satelliteWalks limit).run walk loads = some final) :
    (walks satelliteReading CatalogEntry.noradId limit).run walk
      (loads.map Loaded.catalog) = some final := by
  induction loads generalizing walk with
  | nil => exact hrun
  | cons loaded rest ih =>
      obtain ⟨next, hstep, hrest⟩ := Option.bind_eq_some_iff.mp hrun
      rw [List.map_cons, System.run, step_of_satelliteStep hstep]
      exact ih hrest

/-- Every walk over tables is one whose pages are all loaded for it. -/
theorem exists_satelliteRun {limit : ℕ} {walk final : Walk CatalogEntry.noradId}
    {catalogs : List Catalog}
    (hrun : (walks satelliteReading CatalogEntry.noradId limit).run walk
      catalogs = some final) :
    ∃ loads, loads.map Loaded.catalog = catalogs ∧
      (satelliteWalks limit).run walk loads = some final := by
  induction catalogs generalizing walk with
  | nil => exact ⟨[], rfl, hrun⟩
  | cons catalog rest ih =>
      obtain ⟨next, hstep, hrest⟩ := Option.bind_eq_some_iff.mp hrun
      obtain ⟨loads, hcatalogs, hloads⟩ := ih hrest
      refine ⟨⟨walk.cursor, limit, catalog⟩ :: loads, ?_, ?_⟩
      · rw [List.map_cons, hcatalogs]
      · have hsame : (satelliteWalks limit).step walk
            ⟨walk.cursor, limit, catalog⟩ = some next := by
          change request satelliteReading CatalogEntry.noradId limit walk
            catalog = some next at hstep
          have hrefused : walk.cursor.any satelliteReading.refused = false := by
            cases walk.cursor <;> rfl
          simp only [request, hrefused] at hstep
          simp only [satelliteWalks, Loaded.key]
          exact hstep
        rw [System.run, hsame]
        exact hloads

theorem satellitesComplete_iff (limit : ℕ) (catalog : Catalog) :
    SatellitesComplete limit catalog ↔
      Completes satelliteReading CatalogEntry.noradId limit catalog := by
  constructor
  · rintro ⟨loads, final, hcatalog, hrun, hfinal⟩
    refine ⟨loads.length, final, ?_, hfinal⟩
    have hall : loads.map Loaded.catalog =
        List.replicate loads.length catalog := by
      refine List.eq_replicate_iff.mpr ⟨List.length_map _, fun other hother => ?_⟩
      obtain ⟨loaded, hloaded, rfl⟩ := List.mem_map.mp hother
      exact hcatalog loaded hloaded
    rw [← hall]
    exact run_of_satelliteRun hrun
  · rintro ⟨count, final, hrun, hfinal⟩
    obtain ⟨loads, hcatalogs, hloads⟩ := exists_satelliteRun hrun
    refine ⟨loads, final, fun loaded hloaded => ?_, hloads, hfinal⟩
    have hmem := List.mem_map_of_mem (f := Loaded.catalog) hloaded
    rw [hcatalogs] at hmem
    exact List.eq_of_mem_replicate hmem

/-! ## Walks of a collection -/

theorem satelliteReading_usable_iff (id : ℤ) :
    satelliteReading.Usable id ↔ id ≠ 0 := by
  simp [Reading.Usable, satelliteReading]

theorem neoReading_usable_iff (id : Text) :
    neoReading.Usable id ↔ id ≠ [] ∧ id.length ≤ 128 := by
  simp [Reading.Usable, neoReading]

theorem listed_of_sound {Row Id : Type} {key : Row → Id}
    (order : LinearOrder Id) {reading : Reading Id} {walk : Walk key}
    (hsound : @Sound _ _ order key reading walk) : Listed order walk := by
  refine ⟨hsound.accepted, List.pairwise_map.mpr hsound.ascending,
    fun hended id hid => ?_⟩
  rcases hsound.complete id hid with hlisted | ⟨hwalking, -⟩
  · exact hlisted
  · rw [hended] at hwalking
    cases hwalking

/-- The next page of satellites would not end with the number 0. -/
def SatelliteEnds (limit : ℕ) (walk : Walk CatalogEntry.noradId)
    (loaded : Loaded) (_ : Walk CatalogEntry.noradId) : Prop :=
  ∀ entry, IsNextEnd satelliteReading CatalogEntry.noradId limit walk.cursor
    loaded.catalog.rows entry → entry.noradId ≠ 0

/-- The next page of NEOs would not end with an id that is empty or too long
for a cursor. -/
def NeoEnds {F : Type} (collation : LinearOrder Text) (limit : ℕ)
    (walk : Walk (NearEarthObject.id (F := F)))
    (table : Table (NearEarthObject.id (F := F)))
    (_ : Walk (NearEarthObject.id (F := F))) : Prop :=
  ∀ neo, @IsNextEnd _ _ collation neoReading NearEarthObject.id limit
    walk.cursor table.rows neo → neo.id ≠ [] ∧ neo.id.length ≤ 128

theorem walks_of_satelliteWalks {limit : ℕ} {walk : Walk CatalogEntry.noradId}
    (hreach : (satelliteWalks limit).ReachableVia (SatelliteEnds limit) walk) :
    (walks satelliteReading CatalogEntry.noradId limit).ReachableVia
      (EndsUsable satelliteReading CatalogEntry.noradId limit) walk := by
  induction hreach with
  | init hinit => exact .init hinit
  | step _ hstep hends ih =>
      refine .step ih (step_of_satelliteStep hstep) fun entry hentry => ?_
      exact (satelliteReading_usable_iff _).mpr (hends entry hentry)

theorem walks_of_neoWalks {F : Type} {collation : LinearOrder Text} {limit : ℕ}
    {walk : Walk (NearEarthObject.id (F := F))}
    (hreach : (neoWalks collation limit).ReachableVia
      (NeoEnds collation limit) walk) :
    (neoWalks collation limit).ReachableVia
      (@EndsUsable _ _ collation neoReading NearEarthObject.id limit) walk := by
  induction hreach with
  | init hinit => exact .init hinit
  | step _ hstep hends ih =>
      refine .step ih hstep fun neo hneo => ?_
      exact (neoReading_usable_iff _).mpr (hends neo hneo)

/-- A walk over a collection that does not change is complete exactly when no
page of the collection ends with the number 0, or with an id that is empty or
too long.  Over one that changes, the ids are in order and none is skipped as
long as no page ends so.  This holds at every limit, those that `Query` lets
through among them. -/
theorem collections_paginate_iff (F : Type) (collation : LinearOrder Text)
    (limit : ℕ) (hlimit : 0 < limit) :
    (∀ catalog, SatellitesComplete limit catalog ↔
      ∀ entry, IsPageEnd limit
          (ordered CatalogEntry.noradId catalog.rows) entry →
        entry.noradId ≠ 0) ∧
    (∀ walk, (satelliteWalks limit).ReachableVia (SatelliteEnds limit) walk →
      Listed inferInstance walk) ∧
    (∀ table : Table (NearEarthObject.id (F := F)),
      NeosComplete collation limit table ↔
        ∀ neo, IsPageEnd limit
            (@ordered _ _ collation NearEarthObject.id table.rows) neo →
          neo.id ≠ [] ∧ neo.id.length ≤ 128) ∧
    ∀ walk : Walk (NearEarthObject.id (F := F)),
      (neoWalks collation limit).ReachableVia (NeoEnds collation limit) walk →
        Listed collation walk := by
  refine ⟨fun catalog => ?_, fun walk hreach => ?_, fun table => ?_,
    fun walk hreach => ?_⟩
  · rw [satellitesComplete_iff, completes_iff hlimit]
    simp only [satelliteReading_usable_iff]
  · exact listed_of_sound _
      (sound_of_reachable hlimit (walks_of_satelliteWalks hreach))
  · rw [NeosComplete, @completes_iff _ _ collation _ _ _ hlimit]
    simp only [neoReading_usable_iff]
  · exact listed_of_sound collation
      (@sound_of_reachable _ _ collation _ _ _ hlimit _
        (walks_of_neoWalks hreach))

/-! ## Ids at the boundary -/

/-- Without negative numbers, only a satellite 0 that is alone on its page keeps
a walk from ending. -/
theorem satellitesComplete_iff_of_nonnegative {limit : ℕ} (hlimit : 0 < limit)
    {catalog : Catalog} (hnumbers : ∀ entry ∈ catalog.rows, 0 ≤ entry.noradId) :
    SatellitesComplete limit catalog ↔
      (0 ∈ catalog.rows.map CatalogEntry.noradId →
        1 < limit ∧ 1 < catalog.rows.length) := by
  rw [satellitesComplete_iff, completes_iff hlimit,
    ← least_not_page_end_iff hlimit catalog hnumbers]
  simp only [satelliteReading_usable_iff]

/-- A catalog of one satellite. -/
def oneSatellite : Catalog :=
  ⟨[⟨5, none, text "VANGUARD 1", none, none, none, none, none⟩],
    List.nodup_singleton _⟩

theorem one_satellite_listed : SatellitesComplete 1 oneSatellite := by
  refine ((collections_paginate_iff Unit inferInstance 1 Nat.one_pos).1
    oneSatellite).mpr ?_
  rintro entry ⟨index, hentry, -⟩
  have hmem := mem_ordered.mp (List.mem_of_getElem? hentry)
  rw [List.mem_singleton.mp hmem]
  decide

/-- A SATCAT reply with an object 0. -/
def zeroPayload : Json Unit :=
  .list [.dict [(text "NORAD_CAT_ID", .str (text "0")),
    (text "SATNAME", .str (text "TBA"))], fifthRecord .null]

/-- An object of the feed with an empty id, as it is stored. -/
def namelessNeo : NearEarthObject Unit where
  id := []
  name := .str (text "unnamed")
  absoluteMagnitudeH := none
  estimatedDiameterMinKm := none
  estimatedDiameterMaxKm := none
  isPotentiallyHazardous := false
  isSentryObject := false

/-- The feed of that object. -/
def namelessFeed : Json Unit :=
  .dict [(text "near_earth_objects", .dict [(text "2026-01-01",
    .list [.dict [(text "id", .str []),
      (text "name", .str (text "unnamed"))]])])]

/-- The ids that the statements of a feed write. -/
def neoIds : List (Statement Unit) → List Text
  | [] => []
  | .nearEarthObjects rows :: rest => rows.map NearEarthObject.id ++ neoIds rest
  | _ :: rest => neoIds rest

/-- The collation that compares code points. -/
abbrev byCodePoint : LinearOrder Text := inferInstance

/-- The jobs write a satellite 0 and a NEO with an empty id, and neither
collection is then listed by a walk: the satellites one by one, and the NEO when
it is alone; nor is one with an id of 129 characters. -/
theorem boundary_ids_stop_walks :
    (∃ catalog ∈ (catalogSystem unitRuntime).run Table.empty
        [.satcat zeroPayload false],
      catalog.rows.length = 2 ∧ ¬SatellitesComplete 1 catalog) ∧
    (ingestNasaNeos unitRuntime (fun _ _ => none) (fun _ => none)
        namelessFeed).map neoIds = some [[]] ∧
    ¬NeosComplete byCodePoint 50 ⟨[namelessNeo], List.nodup_singleton _⟩ ∧
    ¬NeosComplete byCodePoint 50
      ⟨[{ namelessNeo with id := List.replicate 129 (point 0x41) }],
        List.nodup_singleton _⟩ := by
  have hsingle : ∀ neo : NearEarthObject Unit,
      NeosComplete byCodePoint 50 ⟨[neo], List.nodup_singleton _⟩ →
        neo.id ≠ [] ∧ neo.id.length ≤ 128 := by
    intro neo hcomplete
    refine (neoReading_usable_iff _).mp
      ((completes_iff (by norm_num) _).mp hcomplete neo ?_)
    exact ⟨0, rfl, .inr rfl⟩
  refine ⟨?_, by decide +kernel, fun hcomplete => ?_, fun hcomplete => ?_⟩
  · obtain ⟨catalog, hcatalog⟩ := Option.isSome_iff_exists.mp
      (show ((catalogSystem unitRuntime).run Table.empty
        [.satcat zeroPayload false]).isSome = true by decide +kernel)
    have hnumbers : ((catalogSystem unitRuntime).run Table.empty
        [.satcat zeroPayload false]).map
          (fun catalog => catalog.rows.map CatalogEntry.noradId) =
        some [0, 5] := by
      decide +kernel
    rw [hcatalog, Option.map_some, Option.some.injEq] at hnumbers
    refine ⟨catalog, hcatalog, ?_, fun hcomplete => ?_⟩
    · rw [← List.length_map (f := CatalogEntry.noradId), hnumbers]
      rfl
    · have hall := (satellitesComplete_iff_of_nonnegative Nat.one_pos
        (fun entry hentry => ?_)).mp hcomplete
      · exact absurd (hall (by rw [hnumbers]; decide)).1 (lt_irrefl 1)
      · have hmem := List.mem_map_of_mem (f := CatalogEntry.noradId) hentry
        rw [hnumbers] at hmem
        rcases List.mem_cons.mp hmem with hzero | hfive
        · exact le_of_eq hzero.symm
        · rw [List.mem_singleton.mp hfive]
          decide
  · exact (hsingle namelessNeo hcomplete).1 rfl
  · have hlength := (hsingle _ hcomplete).2
    rw [List.length_replicate] at hlength
    omega

end UTTG.Api
