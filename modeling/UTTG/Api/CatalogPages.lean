import UTTG.Api.Collections
import UTTG.Cache.Body
import UTTG.Cache.Entries

/-!
# Paging through a catalogue that changes

A client pages through `/satellites`.  Every page comes from the cache under the
key of its cursor and limit, so it may show an older catalogue than the page
before.  Satellites never leave the catalogue, and a page is never older than its
entry and the lock of its writer may be.  So every satellite that was known that
long before is listed once.
-/

namespace UTTG.Api

open Python Ingestion Pagination Cache UTTG.Transition

/-! ## A page in the cache -/

section Codec

variable {F : Type}

/-- A nullable column of an item. -/
def nullableJson : Option Text → Json F
  | none => .null
  | some value => .str value

/-- The names of the columns of an item. -/
def satelliteColumns : List Text :=
  [text "norad_id", text "cospar_id", text "name", text "operator",
    text "country", text "object_type", text "orbit_class", text "status"]

/-- An item of `load_satellites`. -/
def satelliteItem (entry : CatalogEntry) : Json F :=
  .dict [(text "norad_id", .int entry.noradId),
    (text "cospar_id", nullableJson entry.cosparId),
    (text "name", .str entry.name),
    (text "operator", nullableJson entry.operator),
    (text "country", nullableJson entry.country),
    (text "object_type", nullableJson entry.objectType),
    (text "orbit_class", nullableJson entry.orbitClass),
    (text "status", nullableJson entry.status)]

def integerOf : Json F → Option ℤ
  | .int value => some value
  | _ => none

def stringOf : Json F → Option Text
  | .str value => some value
  | _ => none

/-- The columns that an item shows. -/
def entryOf : Json F → Option CatalogEntry
  | .dict members => do
      let noradId ← (Dict.get members (text "norad_id")).bind integerOf
      let cosparId ← (Dict.get members (text "cospar_id")).bind nullableText
      let name ← (Dict.get members (text "name")).bind stringOf
      let operator ← (Dict.get members (text "operator")).bind nullableText
      let country ← (Dict.get members (text "country")).bind nullableText
      let objectType ←
        (Dict.get members (text "object_type")).bind nullableText
      let orbitClass ←
        (Dict.get members (text "orbit_class")).bind nullableText
      let status ← (Dict.get members (text "status")).bind nullableText
      return ⟨noradId, cosparId, name, operator, country, objectType,
        orbitClass, status⟩
  | _ => none

def pageOf : Json F → Option (List CatalogEntry)
  | .list items => items.mapM entryOf
  | _ => none

/-- `json.dumps` and `json.loads` on the pages of `load_satellites`. -/
def pageCodec (format : FloatFormat F) : Codec (List CatalogEntry) Text where
  dumps page :=
    dumps format Empty.elim (.list (page.map satelliteItem) : Json F)
  size raw := ((encode raw).map List.length).getD 0
  loads raw := (loads format raw : Option (Json F)).bind pageOf

/-- The row as it is read back from a text, with split surrogate pairs
joined. -/
def joinedEntry (entry : CatalogEntry) : CatalogEntry where
  noradId := entry.noradId
  cosparId := entry.cosparId.map joinPairs
  name := joinPairs entry.name
  operator := entry.operator.map joinPairs
  country := entry.country.map joinPairs
  objectType := entry.objectType.map joinPairs
  orbitClass := entry.orbitClass.map joinPairs
  status := entry.status.map joinPairs

theorem readBack_nullableJson (value : Option Text) :
    readBack Empty.elim (nullableJson value : Json F) =
      nullableJson (value.map joinPairs) := by
  cases value with
  | none => rfl
  | some value => rfl

theorem readBack_satelliteItem (entry : CatalogEntry) :
    readBack Empty.elim (satelliteItem entry : Json F) =
      satelliteItem (joinedEntry entry) := by
  simp only [satelliteItem, readBack, readBackMembers, readBack_nullableJson]
  rw [Dict.ofPairs_of_nodup]
  · rfl
  · change (satelliteColumns.map joinPairs).Nodup
    decide

theorem nullableText_nullableJson (value : Option Text) :
    nullableText (nullableJson value : Json F) = some value := by
  cases value with
  | none => rfl
  | some value => rfl

theorem entryOf_satelliteItem (entry : CatalogEntry) :
    entryOf (satelliteItem entry : Json F) = some entry := by
  change (do
    let cosparId ← nullableText (nullableJson entry.cosparId : Json F)
    let operator ← nullableText (nullableJson entry.operator : Json F)
    let country ← nullableText (nullableJson entry.country : Json F)
    let objectType ← nullableText (nullableJson entry.objectType : Json F)
    let orbitClass ← nullableText (nullableJson entry.orbitClass : Json F)
    let status ← nullableText (nullableJson entry.status : Json F)
    some (CatalogEntry.mk entry.noradId cosparId entry.name operator country
      objectType orbitClass status)) = some entry
  simp only [nullableText_nullableJson]
  rfl

theorem mapM_entryOf (page : List CatalogEntry) :
    (readBackItems Empty.elim (page.map satelliteItem : List (Json F))).mapM
        entryOf = some (page.map joinedEntry) := by
  induction page with
  | nil => rfl
  | cons entry rest ih =>
      rw [List.map_cons, readBackItems, List.mapM_cons, readBack_satelliteItem,
        entryOf_satelliteItem, ih]
      rfl

/-- A page from the cache shows the rows of the page that was stored. -/
theorem served_page {config : Config} {format : FloatFormat F}
    {page data : List CatalogEntry}
    (hserved : Served config (pageCodec format) page data) :
    data = page.map joinedEntry := by
  obtain ⟨raw, hstores, hloads⟩ := hserved
  change (loads format raw : Option (Json F)).bind pageOf = some data at hloads
  rw [loads_dumps hstores.1, Option.bind_some] at hloads
  change (readBackItems Empty.elim (page.map satelliteItem)).mapM entryOf = _
    at hloads
  rw [mapM_entryOf] at hloads
  exact (Option.some.inj hloads).symm

end Codec

/-! ## The requests -/

/-- `Query(50, ge=1, le=1000)`. -/
abbrev PageLimit := {limit : ℕ // 1 ≤ limit ∧ limit ≤ 1000}

/-- A request to `/satellites`. -/
structure PageCall where
  number : ℕ
  cursor : Option ℤ
  limit : PageLimit
  deriving DecidableEq

def PageCall.key (call : PageCall) : Text :=
  satellitesKey call.cursor call.limit

/-- What `load_satellites` returns to the call. -/
def PageCall.Loads (call : PageCall) (catalog : Catalog)
    (page : List CatalogEntry) : Prop :=
  page = loadSatellites call.limit call.cursor catalog

instance decidableLoads (call : PageCall) (catalog : Catalog)
    (page : List CatalogEntry) : Decidable (call.Loads catalog page) :=
  inferInstanceAs (Decidable (page = _))

/-- `ttl` and `stale` of `get_satellites`. -/
def satellitesTtl : ℤ := 300

def satellitesStale : ℤ := 3600

section Model

variable {F : Type}

/-- The requests of all clients to `/satellites`, and the jobs that write the
catalogue. -/
abbrev PageCaches := Caches Text PageCall (List CatalogEntry) Text Catalog

abbrev PageAction (F : Type) :=
  CachesAction Text PageCall (List CatalogEntry) (CatalogRun F)

def pagesSystem (config : Config) (runtime : Runtime F) :
    System PageCaches (PageAction F) :=
  cachesSystem PageCall.key config (pageCodec runtime.format)
    (catalogSystem runtime) PageCall.Loads

/-- What a client knows that pages through the collection. -/
structure Client where
  cursor : Option ℤ
  listed : List CatalogEntry
  ended : Bool

/-- The client gets a page. -/
def Client.receive (client : Client) (page : List CatalogEntry) : Client :=
  match page.getLast? with
  | none => { client with ended := true }
  | some last =>
      { client with
        cursor := some last.noradId
        listed := client.listed ++ page }

/-- The seconds after which no page shows what was before. -/
def pageLag : ℚ := lockSeconds + satellitesStale

/-- A client pages through the collection: it sends its requests after a state
of the run, with the number of the last satellite as cursor and any limit, and
their answers come long enough after that state.  No page ends with the number
0, which would be read as if there were no cursor. -/
inductive Pages (before after : PageCaches) : Client → Prop
  | start : Pages before after ⟨none, [], false⟩
  | page {client : Client} {call : PageCall} {page : List CatalogEntry}
      {freshness : Freshness} {age : ℤ} {time : ℚ}
      (hpages : Pages before after client) (hgoing : client.ended = false)
      (hcursor : call.cursor = client.cursor)
      (hsent : (before.entries call.key).call call = .idle)
      (hanswer : (after.entries call.key).answer call =
        some (.returned page freshness age))
      (htime : after.answeredAt call.key call = some time)
      (hlate : before.clock + pageLag ≤ time)
      (hlast : ∀ last ∈ page.getLast?, last.noradId ≠ 0) :
      Pages before after (client.receive page)

/-- The numbers of the satellites that are known. -/
def numbers (catalog : Catalog) : List ℤ := catalog.rows.map CatalogEntry.noradId

/-- The catalogue was that of the database in a state of the run. -/
def Passed (config : Config) (runtime : Runtime F) (before : PageCaches)
    (actions : List (PageAction F)) (catalog : Catalog) : Prop :=
  (pagesSystem config runtime).Visits
    (fun caches => caches.database = catalog) before actions

/-- A row as the catalogue has it, or as it is read back from the cache. -/
def Shows (row entry : CatalogEntry) : Prop :=
  row = entry ∨ row = joinedEntry entry

/-- A walk that gets the pages of the client. -/
structure Follows (config : Config) (runtime : Runtime F) (before : PageCaches)
    (actions : List (PageAction F)) (client : Client)
    (walk : Walk CatalogEntry.noradId) : Prop where
  sound : Sound satelliteReading walk
  cursor : walk.cursor = client.cursor
  listed : walk.listed.map CatalogEntry.noradId =
    client.listed.map CatalogEntry.noradId
  progress : walk.progress = if client.ended then .ended else .walking
  loaded : ∀ catalog ∈ walk.loaded,
    Passed config runtime before actions catalog
  shown : ∀ row ∈ client.listed, ∃ catalog ∈ walk.loaded,
    ∃ entry ∈ catalog.rows, Shows row entry

end Model

/-! ## What a client gets -/

section Client

variable {F : Type} {config : Config} {runtime : Runtime F}
  {before after : PageCaches} {actions : List (PageAction F)} {client : Client}

theorem mem_numbers_iff (catalog : Catalog) (noradId : ℤ) :
    noradId ∈ numbers catalog ↔ (catalog.find noradId).isSome := by
  rw [← not_iff_not, Option.not_isSome_iff_eq_none, catalog.find_eq_none_iff]
  rfl

/-- No satellite leaves the catalogue. -/
theorem numbers_kept (runtime : Runtime F) :
    Keeping (catalogSystem runtime) fun earlier later =>
      numbers earlier ⊆ numbers later where
  refl _ := List.Subset.refl _
  trans := List.Subset.trans
  step {earlier later run} hstep := by
    intro noradId hmem
    rw [catalogStep_eq] at hstep
    obtain rfl := Option.some.inj hstep
    cases hentries : run.entries runtime with
    | none => exact hmem
    | some entries =>
        obtain ⟨row, hrow⟩ :=
          Option.isSome_iff_exists.mp ((mem_numbers_iff _ _).mp hmem)
        obtain ⟨kept, hkept, -⟩ :=
          find_upsert_entries run.source earlier entries hrow
        exact (mem_numbers_iff _ _).mpr (Option.isSome_of_eq_some hkept)

theorem Passed.numbers {catalog : Catalog}
    (hpassed : Passed config runtime before actions catalog) :
    numbers before.database ⊆ numbers catalog := by
  obtain ⟨first, middle, -, hrun, rfl⟩ := hpassed
  exact database_kept (numbers_kept runtime) hrun

/-- A page that is answered long enough after a state shows the catalogue of a
later one. -/
theorem answer_shows
    (hreach : (pagesSystem config runtime).ReachableVia
      (SameEndpoint satellitesTtl satellitesStale) before)
    (hsteps : (pagesSystem config runtime).Steps
      (SameEndpoint satellitesTtl satellitesStale) before actions)
    (hrun : (pagesSystem config runtime).run before actions = some after)
    {call : PageCall} {page : List CatalogEntry} {freshness : Freshness}
    {age : ℤ} {time : ℚ} (hsent : (before.entries call.key).call call = .idle)
    (hanswer : (after.entries call.key).answer call =
      some (.returned page freshness age))
    (htime : after.answeredAt call.key call = some time)
    (hlate : before.clock + pageLag ≤ time) :
    ∃ catalog, Passed config runtime before actions catalog ∧
      List.Forall₂ Shows page
        (loadSatellites call.limit call.cursor catalog) := by
  rw [pageLag, ← add_assoc] at hlate
  obtain ⟨writer, query, value, hloaded, hkey, hdata, hpassed⟩ :=
    answer_later hreach hsteps hrun hsent hanswer htime hlate
  obtain ⟨hcursor, hlimit⟩ := satellitesKey_injective hkey
  have hvalue : value =
      loadSatellites call.limit call.cursor query.snapshot := by
    rw [← hlimit, ← loadSatellites_congr hcursor]
    exact hloaded.2
  refine ⟨query.snapshot, hpassed, ?_⟩
  rw [← hvalue]
  rcases hdata with rfl | hserved
  · exact List.forall₂_same.mpr fun _ _ => .inl rfl
  · rw [served_page hserved, List.forall₂_map_left_iff]
    exact List.forall₂_same.mpr fun _ _ => .inr rfl

theorem Shows.noradId {row entry : CatalogEntry} (hshows : Shows row entry) :
    row.noradId = entry.noradId := by
  rcases hshows with rfl | rfl <;> rfl

theorem numbers_of_shows {page rows : List CatalogEntry}
    (hshown : List.Forall₂ Shows page rows) :
    rows.map CatalogEntry.noradId = page.map CatalogEntry.noradId := by
  induction hshown with
  | nil => rfl
  | cons hrow _ ih => rw [List.map_cons, List.map_cons, ih, hrow.noradId]

theorem exists_of_shows {page rows : List CatalogEntry}
    (hshown : List.Forall₂ Shows page rows) {row : CatalogEntry}
    (hrow : row ∈ page) : ∃ entry ∈ rows, Shows row entry := by
  induction hshown with
  | nil => cases hrow
  | cons hfirst _ ih =>
      rcases List.mem_cons.mp hrow with rfl | hrest
      · exact ⟨_, List.mem_cons_self, hfirst⟩
      · obtain ⟨entry, hentry, hshows⟩ := ih hrest
        exact ⟨entry, List.mem_cons_of_mem _ hentry, hshows⟩

theorem mem_rows_of_loaded {limit : ℕ} {cursor : Option ℤ} {catalog : Catalog}
    {entry : CatalogEntry} (hentry : entry ∈ loadSatellites limit cursor catalog) :
    entry ∈ catalog.rows := by
  have hselected := mem_ordered.mp (List.mem_of_mem_take hentry)
  cases cursor with
  | none => exact hselected
  | some id =>
      rw [selected] at hselected
      split at hselected
      · exact hselected
      · exact (List.mem_filter.mp hselected).1

theorem Client.receive_of_getLast? {page : List CatalogEntry}
    {last : CatalogEntry} (hlast : page.getLast? = some last)
    (client : Client) :
    client.receive page =
      { client with
        cursor := some last.noradId
        listed := client.listed ++ page } := by
  rw [Client.receive, hlast]

/-- The next page of the client is the next page of the walk. -/
theorem Follows.receive {walk : Walk CatalogEntry.noradId}
    (hfollows : Follows config runtime before actions client walk)
    (hgoing : client.ended = false) {limit : ℕ} (hlimit : 0 < limit)
    {catalog : Catalog} (hpassed : Passed config runtime before actions catalog)
    {page : List CatalogEntry}
    (hshown : List.Forall₂ Shows page
      (loadSatellites limit client.cursor catalog))
    (hlast : ∀ last ∈ page.getLast?, last.noradId ≠ 0) :
    Follows config runtime before actions (client.receive page)
      (walk.receive catalog (loadSatellites limit client.cursor catalog)) := by
  have hwalking : walk.progress = .walking := by
    rw [hfollows.progress, hgoing]
    rfl
  have hnumbers := numbers_of_shows hshown
  have hends : (loadSatellites limit client.cursor catalog).getLast?.map
      CatalogEntry.noradId = page.getLast?.map CatalogEntry.noradId := by
    rw [← List.getLast?_map, hnumbers, List.getLast?_map]
  have hloaded : ∀ other ∈ walk.loaded ++ [catalog],
      Passed config runtime before actions other := by
    intro other hother
    rcases List.mem_append.mp hother with hold | hnew
    · exact hfollows.loaded other hold
    · rw [List.mem_singleton.mp hnew]
      exact hpassed
  have hrows : ∀ row ∈ client.listed, ∃ other ∈ walk.loaded ++ [catalog],
      ∃ entry ∈ other.rows, Shows row entry := by
    intro row hrow
    obtain ⟨other, hother, hentry⟩ := hfollows.shown row hrow
    exact ⟨other, List.mem_append_left _ hother, hentry⟩
  have hsound : Sound satelliteReading (walk.receive catalog
      (loadSatellites limit client.cursor catalog)) := by
    rw [← hfollows.cursor]
    refine hfollows.sound.receive hlimit hwalking fun entry hentry => ?_
    rw [satelliteReading_usable_iff]
    rw [loadSatellites, ← hfollows.cursor, hentry, Option.map_some] at hends
    obtain ⟨last, hmem, hsame⟩ := Option.map_eq_some_iff.mp hends.symm
    rw [← hsame]
    exact hlast last hmem
  cases hpage : page.getLast? with
  | none =>
      obtain rfl := List.getLast?_eq_none_iff.mp hpage
      rw [List.map_nil, List.map_eq_nil_iff] at hnumbers
      rw [hnumbers, receive_nil] at hsound ⊢
      exact ⟨hsound, hfollows.cursor, hfollows.listed, rfl, hloaded, hrows⟩
  | some last =>
      rw [hpage, Option.map_some] at hends
      obtain ⟨entry, hentry, hsame⟩ := Option.map_eq_some_iff.mp hends
      rw [receive_of_getLast? hentry] at hsound ⊢
      rw [Client.receive_of_getLast? hpage]
      refine ⟨hsound, congrArg some hsame, ?_, hfollows.progress, hloaded, ?_⟩
      · rw [List.map_append, List.map_append, hfollows.listed, hnumbers]
      · intro row hrow
        rcases List.mem_append.mp hrow with hold | hnew
        · exact hrows row hold
        · obtain ⟨entry, hentry, hshows⟩ := exists_of_shows hshown hnew
          exact ⟨catalog, List.mem_append_right _ (List.mem_singleton_self _),
            entry, mem_rows_of_loaded hentry, hshows⟩

/-- The pages of a client are those of a walk over catalogues of the run. -/
theorem exists_walk
    (hreach : (pagesSystem config runtime).ReachableVia
      (SameEndpoint satellitesTtl satellitesStale) before)
    (hsteps : (pagesSystem config runtime).Steps
      (SameEndpoint satellitesTtl satellitesStale) before actions)
    (hrun : (pagesSystem config runtime).run before actions = some after)
    (hpages : Pages before after client) :
    ∃ walk, Follows config runtime before actions client walk := by
  induction hpages with
  | start =>
      exact ⟨⟨none, [], [], .walking⟩, sound_start, rfl, rfl, rfl, by simp,
        by simp⟩
  | @page client call _ _ _ _ _ hgoing hcursor hsent hanswer htime hlate hlast
      ih =>
      obtain ⟨walk, hwalk⟩ := ih
      obtain ⟨catalog, hpassed, hshown⟩ :=
        answer_shows hreach hsteps hrun hsent hanswer htime hlate
      rw [hcursor] at hshown
      exact ⟨_, hwalk.receive hgoing call.limit.2.1 hpassed hshown hlast⟩

/-- A client that pages through the satellites lists them in strictly ascending
number, and at its end every satellite that was known `pageLag` seconds before
its answers; each row is one of the catalogue as it was in a state of the run
since then.  The requests of all clients, the jobs, failures of the store and
evictions come in any order. -/
theorem known_satellites_listed
    (hreach : (pagesSystem config runtime).ReachableVia
      (SameEndpoint satellitesTtl satellitesStale) before)
    (hsteps : (pagesSystem config runtime).Steps
      (SameEndpoint satellitesTtl satellitesStale) before actions)
    (hrun : (pagesSystem config runtime).run before actions = some after)
    (hpages : Pages before after client) :
    (client.listed.map CatalogEntry.noradId).Pairwise (· < ·) ∧
      (client.ended = true →
        numbers before.database ⊆
          client.listed.map CatalogEntry.noradId) ∧
      ∀ row ∈ client.listed,
        ∃ catalog, Passed config runtime before actions catalog ∧
          ∃ entry ∈ catalog.rows, Shows row entry := by
  obtain ⟨walk, hwalk⟩ := exists_walk hreach hsteps hrun hpages
  refine ⟨?_, fun hended noradId hknown => ?_, fun row hrow => ?_⟩
  · rw [← hwalk.listed, List.pairwise_map]
    exact hwalk.sound.ascending
  · rw [← hwalk.listed]
    refine (hwalk.sound.complete noradId fun catalog hcatalog =>
      (hwalk.loaded catalog hcatalog).numbers hknown).resolve_right ?_
    rintro ⟨hwalking, -⟩
    rw [hwalk.progress, hended] at hwalking
    cases hwalking
  · obtain ⟨catalog, hcatalog, hentry⟩ := hwalk.shown row hrow
    exact ⟨catalog, hwalk.loaded catalog hcatalog, hentry⟩

end Client

/-- No entry and no satellite. -/
def emptyCaches : PageCaches where
  clock := 0
  database := Table.empty
  entries _ := blank
  queries _ _ := none
  answeredAt _ _ := none

/-- The object 5, as the catalogue has it. -/
def vanguard : CatalogEntry :=
  ⟨5, none, text "VANGUARD 1", none, none, none, none, some (text "active")⟩

/-- A SATCAT record of an object 3. -/
def thirdRecord : Json Unit :=
  .dict [(text "NORAD_CAT_ID", .str (text "3")),
    (text "SATNAME", .str (text "EXPLORER 1"))]

def oneRow : PageLimit := ⟨1, by decide⟩

/-- The request of another client, and the two of the client. -/
def otherCall : PageCall := ⟨0, some 0, oneRow⟩

def firstCall : PageCall := ⟨1, none, oneRow⟩

def secondCall : PageCall := ⟨2, some 5, oneRow⟩

def vanguardKnown : List (PageAction Unit) :=
  [.database (.satcat (.list [fifthRecord .null]) false)]

/-- The steps of a call that loads its page. -/
def loadPage (call : PageCall) (page : List CatalogEntry) :
    List (PageAction Unit) :=
  [.cache call.key (.begin call satellitesTtl satellitesStale 0),
    .cache call.key (.read call false .answered), .query call,
    .cache call.key (.compute call page 0),
    .cache call.key (.store call .answered)]

/-- The object 3 becomes known after another client loaded the first page, which
the client gets from the cache. -/
def pagesRead : List (PageAction Unit) :=
  .elapse 3615 :: loadPage otherCall [vanguard] ++
    [.database (.satcat (.list [thirdRecord]) false),
      .cache firstCall.key
        (.begin firstCall satellitesTtl satellitesStale 0),
      .cache firstCall.key (.read firstCall false .answered)] ++
    loadPage secondCall []

theorem emptyCaches_init :
    (pagesSystem plainConfig unitRuntime).Init emptyCaches :=
  ⟨fun _ => ⟨blank_init plainConfig _, rfl, rfl, fun _ => rfl, fun _ => rfl⟩,
    rfl, fun _ => rfl⟩

theorem vanguard_listed :
    ∃ before ∈ (pagesSystem plainConfig unitRuntime).run emptyCaches
        vanguardKnown,
      ∃ after ∈ (pagesSystem plainConfig unitRuntime).run before pagesRead,
        numbers before.database = [5] ∧ numbers after.database = [5, 3] ∧
          Pages before after ⟨some 5, [vanguard], true⟩ ∧
          numbers before.database ⊆ [vanguard.noradId] ∧
          ∃ catalog, Passed plainConfig unitRuntime before pagesRead catalog ∧
            ∃ entry ∈ catalog.rows, Shows vanguard entry := by
  obtain ⟨before, hbefore, hidle, hquiet, hclock, hknown, hsteps, after, hrun,
      hnumbers, hfirst, htime, hsecond, hlater⟩ :
      ∃ before ∈ (pagesSystem plainConfig unitRuntime).run emptyCaches
          vanguardKnown,
        (before.entries firstCall.key).call firstCall = .idle ∧
        (before.entries secondCall.key).call secondCall = .idle ∧
        before.clock + pageLag ≤ 3615 ∧ numbers before.database = [5] ∧
        (pagesSystem plainConfig unitRuntime).Steps
          (SameEndpoint satellitesTtl satellitesStale) before pagesRead ∧
        ∃ after ∈ (pagesSystem plainConfig unitRuntime).run before pagesRead,
          numbers after.database = [5, 3] ∧
          (after.entries firstCall.key).answer firstCall =
            some (.returned [vanguard] .fresh 0) ∧
          after.answeredAt firstCall.key firstCall = some 3615 ∧
          (after.entries secondCall.key).answer secondCall =
            some (.returned [] .fresh 0) ∧
          after.answeredAt secondCall.key secondCall = some 3615 := by
    decide +kernel
  have hearlier : (pagesSystem plainConfig unitRuntime).Steps
      (SameEndpoint satellitesTtl satellitesStale) emptyCaches
      vanguardKnown := by
    decide +kernel
  have hpage : Pages before after (Client.receive ⟨none, [], false⟩ [vanguard]) :=
    .page .start rfl rfl hidle hfirst htime hclock (by simp [vanguard])
  have hpages : Pages before after ⟨some 5, [vanguard], true⟩ :=
    .page hpage rfl rfl hquiet hsecond hlater hclock (by simp)
  obtain ⟨-, hcomplete, hrows⟩ := known_satellites_listed
    (.run (.init emptyCaches_init) hearlier hbefore) hsteps hrun hpages
  exact ⟨before, hbefore, after, hrun, hknown, hnumbers, hpages, hcomplete rfl,
    hrows vanguard (List.mem_singleton_self vanguard)⟩

end UTTG.Api
