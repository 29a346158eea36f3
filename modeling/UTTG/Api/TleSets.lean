import UTTG.Core.Selection
import UTTG.Ingestion.Orbits

/-!
# The newest element sets

The statement of `get_latest_tle_sets`, and the one that `get_orbital_latest`,
`get_position`, `get_ground_track` and `get_orbit_summary` begin with.  Whatever
the jobs did before, both find the newest element set that was delivered, as it
was delivered first, as long as the retention policy leaves it.
-/

namespace UTTG.Api

open Python Ingestion Selection UTTG.Transition
open Launches (Instant)

/-! ## The statements -/

section Statements

variable {F : Type}

/-- An item of `load` in `get_latest_tle_sets`. -/
structure TleItem where
  noradId : ℤ
  name : Text
  epoch : Instant
  tleLine1 : Text
  tleLine2 : Text
  deriving DecidableEq

/-- A row of the join of an element set with its satellite. -/
def tleItem (row : OrbitalElement F) (satellite : CatalogEntry) : TleItem :=
  ⟨row.noradId, satellite.name, row.epoch, row.tleLine1, row.tleLine2⟩

/-- `join(Satellite, Satellite.norad_id == OrbitalElement.norad_id)`.  The lines
of a stored element set are never null. -/
def joined (store : OrbitStore F) : List TleItem :=
  store.elements.rows.filterMap fun row =>
    (store.catalog.find row.noradId).map (tleItem row)

/-- `_TLE_MAX_AGE`, in microseconds. -/
def tleMaxAge : ℤ := 14 * 86400 * 1000000

/-- The parameters of the statement.  The pattern of `search` leaves no
wildcards, so that `startswith` compares literally. -/
structure TleRequest where
  noradIds : List ℤ
  search : Option Text
  limit : ℕ

/-- The condition on a satellite. -/
def TleRequest.asks (request : TleRequest) (noradId : ℤ) (name : Text) : Bool :=
  (request.noradIds.isEmpty || request.noradIds.contains noradId) &&
    request.search.all fun start => start.isPrefixOf name

/-- The `WHERE` clause. -/
def TleRequest.selects (request : TleRequest) (now : Instant)
    (item : TleItem) : Bool :=
  now - tleMaxAge < item.epoch && request.asks item.noradId item.name

/-- `ORDER BY norad_id, epoch DESC`. -/
def tleRank (item : TleItem) : ℤ ×ₗ ℤᵒᵈ :=
  toLex (item.noradId, OrderDual.toDual item.epoch)

/-- The result of `load` in `get_latest_tle_sets`. -/
def LatestTleSets (request : TleRequest) (now : Instant)
    (store : OrbitStore F) (data : List TleItem) : Prop :=
  ∃ listing, Listing tleRank (request.selects now) (joined store) listing ∧
    data = (distinctOn TleItem.noradId listing).take request.limit

/-- `WHERE norad_id = … ORDER BY epoch DESC LIMIT 1`. -/
def LatestElement (noradId : ℤ) (store : OrbitStore F)
    (data : Option (OrbitalElement F)) : Prop :=
  ∃ rows, Answers (fun row : OrbitalElement F => OrderDual.toDual row.epoch)
      (fun row => row.noradId = noradId) 1 store.elements.rows rows ∧
    data = rows.head?

end Statements

/-! ## What is asked of the answers -/

section Newest

variable {F : Type}

/-- A newest delivery of its satellite, as it was delivered first. -/
structure Newest (delivered : List (OrbitalElement F))
    (row : OrbitalElement F) : Prop where
  first : firstDelivered delivered row.key = some row
  newest : ∀ other ∈ delivered, other.noradId = row.noradId →
    other.epoch ≤ row.epoch

/-- The satellite is asked for and was delivered within the last 14 days. -/
def Eligible (request : TleRequest) (history : OrbitHistory F)
    (noradId : ℤ) : Prop :=
  ∃ row ∈ history.delivered, row.noradId = noradId ∧
    history.clock - tleMaxAge < row.epoch ∧
    ∃ satellite, history.store.catalog.find noradId = some satellite ∧
      request.asks noradId satellite.name = true

/-- The first eligible satellites in ascending order, each once, with its newest
element set and its present name. -/
structure TleAnswered (request : TleRequest) (history : OrbitHistory F)
    (data : List TleItem) : Prop where
  ascending : (data.map TleItem.noradId).Pairwise (· < ·)
  within : data.length ≤ request.limit
  newest : ∀ item ∈ data, Eligible request history item.noradId ∧
    ∃ row satellite, Newest history.delivered row ∧
      history.store.catalog.find row.noradId = some satellite ∧
      item = tleItem row satellite
  complete : ∀ noradId, Eligible request history noradId →
    noradId ∈ data.map TleItem.noradId ∨
      (data.length = request.limit ∧
        ∀ item ∈ data, item.noradId < noradId)

/-- The element set that is found for a satellite. -/
structure ElementAnswered (noradId : ℤ) (history : OrbitHistory F)
    (data : Option (OrbitalElement F)) : Prop where
  missing : data = none → ∀ row ∈ history.delivered, row.noradId = noradId →
    row.epoch < history.clock - elementRetention
  found : ∀ row, data = some row → row ∈ history.delivered ∧
    row.noradId = noradId ∧
      ((∃ other ∈ history.delivered, other.noradId = noradId ∧
          history.clock - elementRetention ≤ other.epoch) →
        Newest history.delivered row)

end Newest

section Answers

variable {F : Type} {history : OrbitHistory F}

theorem tleMaxAge_le : tleMaxAge ≤ elementRetention := by decide

theorem mem_joined {store : OrbitStore F} {item : TleItem} :
    item ∈ joined store ↔ ∃ row ∈ store.elements.rows, ∃ satellite,
      store.catalog.find row.noradId = some satellite ∧
        item = tleItem row satellite := by
  simp only [joined, List.mem_filterMap, Option.map_eq_some_iff]
  constructor
  · rintro ⟨row, hrow, satellite, hfind, rfl⟩
    exact ⟨row, hrow, satellite, hfind, rfl⟩
  · rintro ⟨row, hrow, satellite, hfind, rfl⟩
    exact ⟨row, hrow, satellite, hfind, rfl⟩

/-- A recent delivery is stored as it was delivered first. -/
theorem exists_stored (harch : Archived history) {row : OrbitalElement F}
    (hrow : row ∈ history.delivered)
    (hrecent : history.clock - elementRetention ≤ row.epoch) :
    ∃ stored ∈ history.store.elements.rows, stored.key = row.key ∧
      firstDelivered history.delivered row.key = some stored := by
  obtain ⟨stored, hstored⟩ : ∃ stored,
      firstDelivered history.delivered row.key = some stored := by
    rw [← Option.isSome_iff_exists, firstDelivered, List.find?_isSome]
    exact ⟨row, hrow, by simp⟩
  have hfind := (harch.first row.key hrecent).trans hstored
  obtain ⟨hmem, hkey⟩ := (Table.find_eq_some_iff _ _ _).mp hfind
  exact ⟨stored, hmem, hkey, hstored⟩

/-- A stored row that is recent was delivered first under its key. -/
theorem firstDelivered_of_stored (harch : Archived history)
    {row : OrbitalElement F} (hrow : row ∈ history.store.elements.rows)
    (hrecent : history.clock - elementRetention ≤ row.epoch) :
    firstDelivered history.delivered row.key = some row := by
  rw [← harch.first row.key hrecent]
  exact (Table.find_eq_some_iff _ _ _).mpr ⟨hrow, rfl⟩

/-- The join has a selected row for every eligible satellite, as new as any of
its recent deliveries. -/
theorem exists_selected (harch : Archived history) {request : TleRequest}
    {row : OrbitalElement F} (hrow : row ∈ history.delivered)
    (hrecent : history.clock - tleMaxAge < row.epoch)
    {satellite : CatalogEntry}
    (hsatellite : history.store.catalog.find row.noradId = some satellite)
    (hasks : request.asks row.noradId satellite.name = true) :
    ∃ item ∈ joined history.store,
      request.selects history.clock item = true ∧
        item.noradId = row.noradId ∧ item.epoch = row.epoch := by
  have hretained : history.clock - elementRetention ≤ row.epoch :=
    (sub_le_sub_left tleMaxAge_le _).trans hrecent.le
  obtain ⟨stored, hstored, hkey, -⟩ := exists_stored harch hrow hretained
  obtain ⟨hnorad, -, hepoch⟩ : stored.noradId = row.noradId ∧
      stored.provider = row.provider ∧ stored.epoch = row.epoch := by
    simpa [OrbitalElement.key] using hkey
  refine ⟨tleItem stored satellite, mem_joined.mpr ⟨stored, hstored, satellite,
    by rw [hnorad, hsatellite], rfl⟩, ?_, hnorad, hepoch⟩
  simp only [TleRequest.selects, tleItem, hnorad, hepoch, hasks, hrecent,
    decide_true, Bool.and_self]

/-- A selected row of the join stands for an eligible satellite. -/
theorem eligible_of_selected (harch : Archived history) {request : TleRequest}
    {item : TleItem} (hitem : item ∈ joined history.store)
    (hselected : request.selects history.clock item = true) :
    Eligible request history item.noradId := by
  obtain ⟨row, hrow, satellite, hsatellite, rfl⟩ := mem_joined.mp hitem
  simp only [TleRequest.selects, Bool.and_eq_true,
    decide_eq_true_eq] at hselected
  exact ⟨row, harch.delivered row hrow, rfl, hselected.1, satellite, hsatellite,
    hselected.2⟩

theorem noradId_le_of_tleRank_le {left right : TleItem}
    (hle : tleRank left ≤ tleRank right) : left.noradId ≤ right.noradId := by
  rcases Prod.Lex.le_iff.mp hle with hlt | ⟨heq, -⟩
  · exact hlt.le
  · exact heq.le

theorem epoch_le_of_tleRank_le {left right : TleItem}
    (hle : tleRank left ≤ tleRank right)
    (hnorad : right.noradId = left.noradId) : right.epoch ≤ left.epoch := by
  rcases Prod.Lex.le_iff.mp hle with hlt | ⟨-, hepoch⟩
  · exact absurd hnorad (ne_of_gt hlt)
  · exact hepoch

section Listed

variable {request : TleRequest} {listing : List TleItem}
  (hlisting : Listing tleRank (request.selects history.clock)
    (joined history.store) listing)

include hlisting

/-- The first rows of the groups are in strictly ascending order. -/
theorem pairwise_distinctOn :
    (distinctOn TleItem.noradId listing).Pairwise fun left right =>
      left.noradId < right.noradId := by
  have hle := hlisting.ascending.sublist
    (distinctOn_sublist TleItem.noradId listing)
  have hne := nodup_map_distinctOn TleItem.noradId listing
  rw [List.Nodup, List.pairwise_map] at hne
  exact hle.imp₂ (fun _ _ hrank hdifferent =>
    lt_of_le_of_ne (noradId_le_of_tleRank_le hrank) hdifferent) hne

/-- The first row of a group is the newest delivery of its satellite. -/
theorem newest_of_distinctOn (harch : Archived history) {item : TleItem}
    (hitem : item ∈ distinctOn TleItem.noradId listing) :
    ∃ row satellite, Newest history.delivered row ∧
      history.store.catalog.find row.noradId = some satellite ∧
      item = tleItem row satellite := by
  obtain ⟨hjoined, hselected⟩ := hlisting.mem_iff.mp
    ((distinctOn_sublist TleItem.noradId listing).subset hitem)
  obtain ⟨row, hrow, satellite, hsatellite, rfl⟩ := mem_joined.mp hjoined
  simp only [TleRequest.selects, Bool.and_eq_true,
    decide_eq_true_eq] at hselected
  obtain ⟨hrecent, hasks⟩ := hselected
  have hretained : history.clock - elementRetention ≤ row.epoch :=
    (sub_le_sub_left tleMaxAge_le _).trans hrecent.le
  refine ⟨row, satellite, ⟨firstDelivered_of_stored harch hrow hretained,
    fun other hother hnorad => ?_⟩, hsatellite, rfl⟩
  by_cases hotherRecent : history.clock - tleMaxAge < other.epoch
  · obtain ⟨found, hfound, hfoundSelected, hfoundNorad, hfoundEpoch⟩ :=
      exists_selected harch hother hotherRecent (by rw [hnorad, hsatellite])
        (by rw [hnorad]; exact hasks)
    rw [← hfoundEpoch]
    have hmem := hlisting.mem_iff.mpr ⟨hfound, hfoundSelected⟩
    obtain rfl | hrank := distinctOn_first hlisting.ascending hitem hmem
      (hfoundNorad.trans hnorad)
    · exact le_rfl
    · exact epoch_le_of_tleRank_le hrank (hfoundNorad.trans hnorad)
  · exact (not_lt.mp hotherRecent).trans hrecent.le

end Listed

theorem tleAnswered (harch : Archived history) {request : TleRequest}
    {data : List TleItem}
    (hdata : LatestTleSets request history.clock history.store data) :
    TleAnswered request history data := by
  obtain ⟨listing, hlisting, rfl⟩ := hdata
  have hpair := pairwise_distinctOn hlisting
  refine ⟨?_, List.length_take_le _ _, fun item hitem => ?_,
    fun noradId heligible => ?_⟩
  · rw [List.pairwise_map]
    exact hpair.sublist (List.take_sublist _ _)
  · have hdistinct := List.mem_of_mem_take hitem
    obtain ⟨hjoined, hselected⟩ := hlisting.mem_iff.mp
      ((distinctOn_sublist TleItem.noradId listing).subset hdistinct)
    exact ⟨eligible_of_selected harch hjoined hselected,
      newest_of_distinctOn hlisting harch hdistinct⟩
  · obtain ⟨row, hrow, rfl, hrecent, satellite, hsatellite, hasks⟩ := heligible
    obtain ⟨item, hitem, hselected, hnorad, -⟩ :=
      exists_selected harch hrow hrecent hsatellite hasks
    have hgroup : row.noradId ∈
        (distinctOn TleItem.noradId listing).map TleItem.noradId := by
      rw [mem_map_distinctOn, ← hnorad]
      exact List.mem_map_of_mem (hlisting.mem_iff.mpr ⟨hitem, hselected⟩)
    obtain ⟨first, hfirst, hfirstNorad⟩ := List.mem_map.mp hgroup
    rw [← List.take_append_drop request.limit (distinctOn _ listing),
      List.mem_append] at hfirst
    rw [← List.take_append_drop request.limit (distinctOn _ listing),
      List.pairwise_append] at hpair
    obtain hin | hout := hfirst
    · left
      rw [← hfirstNorad]
      exact List.mem_map_of_mem hin
    · right
      refine ⟨?_, fun other hother => ?_⟩
      · rw [List.length_take, min_eq_left]
        have hpos := List.length_pos_of_mem hout
        rw [List.length_drop] at hpos
        omega
      · rw [← hfirstNorad]
        exact hpair.2.2 other hother first hout

/-- A retained delivery is stored under its satellite and epoch. -/
theorem exists_stored_epoch (harch : Archived history)
    {row : OrbitalElement F} (hrow : row ∈ history.delivered)
    (hrecent : history.clock - elementRetention ≤ row.epoch) :
    ∃ stored ∈ history.store.elements.rows, stored.noradId = row.noradId ∧
      stored.epoch = row.epoch := by
  obtain ⟨stored, hmem, hkey, -⟩ := exists_stored harch hrow hrecent
  obtain ⟨hnorad, -, hepoch⟩ : stored.noradId = row.noradId ∧
      stored.provider = row.provider ∧ stored.epoch = row.epoch := by
    simpa [OrbitalElement.key] using hkey
  exact ⟨stored, hmem, hnorad, hepoch⟩

theorem elementAnswered (harch : Archived history) {noradId : ℤ}
    {data : Option (OrbitalElement F)}
    (hdata : LatestElement noradId history.store data) :
    ElementAnswered noradId history data := by
  obtain ⟨rows, hanswers, rfl⟩ := hdata
  refine ⟨fun hnone row hrow hnorad => ?_, fun row hsome => ?_⟩
  · rw [List.head?_eq_none_iff, hanswers.eq_nil_iff one_pos] at hnone
    by_contra hrecent
    obtain ⟨stored, hmem, hstoredNorad, -⟩ :=
      exists_stored_epoch harch hrow (not_lt.mp hrecent)
    simpa [hstoredNorad.trans hnorad] using hnone stored hmem
  obtain ⟨rest, rfl⟩ := List.head?_eq_some_iff.mp hsome
  obtain ⟨hmem, hselected⟩ := hanswers.mem List.mem_cons_self
  have hnorad : row.noradId = noradId := of_decide_eq_true hselected
  have hle : ∀ other ∈ history.delivered, other.noradId = noradId →
      history.clock - elementRetention ≤ other.epoch →
      other.epoch ≤ row.epoch := by
    intro other hother hotherNorad hotherRecent
    obtain ⟨stored, hstoredMem, hstoredNorad, hepoch⟩ :=
      exists_stored_epoch harch hother hotherRecent
    rw [← hepoch]
    by_cases hin : stored ∈ row :: rest
    · obtain rfl | hrest := List.mem_cons.mp hin
      · exact le_rfl
      · exact (List.pairwise_cons.mp hanswers.ascending).1 stored hrest
    · exact hanswers.least List.mem_cons_self hstoredMem
        (decide_eq_true (hstoredNorad.trans hotherNorad)) hin
  refine ⟨harch.delivered row hmem, hnorad, ?_⟩
  rintro ⟨recent, hrecentMem, hrecentNorad, hrecent⟩
  have hretained := hrecent.trans (hle recent hrecentMem hrecentNorad hrecent)
  refine ⟨firstDelivered_of_stored harch hmem hretained,
    fun other hother hotherNorad => ?_⟩
  by_cases hotherRecent : history.clock - elementRetention ≤ other.epoch
  · exact hle other hother (hotherNorad.trans hnorad) hotherRecent
  · exact (not_le.mp hotherRecent).le.trans hretained

/-- In every run of the two jobs and the retention policy, the element sets
answered are the newest delivered ones of the first eligible satellites, and a
satellite without an answer was not delivered within the retention interval. -/
theorem newest_elements_answered {runtime : Runtime F}
    (hreach : (orbitSystem runtime).Reachable history) :
    (∀ request data, LatestTleSets request history.clock history.store data →
      TleAnswered request history data) ∧
    ∀ noradId data, LatestElement noradId history.store data →
      ElementAnswered noradId history data :=
  ⟨fun _ _ => tleAnswered (archived hreach),
    fun _ _ => elementAnswered (archived hreach)⟩

/-- The element set of object 5 is delivered twice for one epoch, and once for
another one that the retention policy drops. -/
def redelivered : List (OrbitEvent Unit) :=
  [.run (.orbitalElements [fifthElements (text "1 00005U first") none] false),
    .elapse (2 * elementRetention),
    .run (.orbitalElements [{ fifthElements (text "1 00005U second") none with
      epoch := 2 * elementRetention }] false),
    .run (.orbitalElements [{ fifthElements (text "1 00005U third") none with
      epoch := 2 * elementRetention }] false),
    .drop fun row => row.epoch ≠ 0]

theorem redelivered_elements_answered :
    ∃ history ∈ (orbitSystem unitRuntime).run
        ⟨⟨Table.empty, Table.empty⟩, [], 0⟩ redelivered,
      history.store.elements.rows.map OrbitalElement.tleLine1 =
          [text "1 00005U second"] ∧
        ∀ data, LatestTleSets ⟨[5], none, 500⟩ history.clock history.store
            data →
          TleAnswered ⟨[5], none, 500⟩ history data := by
  obtain ⟨history, hrun, hlines⟩ :
      ∃ history ∈ (orbitSystem unitRuntime).run
          ⟨⟨Table.empty, Table.empty⟩, [], 0⟩ redelivered,
        history.store.elements.rows.map OrbitalElement.tleLine1 =
          [text "1 00005U second"] := by
    decide +kernel
  exact ⟨history, hrun, hlines, (newest_elements_answered
    (System.reachable_of_run ⟨rfl, rfl⟩ hrun)).1 _⟩

end Answers

end UTTG.Api
