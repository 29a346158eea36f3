import UTTG.Core.Selection
import UTTG.Ingestion.NearEarth

/-!
# The endpoints for near-Earth objects

`get_neo`, `hazardous_neos`, `neo_statistics`, `get_neo_approaches` and
`upcoming_approaches` over the two tables.  Whatever the jobs did before, they
answer from the last deliveries, and no approach is lost in the join with the
objects.
-/

namespace UTTG.Api

open Python Ingestion Selection UTTG.Transition
open Launches (Instant)

/-! ## The statements -/

section Statements

variable {F : Type} {runtime : Runtime F}

/-- An item of `hazardous_neos`. -/
structure HazardousItem (F : Type) where
  id : Text
  name : Json F
  absoluteMagnitudeH : Option (PyFloat F)

def hazardousItem (row : NearEarthObject F) : HazardousItem F :=
  ⟨row.id, row.name, row.absoluteMagnitudeH⟩

/-- The data of `neo_statistics`. -/
structure NeoStatistics where
  total : ℕ
  potentiallyHazardous : ℕ
  sentry : ℕ
  deriving DecidableEq

/-- An item of `upcoming_approaches`. -/
structure UpcomingApproach (F : Type) where
  neoId : Text
  name : Json F
  closeApproachDate : Instant
  relativeVelocityKms : PyFloat F
  missDistanceAu : PyFloat F
  missDistanceLunar : PyFloat F
  orbitingBody : Json F
  estimatedDiameterMinKm : Option (PyFloat F)
  estimatedDiameterMaxKm : Option (PyFloat F)
  isPotentiallyHazardous : Bool

/-- `lunar` is `round(distance * _LUNAR_DISTANCES_PER_AU, 2)`. -/
def upcomingApproach (lunar : PyFloat F → PyFloat F)
    (row : CloseApproach F × NearEarthObject F) : UpcomingApproach F where
  neoId := row.1.neoId
  name := row.2.name
  closeApproachDate := row.1.closeApproachDate
  relativeVelocityKms := row.1.relativeVelocityKms
  missDistanceAu := row.1.missDistanceAu
  missDistanceLunar := lunar row.1.missDistanceAu
  orbitingBody := row.1.orbitingBody
  estimatedDiameterMinKm := row.2.estimatedDiameterMinKm
  estimatedDiameterMaxKm := row.2.estimatedDiameterMaxKm
  isPotentiallyHazardous := row.2.isPotentiallyHazardous

/-- The data of `get_neo`, or the 404; `_neo_response` has all columns. -/
def getNeo (neoId : Text) (store : NeoStore runtime) :
    Option (NearEarthObject F) :=
  store.objects.find neoId

/-- The data of `hazardous_neos`.  The database compares strings by its
collation. -/
def HazardousNeos (collation : LinearOrder Text) (limit : ℕ)
    (store : NeoStore runtime) (data : List (HazardousItem F)) : Prop :=
  ∃ rows, @Answers _ _ collation NearEarthObject.id
      NearEarthObject.isPotentiallyHazardous limit store.objects.rows rows ∧
    data = rows.map hazardousItem

/-- The data of `neo_statistics`. -/
def neoStatistics (store : NeoStore runtime) : NeoStatistics where
  total := store.objects.rows.length
  potentiallyHazardous :=
    store.objects.count NearEarthObject.isPotentiallyHazardous
  sentry := store.objects.count NearEarthObject.isSentryObject

/-- The data of `get_neo_approaches`, which has all columns. -/
def NeoApproachList (limit : ℕ) (store : NeoStore runtime)
    (data : List (CloseApproach F)) : Prop :=
  Answers (fun row : CloseApproach F => OrderDual.toDual row.closeApproachDate)
    (fun _ => true) limit store.approaches.rows data

/-- `join(NearEarthObject, NearEarthObject.id == CloseApproach.neo_id)`. -/
def joinedApproaches (store : NeoStore runtime) :
    List (CloseApproach F × NearEarthObject F) :=
  store.approaches.rows.filterMap fun approach =>
    (store.objects.find approach.neoId).map fun neo => (approach, neo)

/-- `start <= close_approach_date < start + timedelta(days=days)`. -/
def approaching (start : Instant) (days : ℕ) (row : CloseApproach F) : Bool :=
  start ≤ row.closeApproachDate &&
    row.closeApproachDate < start + days * 86400 * 1000000

/-- The data of `upcoming_approaches`. -/
def UpcomingApproaches (lunar : PyFloat F → PyFloat F) (days limit : ℕ)
    (start : Instant) (store : NeoStore runtime)
    (data : List (UpcomingApproach F)) : Prop :=
  ∃ rows, Answers (fun row : CloseApproach F × NearEarthObject F =>
      row.1.closeApproachDate) (fun row => approaching start days row.1) limit
      (joinedApproaches store) rows ∧
    data = rows.map (upcomingApproach lunar)

end Statements

/-! ## What is asked of the answers -/

section Answered

variable {F : Type} {runtime : Runtime F}

/-- The object as it was delivered last. -/
def LastObject (history : NeoHistory runtime) (row : NearEarthObject F) :
    Prop :=
  Dict.IsLast NearEarthObject.id history.objects row

/-- The approach as it was delivered last. -/
def LastApproach (history : NeoHistory runtime) (row : CloseApproach F) :
    Prop :=
  Dict.IsLast (CloseApproach.key runtime) history.approaches row

/-- The first hazardous objects by id, as they were delivered last. -/
def HazardousAnswered (collation : LinearOrder Text) (limit : ℕ)
    (history : NeoHistory runtime) (data : List (HazardousItem F)) : Prop :=
  ∃ rows, @FirstOf _ _ collation (fun row => LastObject history row ∧
      row.isPotentiallyHazardous = true) NearEarthObject.id limit rows ∧
    data = rows.map hazardousItem

/-- The ids that were delivered, and those of them whose last delivery has a
flag. -/
structure StatisticsAnswered (history : NeoHistory runtime)
    (data : NeoStatistics) : Prop where
  total : data.total = (history.objects.map NearEarthObject.id).toFinset.card
  potentiallyHazardous : data.potentiallyHazardous =
    ((history.objects.map NearEarthObject.id).toFinset.filter fun id =>
      (Table.lastWith NearEarthObject.id history.objects id).any
        NearEarthObject.isPotentiallyHazardous).card
  sentry : data.sentry =
    ((history.objects.map NearEarthObject.id).toFinset.filter fun id =>
      (Table.lastWith NearEarthObject.id history.objects id).any
        NearEarthObject.isSentryObject).card

/-- The first approaches of the window by date, as they and their objects were
delivered last; none in the window lacks its object. -/
def UpcomingAnswered (lunar : PyFloat F → PyFloat F) (days limit : ℕ)
    (start : Instant) (history : NeoHistory runtime)
    (data : List (UpcomingApproach F)) : Prop :=
  ∃ rows, FirstOf (fun row : CloseApproach F × NearEarthObject F =>
      (LastApproach history row.1 ∧ approaching start days row.1 = true) ∧
        LastObject history row.2 ∧ row.2.id = row.1.neoId)
      (fun row => row.1.closeApproachDate) limit rows ∧
    data = rows.map (upcomingApproach lunar) ∧
    ∀ approach, LastApproach history approach →
      ∃ object, LastObject history object ∧ object.id = approach.neoId

end Answered

section Answers

variable {F : Type} {runtime : Runtime F} {history : NeoHistory runtime}

theorem mem_objects_iff (hlatest : Latest history)
    {row : NearEarthObject F} :
    row ∈ history.store.objects.rows ↔ LastObject history row := by
  rw [LastObject, isLast_iff, ← hlatest.objects, Table.find_eq_some_iff]
  exact ⟨fun hmem => ⟨hmem, rfl⟩, And.left⟩

theorem mem_approaches_iff (hlatest : Latest history)
    {row : CloseApproach F} :
    row ∈ history.store.approaches.rows ↔ LastApproach history row := by
  rw [LastApproach, isLast_iff, ← hlatest.approaches, Table.find_eq_some_iff]
  exact ⟨fun hmem => ⟨hmem, rfl⟩, And.left⟩

theorem mem_joinedApproaches (hlatest : Latest history)
    {row : CloseApproach F × NearEarthObject F} :
    row ∈ joinedApproaches history.store ↔ LastApproach history row.1 ∧
      LastObject history row.2 ∧ row.2.id = row.1.neoId := by
  simp only [joinedApproaches, List.mem_filterMap, Option.map_eq_some_iff]
  constructor
  · rintro ⟨approach, hmem, object, hfind, rfl⟩
    obtain ⟨hobject, hid⟩ := (Table.find_eq_some_iff _ _ _).mp hfind
    exact ⟨(mem_approaches_iff hlatest).mp hmem,
      (mem_objects_iff hlatest).mp hobject, hid⟩
  · rintro ⟨happroach, hobject, hid⟩
    exact ⟨row.1, (mem_approaches_iff hlatest).mpr happroach, row.2,
      (Table.find_eq_some_iff _ _ _).mpr
        ⟨(mem_objects_iff hlatest).mpr hobject, hid⟩, rfl⟩

/-- Every approach has its object, so that the join loses none. -/
theorem exists_lastObject (hlatest : Latest history)
    {approach : CloseApproach F} (happroach : LastApproach history approach) :
    ∃ object, LastObject history object ∧ object.id = approach.neoId := by
  obtain ⟨before, after, hsplit, -⟩ := happroach
  have hmem : approach ∈ history.approaches := by
    rw [hsplit]
    simp
  obtain ⟨object, hobject, hid⟩ := hlatest.parents approach hmem
  obtain ⟨last, hlast⟩ : ∃ last, Table.lastWith NearEarthObject.id
      history.objects object.id = some last := Table.exists_lastWith hobject
  have hsame := (Table.of_lastWith hlast).2
  refine ⟨last, isLast_iff.mpr ?_, hsame.trans hid⟩
  rw [hsame]
  exact hlast

theorem nodup_joinedApproaches (store : NeoStore runtime) :
    (joinedApproaches store).Nodup := by
  apply List.Nodup.filterMap _ (List.Nodup.of_map _ store.approaches.distinct)
  intro first second row hfirst hsecond
  obtain ⟨object, -, rfl⟩ := Option.map_eq_some_iff.mp hfirst
  obtain ⟨other, -, hother⟩ := Option.map_eq_some_iff.mp hsecond
  exact (congrArg Prod.fst hother).symm

/-- The ids that are found are those that were delivered. -/
theorem mem_ids_iff (hlatest : Latest history) {id : Text} :
    id ∈ history.objects.map NearEarthObject.id ↔
      ∃ row ∈ history.store.objects.rows, row.id = id := by
  rw [List.mem_map]
  constructor
  · rintro ⟨row, hrow, rfl⟩
    obtain ⟨last, hlast⟩ : ∃ last, Table.lastWith NearEarthObject.id
        history.objects row.id = some last := Table.exists_lastWith hrow
    rw [← hlatest.objects] at hlast
    exact ⟨last, (Table.find_eq_some_iff _ _ _).mp hlast⟩
  · rintro ⟨row, hrow, rfl⟩
    obtain ⟨before, after, hsplit, -⟩ := (mem_objects_iff hlatest).mp hrow
    exact ⟨row, by rw [hsplit]; simp, rfl⟩

/-- A count of rows is a count of ids. -/
theorem count_objects (hlatest : Latest history)
    (flag : NearEarthObject F → Bool) :
    history.store.objects.count flag =
      ((history.objects.map NearEarthObject.id).toFinset.filter fun id =>
        (Table.lastWith NearEarthObject.id history.objects id).any
          flag).card := by
  have hnodup : ((history.store.objects.rows.filter flag).map
      NearEarthObject.id).Nodup :=
    (List.filter_sublist.map _).nodup history.store.objects.distinct
  calc history.store.objects.count flag
      = ((history.store.objects.rows.filter flag).map
          NearEarthObject.id).length := by
        rw [List.length_map, Table.count, List.countP_eq_length_filter]
    _ = ((history.store.objects.rows.filter flag).map
          NearEarthObject.id).toFinset.card :=
        (List.toFinset_card_of_nodup hnodup).symm
    _ = _ := by
        congr 1
        ext id
        rw [Finset.mem_filter, List.mem_toFinset, List.mem_toFinset,
          mem_ids_iff hlatest, ← hlatest.objects, List.mem_map]
        constructor
        · rintro ⟨row, hrow, rfl⟩
          obtain ⟨hmem, hflag⟩ := List.mem_filter.mp hrow
          have hfind : history.store.objects.find row.id = some row :=
            (Table.find_eq_some_iff _ _ _).mpr ⟨hmem, rfl⟩
          rw [hfind]
          exact ⟨⟨row, hmem, rfl⟩, hflag⟩
        · rintro ⟨⟨row, hmem, rfl⟩, hflag⟩
          have hfind : history.store.objects.find row.id = some row :=
            (Table.find_eq_some_iff _ _ _).mpr ⟨hmem, rfl⟩
          rw [hfind] at hflag
          exact ⟨row, List.mem_filter.mpr ⟨hmem, hflag⟩, rfl⟩

theorem statisticsAnswered (hlatest : Latest history) :
    StatisticsAnswered history (neoStatistics history.store) := by
  refine ⟨?_, count_objects hlatest _, count_objects hlatest _⟩
  calc history.store.objects.rows.length
      = history.store.objects.count fun _ => true := by
        rw [Table.count, List.countP_true]
    _ = _ := count_objects hlatest _
    _ = (history.objects.map NearEarthObject.id).toFinset.card := by
        congr 1
        apply Finset.filter_true_of_mem
        intro id hid
        obtain ⟨row, hrow, rfl⟩ := List.mem_map.mp (List.mem_toFinset.mp hid)
        obtain ⟨last, hlast⟩ : ∃ last, Table.lastWith NearEarthObject.id
            history.objects row.id = some last := Table.exists_lastWith hrow
        rw [hlast]
        rfl

theorem hazardousAnswered (hlatest : Latest history)
    {collation : LinearOrder Text} {limit : ℕ} {data : List (HazardousItem F)}
    (hdata : HazardousNeos collation limit history.store data) :
    HazardousAnswered collation limit history data := by
  obtain ⟨rows, hrows, rfl⟩ := hdata
  refine ⟨rows, @Answers.firstOf _ _ collation _ _ _ _ _ hrows
    (List.Nodup.of_map _ history.store.objects.distinct) _ fun row => ?_, rfl⟩
  rw [mem_objects_iff hlatest]

theorem upcomingAnswered (hlatest : Latest history)
    {lunar : PyFloat F → PyFloat F} {days limit : ℕ} {start : Instant}
    {data : List (UpcomingApproach F)}
    (hdata : UpcomingApproaches lunar days limit start history.store data) :
    UpcomingAnswered lunar days limit start history data := by
  obtain ⟨rows, hrows, rfl⟩ := hdata
  refine ⟨rows, hrows.firstOf (nodup_joinedApproaches _) fun row => ?_, rfl,
    fun approach => exists_lastObject hlatest⟩
  rw [mem_joinedApproaches hlatest]
  tauto

theorem approachListAnswered (hlatest : Latest history) {limit : ℕ}
    {data : List (CloseApproach F)}
    (hdata : NeoApproachList limit history.store data) :
    FirstOf (LastApproach history) (fun row =>
      OrderDual.toDual row.closeApproachDate) limit data := by
  apply Answers.firstOf hdata
    (List.Nodup.of_map _ history.store.approaches.distinct)
  intro row
  rw [mem_approaches_iff hlatest, and_iff_left rfl]

/-- In every run of the two jobs the endpoints answer from the last deliveries;
and a run leaves no trace only where it was refused, where it raised before its
first statement, or where a text column is no string, never because of a foreign
key or of a row that would be updated twice. -/
theorem last_deliveries_answered
    {strptime : String → Text → Option Instant}
    {fromisoformat : Text → Option Instant}
    (hreach : (neoSystem runtime strptime fromisoformat).Reachable history) :
    (∀ neoId, getNeo neoId history.store =
      Table.lastWith NearEarthObject.id history.objects neoId) ∧
    (∀ collation limit data,
      HazardousNeos collation limit history.store data →
        HazardousAnswered collation limit history data) ∧
    StatisticsAnswered history (neoStatistics history.store) ∧
    (∀ limit data, NeoApproachList limit history.store data →
      FirstOf (LastApproach history) (fun row =>
        OrderDual.toDual row.closeApproachDate) limit data) ∧
    (∀ lunar days limit start data,
      UpcomingApproaches lunar days limit start history.store data →
        UpcomingAnswered lunar days limit start history data) ∧
    ∀ run : NeoRun F,
      run.commit strptime fromisoformat history.store = none →
        run.refused = true ∨
        run.records strptime fromisoformat runtime = none ∨
        ∃ delivered, run.records strptime fromisoformat runtime =
          some delivered ∧ ¬Written runtime delivered := by
  have hlatest := latest_of_reachable hreach
  refine ⟨hlatest.objects, fun _ _ _ => hazardousAnswered hlatest,
    statisticsAnswered hlatest, fun _ _ => approachListAnswered hlatest,
    fun _ _ _ _ _ => upcomingAnswered hlatest, fun run hnone => ?_⟩
  rcases run.commit_cases strptime fromisoformat hlatest.texts with
    ⟨-, hreason⟩ | ⟨delivered, next, -, hcommit, -⟩
  · exact hreason
  · rw [hnone] at hcommit
    simp at hcommit

/-- Object `7` comes from both jobs, its approach from both with another
distance. -/
def twiceDelivered : List (NeoRun Unit) :=
  [.jpl [⟨text "7", text "seven", 0, (), (), none, none, none⟩] [text "7"] []
      false,
    .nasa sampleFeed false]

theorem twice_delivered_answered :
    ∃ history ∈ (neoSystem zeroRuntime epochDate fun _ => none).run
        ⟨⟨Table.empty, Table.empty⟩, [], []⟩ twiceDelivered,
      history.approaches.length = 2 ∧
      history.store.approaches.rows.length = 1 ∧
      neoStatistics history.store = ⟨1, 0, 0⟩ ∧
      StatisticsAnswered history (neoStatistics history.store) := by
  obtain ⟨history, hrun, hlength, hrows, hstatistics⟩ :
      ∃ history ∈ (neoSystem zeroRuntime epochDate fun _ => none).run
          ⟨⟨Table.empty, Table.empty⟩, [], []⟩ twiceDelivered,
        history.approaches.length = 2 ∧
        history.store.approaches.rows.length = 1 ∧
        neoStatistics history.store = ⟨1, 0, 0⟩ := by
    decide +kernel
  obtain ⟨-, -, hanswered, -⟩ :=
    last_deliveries_answered (System.reachable_of_run rfl hrun)
  exact ⟨history, hrun, hlength, hrows, hstatistics, hanswered⟩

end Answers

end UTTG.Api
