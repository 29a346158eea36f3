import UTTG.Core.Duplicates
import UTTG.Python.Text

/-!
# The unique indexes of the ingested tables

Revisions 0005 and 0006 create a unique index on each of the tables
`space_weather_indices`, `orbital_elements`, `solar_wind` and
`close_approaches`.  Before all but the second they delete the rows whose key a
row with a greater `ctid` has.  Both run in one transaction, and an index that
finds two rows of one key ends it with an error.
-/

namespace UTTG.Storage

open Python Duplicates

abbrev Uuid := BitVec 128
abbrev Timestamp := ℤ

/-- The place of a row in its table: a block and an offset. -/
abbrev Ctid := ℕ ×ₗ ℕ

/-! ## The tables -/

section Tables

variable (F : Type)

structure OrbitalElement where
  id : Uuid
  noradId : ℤ
  epoch : Timestamp
  inclination : Option F
  rightAscension : Option F
  eccentricity : Option F
  argumentOfPerigee : Option F
  meanAnomaly : Option F
  meanMotion : Option F
  provider : Text
  createdAt : Timestamp
  tleLine1 : Option Text
  tleLine2 : Option Text

structure SpaceWeatherIndex where
  id : Uuid
  timestamp : Timestamp
  kpIndex : F
  apIndex : Option F
  createdAt : Timestamp

structure SolarWind where
  id : Uuid
  timestamp : Timestamp
  speedKmS : F
  densityCm3 : F
  temperatureK : F
  createdAt : Timestamp

structure CloseApproach where
  id : Uuid
  neoId : Text
  closeApproachDate : Timestamp
  relativeVelocityKms : F
  missDistanceAu : F
  orbitingBody : Text
  createdAt : Timestamp

/-- The tables that the revisions change. -/
inductive TableName where
  | orbitalElements
  | spaceWeatherIndices
  | solarWind
  | closeApproaches
  deriving DecidableEq

namespace TableName

def Row : TableName → Type
  | orbitalElements => OrbitalElement F
  | spaceWeatherIndices => SpaceWeatherIndex F
  | solarWind => SolarWind F
  | closeApproaches => CloseApproach F

/-- The columns of the primary key. -/
def PrimaryKey : TableName → Type
  | orbitalElements => Uuid × Timestamp
  | spaceWeatherIndices => Uuid × Timestamp
  | solarWind => Uuid × Timestamp
  | closeApproaches => Uuid

/-- The columns of the unique index. -/
def Key : TableName → Type
  | orbitalElements => ℤ × Text × Timestamp
  | spaceWeatherIndices => Timestamp
  | solarWind => Timestamp
  | closeApproaches => Text × Timestamp × Text

instance : ∀ name : TableName, DecidableEq name.Key
  | orbitalElements => inferInstanceAs (DecidableEq (ℤ × Text × Timestamp))
  | spaceWeatherIndices => inferInstanceAs (DecidableEq Timestamp)
  | solarWind => inferInstanceAs (DecidableEq Timestamp)
  | closeApproaches => inferInstanceAs (DecidableEq (Text × Timestamp × Text))

instance : ∀ name : TableName, DecidableEq name.PrimaryKey
  | orbitalElements => inferInstanceAs (DecidableEq (Uuid × Timestamp))
  | spaceWeatherIndices => inferInstanceAs (DecidableEq (Uuid × Timestamp))
  | solarWind => inferInstanceAs (DecidableEq (Uuid × Timestamp))
  | closeApproaches => inferInstanceAs (DecidableEq Uuid)

variable {F}

def primaryKey : (name : TableName) → name.Row F → name.PrimaryKey
  | orbitalElements => fun row => (row.id, row.epoch)
  | spaceWeatherIndices => fun row => (row.id, row.timestamp)
  | solarWind => fun row => (row.id, row.timestamp)
  | closeApproaches => fun row => row.id

def key : (name : TableName) → name.Row F → name.Key
  | orbitalElements => fun row => (row.noradId, row.provider, row.epoch)
  | spaceWeatherIndices => fun row => row.timestamp
  | solarWind => fun row => row.timestamp
  | closeApproaches => fun row =>
      (row.neoId, row.closeApproachDate, row.orbitingBody)

end TableName

structure Stored (Row : Type) where
  ctid : Ctid
  row : Row

/-- The index key of a stored row. -/
def keyOf (name : TableName) (stored : Stored (name.Row F)) : name.Key :=
  name.key stored.row

/-- What a table holds. -/
structure Heap (name : TableName) where
  rows : List (Stored (name.Row F))
  ctids : (rows.map Stored.ctid).Nodup
  primary : (rows.map fun stored => name.primaryKey stored.row).Nodup

/-- The contents that revision 0004 allows.  Of the tables that the foreign keys
refer to only the keys matter. -/
structure Tables where
  satellites : List ℤ
  nearEarthObjects : List Text
  heap : (name : TableName) → Heap F name
  satellite : ∀ stored ∈ (heap .orbitalElements).rows,
    OrbitalElement.noradId stored.row ∈ satellites
  nearEarthObject : ∀ stored ∈ (heap .closeApproaches).rows,
    CloseApproach.neoId stored.row ∈ nearEarthObjects

/-- The tables, with a unique index on some of them. -/
structure Database extends Tables F where
  uniqueIndexes : List TableName
  unique : ∀ name ∈ uniqueIndexes,
    ((heap name).rows.map (keyOf F name)).Nodup

/-- The error of `CREATE UNIQUE INDEX` on a table with two rows of one key. -/
structure UniqueViolation where
  table : TableName
  deriving DecidableEq

end Tables

variable {F : Type}

/-! ## The statements -/

/-- `DELETE FROM current_row USING duplicate` on one table. -/
def Heap.deleteDuplicates {name : TableName} (heap : Heap F name) :
    Heap F name where
  rows := deleteSuperseded (keyOf F name) Stored.ctid heap.rows
  ctids := (List.filter_sublist.map _).nodup heap.ctids
  primary := (List.filter_sublist.map _).nodup heap.primary

/-- The heaps after the deletion from one of them. -/
def heapsWithout (name : TableName) (heap : (name : TableName) → Heap F name) :
    (name : TableName) → Heap F name :=
  Function.update heap name (heap name).deleteDuplicates

theorem heapsWithout_sublist (name : TableName)
    (heap : (name : TableName) → Heap F name) (other : TableName) :
    (heapsWithout name heap other).rows.Sublist (heap other).rows := by
  rcases eq_or_ne other name with rfl | hne
  · rw [heapsWithout, Function.update_self]
    exact List.filter_sublist
  · rw [heapsWithout, Function.update_of_ne hne]

namespace Database

def deleteDuplicates (name : TableName) (database : Database F) :
    Database F where
  satellites := database.satellites
  nearEarthObjects := database.nearEarthObjects
  heap := heapsWithout name database.heap
  satellite stored hmem :=
    database.satellite stored ((heapsWithout_sublist name _ _).subset hmem)
  nearEarthObject stored hmem :=
    database.nearEarthObject stored ((heapsWithout_sublist name _ _).subset hmem)
  uniqueIndexes := database.uniqueIndexes
  unique other hmem :=
    ((heapsWithout_sublist name _ other).map _).nodup (database.unique other hmem)

/-- `create_index(…, unique=True)`. -/
def createUniqueIndex (name : TableName) (database : Database F) :
    Except UniqueViolation (Database F) :=
  if hunique : ((database.heap name).rows.map (keyOf F name)).Nodup then
    .ok
      { toTables := database.toTables
        uniqueIndexes := name :: database.uniqueIndexes
        unique := List.forall_mem_cons.mpr ⟨hunique, database.unique⟩ }
  else .error ⟨name⟩

end Database

/-- The upgrade of revision 0005. -/
def upgradeFive (database : Database F) : Except UniqueViolation (Database F) := do
  let database := database.deleteDuplicates .spaceWeatherIndices
  let database ← database.createUniqueIndex .spaceWeatherIndices
  database.createUniqueIndex .orbitalElements

/-- The upgrade of revision 0006. -/
def upgradeSix (database : Database F) : Except UniqueViolation (Database F) := do
  let database := database.deleteDuplicates .solarWind
  let database ← database.createUniqueIndex .solarWind
  let database := database.deleteDuplicates .closeApproaches
  database.createUniqueIndex .closeApproaches

/-- Revision 0004 has none of the indexes. -/
def Tables.revisionFour (tables : Tables F) : Database F where
  toTables := tables
  uniqueIndexes := []
  unique _ hmem := absurd hmem List.not_mem_nil

/-- The upgrades, in one transaction. -/
def upgrades (tables : Tables F) : Except UniqueViolation (Database F) :=
  upgradeFive tables.revisionFour >>= upgradeSix

/-! ## What is asked of the upgrades -/

/-- Every table has its index, and of every key the row with the greatest `ctid`
and no other. -/
structure Upgraded (before : Tables F) (after : Database F) : Prop where
  indexed : ∀ name, name ∈ after.uniqueIndexes
  deduplicated : ∀ name,
    Deduplicated (keyOf F name) Stored.ctid (before.heap name).rows
      (after.heap name).rows

def Upheld (tables : Tables F) : Prop :=
  ∃ after, upgrades tables = .ok after ∧ Upgraded tables after

/-- No two orbital elements have satellite, provider and epoch in common. -/
def SourceEpochsDistinct (tables : Tables F) : Prop :=
  ((tables.heap .orbitalElements).rows.map (keyOf F .orbitalElements)).Nodup

/-! ## The statements, one after another -/

namespace Database

theorem createUniqueIndex_eq_ok {name : TableName} {database : Database F}
    (hunique : ((database.heap name).rows.map (keyOf F name)).Nodup) :
    ∃ next, database.createUniqueIndex name = .ok next ∧
      next.heap = database.heap ∧
        next.uniqueIndexes = name :: database.uniqueIndexes :=
  ⟨_, dif_pos hunique, rfl, rfl⟩

/-- After the deletion the index is created. -/
theorem createUniqueIndex_deleteDuplicates (name : TableName)
    (database : Database F) :
    ∃ next, (database.deleteDuplicates name).createUniqueIndex name = .ok next ∧
      next.heap = heapsWithout name database.heap ∧
        next.uniqueIndexes = name :: database.uniqueIndexes := by
  apply createUniqueIndex_eq_ok
  change ((heapsWithout name database.heap name).rows.map _).Nodup
  rw [heapsWithout, Function.update_self]
  exact (deduplicated_deleteSuperseded (database.heap name).ctids).distinct

theorem createUniqueIndex_eq_error {name : TableName} {database : Database F}
    (hrepeated : ¬((database.heap name).rows.map (keyOf F name)).Nodup) :
    database.createUniqueIndex name = .error ⟨name⟩ :=
  dif_neg hrepeated

end Database

theorem heapsWithout_of_ne {name other : TableName} (hne : other ≠ name)
    (heap : (name : TableName) → Heap F name) :
    heapsWithout name heap other = heap other :=
  Function.update_of_ne hne _ _

/-- A deletion keeps the last row of each key of its table. -/
theorem deduplicated_heapsWithout (name : TableName)
    (heap : (name : TableName) → Heap F name) :
    Deduplicated (keyOf F name) Stored.ctid (heap name).rows
      (heapsWithout name heap name).rows := by
  rw [heapsWithout, Function.update_self]
  exact deduplicated_deleteSuperseded (heap name).ctids

/-! ## The two revisions -/

/-- The index of `orbital_elements` is created without a deletion before. -/
theorem upgradeFive_eq_ok {database : Database F}
    (hdistinct : SourceEpochsDistinct database.toTables) :
    ∃ next, upgradeFive database = .ok next ∧
      next.heap = heapsWithout .spaceWeatherIndices database.heap ∧
        next.uniqueIndexes =
          .orbitalElements :: .spaceWeatherIndices :: database.uniqueIndexes := by
  obtain ⟨indexed, hindexed, hheap, hindexes⟩ :=
    database.createUniqueIndex_deleteDuplicates .spaceWeatherIndices
  have hkept : SourceEpochsDistinct indexed.toTables := by
    rwa [SourceEpochsDistinct, hheap, heapsWithout_of_ne (by decide)]
  obtain ⟨next, hnext, hsame, hadded⟩ := Database.createUniqueIndex_eq_ok hkept
  refine ⟨next, ?_, hsame.trans hheap, hadded.trans (by rw [hindexes])⟩
  rw [upgradeFive, hindexed]
  exact hnext

theorem upgradeFive_eq_error {database : Database F}
    (hrepeated : ¬SourceEpochsDistinct database.toTables) :
    upgradeFive database = .error ⟨.orbitalElements⟩ := by
  obtain ⟨indexed, hindexed, hheap, -⟩ :=
    database.createUniqueIndex_deleteDuplicates .spaceWeatherIndices
  have hkept : ¬SourceEpochsDistinct indexed.toTables := by
    rwa [SourceEpochsDistinct, hheap, heapsWithout_of_ne (by decide)]
  rw [upgradeFive, hindexed]
  exact Database.createUniqueIndex_eq_error hkept

theorem upgradeSix_eq_ok (database : Database F) :
    ∃ next, upgradeSix database = .ok next ∧
      next.heap = heapsWithout .closeApproaches
        (heapsWithout .solarWind database.heap) ∧
        next.uniqueIndexes =
          .closeApproaches :: .solarWind :: database.uniqueIndexes := by
  obtain ⟨indexed, hindexed, hheap, hindexes⟩ :=
    database.createUniqueIndex_deleteDuplicates .solarWind
  obtain ⟨next, hnext, hsame, hadded⟩ :=
    indexed.createUniqueIndex_deleteDuplicates .closeApproaches
  refine ⟨next, ?_, ?_, ?_⟩
  · rw [upgradeSix, hindexed]
    exact hnext
  · rw [hsame, hheap]
  · rw [hadded, hindexes]

/-- What the tables hold after both revisions. -/
theorem upgraded_heaps {tables : Tables F}
    (hdistinct : SourceEpochsDistinct tables)
    {heap : (name : TableName) → Heap F name}
    (hheap : heap = heapsWithout .closeApproaches (heapsWithout .solarWind
      (heapsWithout .spaceWeatherIndices tables.heap))) (name : TableName) :
    Deduplicated (keyOf F name) Stored.ctid (tables.heap name).rows
      (heap name).rows := by
  have houtside {name : TableName} (happroaches : name ≠ .closeApproaches)
      (hwind : name ≠ .solarWind) :
      heap name = heapsWithout .spaceWeatherIndices tables.heap name := by
    rw [hheap, heapsWithout_of_ne happroaches, heapsWithout_of_ne hwind]
  cases name with
  | orbitalElements =>
      rw [houtside (by decide) (by decide), heapsWithout_of_ne (by decide)]
      exact deduplicated_self hdistinct
  | spaceWeatherIndices =>
      rw [houtside (by decide) (by decide)]
      exact deduplicated_heapsWithout _ _
  | solarWind =>
      have hwind := deduplicated_heapsWithout .solarWind
        (heapsWithout .spaceWeatherIndices tables.heap)
      rw [heapsWithout_of_ne (by decide)] at hwind
      rwa [hheap, heapsWithout_of_ne (by decide)]
  | closeApproaches =>
      have happroaches := deduplicated_heapsWithout .closeApproaches
        (heapsWithout .solarWind
          (heapsWithout .spaceWeatherIndices tables.heap))
      rw [heapsWithout_of_ne (by decide), heapsWithout_of_ne (by decide)]
        at happroaches
      rwa [hheap]

/-- The upgrades do what is asked of them exactly where `orbital_elements` has
no duplicates. -/
theorem upgrades_succeed_iff (tables : Tables F) :
    Upheld tables ↔ SourceEpochsDistinct tables := by
  constructor
  · rintro ⟨after, hupgrades, -⟩
    by_contra hrepeated
    have herror : upgradeFive tables.revisionFour = .error ⟨.orbitalElements⟩ :=
      upgradeFive_eq_error hrepeated
    rw [upgrades, herror] at hupgrades
    cases hupgrades
  · intro hdistinct
    have hbefore : SourceEpochsDistinct tables.revisionFour.toTables := hdistinct
    obtain ⟨five, hfive, hfiveheap, hfiveindexes⟩ := upgradeFive_eq_ok hbefore
    obtain ⟨after, hsix, hheap, hindexes⟩ := upgradeSix_eq_ok five
    refine ⟨after, ?_, ?_, ?_⟩
    · rw [upgrades, hfive]
      exact hsix
    · rw [hindexes, hfiveindexes]
      intro name
      cases name <;> simp
    · apply upgraded_heaps hdistinct
      rw [hheap, hfiveheap]
      rfl

/-! ## Two elements of one source and epoch -/

/-- An element of satellite 25544 at the epoch `0`. -/
def stationElement (id : Uuid) : OrbitalElement Unit where
  id := id
  noradId := 25544
  epoch := 0
  inclination := none
  rightAscension := none
  eccentricity := none
  argumentOfPerigee := none
  meanAnomaly := none
  meanMotion := none
  provider := text "celestrak"
  createdAt := 0
  tleLine1 := none
  tleLine2 := none

/-- Two elements that differ in their ids, and nothing else. -/
def twiceIngested : Tables Unit where
  satellites := [25544]
  nearEarthObjects := []
  heap
    | .orbitalElements =>
        { rows := [⟨toLex (0, 1), stationElement 1⟩, ⟨toLex (0, 2), stationElement 2⟩]
          ctids := by decide
          primary := by decide }
    | _ => ⟨[], List.nodup_nil, List.nodup_nil⟩
  satellite stored hmem := by
    simp only [List.mem_cons, List.not_mem_nil, or_false] at hmem
    rcases hmem with rfl | rfl <;> decide
  nearEarthObject stored hmem := absurd hmem List.not_mem_nil

/-- The index of revision 0005 finds both elements. -/
theorem twice_ingested_not_upgraded : ¬Upheld twiceIngested := by
  rintro ⟨after, hupgrades, -⟩
  have hrepeated : ¬SourceEpochsDistinct twiceIngested.revisionFour.toTables := by
    rw [SourceEpochsDistinct]
    decide
  rw [upgrades, upgradeFive_eq_error hrepeated] at hupgrades
  cases hupgrades

end UTTG.Storage
