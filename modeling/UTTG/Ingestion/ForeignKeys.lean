import UTTG.Core.Loops
import UTTG.Ingestion.Catalog

/-!
# Parents before children

`orbital_elements` refers to `satellites`, and `close_approaches` refers to
`near_earth_objects`.  The CelesTrak, JPL and NASA jobs build the parent and the
child rows of a run from the same records, and execute the statements with the
parents first.
-/

namespace UTTG.Ingestion

open Python UTTG.Loops
open Launches (Instant)

/-! ## References of statements -/

/-- The key of a row that other rows refer to. -/
inductive ParentKey where
  | satellite (noradId : ℤ)
  | nearEarthObject (id : Text)
  deriving DecidableEq

section References

variable {F : Type}

/-- The keys of the parent rows that a statement inserts. -/
def Statement.parents : Statement F → List ParentKey
  | .satellites rows => rows.map fun row => .satellite row.noradId
  | .nearEarthObjects rows => rows.map fun row => .nearEarthObject row.id
  | _ => []

/-- The foreign keys of the rows that a statement inserts. -/
def Statement.references : Statement F → List ParentKey
  | .orbitalElements rows => rows.map fun row => .satellite row.noradId
  | .closeApproaches rows => rows.map fun row => .nearEarthObject row.neoId
  | _ => []

/-- Every foreign key occurs among the parents of an earlier statement of the
transaction. -/
def ParentsFirst (statements : List (Statement F)) : Prop :=
  ∀ before statement after, statements = before ++ statement :: after →
    ∀ key ∈ statement.references, ∃ earlier ∈ before, key ∈ earlier.parents

/-- The keys of the parent rows of a transaction. -/
def parentKeys (statements : List (Statement F)) : Set ParentKey :=
  {key | ∃ statement ∈ statements, key ∈ statement.parents}

theorem mem_parentKeys {statements : List (Statement F)} {key : ParentKey} :
    key ∈ parentKeys statements ↔
      ∃ statement ∈ statements, key ∈ statement.parents :=
  Iff.rfl

def elementRows (statements : List (Statement F)) :
    List (OrbitalElement F) :=
  statements.flatMap fun
    | .orbitalElements rows => rows
    | _ => []

def approachRows (statements : List (Statement F)) :
    List (CloseApproach F) :=
  statements.flatMap fun
    | .closeApproaches rows => rows
    | _ => []

/-- Each `(neo_id, close_approach_date, orbiting_body)` of the rows is written
once, with the values of its last row. -/
def WritesLast (runtime : Runtime F) (statements : List (Statement F))
    (rows : List (CloseApproach F)) : Prop :=
  ((approachRows statements).map (CloseApproach.key runtime)).Nodup ∧
    ∀ row, row ∈ approachRows statements ↔
      Dict.IsLast (CloseApproach.key runtime) rows row

/-- Statements that only insert parents, and after them statements whose keys
the parents have. -/
theorem parentsFirst_append {parents children : List (Statement F)}
    (hparents : ∀ statement ∈ parents, statement.references = [])
    (hchildren : ∀ statement ∈ children, ∀ key ∈ statement.references,
      key ∈ parentKeys parents) : ParentsFirst (parents ++ children) := by
  intro before statement after hsplit key hkey
  rcases List.append_eq_append_iff.mp hsplit with
    ⟨middle, rfl, hmiddle⟩ | ⟨middle, hmiddle, hrest⟩
  · have hmem : statement ∈ children := by
      rw [hmiddle]
      simp
    rcases hchildren statement hmem key hkey with ⟨earlier, hearlier, hkeys⟩
    exact ⟨earlier, List.mem_append_left _ hearlier, hkeys⟩
  · cases middle with
    | nil =>
        have hmem : statement ∈ children := by
          rw [← List.nil_append children, ← hrest]
          exact List.mem_cons_self
        rcases hchildren statement hmem key hkey with
          ⟨earlier, hearlier, hkeys⟩
        rw [List.append_nil] at hmiddle
        exact ⟨earlier, hmiddle ▸ hearlier, hkeys⟩
    | cons first rest =>
        have hfirst : statement = first := (List.cons.inj hrest).1
        have hmem : statement ∈ parents := by
          rw [hmiddle, hfirst]
          simp
        rw [hparents statement hmem] at hkey
        exact absurd hkey List.not_mem_nil

theorem parentKeys_append (parents children : List (Statement F)) :
    parentKeys (parents ++ children) =
      parentKeys parents ∪ parentKeys children := by
  ext key
  simp only [Set.mem_union, mem_parentKeys, List.mem_append]
  constructor
  · rintro ⟨statement, hmem | hmem, hkey⟩
    · exact .inl ⟨statement, hmem, hkey⟩
    · exact .inr ⟨statement, hmem, hkey⟩
  · rintro (⟨statement, hmem, hkey⟩ | ⟨statement, hmem, hkey⟩)
    · exact ⟨statement, .inl hmem, hkey⟩
    · exact ⟨statement, .inr hmem, hkey⟩

/-- The batches of a list of rows have the keys of the rows. -/
theorem exists_mem_batches {Row Key : Type} (keyOf : Row → Key)
    (values : List Row) {size : ℕ} (hsize : 0 < size) (key : Key) :
    (∃ batch ∈ batches values size, key ∈ batch.map keyOf) ↔
      key ∈ values.map keyOf := by
  calc (∃ batch ∈ batches values size, key ∈ batch.map keyOf)
      ↔ ∃ row ∈ (batches values size).flatten, keyOf row = key := by
        simp only [List.mem_map, List.mem_flatten]
        constructor
        · rintro ⟨batch, hbatch, row, hrow, hkey⟩
          exact ⟨row, ⟨batch, hbatch, hrow⟩, hkey⟩
        · rintro ⟨row, ⟨batch, hbatch, hrow⟩, hkey⟩
          exact ⟨batch, hbatch, row, hrow, hkey⟩
    _ ↔ key ∈ values.map keyOf := by
        rw [flatten_batches values hsize, List.mem_map]

/-- The statements for the batches of a table of parents. -/
theorem mem_parentKeys_map {Row : Type} {statement : List Row → Statement F}
    {keyOf : Row → ParentKey}
    (hstatement : ∀ rows, (statement rows).parents = rows.map keyOf)
    (values : List Row) {size : ℕ} (hsize : 0 < size) (key : ParentKey) :
    key ∈ parentKeys ((batches values size).map statement) ↔
      key ∈ values.map keyOf := by
  rw [← exists_mem_batches keyOf values hsize key]
  simp only [mem_parentKeys, List.mem_map]
  constructor
  · rintro ⟨_, ⟨batch, hbatch, rfl⟩, hkey⟩
    rw [hstatement] at hkey
    exact ⟨batch, hbatch, List.mem_map.mp hkey⟩
  · rintro ⟨batch, hbatch, hkey⟩
    refine ⟨_, ⟨batch, hbatch, rfl⟩, ?_⟩
    rw [hstatement]
    exact List.mem_map.mpr hkey

/-- The statements for the batches of parents and then for those of children,
where every child has a parent. -/
theorem parentsFirst_batches {Parent Child : Type}
    (insertParents : List Parent → Statement F)
    (insertChildren : List Child → Statement F)
    (parentKey : Parent → ParentKey) (childKey : Child → ParentKey)
    (hparents : ∀ rows, (insertParents rows).parents = rows.map parentKey)
    (hnoReferences : ∀ rows, (insertParents rows).references = [])
    (hnoParents : ∀ rows, (insertChildren rows).parents = [])
    (hreferences : ∀ rows,
      (insertChildren rows).references = rows.map childKey)
    {parents : List Parent} {children : List Child} {size : ℕ}
    (hsize : 0 < size)
    (hkeys : ∀ child ∈ children, childKey child ∈ parents.map parentKey) :
    ParentsFirst ((batches parents size).map insertParents ++
        (batches children size).map insertChildren) ∧
      ∀ key, key ∈ parentKeys ((batches parents size).map insertParents ++
          (batches children size).map insertChildren) ↔
        key ∈ parents.map parentKey := by
  constructor
  · refine parentsFirst_append (fun statement hstatement => ?_)
      fun statement hstatement key hkey => ?_
    · rcases List.mem_map.mp hstatement with ⟨batch, -, rfl⟩
      exact hnoReferences batch
    · rcases List.mem_map.mp hstatement with ⟨batch, hbatch, rfl⟩
      rw [hreferences] at hkey
      have hchild := (exists_mem_batches childKey children hsize key).mp
        ⟨batch, hbatch, hkey⟩
      rw [mem_parentKeys_map hparents parents hsize]
      rcases List.mem_map.mp hchild with ⟨child, hmem, rfl⟩
      exact hkeys child hmem
  · intro key
    rw [parentKeys_append, Set.mem_union,
      mem_parentKeys_map hparents parents hsize]
    refine or_iff_left ?_
    rintro ⟨statement, hstatement, hkey⟩
    rcases List.mem_map.mp hstatement with ⟨batch, -, rfl⟩
    rw [hnoParents] at hkey
    exact absurd hkey List.not_mem_nil

end References

/-! ## CelesTrak -/

section Orbits

variable {F : Type}

theorem elementRows_ingest (satellites : List (List (Satellite F)))
    (elements : List (List (OrbitalElement F))) :
    elementRows (satellites.map .satellites ++
      elements.map .orbitalElements) = elements.flatten := by
  have hsatellites : elementRows (satellites.map .satellites) = [] := by
    rw [elementRows, List.flatMap_map, List.flatMap_eq_nil_iff]
    exact fun _ _ => rfl
  have helements : elementRows (elements.map .orbitalElements) =
      elements.flatten := by
    rw [elementRows, List.flatMap_map]
    exact List.flatMap_id
  rw [elementRows, List.flatMap_append]
  exact congrArg₂ (· ++ ·) hsatellites helements

/-- The parent rows of a comprehension have the keys of its records. -/
theorem mem_comprehension {Record Key Row : Type} [DecidableEq Key]
    (keyOf : Row → Key) (recordKey : Record → Key) (row : Record → Row)
    (hrow : ∀ record, keyOf (row record) = recordKey record)
    (wrap : Key → ParentKey) (records : List Record) (key : ParentKey) :
    key ∈ (Dict.values (Dict.ofPairs (records.map fun record =>
        (recordKey record, row record)))).map (fun row => wrap (keyOf row)) ↔
      ∃ record ∈ records, key = wrap (recordKey record) := by
  have hpairs : ∀ pair ∈ records.map fun record =>
      (recordKey record, row record), keyOf pair.2 = pair.1 := by
    intro pair hpair
    rcases List.mem_map.mp hpair with ⟨record, -, rfl⟩
    exact hrow record
  have hkeys := Dict.mem_map_values_ofPairs hpairs
  constructor
  · intro hkey
    rcases List.mem_map.mp hkey with ⟨value, hvalue, rfl⟩
    have hmem := (hkeys (keyOf value)).mp (List.mem_map_of_mem hvalue)
    rw [List.map_map] at hmem
    rcases List.mem_map.mp hmem with ⟨record, hrecord, heq⟩
    exact ⟨record, hrecord, congrArg wrap heq.symm⟩
  · rintro ⟨record, hrecord, rfl⟩
    have hmem : recordKey record ∈ (records.map fun record =>
        (recordKey record, row record)).map Prod.fst := by
      rw [List.map_map]
      exact List.mem_map_of_mem hrecord
    rcases List.mem_map.mp ((hkeys _).mpr hmem) with ⟨value, hvalue, heq⟩
    exact List.mem_map.mpr ⟨value, hvalue, congrArg wrap heq⟩

/-- Every satellite of the records is executed before the elements, which are
those of the records. -/
theorem ingestOrbitalElements_parents
    {records : List (TwoLineElementSet F)} {statements : List (Statement F)}
    (hrun : ingestOrbitalElements records = some statements) :
    ParentsFirst statements ∧
      (∀ key, key ∈ parentKeys statements ↔
        ∃ record ∈ records, key = .satellite record.noradId) ∧
      elementRows statements =
        records.map TwoLineElementSet.element := by
  unfold ingestOrbitalElements at hrun
  split at hrun
  · simp at hrun
  · obtain rfl := Option.some.inj hrun
    have hkeys := mem_comprehension (Satellite.noradId (F := F))
      TwoLineElementSet.noradId TwoLineElementSet.satellite (fun _ => rfl)
      ParentKey.satellite records
    have hchildren : ∀ child ∈ records.map TwoLineElementSet.element,
        ParentKey.satellite child.noradId ∈ (Dict.values (Dict.ofPairs
          (records.map fun record => (record.noradId,
            record.satellite)))).map fun row => .satellite row.noradId := by
      intro child hchild
      rcases List.mem_map.mp hchild with ⟨record, hrecord, rfl⟩
      exact (hkeys _).mpr ⟨record, hrecord, rfl⟩
    have hspec := parentsFirst_batches Statement.satellites
      Statement.orbitalElements (fun row => .satellite row.noradId)
      (fun row => .satellite row.noradId) (fun _ => rfl)
      (fun _ => rfl) (fun _ => rfl) (fun _ => rfl)
      (show 0 < 1000 by norm_num) hchildren
    refine ⟨hspec.1, fun key => (hspec.2 key).trans (hkeys key), ?_⟩
    rw [elementRows_ingest, flatten_batches _ (by norm_num)]

end Orbits

/-! ## Near-Earth objects -/

section CloseApproaches

variable {F : Type}

theorem approachRows_store (objects : List (NearEarthObject F))
    (approaches : List (CloseApproach F)) :
    approachRows (storeCloseApproaches objects approaches) = approaches := by
  have hobjects : approachRows ((batches objects 1000).map
      Statement.nearEarthObjects) = [] := by
    rw [approachRows, List.flatMap_map, List.flatMap_eq_nil_iff]
    exact fun _ _ => rfl
  have happroaches : approachRows ((batches approaches 1000).map
      Statement.closeApproaches) = (batches approaches 1000).flatten := by
    rw [approachRows, List.flatMap_map]
    exact List.flatMap_id
  rw [flatten_batches _ (by norm_num)] at happroaches
  rw [approachRows, storeCloseApproaches, List.flatMap_append]
  calc _ = [] ++ approaches := congrArg₂ (· ++ ·) hobjects happroaches
    _ = approaches := List.nil_append approaches

/-- `_store_close_approaches` on the objects of a table of records that has the
object of every approach. -/
theorem storeCloseApproaches_parents {Record : Type} {recordId : Record → Text}
    {object : Record → NearEarthObject F}
    (hobject : ∀ record, (object record).id = recordId record)
    {records : List Record} (approaches : List (CloseApproach F))
    (happroaches : ∀ row ∈ approaches,
      ∃ record ∈ records, row.neoId = recordId record) :
    ParentsFirst (storeCloseApproaches (Dict.values (Dict.ofPairs
        (records.map fun record => (recordId record, object record))))
          approaches) ∧
      ∀ key, key ∈ parentKeys (storeCloseApproaches (Dict.values
          (Dict.ofPairs (records.map fun record =>
            (recordId record, object record)))) approaches) ↔
        ∃ record ∈ records, key = .nearEarthObject (recordId record) := by
  have hkeys := mem_comprehension (NearEarthObject.id (F := F)) recordId
    object hobject ParentKey.nearEarthObject records
  have hspec := parentsFirst_batches Statement.nearEarthObjects
    Statement.closeApproaches (fun row => .nearEarthObject row.id)
    (fun row => .nearEarthObject row.neoId) (fun _ => rfl)
    (fun _ => rfl) (fun _ => rfl) (fun _ => rfl)
    (show 0 < 1000 by norm_num) fun row hrow => by
      rcases happroaches row hrow with ⟨record, hrecord, heq⟩
      exact (hkeys _).mpr ⟨record, hrecord, by rw [heq]⟩
  exact ⟨hspec.1, fun key => (hspec.2 key).trans (hkeys key)⟩

variable (runtime : Runtime F)

/-- The key of the dictionary of `_ingest_jpl_close_approaches`. -/
def CloseApproach.timeKey (row : CloseApproach F) : Text × Instant :=
  (row.neoId, row.closeApproachDate)

theorem jpl_key_eq_iff (left right : CloseApproachRecord F) :
    left.approach.key runtime = right.approach.key runtime ↔
      left.approach.timeKey = right.approach.timeKey := by
  simp [CloseApproach.key, CloseApproach.timeKey,
    CloseApproachRecord.approach]

/-- All approaches of the records are to the Earth, so the time key tells them
apart. -/
theorem writesLast_jpl (records : List (CloseApproachRecord F))
    (hazardous sentry : List Text) :
    WritesLast runtime (ingestJplCloseApproaches records hazardous sentry)
      (records.map CloseApproachRecord.approach) := by
  have hpairs : records.map (fun record =>
      ((record.designation, record.approachAt), record.approach)) =
        (records.map CloseApproachRecord.approach).map fun row =>
          (row.timeKey, row) := by
    rw [List.map_map]
    rfl
  have hkeyed : Dict.Keyed CloseApproach.timeKey (Dict.ofPairs
      ((records.map CloseApproachRecord.approach).map fun row =>
        (row.timeKey, row))) := by
    refine Dict.keyed_ofPairs fun pair hpair => ?_
    rcases List.mem_map.mp hpair with ⟨row, -, rfl⟩
    rfl
  unfold WritesLast
  rw [ingestJplCloseApproaches, approachRows_store, hpairs]
  refine ⟨?_, fun row => ?_⟩
  · apply List.Nodup.of_map fun key : ApproachKey => (key.1, key.2.1)
    rw [List.map_map]
    exact hkeyed.nodup
  · rw [Dict.mem_values_ofPairs_iff]
    apply Dict.isLast_congr
    intro left hleft right hright
    rcases List.mem_map.mp hleft with ⟨leftRecord, -, rfl⟩
    rcases List.mem_map.mp hright with ⟨rightRecord, -, rfl⟩
    exact (jpl_key_eq_iff runtime leftRecord rightRecord).symm

theorem ingestJplCloseApproaches_parents
    (records : List (CloseApproachRecord F)) (hazardous sentry : List Text) :
    ParentsFirst (ingestJplCloseApproaches records hazardous sentry) ∧
      (∀ key, key ∈ parentKeys
          (ingestJplCloseApproaches records hazardous sentry) ↔
        ∃ record ∈ records, key = .nearEarthObject record.designation) ∧
      WritesLast runtime
        (ingestJplCloseApproaches records hazardous sentry)
        (records.map CloseApproachRecord.approach) := by
  have hlast := writesLast_jpl runtime records hazardous sentry
  have hspec := storeCloseApproaches_parents
    (fun record => (rfl : (CloseApproachRecord.object hazardous sentry
      record).id = record.designation))
    (approachRows (ingestJplCloseApproaches records hazardous sentry))
      fun row hrow => by
        rcases (hlast.2 row).mp hrow with ⟨before, after, heq, -⟩
        have hmem : row ∈ records.map CloseApproachRecord.approach := by
          rw [heq]
          simp
        rcases List.mem_map.mp hmem with ⟨record, hrecord, rfl⟩
        exact ⟨record, hrecord, rfl⟩
  rw [ingestJplCloseApproaches, approachRows_store] at hspec
  exact ⟨hspec.1, hspec.2, hlast⟩

/-! ## The feed of NASA -/

variable (strptime : String → Text → Option Instant)
variable (fromisoformat : Text → Option Instant)

/-- The row of one approach of the feed; `none` where it raises, and `some none`
where the entry is skipped. -/
def nasaApproachRow (neoId : Text) (value : Json F) :
    Option (Option (CloseApproach F)) := do
  let approach ← asDict value
  let timestamp := runtime.orElse
    (getOrNone approach "close_approach_date_full")
    (getOrNone approach "close_approach_date")
  let velocities ← getDict approach "relative_velocity"
  let velocity ← floatOf runtime
    (getOrNone velocities "kilometers_per_second")
  let distances ← getDict approach "miss_distance"
  let distance ← floatOf runtime (getOrNone distances "astronomical")
  match runtime.truthy timestamp, velocity, distance with
  | true, some velocity, some distance =>
      let string ← runtime.str timestamp
      let approachAt ← parseNasaDatetime strptime fromisoformat string
      let body := runtime.orElse (getOrNone approach "orbiting_body")
        (.str (text "Earth"))
      if runtime.hashKey body = .unhashable then none
      else return some ⟨neoId, approachAt, velocity, distance, body⟩
  | _, _, _ => return none

/-- A row under its key. -/
def collect (approaches : Approaches F) (row : CloseApproach F) :
    Approaches F :=
  Dict.set approaches (row.key runtime) row

theorem nasaApproach_eq (neoId : Text) (approaches : Approaches F)
    (value : Json F) :
    nasaApproach runtime strptime fromisoformat neoId approaches value =
      (nasaApproachRow runtime strptime fromisoformat neoId value).map
        fun row => row.elim approaches (collect runtime approaches) := by
  simp only [nasaApproach, nasaApproachRow, Option.bind_eq_bind,
    Option.map_bind, Function.comp_def]
  congr 1
  funext approach
  congr 1
  funext velocities
  congr 1
  funext velocity
  congr 1
  funext distances
  congr 1
  funext distance
  cases runtime.truthy (runtime.orElse
    (getOrNone approach "close_approach_date_full")
    (getOrNone approach "close_approach_date")) with
  | false => rfl
  | true =>
      cases velocity with
      | none => rfl
      | some velocity =>
          cases distance with
          | none => rfl
          | some distance =>
              simp only [Option.map_bind, Function.comp_def]
              congr 1
              funext string
              congr 1
              funext approachAt
              split
              · rfl
              · rfl

theorem foldl_collect (rows : List (Option (CloseApproach F)))
    (approaches : Approaches F) :
    rows.foldl (fun approaches row =>
        row.elim approaches (collect runtime approaches)) approaches =
      rows.reduceOption.foldl (collect runtime) approaches := by
  induction rows generalizing approaches with
  | nil => rfl
  | cons row rest ih =>
      cases row with
      | none => exact ih approaches
      | some row => exact ih (collect runtime approaches row)

/-- An object of the feed with the rows of its approaches; `none` where it
raises. -/
def nasaRecord (value : Json F) :
    Option (NearEarthObject F × List (CloseApproach F)) := do
  let item ← asDict value
  let id ← Dict.get item (text "id")
  let neoId ← runtime.str id
  let diameters ← getDict item "estimated_diameter"
  let kilometers ← getDict diameters "kilometers"
  let magnitude ← floatOf runtime (getOrNone item "absolute_magnitude_h")
  let diameterMin ←
    floatOf runtime (getOrNone kilometers "estimated_diameter_min")
  let diameterMax ←
    floatOf runtime (getOrNone kilometers "estimated_diameter_max")
  let object : NearEarthObject F := {
    id := neoId
    name := runtime.orElse (getOrNone item "name") (.str neoId)
    absoluteMagnitudeH := magnitude
    estimatedDiameterMinKm := diameterMin
    estimatedDiameterMaxKm := diameterMax
    isPotentiallyHazardous :=
      runtime.truthy (getOrNone item "is_potentially_hazardous_asteroid")
    isSentryObject := runtime.truthy (getOrNone item "is_sentry_object") }
  let listed ← iterate
    ((Dict.get item (text "close_approach_data")).getD (.list []))
  let rows ← listed.mapM
    (nasaApproachRow runtime strptime fromisoformat neoId)
  return (object, rows.reduceOption)

/-- An object and its approaches under their keys. -/
def collectRecord (state : Objects F × Approaches F)
    (record : NearEarthObject F × List (CloseApproach F)) :
    Objects F × Approaches F :=
  (Dict.set state.1 record.1.id record.1,
    record.2.foldl (collect runtime) state.2)

theorem nasaObject_eq (state : Objects F × Approaches F) (value : Json F) :
    nasaObject runtime strptime fromisoformat state value =
      (nasaRecord runtime strptime fromisoformat value).map
        (collectRecord runtime state) := by
  have hloop : ∀ (listed : List (Json F)) (neoId : Text),
      listed.foldlM (nasaApproach runtime strptime fromisoformat neoId)
          state.2 =
        (listed.mapM (nasaApproachRow runtime strptime fromisoformat
          neoId)).map fun rows =>
            rows.reduceOption.foldl (collect runtime) state.2 := by
    intro listed neoId
    rw [foldlM_eq_map_mapM (fun approaches value => nasaApproach_eq runtime
      strptime fromisoformat neoId approaches value)]
    simp only [foldl_collect]
  simp only [nasaObject, nasaRecord, Option.bind_eq_bind, Option.map_bind,
    Function.comp_def, hloop, Option.bind_map]
  rfl

/-- The objects of one day. -/
def nasaDayRecords (value : Json F) :
    Option (List (NearEarthObject F × List (CloseApproach F))) := do
  let items ← iterate value
  items.mapM (nasaRecord runtime strptime fromisoformat)

/-- The objects of the feed, in its order. -/
def nasaRecords (payload : Json F) :
    Option (List (NearEarthObject F × List (CloseApproach F))) := do
  let feed ← asDict payload
  let days ← getDict feed "near_earth_objects"
  let records ← (Dict.values days).mapM
    (nasaDayRecords runtime strptime fromisoformat)
  return records.flatten

theorem nasaDay_eq (state : Objects F × Approaches F) (value : Json F) :
    nasaDay runtime strptime fromisoformat state value =
      (nasaDayRecords runtime strptime fromisoformat value).map fun records =>
        records.foldl (collectRecord runtime) state := by
  have hloop := foldlM_eq_map_mapM (nasaObject_eq runtime strptime
    fromisoformat)
  simp only [nasaDay, nasaDayRecords, Option.bind_eq_bind, Option.map_bind,
    Function.comp_def, hloop]

theorem foldl_collectRecord
    (records : List (NearEarthObject F × List (CloseApproach F)))
    (state : Objects F × Approaches F) :
    records.foldl (collectRecord runtime) state =
      ((records.map fun record => (record.1.id, record.1)).foldl
          (fun dict pair => Dict.set dict pair.1 pair.2) state.1,
        ((records.flatMap Prod.snd).map fun row =>
          (row.key runtime, row)).foldl
            (fun dict pair => Dict.set dict pair.1 pair.2) state.2) := by
  induction records generalizing state with
  | nil => rfl
  | cons record rest ih =>
      rw [List.foldl_cons, ih, List.map_cons, List.foldl_cons,
        List.flatMap_cons, List.map_append, List.foldl_append]
      congr 2
      rw [List.foldl_map]
      rfl

/-- The job stores the tables of the parsed objects and approaches. -/
theorem ingestNasaNeos_eq (payload : Json F) :
    ingestNasaNeos runtime strptime fromisoformat payload =
      (nasaRecords runtime strptime fromisoformat payload).map fun records =>
        storeCloseApproaches
          (Dict.values (Dict.ofPairs (records.map fun record =>
            (record.1.id, record.1))))
          (Dict.values (Dict.ofPairs ((records.flatMap Prod.snd).map
            fun row => (row.key runtime, row)))) := by
  have hloop := foldlM_eq_map_mapM (nasaDay_eq runtime strptime
    fromisoformat)
  have hflatten : ∀ (days : List (List
      (NearEarthObject F × List (CloseApproach F))))
      (state : Objects F × Approaches F),
      days.foldl (fun state records =>
        records.foldl (collectRecord runtime) state) state =
          days.flatten.foldl (collectRecord runtime) state := by
    intro days state
    exact List.foldl_flatten.symm
  simp only [ingestNasaNeos, nasaRecords, Option.bind_eq_bind,
    Option.map_bind, Function.comp_def, hloop, Option.bind_map, hflatten]
  simp only [foldl_collectRecord]
  rfl

theorem nasaApproachRow_neoId {neoId : Text} {value : Json F}
    {row : CloseApproach F} (hrow : nasaApproachRow runtime strptime
      fromisoformat neoId value = some (some row)) : row.neoId = neoId := by
  obtain ⟨approach, -, hrow⟩ := Option.bind_eq_some_iff.mp hrow
  obtain ⟨velocities, -, hrow⟩ := Option.bind_eq_some_iff.mp hrow
  obtain ⟨velocity, -, hrow⟩ := Option.bind_eq_some_iff.mp hrow
  obtain ⟨distances, -, hrow⟩ := Option.bind_eq_some_iff.mp hrow
  obtain ⟨distance, -, hrow⟩ := Option.bind_eq_some_iff.mp hrow
  split at hrow
  · obtain ⟨string, -, hrow⟩ := Option.bind_eq_some_iff.mp hrow
    obtain ⟨approachAt, -, hrow⟩ := Option.bind_eq_some_iff.mp hrow
    simp only at hrow
    split at hrow
    · exact absurd hrow (by simp)
    · obtain rfl := Option.some.inj (Option.some.inj hrow)
      rfl
  · exact absurd (Option.some.inj hrow) (by simp)

/-- The approaches of an object refer to it. -/
theorem nasaRecord_neoId {value : Json F}
    {record : NearEarthObject F × List (CloseApproach F)}
    (hrecord : nasaRecord runtime strptime fromisoformat value =
      some record) : ∀ row ∈ record.2, row.neoId = record.1.id := by
  obtain ⟨item, -, hrecord⟩ := Option.bind_eq_some_iff.mp hrecord
  obtain ⟨id, -, hrecord⟩ := Option.bind_eq_some_iff.mp hrecord
  obtain ⟨neoId, -, hrecord⟩ := Option.bind_eq_some_iff.mp hrecord
  obtain ⟨diameters, -, hrecord⟩ := Option.bind_eq_some_iff.mp hrecord
  obtain ⟨kilometers, -, hrecord⟩ := Option.bind_eq_some_iff.mp hrecord
  obtain ⟨magnitude, -, hrecord⟩ := Option.bind_eq_some_iff.mp hrecord
  obtain ⟨diameterMin, -, hrecord⟩ := Option.bind_eq_some_iff.mp hrecord
  obtain ⟨diameterMax, -, hrecord⟩ := Option.bind_eq_some_iff.mp hrecord
  obtain ⟨listed, -, hrecord⟩ := Option.bind_eq_some_iff.mp hrecord
  obtain ⟨rows, hrows, hrecord⟩ := Option.bind_eq_some_iff.mp hrecord
  obtain rfl := Option.some.inj hrecord
  intro row hrow
  have hmem := List.reduceOption_mem_iff.mp hrow
  obtain ⟨approach, -, happroach⟩ := mem_of_mapM hrows hmem
  exact nasaApproachRow_neoId runtime strptime fromisoformat happroach

theorem nasaRecords_neoId {payload : Json F}
    {records : List (NearEarthObject F × List (CloseApproach F))}
    (hrecords : nasaRecords runtime strptime fromisoformat payload =
      some records) :
    ∀ record ∈ records, ∀ row ∈ record.2, row.neoId = record.1.id := by
  obtain ⟨feed, -, hrecords⟩ := Option.bind_eq_some_iff.mp hrecords
  obtain ⟨days, -, hrecords⟩ := Option.bind_eq_some_iff.mp hrecords
  obtain ⟨daily, hdaily, hrecords⟩ := Option.bind_eq_some_iff.mp hrecords
  obtain rfl := Option.some.inj hrecords
  intro record hrecord
  obtain ⟨day, hday, hmem⟩ := List.mem_flatten.mp hrecord
  obtain ⟨value, -, hvalue⟩ := mem_of_mapM hdaily hday
  obtain ⟨items, -, hitems⟩ := Option.bind_eq_some_iff.mp hvalue
  obtain ⟨item, -, hitem⟩ := mem_of_mapM hitems hmem
  exact nasaRecord_neoId runtime strptime fromisoformat hitem

/-- The job is run on the objects of the feed and their approaches. -/
theorem ingestNasaNeos_parents {payload : Json F}
    {statements : List (Statement F)}
    (hrun : ingestNasaNeos runtime strptime fromisoformat payload =
      some statements) :
    ∃ records, nasaRecords runtime strptime fromisoformat payload =
        some records ∧
      ParentsFirst statements ∧
      (∀ key, key ∈ parentKeys statements ↔
        ∃ record ∈ records, key = .nearEarthObject record.1.id) ∧
      WritesLast runtime statements (records.flatMap Prod.snd) := by
  rw [ingestNasaNeos_eq] at hrun
  obtain ⟨records, hrecords, rfl⟩ := Option.map_eq_some_iff.mp hrun
  have hneoId := nasaRecords_neoId runtime strptime fromisoformat hrecords
  have hkeyed : Dict.Keyed (CloseApproach.key runtime) (Dict.ofPairs
      ((records.flatMap Prod.snd).map fun row =>
        (row.key runtime, row))) := by
    refine Dict.keyed_ofPairs fun pair hpair => ?_
    rcases List.mem_map.mp hpair with ⟨row, -, rfl⟩
    rfl
  have hspec := storeCloseApproaches_parents
    (fun record : NearEarthObject F × List (CloseApproach F) =>
      (rfl : record.1.id = record.1.id))
    (Dict.values (Dict.ofPairs ((records.flatMap Prod.snd).map fun row =>
      (row.key runtime, row)))) fun row hrow => by
        rcases (Dict.mem_values_ofPairs_iff _ row).mp hrow with
          ⟨before, after, heq, -⟩
        have hmem : row ∈ records.flatMap Prod.snd := by
          rw [heq]
          simp
        rcases List.mem_flatMap.mp hmem with ⟨record, hrecord, hrow⟩
        exact ⟨record, hrecord, hneoId record hrecord row hrow⟩
  refine ⟨records, hrecords, hspec.1, hspec.2, ?_⟩
  unfold WritesLast
  rw [approachRows_store]
  exact ⟨hkeyed.nodup, Dict.mem_values_ofPairs_iff _⟩

/-! ## The transactions -/

/-- The three jobs execute every parent before its children, insert exactly the
parents of the parsed records, and lose none of the rows: all elements are
written, every approach key is written with its last row, and batches cut a list
into parts. -/
theorem parents_before_children :
    (∀ records statements,
      ingestOrbitalElements (F := F) records = some statements →
        ParentsFirst statements ∧
        (∀ key, key ∈ parentKeys statements ↔
          ∃ record ∈ records, key = .satellite record.noradId) ∧
        elementRows statements =
          records.map TwoLineElementSet.element) ∧
    (∀ records hazardous sentry,
      let statements :=
        ingestJplCloseApproaches (F := F) records hazardous sentry
      ParentsFirst statements ∧
        (∀ key, key ∈ parentKeys statements ↔
          ∃ record ∈ records, key = .nearEarthObject record.designation) ∧
        WritesLast runtime statements
          (records.map CloseApproachRecord.approach)) ∧
    (∀ payload statements,
      ingestNasaNeos runtime strptime fromisoformat payload =
          some statements →
        ∃ records, nasaRecords runtime strptime fromisoformat payload =
            some records ∧
          ParentsFirst statements ∧
          (∀ key, key ∈ parentKeys statements ↔
            ∃ record ∈ records, key = .nearEarthObject record.1.id) ∧
          WritesLast runtime statements (records.flatMap Prod.snd)) ∧
    ∀ (Row : Type) (values : List Row) (size : ℕ), 0 < size →
      (∀ batch ∈ batches values size,
        batch ≠ [] ∧ batch.length ≤ size) ∧
      (batches values size).flatten = values := by
  refine ⟨fun records statements => ingestOrbitalElements_parents,
    ingestJplCloseApproaches_parents runtime, fun payload statements =>
      ingestNasaNeos_parents runtime strptime fromisoformat,
    fun Row values size hsize => ⟨fun batch hbatch =>
      length_of_mem_batches hsize hbatch, flatten_batches values hsize⟩⟩

end CloseApproaches

/-- ASCII, with a single float that every string writes. -/
def zeroRuntime : Runtime Unit :=
  { unitRuntime with float := fun _ => .number (.finite ()) }

/-- `datetime.strptime` on one date. -/
def epochDate (format : String) (value : Text) : Option Instant :=
  if format = "%Y-%m-%d" ∧ value = text "1970-01-01" then some 0 else none

/-- A feed of one object with one approach. -/
def sampleFeed : Json Unit :=
  .dict [(text "near_earth_objects", .dict [(text "1970-01-01", .list [.dict
    [(text "id", .str (text "7")),
      (text "close_approach_data", .list [.dict
        [(text "close_approach_date", .str (text "1970-01-01")),
          (text "relative_velocity", .dict
            [(text "kilometers_per_second", .str (text "0.0"))]),
          (text "miss_distance", .dict
            [(text "astronomical", .str (text "0.0"))])]])]])])]

theorem sample_parents_before_children :
    (∃ statements,
      ingestOrbitalElements [fifthElements bareLine none] =
          some statements ∧
        ParentsFirst statements ∧
        .satellite 5 ∈ parentKeys statements) ∧
    (∃ statements, ingestNasaNeos zeroRuntime epochDate (fun _ => none)
          sampleFeed = some statements ∧
        ParentsFirst statements ∧
        (approachRows statements).length = 1) ∧
    (batches [1, 2, 3] 2).flatten = [1, 2, 3] := by
  have hspec := parents_before_children zeroRuntime epochDate fun _ => none
  refine ⟨?_, ?_, (hspec.2.2.2 ℕ [1, 2, 3] 2 (by decide)).2⟩
  · refine ⟨_, rfl, ?_⟩
    have horbits := hspec.1 [fifthElements bareLine none] _ rfl
    exact ⟨horbits.1, (horbits.2.1 _).mpr
      ⟨_, List.mem_singleton_self _, rfl⟩⟩
  · refine ⟨_, rfl, ?_, rfl⟩
    obtain ⟨records, -, hfirst, -⟩ := hspec.2.2.1 sampleFeed _ rfl
    exact hfirst

end UTTG.Ingestion
