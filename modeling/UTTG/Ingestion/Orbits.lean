import UTTG.Ingestion.ForeignKeys

/-!
# Stored element sets

`orbital_elements` beside the catalogue, over all runs of the CelesTrak and the
Space-Track job, with the retention policy that drops old rows.  An element set
is stored under its satellite, provider and epoch the first time it is
delivered, and later deliveries under the same key do nothing.
-/

namespace UTTG.Ingestion

open Python UTTG.Transition
open Launches (Instant)

section Model

variable {F : Type}

abbrev ElementKey := ℤ × Text × Instant

/-- `(norad_id, provider, epoch)`. -/
def OrbitalElement.key (row : OrbitalElement F) : ElementKey :=
  (row.noradId, row.provider, row.epoch)

/-- The table `orbital_elements`. -/
abbrev Elements (F : Type) := Table (OrbitalElement.key (F := F))

/-- The two tables of the jobs. -/
structure OrbitStore (F : Type) where
  catalog : Catalog
  elements : Elements F

/-- Execute a statement.  The foreign key of `orbital_elements` refuses rows of
satellites that are not in the catalogue. -/
def OrbitStore.execute (source : Source) (store : OrbitStore F) :
    Statement F → Option (OrbitStore F)
  | .satellites rows =>
      (source.execute store.catalog (Statement.satellites rows)).map
        fun catalog => { store with catalog := catalog }
  | .orbitalElements rows =>
      if ∀ row ∈ rows, (store.catalog.find row.noradId).isSome then
        some { store with elements := store.elements.insertNewAll rows }
      else none
  | _ => some store

/-- The tables after the commit of a run; `none` where there is none. -/
def CatalogRun.commitStore (runtime : Runtime F) (run : CatalogRun F)
    (store : OrbitStore F) : Option (OrbitStore F) :=
  if run.refused then none
  else do
    let statements ← run.statements runtime
    statements.foldlM (OrbitStore.execute run.source) store

/-- The element sets that a run delivers. -/
def CatalogRun.delivers : CatalogRun F → List (OrbitalElement F)
  | .satcat _ _ => []
  | .orbitalElements records _ => records.map TwoLineElementSet.element

/-- The retention interval of `orbital_elements`, in microseconds. -/
def elementRetention : ℤ := 45 * 86400 * 1000000

/-- The tables, the element sets of all committed runs in their order, and the
time. -/
structure OrbitHistory (F : Type) where
  store : OrbitStore F
  delivered : List (OrbitalElement F)
  clock : Instant

inductive OrbitEvent (F : Type) where
  | run (run : CatalogRun F)
  /-- The retention job drops chunks of old rows. -/
  | drop (keep : OrbitalElement F → Bool)
  | elapse (later : Instant)

/-- What one event does. -/
def orbitStep (runtime : Runtime F) (history : OrbitHistory F) :
    OrbitEvent F → Option (OrbitHistory F)
  | .run run =>
      some ((run.commitStore runtime history.store).elim history fun store =>
        { history with
          store := store
          delivered := history.delivered ++ run.delivers })
  | .drop keep =>
      if ∀ row ∈ history.store.elements.rows, keep row = false →
          row.epoch < history.clock - elementRetention then
        some { history with
          store := { history.store with
            elements := history.store.elements.filter keep } }
      else none
  | .elapse later =>
      if history.clock ≤ later then some { history with clock := later }
      else none

def orbitSystem (runtime : Runtime F) :
    System (OrbitHistory F) (OrbitEvent F) where
  Init history := history.store = ⟨Table.empty, Table.empty⟩ ∧
    history.delivered = []
  step := orbitStep runtime

/-- The element set that was delivered first under this key. -/
def firstDelivered (delivered : List (OrbitalElement F)) (key : ElementKey) :
    Option (OrbitalElement F) :=
  delivered.find? fun row => row.key = key

end Model

/-! ## What a run stores -/

section Runs

variable {F : Type} {runtime : Runtime F}

/-- A statement keeps the satellites, and inserts the new element sets. -/
theorem OrbitStore.execute_spec {source : Source} {store next : OrbitStore F}
    {statement : Statement F}
    (hexecute : store.execute source statement = some next) :
    (∀ noradId, (store.catalog.find noradId).isSome →
      (next.catalog.find noradId).isSome) ∧
    next.elements = store.elements.insertNewAll (elementRows [statement]) ∧
    ∀ row ∈ elementRows [statement],
      (next.catalog.find row.noradId).isSome := by
  cases statement with
  | satellites rows =>
      obtain ⟨catalog, hcatalog, rfl⟩ := Option.map_eq_some_iff.mp hexecute
      refine ⟨fun noradId hpresent => ?_, rfl, by simp [elementRows]⟩
      obtain ⟨entries, -, hinsert⟩ := Option.bind_eq_some_iff.mp hcatalog
      have hupsert := Option.some.inj
        (Option.ite_none_right_eq_some.mp hinsert).2
      obtain ⟨row, hrow⟩ := Option.isSome_iff_exists.mp hpresent
      obtain ⟨later, hlater, -⟩ := find_upsert_entries source store.catalog
        entries hrow
      rw [Source.upsert, hupsert] at hlater
      change (catalog.find noradId).isSome
      rw [hlater]
      rfl
  | orbitalElements rows =>
      obtain ⟨hparents, hnext⟩ := Option.ite_none_right_eq_some.mp hexecute
      obtain rfl := Option.some.inj hnext
      have hrows : elementRows [Statement.orbitalElements rows] = rows :=
        List.append_nil rows
      rw [hrows]
      exact ⟨fun _ hpresent => hpresent, rfl, hparents⟩
  | _ =>
      obtain rfl := Option.some.inj hexecute
      exact ⟨fun _ hpresent => hpresent, rfl, by simp [elementRows]⟩

theorem OrbitStore.foldlM_execute_spec {source : Source}
    {statements : List (Statement F)} {store next : OrbitStore F}
    (hexecute : statements.foldlM (OrbitStore.execute source) store =
      some next) :
    (∀ noradId, (store.catalog.find noradId).isSome →
      (next.catalog.find noradId).isSome) ∧
    next.elements = store.elements.insertNewAll (elementRows statements) ∧
    ∀ row ∈ elementRows statements,
      (next.catalog.find row.noradId).isSome := by
  induction statements generalizing store with
  | nil =>
      obtain rfl := Option.some.inj hexecute
      exact ⟨fun _ hpresent => hpresent, rfl, by simp [elementRows]⟩
  | cons statement rest ih =>
      rw [List.foldlM_cons] at hexecute
      obtain ⟨middle, hfirst, hrest⟩ := Option.bind_eq_some_iff.mp hexecute
      obtain ⟨hkeeps, helements, hparents⟩ := OrbitStore.execute_spec hfirst
      obtain ⟨hkeepsRest, helementsRest, hparentsRest⟩ := ih hrest
      have hrows : elementRows (statement :: rest) =
          elementRows [statement] ++ elementRows rest := by
        simp [elementRows]
      refine ⟨fun noradId hpresent => hkeepsRest noradId
        (hkeeps noradId hpresent), ?_, fun row hrow => ?_⟩
      · rw [helementsRest, helements, hrows, Table.insertNewAll,
          Table.insertNewAll, Table.insertNewAll, List.foldl_append]
      · rw [hrows, List.mem_append] at hrow
        obtain hrow | hrow := hrow
        · exact hkeepsRest _ (hparents row hrow)
        · exact hparentsRest row hrow

/-- The element sets in the statements of a run. -/
theorem elementRows_statements {run : CatalogRun F}
    {statements : List (Statement F)}
    (hstatements : run.statements runtime = some statements) :
    elementRows statements = run.delivers := by
  cases run with
  | satcat payload refused =>
      obtain ⟨records, -, hrest⟩ := Option.bind_eq_some_iff.mp hstatements
      obtain ⟨values, -, hvalues⟩ := Option.bind_eq_some_iff.mp hrest
      obtain rfl := Option.some.inj hvalues
      have hrows := elementRows_ingest (batches values 500)
        ([] : List (List (OrbitalElement F)))
      rw [List.map_nil, List.append_nil] at hrows
      exact hrows
  | orbitalElements records refused =>
      change ingestOrbitalElements records = some statements at hstatements
      unfold ingestOrbitalElements at hstatements
      split at hstatements
      · simp at hstatements
      · obtain rfl := Option.some.inj hstatements
        rw [elementRows_ingest, flatten_batches _ (by decide)]
        rfl

/-- What a committed run leaves in the tables. -/
theorem commitStore_spec {run : CatalogRun F} {store next : OrbitStore F}
    (hcommit : run.commitStore runtime store = some next) :
    (∀ noradId, (store.catalog.find noradId).isSome →
      (next.catalog.find noradId).isSome) ∧
    next.elements = store.elements.insertNewAll run.delivers ∧
    ∀ row ∈ run.delivers, (next.catalog.find row.noradId).isSome := by
  unfold CatalogRun.commitStore at hcommit
  split at hcommit
  · simp at hcommit
  · obtain ⟨statements, hstatements, hexecute⟩ :=
      Option.bind_eq_some_iff.mp hcommit
    rw [← elementRows_statements hstatements]
    exact OrbitStore.foldlM_execute_spec hexecute

end Runs

/-! ## What is stored at any time -/

section History

variable {F : Type} {runtime : Runtime F}

/-- The table has the first delivery under each key that is within the retention
interval, nothing but deliveries, and only those of catalogued satellites. -/
structure Archived (history : OrbitHistory F) : Prop where
  first : ∀ key : ElementKey, history.clock - elementRetention ≤ key.2.2 →
    history.store.elements.find key = firstDelivered history.delivered key
  delivered : ∀ row ∈ history.store.elements.rows, row ∈ history.delivered
  catalogued : ∀ row ∈ history.delivered,
    (history.store.catalog.find row.noradId).isSome

theorem archived_init {history : OrbitHistory F}
    (hinit : (orbitSystem runtime).Init history) : Archived history := by
  obtain ⟨hstore, hdelivered⟩ := hinit
  constructor
  · intro key _
    rw [hstore, hdelivered]
    rfl
  · simp [hstore, Table.empty]
  · simp [hdelivered]

theorem Archived.run {history : OrbitHistory F} (harch : Archived history)
    {run : CatalogRun F} {store : OrbitStore F}
    (hcommit : run.commitStore runtime history.store = some store) :
    Archived { history with
      store := store
      delivered := history.delivered ++ run.delivers } := by
  obtain ⟨hkeeps, helements, hparents⟩ := commitStore_spec hcommit
  have hfind : ∀ key, store.elements.find key =
      (history.store.elements.find key).or
        (firstDelivered run.delivers key) := by
    intro key
    rw [helements]
    exact Table.find_insertNewAll _ _ key
  constructor
  · intro key hrecent
    change store.elements.find key =
      firstDelivered (history.delivered ++ run.delivers) key
    rw [hfind, harch.first key hrecent, firstDelivered, firstDelivered,
      firstDelivered, List.find?_append]
  · intro row hrow
    have hstored : store.elements.find row.key = some row :=
      (Table.find_eq_some_iff _ _ _).mpr ⟨hrow, rfl⟩
    rw [hfind, Option.or_eq_some_iff] at hstored
    obtain hold | ⟨-, hnew⟩ := hstored
    · exact List.mem_append_left _ (harch.delivered row
        ((Table.find_eq_some_iff _ _ _).mp hold).1)
    · exact List.mem_append_right _ (List.mem_of_find?_eq_some hnew)
  · intro row hrow
    obtain hold | hnew := List.mem_append.mp hrow
    · exact hkeeps _ (harch.catalogued row hold)
    · exact hparents row hnew

/-- Dropping old rows does not touch the recent ones. -/
theorem Archived.drop {history : OrbitHistory F} (harch : Archived history)
    {keep : OrbitalElement F → Bool}
    (hold : ∀ row ∈ history.store.elements.rows, keep row = false →
      row.epoch < history.clock - elementRetention) :
    Archived { history with
      store := { history.store with
        elements := history.store.elements.filter keep } } := by
  refine ⟨fun key hrecent => ?_, fun row hrow => ?_, harch.catalogued⟩
  · change (history.store.elements.filter keep).find key = _
    rw [Table.find_filter, harch.first key hrecent]
    change Option.filter keep (firstDelivered history.delivered key) =
      firstDelivered history.delivered key
    cases hfirst : firstDelivered history.delivered key with
    | none => rfl
    | some row =>
        have hstored := harch.first key hrecent
        rw [hfirst] at hstored
        obtain ⟨hmem, rfl⟩ := (Table.find_eq_some_iff _ _ _).mp hstored
        refine Option.filter_some.trans (if_pos ?_)
        by_contra hdropped
        exact absurd hrecent
          (not_le.mpr (hold row hmem (Bool.eq_false_iff.mpr hdropped)))
  · exact harch.delivered row (List.mem_of_mem_filter hrow)

theorem Archived.step {history next : OrbitHistory F}
    (harch : Archived history) {event : OrbitEvent F}
    (hstep : (orbitSystem runtime).step history event = some next) :
    Archived next := by
  cases event with
  | run run =>
      obtain rfl := Option.some.inj hstep
      cases hcommit : run.commitStore runtime history.store with
      | none => exact harch
      | some store => exact harch.run hcommit
  | drop keep =>
      obtain ⟨hold, hnext⟩ := Option.ite_none_right_eq_some.mp hstep
      obtain rfl := Option.some.inj hnext
      exact harch.drop hold
  | elapse later =>
      obtain ⟨hlater, hnext⟩ := Option.ite_none_right_eq_some.mp hstep
      obtain rfl := Option.some.inj hnext
      exact ⟨fun key hrecent => harch.first key
        (le_trans (sub_le_sub_right hlater _) hrecent), harch.delivered,
        harch.catalogued⟩

/-- In every run the stored element sets are the first deliveries. -/
theorem archived {history : OrbitHistory F}
    (hreach : (orbitSystem runtime).Reachable history) : Archived history :=
  System.Reachable.invariant Archived (fun _ => archived_init)
    (fun _ _ _ harch hstep => harch.step hstep) hreach

end History

end UTTG.Ingestion
