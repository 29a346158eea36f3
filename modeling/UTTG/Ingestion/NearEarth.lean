import UTTG.Ingestion.ForeignKeys

/-!
# Stored near-Earth objects

`near_earth_objects` and `close_approaches` over all runs of the JPL and the
NASA job.  Both write through `_store_close_approaches`, objects first; a later
delivery replaces the values of an earlier one under the same key, and nothing
is ever removed.
-/

namespace UTTG.Ingestion

open Python UTTG.Transition
open Launches (Instant)

section Model

variable {F : Type} (runtime : Runtime F)

/-- The table `near_earth_objects`. -/
abbrev NeoObjects (F : Type) := Table (NearEarthObject.id (F := F))

/-- The table `close_approaches`. -/
abbrev NeoApproaches := Table (CloseApproach.key runtime)

/-- The two tables of the jobs. -/
structure NeoStore where
  objects : NeoObjects F
  approaches : NeoApproaches runtime

/-- The `SET` clause for `near_earth_objects`. -/
def NearEarthObject.setOn (row old : NearEarthObject F) : NearEarthObject F :=
  { row with id := old.id }

/-- The `SET` clause for `close_approaches`. -/
def CloseApproach.setOn (row old : CloseApproach F) : CloseApproach F :=
  { old with
    relativeVelocityKms := row.relativeVelocityKms
    missDistanceAu := row.missDistanceAu }

theorem NearEarthObject.id_setOn (row old : NearEarthObject F) :
    (row.setOn old).id = old.id :=
  rfl

theorem CloseApproach.key_setOn (row old : CloseApproach F) :
    (row.setOn old).key runtime = old.key runtime :=
  rfl

/-- The driver takes nothing but strings for a text column. -/
def isText : Json F → Bool
  | .str _ => true
  | _ => false

variable {runtime}

/-- Execute a statement.  The driver refuses names and bodies that are no
strings, the foreign key of `close_approaches` unknown objects, and the
database a statement that would update one row twice. -/
def NeoStore.execute (store : NeoStore runtime) :
    Statement F → Option (NeoStore runtime)
  | .nearEarthObjects rows =>
      if ∀ row ∈ rows, isText row.name = true then
        (store.objects.insertOnConflict (fun row => row) NearEarthObject.setOn
          NearEarthObject.id_setOn rows).map fun objects =>
            { store with objects := objects }
      else none
  | .closeApproaches rows =>
      if ∀ row ∈ rows, isText row.orbitingBody = true ∧
          (store.objects.find row.neoId).isSome then
        (store.approaches.insertOnConflict (fun row => row) CloseApproach.setOn
          (CloseApproach.key_setOn runtime) rows).map fun approaches =>
            { store with approaches := approaches }
      else none
  | _ => some store

variable (strptime : String → Text → Option Instant)
variable (fromisoformat : Text → Option Instant)

/-- A run of one of the jobs that fetched its payload.  The flag tells that the
database refuses a statement for a reason that is not modelled. -/
inductive NeoRun (F : Type) where
  | jpl (records : List (CloseApproachRecord F)) (hazardous sentry : List Text)
      (refused : Bool)
  | nasa (payload : Json F) (refused : Bool)

def NeoRun.refused : NeoRun F → Bool
  | .jpl _ _ _ refused | .nasa _ refused => refused

/-- The statements of a run; `none` where the job raises before the first. -/
def NeoRun.statements (runtime : Runtime F) :
    NeoRun F → Option (List (Statement F))
  | .jpl records hazardous sentry _ =>
      some (ingestJplCloseApproaches records hazardous sentry)
  | .nasa payload _ => ingestNasaNeos runtime strptime fromisoformat payload

/-- The tables after the commit of a run; `none` where there is none. -/
def NeoRun.commit (run : NeoRun F) (store : NeoStore runtime) :
    Option (NeoStore runtime) :=
  if run.refused then none
  else do
    let statements ← run.statements strptime fromisoformat runtime
    statements.foldlM NeoStore.execute store

/-- What a run delivers, one object for each record of the payload and the
approaches of all records. -/
def NeoRun.records (runtime : Runtime F) :
    NeoRun F → Option (List (NearEarthObject F) × List (CloseApproach F))
  | .jpl records hazardous sentry _ =>
      some (records.map (CloseApproachRecord.object hazardous sentry),
        records.map CloseApproachRecord.approach)
  | .nasa payload _ =>
      (nasaRecords runtime strptime fromisoformat payload).map fun records =>
        (records.map Prod.fst, records.flatMap Prod.snd)

/-- The tables, and what all committed runs delivered in their order. -/
structure NeoHistory (runtime : Runtime F) where
  store : NeoStore runtime
  objects : List (NearEarthObject F)
  approaches : List (CloseApproach F)

/-- A run that does not commit leaves everything as it was. -/
def neoStep (history : NeoHistory runtime) (run : NeoRun F) :
    Option (NeoHistory runtime) :=
  some ((run.commit strptime fromisoformat history.store).elim history
    fun store =>
      let delivered :=
        (run.records strptime fromisoformat runtime).getD ([], [])
      { store := store
        objects := history.objects ++ delivered.1
        approaches := history.approaches ++ delivered.2 })

variable (runtime) in
def neoSystem : System (NeoHistory runtime) (NeoRun F) where
  Init history := history = ⟨⟨Table.empty, Table.empty⟩, [], []⟩
  step := neoStep strptime fromisoformat

end Model

/-! ## Statements -/

section Statements

variable {F : Type} {runtime : Runtime F}

theorem execute_objects (store : NeoStore runtime)
    {groups : List (List (NearEarthObject F))}
    (hdistinct : (groups.flatten.map NearEarthObject.id).Nodup) :
    (groups.map Statement.nearEarthObjects).foldlM NeoStore.execute store =
      if ∀ row ∈ groups.flatten, isText row.name = true then
        some { store with
          objects := store.objects.upsertAll (fun row => row)
            NearEarthObject.setOn NearEarthObject.id_setOn groups.flatten }
      else none := by
  induction groups generalizing store with
  | nil => simp [Table.upsertAll]
  | cons rows rest ih =>
      rw [List.flatten_cons, List.map_append, List.nodup_append] at hdistinct
      obtain ⟨hrows, hrest, -⟩ := hdistinct
      rw [List.map_cons, List.foldlM_cons, NeoStore.execute,
        Table.insertOnConflict, if_pos hrows, Option.map_some,
        List.flatten_cons, Table.upsertAll_append]
      by_cases hnames : ∀ row ∈ rows, isText row.name = true
      · rw [if_pos hnames]
        change (rest.map Statement.nearEarthObjects).foldlM NeoStore.execute
          { store with objects := _ } = _
        rw [ih _ hrest]
        apply if_congr _ rfl rfl
        rw [List.forall_mem_append, and_iff_right hnames]
      · rw [if_neg hnames, if_neg]
        · rfl
        · intro hall
          exact hnames (List.forall_mem_append.mp hall).1

theorem execute_approaches (store : NeoStore runtime)
    {groups : List (List (CloseApproach F))}
    (hdistinct : (groups.flatten.map (CloseApproach.key runtime)).Nodup) :
    (groups.map Statement.closeApproaches).foldlM NeoStore.execute store =
      if ∀ row ∈ groups.flatten, isText row.orbitingBody = true ∧
          (store.objects.find row.neoId).isSome then
        some { store with
          approaches := store.approaches.upsertAll (fun row => row)
            CloseApproach.setOn (CloseApproach.key_setOn runtime)
            groups.flatten }
      else none := by
  induction groups generalizing store with
  | nil => simp [Table.upsertAll]
  | cons rows rest ih =>
      rw [List.flatten_cons, List.map_append, List.nodup_append] at hdistinct
      obtain ⟨hrows, hrest, -⟩ := hdistinct
      rw [List.map_cons, List.foldlM_cons, NeoStore.execute,
        Table.insertOnConflict, if_pos hrows, Option.map_some,
        List.flatten_cons, Table.upsertAll_append]
      by_cases hbodies : ∀ row ∈ rows, isText row.orbitingBody = true ∧
          (store.objects.find row.neoId).isSome
      · rw [if_pos hbodies]
        change (rest.map Statement.closeApproaches).foldlM NeoStore.execute
          { store with approaches := _ } = _
        rw [ih _ hrest]
        apply if_congr _ rfl rfl
        rw [List.forall_mem_append, and_iff_right hbodies]
      · rw [if_neg hbodies, if_neg]
        · rfl
        · intro hall
          exact hbodies (List.forall_mem_append.mp hall).1

end Statements

/-! ## The rows of a run -/

section Rows

/-- The rows that are written of some delivered ones: of each key the last. -/
structure LastRows {Row Key : Type} [DecidableEq Key] (key : Row → Key)
    (delivered rows : List Row) : Prop where
  distinct : (rows.map key).Nodup
  last : ∀ row, row ∈ rows ↔ Dict.IsLast key delivered row

variable {Row Key : Type} [DecidableEq Key] {key : Row → Key}

theorem isLast_iff {values : List Row} {row : Row} :
    Dict.IsLast key values row ↔
      Table.lastWith key values (key row) = some row := by
  constructor
  · rintro ⟨before, after, rfl, hafter⟩
    apply List.find?_eq_some_iff_append.mpr
    refine ⟨by simp, after.reverse, before.reverse, by simp,
      fun later hlater => ?_⟩
    simpa using hafter later (List.mem_reverse.mp hlater)
  · intro hlast
    obtain ⟨-, after, before, hvalues, hafter⟩ :=
      List.find?_eq_some_iff_append.mp hlast
    refine ⟨before.reverse, after.reverse, ?_, fun later hlater => ?_⟩
    · rw [← List.reverse_reverse values, hvalues]
      simp
    · simpa using hafter later (List.mem_reverse.mp hlater)

variable (key) in
/-- A comprehension keyed by its values. -/
theorem lastRows_ofPairs (delivered : List Row) :
    LastRows key delivered (Dict.values (Dict.ofPairs
      (delivered.map fun row => (key row, row)))) := by
  constructor
  · apply Dict.Keyed.nodup
    apply Dict.keyed_ofPairs
    intro pair hpair
    obtain ⟨row, -, rfl⟩ := List.mem_map.mp hpair
    rfl
  · exact Dict.mem_values_ofPairs_iff delivered

/-- Nothing but superseded rows is left out. -/
theorem LastRows.lastWith {delivered rows : List Row}
    (hrows : LastRows key delivered rows) (id : Key) :
    Table.lastWith key rows id = Table.lastWith key delivered id := by
  ext row
  constructor
  · intro hlast
    obtain ⟨hmem, rfl⟩ := Table.of_lastWith hlast
    exact isLast_iff.mp ((hrows.last row).mp hmem)
  · intro hlast
    obtain ⟨-, rfl⟩ := Table.of_lastWith hlast
    have hmem : row ∈ rows := (hrows.last row).mpr (isLast_iff.mpr hlast)
    obtain ⟨other, hother⟩ : ∃ last,
        Table.lastWith key rows (key row) = some last :=
      Table.exists_lastWith hmem
    obtain ⟨hotherMem, hsame⟩ := Table.of_lastWith hother
    obtain rfl : other = row := List.inj_on_of_nodup_map hrows.distinct
      hotherMem hmem hsame
    exact hother

end Rows

section Runs

variable {F : Type} {runtime : Runtime F}
variable {strptime : String → Text → Option Instant}
variable {fromisoformat : Text → Option Instant}

variable (runtime strptime fromisoformat) in
/-- A run executes the statements for the last rows of what it delivers. -/
theorem NeoRun.statements_eq (run : NeoRun F) :
    (run.records strptime fromisoformat runtime = none ∧
      run.statements strptime fromisoformat runtime = none) ∨
    ∃ delivered objects approaches,
      run.records strptime fromisoformat runtime = some delivered ∧
      run.statements strptime fromisoformat runtime =
        some (storeCloseApproaches objects approaches) ∧
      LastRows NearEarthObject.id delivered.1 objects ∧
      LastRows (CloseApproach.key runtime) delivered.2 approaches ∧
      ∀ row ∈ delivered.2, ∃ object ∈ delivered.1, object.id = row.neoId := by
  cases run with
  | jpl records hazardous sentry refused =>
      right
      have hobjects := lastRows_ofPairs NearEarthObject.id
        (records.map (CloseApproachRecord.object hazardous sentry))
      rw [List.map_map] at hobjects
      have happroaches := writesLast_jpl runtime records hazardous sentry
      unfold WritesLast at happroaches
      rw [ingestJplCloseApproaches, approachRows_store] at happroaches
      refine ⟨_, _, _, rfl, rfl, hobjects,
        ⟨happroaches.1, happroaches.2⟩, fun row hrow => ?_⟩
      obtain ⟨record, hrecord, rfl⟩ := List.mem_map.mp hrow
      exact ⟨_, List.mem_map_of_mem hrecord, rfl⟩
  | nasa payload refused =>
      simp only [NeoRun.statements, NeoRun.records, ingestNasaNeos_eq]
      cases hrecords : nasaRecords runtime strptime fromisoformat payload with
      | none => exact .inl ⟨rfl, rfl⟩
      | some records =>
          right
          have hobjects := lastRows_ofPairs NearEarthObject.id
            (records.map Prod.fst)
          rw [List.map_map] at hobjects
          refine ⟨_, _, _, rfl, rfl, hobjects, lastRows_ofPairs _ _,
            fun row hrow => ?_⟩
          obtain ⟨record, hrecord, hmem⟩ := List.mem_flatMap.mp hrow
          exact ⟨record.1, List.mem_map_of_mem hrecord,
            (nasaRecords_neoId runtime strptime fromisoformat hrecords record
              hrecord row hmem).symm⟩

/-- The text columns that are written are strings. -/
structure Written (runtime : Runtime F)
    (delivered : List (NearEarthObject F) × List (CloseApproach F)) :
    Prop where
  names : ∀ row, Dict.IsLast NearEarthObject.id delivered.1 row →
    isText row.name = true
  bodies : ∀ row, Dict.IsLast (CloseApproach.key runtime) delivered.2 row →
    isText row.orbitingBody = true

/-- Bodies that are strings are equal under equal keys. -/
theorem setOn_of_key_eq {item row : CloseApproach F}
    (hitem : isText item.orbitingBody = true)
    (hrow : isText row.orbitingBody = true)
    (hkey : row.key runtime = item.key runtime) : item.setOn row = item := by
  obtain ⟨neoId, date, velocity, distance, body⟩ := item
  obtain ⟨otherId, otherDate, otherVelocity, otherDistance, otherBody⟩ := row
  simp only [CloseApproach.key, Prod.mk.injEq] at hkey
  obtain ⟨rfl, rfl, hbody⟩ := hkey
  cases body <;> simp only [isText, Bool.false_eq_true] at hitem
  cases otherBody <;> simp only [isText, Bool.false_eq_true] at hrow
  simp only [Runtime.hashKey, HashKey.str.injEq] at hbody
  rw [CloseApproach.setOn, hbody]

/-- What a committed run leaves in the tables. -/
structure Leaves (delivered : List (NearEarthObject F) × List (CloseApproach F))
    (store next : NeoStore runtime) : Prop where
  objects : ∀ id, next.objects.find id =
    (Table.lastWith NearEarthObject.id delivered.1 id).or
      (store.objects.find id)
  approaches : ∀ key, next.approaches.find key =
    (Table.lastWith (CloseApproach.key runtime) delivered.2 key).or
      (store.approaches.find key)

/-- `_store_close_approaches` on the last rows of a delivery: it fails only on
text columns that are no strings. -/
theorem execute_store {store : NeoStore runtime}
    (hstored : ∀ row ∈ store.approaches.rows, isText row.orbitingBody = true)
    {delivered : List (NearEarthObject F) × List (CloseApproach F)}
    {objects : List (NearEarthObject F)} {approaches : List (CloseApproach F)}
    (hobjects : LastRows NearEarthObject.id delivered.1 objects)
    (happroaches : LastRows (CloseApproach.key runtime) delivered.2 approaches)
    (hparents : ∀ row ∈ delivered.2,
      ∃ object ∈ delivered.1, object.id = row.neoId) :
    (Written runtime delivered ∧ ∃ next,
      (storeCloseApproaches objects approaches).foldlM NeoStore.execute store =
        some next ∧ Leaves delivered store next) ∨
    (¬Written runtime delivered ∧
      (storeCloseApproaches objects approaches).foldlM NeoStore.execute store =
        none) := by
  have hobjectRows := flatten_batches objects (show 0 < 1000 by norm_num)
  have happroachRows :=
    flatten_batches approaches (show 0 < 1000 by norm_num)
  have hfirst := execute_objects store
    (by rw [hobjectRows]; exact hobjects.distinct)
  rw [hobjectRows] at hfirst
  rw [storeCloseApproaches, List.foldlM_append, hfirst]
  by_cases hnames : ∀ row ∈ objects, isText row.name = true
  · rw [if_pos hnames]
    let middle : NeoStore runtime := { store with
      objects := store.objects.upsertAll (fun row => row)
        NearEarthObject.setOn NearEarthObject.id_setOn objects }
    have hfind : ∀ id, middle.objects.find id =
        (Table.lastWith NearEarthObject.id delivered.1 id).or
          (store.objects.find id) := by
      intro id
      rw [← hobjects.lastWith]
      apply Table.find_upsertAll_overwriting fun _ => True
      · rintro item row - - hsame
        rw [NearEarthObject.setOn, hsame]
      · simp
      · simp
    have hpresent : ∀ row ∈ approaches,
        (middle.objects.find row.neoId).isSome := by
      intro row hrow
      obtain ⟨before, after, hsplit, -⟩ := (happroaches.last row).mp hrow
      obtain ⟨object, hobject, hid⟩ := hparents row (by rw [hsplit]; simp)
      obtain ⟨last, hlast⟩ : ∃ last, Table.lastWith NearEarthObject.id
          delivered.1 object.id = some last := Table.exists_lastWith hobject
      rw [hfind, ← hid, hlast]
      rfl
    have hsecond := execute_approaches middle
      (by rw [happroachRows]; exact happroaches.distinct)
    rw [happroachRows] at hsecond
    change (Written runtime delivered ∧ ∃ next,
      ((batches approaches 1000).map Statement.closeApproaches).foldlM
        NeoStore.execute middle = some next ∧ Leaves delivered store next) ∨
      (¬Written runtime delivered ∧
        ((batches approaches 1000).map Statement.closeApproaches).foldlM
          NeoStore.execute middle = none)
    rw [hsecond]
    by_cases hbodies : ∀ row ∈ approaches, isText row.orbitingBody = true
    · left
      refine ⟨⟨fun row hrow => hnames row ((hobjects.last row).mpr hrow),
        fun row hrow => hbodies row ((happroaches.last row).mpr hrow)⟩, _,
        if_pos fun row hrow => ⟨hbodies row hrow, hpresent row hrow⟩, hfind,
        fun key => ?_⟩
      rw [← happroaches.lastWith]
      exact Table.find_upsertAll_overwriting
        (fun row => isText row.orbitingBody = true)
        (fun _ _ hitem hrow hsame => setOn_of_key_eq hitem hrow hsame)
        hbodies store.approaches hstored key
    · right
      refine ⟨fun hwritten => hbodies fun row hrow =>
        hwritten.bodies row ((happroaches.last row).mp hrow), if_neg ?_⟩
      exact fun hall => hbodies fun row hrow => (hall row hrow).1
  · right
    rw [if_neg hnames]
    exact ⟨fun hwritten => hnames fun row hrow =>
      hwritten.names row ((hobjects.last row).mp hrow), rfl⟩

variable (strptime fromisoformat) in
/-- A run is lost only where it was refused, where it raised before its first
statement, or where a text column is no string; else its last rows are in the
tables. -/
theorem NeoRun.commit_cases (run : NeoRun F) {store : NeoStore runtime}
    (hstored : ∀ row ∈ store.approaches.rows,
      isText row.orbitingBody = true) :
    (run.commit strptime fromisoformat store = none ∧
      (run.refused = true ∨
        run.records strptime fromisoformat runtime = none ∨
        ∃ delivered, run.records strptime fromisoformat runtime =
          some delivered ∧ ¬Written runtime delivered)) ∨
    ∃ delivered next,
      run.records strptime fromisoformat runtime = some delivered ∧
      run.commit strptime fromisoformat store = some next ∧
      Written runtime delivered ∧ Leaves delivered store next ∧
      ∀ row ∈ delivered.2, ∃ object ∈ delivered.1, object.id = row.neoId := by
  unfold NeoRun.commit
  by_cases hrefused : run.refused = true
  · left
    rw [if_pos hrefused]
    exact ⟨rfl, .inl hrefused⟩
  · rw [if_neg hrefused]
    rcases run.statements_eq runtime strptime fromisoformat with
      ⟨hrecords, hstatements⟩ | ⟨delivered, objects, approaches, hrecords,
        hstatements, hobjects, happroaches, hparents⟩
    · left
      rw [hstatements]
      exact ⟨rfl, .inr (.inl hrecords)⟩
    · rw [hstatements]
      rcases execute_store hstored hobjects happroaches hparents with
        ⟨hwritten, next, hnext, hleaves⟩ | ⟨hunwritten, hnone⟩
      · right
        exact ⟨delivered, next, hrecords, hnext, hwritten, hleaves, hparents⟩
      · left
        exact ⟨hnone, .inr (.inr ⟨delivered, hrecords, hunwritten⟩)⟩

end Runs

/-! ## What is stored at any time -/

section History

variable {F : Type} {runtime : Runtime F}
variable {strptime : String → Text → Option Instant}
variable {fromisoformat : Text → Option Instant}

/-- The tables hold the last delivery under every key, and every approach has
its object. -/
structure Latest (history : NeoHistory runtime) : Prop where
  objects : ∀ id, history.store.objects.find id =
    Table.lastWith NearEarthObject.id history.objects id
  approaches : ∀ key, history.store.approaches.find key =
    Table.lastWith (CloseApproach.key runtime) history.approaches key
  texts : ∀ row ∈ history.store.approaches.rows,
    isText row.orbitingBody = true
  parents : ∀ row ∈ history.approaches,
    ∃ object ∈ history.objects, object.id = row.neoId

theorem latest_init {history : NeoHistory runtime}
    (hinit : (neoSystem runtime strptime fromisoformat).Init history) :
    Latest history := by
  obtain rfl := hinit
  exact ⟨fun _ => rfl, fun _ => rfl, by simp [Table.empty], by simp⟩

/-- A committed run comes after everything that was delivered before. -/
theorem Latest.run {history : NeoHistory runtime} (hlatest : Latest history)
    {delivered : List (NearEarthObject F) × List (CloseApproach F)}
    {next : NeoStore runtime} (hwritten : Written runtime delivered)
    (hleaves : Leaves delivered history.store next)
    (hparents : ∀ row ∈ delivered.2,
      ∃ object ∈ delivered.1, object.id = row.neoId) :
    Latest ({
      store := next
      objects := history.objects ++ delivered.1
      approaches := history.approaches ++ delivered.2 } :
        NeoHistory runtime) := by
  refine ⟨fun id => ?_, fun key => ?_, fun row hrow => ?_, fun row hrow => ?_⟩
  · rw [Table.lastWith_append, ← hlatest.objects]
    exact hleaves.objects id
  · rw [Table.lastWith_append, ← hlatest.approaches]
    exact hleaves.approaches key
  · have hfind : next.approaches.find (row.key runtime) = some row :=
      (Table.find_eq_some_iff _ _ _).mpr ⟨hrow, rfl⟩
    rw [hleaves.approaches, Option.or_eq_some_iff] at hfind
    rcases hfind with hnew | ⟨-, hold⟩
    · exact hwritten.bodies row (isLast_iff.mpr hnew)
    · exact hlatest.texts row ((Table.find_eq_some_iff _ _ _).mp hold).1
  · rcases List.mem_append.mp hrow with hold | hnew
    · obtain ⟨object, hobject, hid⟩ := hlatest.parents row hold
      exact ⟨object, List.mem_append_left _ hobject, hid⟩
    · obtain ⟨object, hobject, hid⟩ := hparents row hnew
      exact ⟨object, List.mem_append_right _ hobject, hid⟩

theorem Latest.step {history next : NeoHistory runtime}
    (hlatest : Latest history) {run : NeoRun F}
    (hstep : (neoSystem runtime strptime fromisoformat).step history run =
      some next) : Latest next := by
  obtain rfl := Option.some.inj hstep
  rcases run.commit_cases strptime fromisoformat hlatest.texts with
    ⟨hnone, -⟩ | ⟨delivered, store, hrecords, hcommit, hwritten, hleaves,
      hparents⟩
  · rw [hnone]
    exact hlatest
  · rw [hcommit, hrecords]
    exact hlatest.run hwritten hleaves hparents

/-- In every run the tables hold the last deliveries. -/
theorem latest_of_reachable {history : NeoHistory runtime}
    (hreach : (neoSystem runtime strptime fromisoformat).Reachable history) :
    Latest history :=
  System.Reachable.invariant Latest (fun _ => latest_init)
    (fun _ _ _ hlatest hstep => hlatest.step hstep) hreach

end History

end UTTG.Ingestion
