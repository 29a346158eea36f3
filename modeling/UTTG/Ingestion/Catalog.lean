import UTTG.Core.Loops
import UTTG.Core.Table
import UTTG.Core.Transition
import UTTG.Ingestion.Upserts

/-!
# The satellite catalogue

`_ingest_satcat` and `_ingest_orbital_elements` upsert rows of `satellites`,
each with its own list of columns.  A run is one transaction: it commits all of
its statements, or leaves the table as it was.
-/

namespace UTTG.Ingestion

open Python UTTG.Loops UTTG.Transition

/-- A row of `satellites`. -/
structure CatalogEntry where
  noradId : ℤ
  cosparId : Option Text
  name : Text
  operator : Option Text
  country : Option Text
  objectType : Option Text
  orbitClass : Option Text
  status : Option Text
  deriving DecidableEq

/-- The table `satellites`. -/
abbrev Catalog := Table CatalogEntry.noradId

section Model

variable {F : Type}

/-- A nullable column of strings; the driver takes nothing else. -/
def nullableText : Json F → Option (Option Text)
  | .null => some none
  | .str value => some (some value)
  | _ => none

/-- The row as it is stored, unless a value does not fit its column. -/
def Satellite.entry (row : Satellite F) : Option CatalogEntry :=
  if -2 ^ 31 ≤ row.noradId ∧ row.noradId < 2 ^ 31 then do
    let cosparId ← nullableText row.cosparId
    let country ← nullableText row.country
    let objectType ← nullableText row.objectType
    return {
      noradId := row.noradId
      cosparId := cosparId
      name := row.name
      operator := none
      country := country
      objectType := objectType
      orbitClass := none
      status := row.status }
  else none

/-- The `set_` of `_ingest_satcat`. -/
def CatalogEntry.setSatcat (excluded row : CatalogEntry) : CatalogEntry :=
  { row with
    cosparId := excluded.cosparId
    name := excluded.name
    country := excluded.country
    objectType := excluded.objectType
    status := excluded.status }

/-- The `set_` of `_ingest_orbital_elements`. -/
def CatalogEntry.setElements (excluded row : CatalogEntry) : CatalogEntry :=
  { row with cosparId := excluded.cosparId, name := excluded.name }

/-- A provider whose job writes the table. -/
inductive Source where
  | spaceTrack
  | celestrak
  deriving DecidableEq

def Source.set : Source → CatalogEntry → CatalogEntry → CatalogEntry
  | .spaceTrack => CatalogEntry.setSatcat
  | .celestrak => CatalogEntry.setElements

theorem Source.set_noradId (source : Source) (excluded row : CatalogEntry) :
    (source.set excluded row).noradId = row.noradId := by
  cases source <;> rfl

/-- Upsert rows of the table. -/
def Source.upsert (source : Source) (catalog : Catalog)
    (entries : List CatalogEntry) : Catalog :=
  catalog.upsertAll id source.set source.set_noradId entries

/-- Execute a statement; those for other tables do not touch this one. -/
def Source.execute (source : Source) (catalog : Catalog) :
    Statement F → Option Catalog
  | .satellites rows => do
      let entries ← rows.mapM Satellite.entry
      catalog.insertOnConflict id source.set source.set_noradId entries
  | _ => some catalog

/-- `_international_designator`; the outer `none` is an exception. -/
def internationalDesignator (runtime : Runtime F) (line1 : Text) :
    Option (Option Text) :=
  let raw := runtime.strip ((line1.drop 9).take 8)
  if raw.length < 5 ∨ runtime.isdigit (raw.take 2) = false then some none
  else do
    let year ← runtime.int (.str (raw.take 2))
    let century := if 57 ≤ year then text "19" else text "20"
    return some (century ++ raw.take 2 ++ text "-" ++ raw.drop 2)

/-- A run of one of the jobs, with what its provider client returned.  The
database may refuse the transaction for reasons of its own. -/
inductive CatalogRun (F : Type) where
  | satcat (payload : Json F) (refused : Bool)
  | orbitalElements (records : List (TwoLineElementSet F)) (refused : Bool)

namespace CatalogRun

def source : CatalogRun F → Source
  | satcat _ _ => .spaceTrack
  | orbitalElements _ _ => .celestrak

def refused : CatalogRun F → Bool
  | satcat _ refused | orbitalElements _ refused => refused

/-- The statements of the transaction; `none` where the job raises. -/
def statements (runtime : Runtime F) :
    CatalogRun F → Option (List (Statement F))
  | satcat payload _ => ingestSatcat runtime payload
  | orbitalElements records _ => ingestOrbitalElements records

/-- The table after a commit; `none` where there is none. -/
def commit (runtime : Runtime F) (run : CatalogRun F) (catalog : Catalog) :
    Option Catalog :=
  if run.refused then none
  else do
    let statements ← run.statements runtime
    statements.foldlM run.source.execute catalog

/-- The rows for `satellites` that the job makes. -/
def rows (runtime : Runtime F) : CatalogRun F → Option (List (Satellite F))
  | satcat payload _ => (iterate payload).bind (satcatRows runtime)
  | orbitalElements records _ =>
      if records.isEmpty then none
      else some (Dict.values (Dict.ofPairs (records.map fun record =>
        (record.noradId, record.satellite))))

/-- The number of rows in a statement. -/
def batchSize : CatalogRun F → ℕ
  | satcat _ _ => 500
  | orbitalElements _ _ => 1000

/-- The rows that a run writes: none of its values is unfit for its column, no
statement lists a satellite twice, and the database does not refuse. -/
def entries (runtime : Runtime F) (run : CatalogRun F) :
    Option (List CatalogEntry) := do
  let rows ← run.rows runtime
  let entries ← rows.mapM Satellite.entry
  if run.refused = false ∧ ∀ batch ∈ batches rows run.batchSize,
      (batch.map Satellite.noradId).Nodup then
    some entries
  else none

end CatalogRun

/-- One run after another. -/
def catalogSystem (runtime : Runtime F) : System Catalog (CatalogRun F) where
  Init catalog := catalog = Table.empty
  step catalog run := some ((run.commit runtime catalog).getD catalog)

end Model

/-! ## What a run writes -/

section Writes

variable {F : Type}

theorem entry_noradId {row : Satellite F} {entry : CatalogEntry}
    (hentry : row.entry = some entry) : entry.noradId = row.noradId := by
  unfold Satellite.entry at hentry
  split at hentry
  · obtain ⟨cosparId, -, hentry⟩ := Option.bind_eq_some_iff.mp hentry
    obtain ⟨country, -, hentry⟩ := Option.bind_eq_some_iff.mp hentry
    obtain ⟨objectType, -, hentry⟩ := Option.bind_eq_some_iff.mp hentry
    rw [← Option.some.inj hentry]
  · simp at hentry

theorem noradIds_mapM_entry {rows : List (Satellite F)}
    {entries : List CatalogEntry}
    (hentries : rows.mapM Satellite.entry = some entries) :
    entries.map CatalogEntry.noradId = rows.map Satellite.noradId :=
  map_of_mapM (fun _ _ _ => entry_noradId) hentries

/-- The statements for the batches of a job, one after the other. -/
theorem foldlM_execute (source : Source) (blocks : List (List (Satellite F)))
    (catalog : Catalog) :
    (blocks.map Statement.satellites).foldlM source.execute catalog =
      (blocks.flatten.mapM Satellite.entry).bind fun entries =>
        if ∀ block ∈ blocks, (block.map Satellite.noradId).Nodup then
          some (source.upsert catalog entries)
        else none := by
  induction blocks generalizing catalog with
  | nil => simp [Source.upsert, Table.upsertAll]
  | cons block blocks ih =>
      rw [List.map_cons, List.foldlM_cons, List.flatten_cons, List.mapM_append]
      cases hentries : block.mapM Satellite.entry with
      | none => simp [Source.execute, hentries]
      | some entries =>
          have hnumbers := noradIds_mapM_entry hentries
          by_cases hdistinct : (block.map Satellite.noradId).Nodup
          · have hexecute : source.execute catalog (.satellites block) =
                some (source.upsert catalog entries) := by
              simp only [Source.execute, hentries, Option.bind_eq_bind,
                Option.bind_some, Table.insertOnConflict]
              exact if_pos (by simpa [hnumbers] using hdistinct)
            simp only [hexecute, Option.bind_eq_bind, Option.bind_some, ih]
            cases hrest : blocks.flatten.mapM Satellite.entry with
            | none => simp
            | some rest =>
                simp [hdistinct, Source.upsert, Table.upsertAll_append]
          · have hexecute : source.execute catalog (.satellites block) =
                none := by
              simp only [Source.execute, hentries, Option.bind_eq_bind,
                Option.bind_some, Table.insertOnConflict]
              exact if_neg (by simpa [hnumbers] using hdistinct)
            simp [hexecute, hdistinct]

/-- The statements for other tables leave this one as it is. -/
theorem foldlM_execute_elements (source : Source)
    (blocks : List (List (OrbitalElement F))) (catalog : Catalog) :
    (blocks.map Statement.orbitalElements).foldlM source.execute catalog =
      some catalog := by
  induction blocks with
  | nil => rfl
  | cons block blocks ih =>
      rw [List.map_cons, List.foldlM_cons]
      exact ih

/-- A job executes its rows for this table in batches, and then perhaps
statements for another one. -/
theorem statements_eq (runtime : Runtime F) (run : CatalogRun F) :
    ∃ others : List (List (OrbitalElement F)),
      run.statements runtime = (run.rows runtime).map fun rows =>
        (batches rows run.batchSize).map Statement.satellites ++
          others.map Statement.orbitalElements := by
  cases run with
  | satcat payload refused =>
      refine ⟨[], ?_⟩
      simp only [CatalogRun.statements, CatalogRun.rows, ingestSatcat]
      cases iterate payload with
      | none => rfl
      | some records =>
          cases hrows : satcatRows runtime records with
          | none => simp [hrows]
          | some rows => simp [hrows, CatalogRun.batchSize]
  | orbitalElements records refused =>
      refine ⟨batches (records.map TwoLineElementSet.element) 1000, ?_⟩
      simp only [CatalogRun.statements, CatalogRun.rows,
        ingestOrbitalElements]
      split
      · rfl
      · rfl

theorem batchSize_pos (run : CatalogRun F) : 0 < run.batchSize := by
  cases run <;> exact Nat.succ_pos _

/-- A run commits exactly when it has rows to write, and then writes them. -/
theorem commit_eq (runtime : Runtime F) (run : CatalogRun F)
    (catalog : Catalog) :
    run.commit runtime catalog =
      (run.entries runtime).map (run.source.upsert catalog) := by
  obtain ⟨others, hstatements⟩ := statements_eq runtime run
  unfold CatalogRun.commit CatalogRun.entries
  rw [hstatements]
  cases hrows : run.rows runtime with
  | none => simp
  | some rows =>
      have hexecuted : ((batches rows run.batchSize).map
            Statement.satellites ++
          others.map Statement.orbitalElements).foldlM run.source.execute
            catalog =
          (rows.mapM Satellite.entry).bind fun entries =>
            if ∀ batch ∈ batches rows run.batchSize,
                (batch.map Satellite.noradId).Nodup then
              some (run.source.upsert catalog entries)
            else none := by
        rw [List.foldlM_append, foldlM_execute,
          flatten_batches rows (batchSize_pos run)]
        simp only [foldlM_execute_elements, Option.bind_eq_bind,
          Option.bind_fun_some]
      simp only [Option.map_some, Option.bind_eq_bind, Option.bind_some,
        hexecuted]
      cases hrefused : run.refused with
      | true => cases rows.mapM Satellite.entry <;> simp
      | false =>
          cases rows.mapM Satellite.entry with
          | none => simp
          | some entries =>
              simp only [Bool.false_eq_true, if_false, Option.bind_some,
                true_and]
              split
              · rfl
              · rfl

/-- A run that writes nothing leaves the table as it was. -/
theorem catalogStep_eq (runtime : Runtime F) (catalog : Catalog)
    (run : CatalogRun F) :
    (catalogSystem runtime).step catalog run =
      some ((run.entries runtime).elim catalog
        (run.source.upsert catalog)) := by
  simp only [catalogSystem, commit_eq]
  cases run.entries runtime <;> rfl

end Writes

/-! ## What a run keeps -/

/-- The designator that the rows of a run give a satellite, in the last of
them. -/
def given (entries : List CatalogEntry) (noradId : ℤ) :
    Option (Option Text) :=
  ((entries.filter fun entry => entry.noradId = noradId).getLast?).map
    CatalogEntry.cosparId

/-- The designator of a satellite in the table. -/
def designatorOf (catalog : Catalog) (noradId : ℤ) : Option (Option Text) :=
  (catalog.find noradId).map CatalogEntry.cosparId

theorem Source.set_cosparId (source : Source) (excluded row : CatalogEntry) :
    (source.set excluded row).cosparId = excluded.cosparId := by
  cases source <;> rfl

/-- Both jobs write the designators that they are given. -/
theorem designatorOf_upsert (source : Source) (catalog : Catalog)
    (entries : List CatalogEntry) (noradId : ℤ) :
    designatorOf (source.upsert catalog entries) noradId =
      (given entries noradId).or (designatorOf catalog noradId) := by
  rw [designatorOf, Source.upsert, Table.find_upsertAll, given, designatorOf]
  simp only [id_eq]
  generalize entries.filter (fun entry => entry.noradId = noradId) = own
  induction own using List.reverseRecOn with
  | nil => rfl
  | append_singleton own entry ih =>
      rw [List.foldl_append, List.getLast?_append, List.foldl_cons,
        List.foldl_nil]
      cases List.foldl _ _ own with
      | none => rfl
      | some row => exact congrArg some (source.set_cosparId entry row)

/-- A row under further rows for its satellite. -/
theorem foldl_set (source : Source) (entries : List CatalogEntry)
    (row : CatalogEntry) :
    ∃ later, entries.foldl
        (fun found entry => some (found.elim entry (source.set entry)))
        (some row) = some later ∧
      later.operator = row.operator ∧ later.orbitClass = row.orbitClass ∧
      (source = .celestrak → later.country = row.country ∧
        later.objectType = row.objectType ∧ later.status = row.status) := by
  induction entries using List.reverseRecOn with
  | nil => exact ⟨row, rfl, rfl, rfl, fun _ => ⟨rfl, rfl, rfl⟩⟩
  | append_singleton entries entry ih =>
      obtain ⟨last, hlast, hoperator, horbit, hcelestrak⟩ := ih
      rw [List.foldl_append, hlast]
      refine ⟨source.set entry last, rfl, ?_, ?_, ?_⟩
      · rw [← hoperator]
        cases source <;> rfl
      · rw [← horbit]
        cases source <;> rfl
      · rintro rfl
        exact hcelestrak rfl

/-- What a run leaves of a row that was there. -/
theorem find_upsert_entries (source : Source) (catalog : Catalog)
    (entries : List CatalogEntry) {noradId : ℤ} {row : CatalogEntry}
    (hfind : catalog.find noradId = some row) :
    ∃ later, (source.upsert catalog entries).find noradId = some later ∧
      later.operator = row.operator ∧ later.orbitClass = row.orbitClass ∧
      (source = .celestrak → later.country = row.country ∧
        later.objectType = row.objectType ∧ later.status = row.status) ∧
      later.cosparId = (given entries noradId).getD row.cosparId := by
  obtain ⟨later, hfold, hoperator, horbit, hcelestrak⟩ := foldl_set source
    (entries.filter fun entry => entry.noradId = noradId) row
  have hlater : (source.upsert catalog entries).find noradId = some later := by
    rw [Source.upsert, Table.find_upsertAll, hfind]
    exact hfold
  have hdesignator := designatorOf_upsert source catalog entries noradId
  rw [designatorOf, designatorOf, hlater, hfind] at hdesignator
  refine ⟨later, hlater, hoperator, horbit, hcelestrak, ?_⟩
  cases hgiven : given entries noradId with
  | none => simpa [hgiven] using hdesignator
  | some designator => simpa [hgiven] using hdesignator

/-- A run that commits has no designator for the satellite, in its last row for
it. -/
def CatalogRun.Erases {F : Type} (runtime : Runtime F) (run : CatalogRun F)
    (noradId : ℤ) : Prop :=
  ∃ entries, run.entries runtime = some entries ∧
    given entries noradId = some none

/-- A run keeps every row, with its operator and orbit class; CelesTrak keeps
its country, type and status too; and a designator becomes null in the runs
that erase it. -/
def Kept {F : Type} (runtime : Runtime F) (before : Catalog)
    (run : CatalogRun F) (after : Catalog) : Prop :=
  ∀ noradId row, before.find noradId = some row →
    ∃ later, after.find noradId = some later ∧
      later.operator = row.operator ∧ later.orbitClass = row.orbitClass ∧
      (run.source = .celestrak → later.country = row.country ∧
        later.objectType = row.objectType ∧ later.status = row.status) ∧
      (row.cosparId ≠ none →
        (later.cosparId = none ↔ run.Erases runtime noradId))

/-- Every run of the jobs keeps the table, whatever they are given. -/
theorem catalog_kept {F : Type} (runtime : Runtime F) (start : Catalog)
    (runs : List (CatalogRun F)) :
    (catalogSystem runtime).Steps (Kept runtime) start runs := by
  have hall : (catalogSystem runtime).Steps (fun _ _ _ => True) start runs :=
    System.steps_true start runs
  refine System.Steps.of_invariant
    (fun _ => True) (fun _ _ _ _ _ _ => trivial) ?_ trivial hall
  intro before run after _ hstep _ noradId row hfind
  rw [catalogStep_eq] at hstep
  obtain rfl := Option.some.inj hstep
  cases hentries : run.entries runtime with
  | none =>
      refine ⟨row, hfind, rfl, rfl, fun _ => ⟨rfl, rfl, rfl⟩, fun hknown => ?_⟩
      refine iff_of_false hknown ?_
      rintro ⟨entries, hcommitted, -⟩
      rw [hentries] at hcommitted
      simp at hcommitted
  | some entries =>
      obtain ⟨later, hlater, hoperator, horbit, hcelestrak, hcospar⟩ :=
        find_upsert_entries run.source before entries hfind
      refine ⟨later, hlater, hoperator, horbit, hcelestrak, fun hknown => ?_⟩
      have herases : run.Erases runtime noradId ↔
          given entries noradId = some none := by
        simp [CatalogRun.Erases, hentries]
      rw [herases, hcospar]
      cases hgiven : given entries noradId with
      | none => simpa using hknown
      | some designator => simp

/-- ASCII, with a single float. -/
def unitRuntime : Runtime Unit where
  format := {
    repr := fun _ => text "0.0"
    read := fun _ => .finite ()
    literal := fun _ => by decide
    read_repr := fun _ => rfl }
  isPrintable := asciiRuntime.isPrintable
  isSpace := asciiRuntime.isSpace
  isDigit := asciiRuntime.isDigit
  decimalValue := asciiRuntime.decimalValue
  float _ := .invalid
  rational _ := 0
  round2 := id

/-- A SATCAT record of object 5. -/
def fifthRecord (designator : Json Unit) : Json Unit :=
  .dict [(text "NORAD_CAT_ID", .str (text "5")),
    (text "INTLDES", designator), (text "SATNAME", .str (text "VANGUARD 1"))]

/-- An element set of object 5 with this first line. -/
def fifthElements (line1 : Text) (cosparId : Option Text) :
    TwoLineElementSet Unit where
  noradId := 5
  name := text "VANGUARD 1"
  cosparId := cosparId
  epoch := 0
  inclination := ()
  rightAscension := ()
  eccentricity := ()
  argumentOfPerigee := ()
  meanAnomaly := ()
  meanMotion := ()
  tleLine1 := line1
  tleLine2 := text "2 00005"

/-- A first line without a designator in its columns 10 to 17. -/
def bareLine : Text := text "1 00005U          00179.78495062"

/-- A designator that Space-Track gave becomes null again when Space-Track
leaves it out, and when CelesTrak does. -/
theorem known_designator_erased :
    ∃ known ∈ (catalogSystem unitRuntime).run Table.empty
        [.satcat (.list [fifthRecord (.str (text "1958-002B"))]) false],
      (known.find 5).map CatalogEntry.cosparId =
          some (some (text "1958-002B")) ∧
        (∃ after ∈ (catalogSystem unitRuntime).run known
            [.satcat (.list [fifthRecord .null]) false],
          (after.find 5).map CatalogEntry.cosparId = some none) ∧
        internationalDesignator unitRuntime bareLine = some none ∧
        ∃ after ∈ (catalogSystem unitRuntime).run known
            [.orbitalElements [fifthElements bareLine none] false],
          (after.find 5).map CatalogEntry.cosparId = some none := by
  decide +kernel

end UTTG.Ingestion
