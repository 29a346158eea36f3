import UTTG.Ingestion.Catalog

/-!
# One satellite for a designator

`get_satellite_cospar` relies on a designator naming one satellite.  The index
on `cospar_id` is not unique and the jobs key their rows by catalogue number, so
this holds as long as no run gives a designator to two satellites, or to one
while another keeps it.
-/

namespace UTTG.Ingestion

open Python UTTG.Transition

/-- `scalar_one_or_none`; the outer `none` is `MultipleResultsFound`. -/
def scalarOneOrNone {Row : Type*} : List Row → Option (Option Row)
  | [] => some none
  | [row] => some (some row)
  | _ => none

/-- How the handler goes on after its query. -/
inductive CosparLookup where
  | found (row : CatalogEntry)
  /-- 404 `Satellite not found`. -/
  | notFound
  /-- The exception of `scalar_one_or_none` goes on. -/
  | raises
  deriving DecidableEq

/-- The query of `get_satellite_cospar`. -/
def getSatelliteCospar (catalog : Catalog) (cosparId : Text) : CosparLookup :=
  match scalarOneOrNone
    (catalog.rows.filter fun row => row.cosparId = some cosparId) with
  | none => .raises
  | some none => .notFound
  | some (some row) => .found row

/-- Rows of different satellites have different designators. -/
def DesignatorsUnique (catalog : Catalog) : Prop :=
  ∀ left ∈ catalog.rows, ∀ right ∈ catalog.rows, ∀ cosparId,
    left.cosparId = some cosparId → right.cosparId = some cosparId →
      left.noradId = right.noradId

/-- Every designator leads to its one satellite, or to the 404 where there is
none. -/
def LookupsAnswered (catalog : Catalog) : Prop :=
  ∀ cosparId,
    (∃ row ∈ catalog.rows, row.cosparId = some cosparId ∧
      getSatelliteCospar catalog cosparId = .found row) ∨
    ((∀ row ∈ catalog.rows, row.cosparId ≠ some cosparId) ∧
      getSatelliteCospar catalog cosparId = .notFound)

/-- A run gives each designator to one satellite at most, and to none while
another one keeps it. -/
def GivesFreshDesignators {F : Type} (runtime : Runtime F) (before : Catalog)
    (run : CatalogRun F) (_ : Catalog) : Prop :=
  ∀ entries, run.entries runtime = some entries →
    ∀ noradId cosparId, given entries noradId = some (some cosparId) →
      (∀ other, given entries other = some (some cosparId) →
        other = noradId) ∧
      ∀ row ∈ before.rows, row.cosparId = some cosparId →
        row.noradId = noradId ∨ given entries row.noradId ≠ none

/-! ## The query -/

theorem designatorsUnique_iff (catalog : Catalog) :
    DesignatorsUnique catalog ↔ LookupsAnswered catalog := by
  constructor
  · intro hunique cosparId
    have hnodup : (catalog.rows.filter fun row =>
        row.cosparId = some cosparId).Nodup :=
      catalog.distinct.of_map.filter _
    have hmem : ∀ row, row ∈ catalog.rows.filter
        (fun row => row.cosparId = some cosparId) ↔
          row ∈ catalog.rows ∧ row.cosparId = some cosparId := by
      intro row
      rw [List.mem_filter, decide_eq_true_eq]
    unfold getSatelliteCospar
    generalize catalog.rows.filter
      (fun row => row.cosparId = some cosparId) = rows at hnodup hmem
    cases rows with
    | nil =>
        refine .inr ⟨fun row hrow hcospar => ?_, rfl⟩
        exact List.not_mem_nil ((hmem row).mpr ⟨hrow, hcospar⟩)
    | cons first rest =>
        obtain ⟨hfirst, hcospar⟩ := (hmem first).mp List.mem_cons_self
        have hrest : rest = [] := by
          rw [List.eq_nil_iff_forall_not_mem]
          intro second hsecond
          obtain ⟨hrow, hsame⟩ :=
            (hmem second).mp (List.mem_cons_of_mem first hsecond)
          have hkey := hunique first hfirst second hrow cosparId hcospar hsame
          obtain rfl := catalog.eq_of_mem hfirst hrow hkey
          exact (List.nodup_cons.mp hnodup).1 hsecond
        subst hrest
        exact .inl ⟨first, hfirst, hcospar, rfl⟩
  · intro hanswered left hleft right hright cosparId hleftId hrightId
    by_contra hne
    have hraises : getSatelliteCospar catalog cosparId = .raises := by
      have hleftMem : left ∈ catalog.rows.filter
          (fun row => row.cosparId = some cosparId) :=
        List.mem_filter.mpr ⟨hleft, decide_eq_true hleftId⟩
      have hrightMem : right ∈ catalog.rows.filter
          (fun row => row.cosparId = some cosparId) :=
        List.mem_filter.mpr ⟨hright, decide_eq_true hrightId⟩
      unfold getSatelliteCospar
      generalize catalog.rows.filter
        (fun row => row.cosparId = some cosparId) = rows
        at hleftMem hrightMem
      cases rows with
      | nil => exact absurd hleftMem List.not_mem_nil
      | cons first rest =>
          cases rest with
          | nil =>
              have hsame : left = right :=
                (List.mem_singleton.mp hleftMem).trans
                  (List.mem_singleton.mp hrightMem).symm
              exact absurd (congrArg CatalogEntry.noradId hsame) hne
          | cons second others => rfl
    rcases hanswered cosparId with ⟨row, -, -, hfound⟩ | ⟨-, hmissing⟩
    · exact absurd (hraises.symm.trans hfound) (by simp)
    · exact absurd (hraises.symm.trans hmissing) (by simp)

/-! ## Runs -/

theorem designatorOf_eq_some_iff (catalog : Catalog) (noradId : ℤ)
    (cosparId : Text) :
    designatorOf catalog noradId = some (some cosparId) ↔
      ∃ row ∈ catalog.rows, row.noradId = noradId ∧
        row.cosparId = some cosparId := by
  rw [designatorOf, Option.map_eq_some_iff]
  simp only [Table.find_eq_some_iff, and_assoc]

theorem designatorsUnique_iff_designatorOf (catalog : Catalog) :
    DesignatorsUnique catalog ↔ ∀ left right cosparId,
      designatorOf catalog left = some (some cosparId) →
        designatorOf catalog right = some (some cosparId) → left = right := by
  simp only [designatorOf_eq_some_iff]
  constructor
  · rintro hunique left right cosparId ⟨leftRow, hleft, rfl, hleftId⟩
      ⟨rightRow, hright, rfl, hrightId⟩
    exact hunique leftRow hleft rightRow hright cosparId hleftId hrightId
  · intro hunique left hleft right hright cosparId hleftId hrightId
    exact hunique left.noradId right.noradId cosparId
      ⟨left, hleft, rfl, hleftId⟩ ⟨right, hright, rfl, hrightId⟩

/-- A fresh designator is not one that a satellite keeps which the run does not
give one to. -/
theorem eq_of_given_of_kept {catalog : Catalog} {entries : List CatalogEntry}
    {noradId other : ℤ} {cosparId : Text}
    (hfresh : ∀ row ∈ catalog.rows, row.cosparId = some cosparId →
      row.noradId = noradId ∨ given entries row.noradId ≠ none)
    (hnone : given entries other = none)
    (hholds : designatorOf catalog other = some (some cosparId)) :
    noradId = other := by
  obtain ⟨row, hrow, rfl, hcospar⟩ :=
    (designatorOf_eq_some_iff _ _ _).mp hholds
  rcases hfresh row hrow hcospar with hsame | hgiven
  · exact hsame.symm
  · exact absurd hnone hgiven

/-- The rows of a run keep designators apart exactly when they are fresh. -/
theorem unique_upsert_iff (source : Source) {catalog : Catalog}
    (hunique : DesignatorsUnique catalog) (entries : List CatalogEntry) :
    DesignatorsUnique (source.upsert catalog entries) ↔
      ∀ noradId cosparId, given entries noradId = some (some cosparId) →
        (∀ other, given entries other = some (some cosparId) →
          other = noradId) ∧
        ∀ row ∈ catalog.rows, row.cosparId = some cosparId →
          row.noradId = noradId ∨ given entries row.noradId ≠ none := by
  rw [designatorsUnique_iff_designatorOf] at hunique ⊢
  simp only [designatorOf_upsert]
  constructor
  · intro hafter noradId cosparId hgiven
    have hnew : (given entries noradId).or (designatorOf catalog noradId) =
        some (some cosparId) := by
      rw [hgiven, Option.some_or]
    refine ⟨fun other hother => ?_, fun row hrow hholds => ?_⟩
    · refine hafter other noradId cosparId ?_ hnew
      rw [hother, Option.some_or]
    · by_cases hnone : given entries row.noradId = none
      · left
        refine hafter row.noradId noradId cosparId ?_ hnew
        rw [hnone, Option.none_or]
        exact (designatorOf_eq_some_iff _ _ _).mpr ⟨row, hrow, rfl, hholds⟩
      · exact .inr hnone
  · intro hfresh left right cosparId hleft hright
    cases hleftGiven : given entries left with
    | some leftDesignator =>
        rw [hleftGiven, Option.some_or] at hleft
        rw [hleft] at hleftGiven
        cases hrightGiven : given entries right with
        | some rightDesignator =>
            rw [hrightGiven, Option.some_or] at hright
            rw [hright] at hrightGiven
            exact (hfresh right cosparId hrightGiven).1 left hleftGiven
        | none =>
            rw [hrightGiven, Option.none_or] at hright
            exact eq_of_given_of_kept (hfresh left cosparId hleftGiven).2
              hrightGiven hright
    | none =>
        rw [hleftGiven, Option.none_or] at hleft
        cases hrightGiven : given entries right with
        | some rightDesignator =>
            rw [hrightGiven, Option.some_or] at hright
            rw [hright] at hrightGiven
            exact (eq_of_given_of_kept (hfresh right cosparId hrightGiven).2
              hleftGiven hleft).symm
        | none =>
            rw [hrightGiven, Option.none_or] at hright
            exact hunique left right cosparId hleft hright

/-- In a history of the jobs every designator names one satellite, and every
lookup is answered, exactly as long as each run gives fresh designators. -/
theorem designators_unique_iff {F : Type} (runtime : Runtime F)
    (runs : List (CatalogRun F)) :
    (catalogSystem runtime).States
        (fun catalog => DesignatorsUnique catalog ∧ LookupsAnswered catalog)
        Table.empty runs ↔
      (catalogSystem runtime).Steps (GivesFreshDesignators runtime)
        Table.empty runs := by
  have hempty : DesignatorsUnique Table.empty := by
    intro left hleft
    exact absurd hleft List.not_mem_nil
  refine System.states_iff_steps (fun _ => True)
    (fun catalog => DesignatorsUnique catalog ∧ LookupsAnswered catalog)
    (fun _ _ _ _ _ => trivial) ?_ trivial
    ⟨hempty, (designatorsUnique_iff _).mp hempty⟩
  intro before run after _ hbefore hstep
  rw [← designatorsUnique_iff, and_self]
  rw [catalogStep_eq] at hstep
  obtain rfl := Option.some.inj hstep
  unfold GivesFreshDesignators
  cases hentries : run.entries runtime with
  | none => simpa using hbefore.1
  | some entries =>
      simpa using unique_upsert_iff run.source hbefore.1 entries

/-- A SATCAT record of an object with its designator. -/
def launchedRecord (number designator : String) : Json Unit :=
  .dict [(text "NORAD_CAT_ID", .str (text number)),
    (text "INTLDES", .str (text designator))]

/-- A first line with the designator that object 6 had in the catalogue. -/
def swappedLine : Text := text "1 00005U 58002C   00179.78495062"

/-- CelesTrak gives object 5 the designator that Space-Track gave object 6,
which CelesTrak does not list: the lookup of that designator raises. -/
theorem swapped_designator_raises :
    internationalDesignator unitRuntime swappedLine =
        some (some (text "1958-002C")) ∧
      ∃ after ∈ (catalogSystem unitRuntime).run Table.empty
          [.satcat (.list [launchedRecord "5" "1958-002B",
              launchedRecord "6" "1958-002C"]) false,
            .orbitalElements [fifthElements swappedLine
              (some (text "1958-002C"))] false],
        getSatelliteCospar after (text "1958-002C") = .raises := by
  decide +kernel

end UTTG.Ingestion
