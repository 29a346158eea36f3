import Mathlib

/-!
# Loops that may raise

A turn of a loop that may raise gives an `Option`, or an `Except` where the
exception matters.  A comprehension is `mapM`: where no turn raises, it has one
result for each item, in order.  A comprehension with a filter gives `none` as
the result of an item that it skips, and keeps the others.
-/

namespace UTTG.Loops

universe u

/-! ## Comprehensions -/

section Comprehensions

variable {Item Result : Type*} {parse : Item → Option Result}

theorem mapM_eq_some_iff {items : List Item} {results : List Result} :
    items.mapM parse = some results ↔
      List.Forall₂ (fun item result => parse item = some result) items
        results := by
  induction items generalizing results with
  | nil => simp [eq_comm]
  | cons item rest ih =>
      rw [List.mapM_cons, List.forall₂_cons_left_iff]
      simp only [Option.bind_eq_bind, Option.bind_eq_some_iff, ih,
        Option.pure_def, Option.some.injEq]
      constructor
      · rintro ⟨result, hresult, others, hothers, heq⟩
        exact ⟨result, others, hresult, hothers, heq.symm⟩
      · rintro ⟨result, others, hresult, hothers, heq⟩
        exact ⟨result, hresult, others, hothers, heq.symm⟩

/-- A comprehension returns exactly when no turn raises. -/
theorem isSome_mapM_iff (items : List Item) :
    (items.mapM parse).isSome = true ↔
      ∀ item ∈ items, (parse item).isSome = true := by
  induction items with
  | nil => simp
  | cons item rest ih =>
      rw [List.forall_mem_cons, ← ih, List.mapM_cons]
      cases parse item with
      | none => simp
      | some result =>
          cases rest.mapM parse with
          | none => simp
          | some results => simp

section Returned

variable {items : List Item} {results : List Result}

theorem mem_of_mapM (hresults : items.mapM parse = some results)
    {result : Result} (hresult : result ∈ results) :
    ∃ item ∈ items, parse item = some result := by
  have hrelated := mapM_eq_some_iff.mp hresults
  induction hrelated with
  | nil => exact absurd hresult List.not_mem_nil
  | cons hparse hrest ih =>
      rcases List.mem_cons.mp hresult with rfl | hresult
      · exact ⟨_, List.mem_cons_self, hparse⟩
      · obtain ⟨item, hitem, hparse⟩ := ih (mapM_eq_some_iff.mpr hrest) hresult
        exact ⟨item, List.mem_cons_of_mem _ hitem, hparse⟩

theorem mem_results_of_mapM (hresults : items.mapM parse = some results)
    {item : Item} (hitem : item ∈ items) {result : Result}
    (hresult : parse item = some result) : result ∈ results := by
  have hrelated := mapM_eq_some_iff.mp hresults
  induction hrelated with
  | nil => exact absurd hitem List.not_mem_nil
  | cons hparse hrest ih =>
      rcases List.mem_cons.mp hitem with rfl | hitem
      · rw [← Option.some.inj (hresult.symm.trans hparse)]
        exact List.mem_cons_self
      · exact List.mem_cons_of_mem _ (ih (mapM_eq_some_iff.mpr hrest) hitem)

/-- What each turn determines of its result. -/
theorem map_of_mapM {View : Type*} {view : Result → View}
    {expected : Item → View}
    (hexpected : ∀ item ∈ items, ∀ result, parse item = some result →
      view result = expected item)
    (hresults : items.mapM parse = some results) :
    results.map view = items.map expected := by
  have hrelated := mapM_eq_some_iff.mp hresults
  induction hrelated with
  | nil => rfl
  | cons hparse hrest ih =>
      have hothers := ih (fun other hother =>
        hexpected other (List.mem_cons_of_mem _ hother))
        (mapM_eq_some_iff.mpr hrest)
      rw [List.map_cons, List.map_cons, hothers,
        hexpected _ List.mem_cons_self _ hparse]

end Returned

end Comprehensions

/-! ## Comprehensions with an exception -/

section Raising

variable {Item Result Raised : Type*}

theorem bind_eq_ok_iff {First Second : Type u} {Error : Type*}
    {first : Except Error First} {next : First → Except Error Second}
    {result : Second} :
    (first >>= next) = .ok result ↔
      ∃ value, first = .ok value ∧ next value = .ok result := by
  cases first with
  | error raised => simp [bind, Except.bind]
  | ok value => simp [bind, Except.bind]

theorem bind_eq_error_iff {First Second : Type u} {Error : Type*}
    {first : Except Error First} {next : First → Except Error Second}
    {raised : Error} :
    (first >>= next) = .error raised ↔
      first = .error raised ∨
        ∃ value, first = .ok value ∧ next value = .error raised := by
  cases first with
  | error other => simp [bind, Except.bind]
  | ok value => simp [bind, Except.bind]

/-- What a comprehension raises, one of its turns raises. -/
theorem exists_of_mapM_eq_error {parse : Item → Except Raised Result}
    {items : List Item} {raised : Raised}
    (hraised : items.mapM parse = .error raised) :
    ∃ item ∈ items, parse item = .error raised := by
  induction items with
  | nil => cases hraised
  | cons item rest ih =>
      rw [List.mapM_cons, bind_eq_error_iff] at hraised
      rcases hraised with hitem | ⟨result, -, hrest⟩
      · exact ⟨item, List.mem_cons_self, hitem⟩
      · rw [bind_eq_error_iff] at hrest
        rcases hrest with hrest | ⟨others, -, hreturn⟩
        · obtain ⟨other, hother, hraises⟩ := ih hrest
          exact ⟨other, List.mem_cons_of_mem _ hother, hraises⟩
        · cases hreturn

/-- What a comprehension returns does not depend on which exceptions its turns
would raise. -/
theorem mapM_eq_ok_iff {parse : Item → Except Raised Result}
    {items : List Item} {results : List Result} :
    items.mapM parse = .ok results ↔
      items.mapM (fun item => (parse item).toOption) = some results := by
  induction items generalizing results with
  | nil => simp [pure, Except.pure]
  | cons item rest ih =>
      rw [List.mapM_cons, List.mapM_cons]
      cases parse item with
      | error raised => simp [bind, Except.bind, Except.toOption]
      | ok result =>
          change (rest.mapM parse >>= fun others => .ok (result :: others)) =
              .ok results ↔
            (rest.mapM fun item => (parse item).toOption).bind
              (fun others => some (result :: others)) = some results
          rw [Option.bind_eq_some_iff]
          simp only [← ih]
          cases rest.mapM parse with
          | error raised => simp [bind, Except.bind]
          | ok others => simp [bind, Except.bind]

/-- A comprehension returns exactly when no turn raises. -/
theorem exists_mapM_eq_ok_iff {parse : Item → Except Raised Result}
    {items : List Item} :
    (∃ results, items.mapM parse = .ok results) ↔
      ∀ item ∈ items, ∃ result, parse item = .ok result := by
  simp only [mapM_eq_ok_iff, ← Option.isSome_iff_exists, isSome_mapM_iff]
  refine forall₂_congr fun item _ => ?_
  cases parse item with
  | error raised => simp [Except.toOption]
  | ok result => simp [Except.toOption]

variable {parse : Item → Except Raised (Option Result)} {items : List Item}
  {results : List (Option Result)}

/-- The results of a comprehension with a filter are those of the items that it
keeps. -/
theorem mem_reduceOption_of_mapM (hresults : items.mapM parse = .ok results)
    (result : Result) :
    result ∈ results.reduceOption ↔
      ∃ item ∈ items, parse item = .ok (some result) := by
  have hsome := mapM_eq_ok_iff.mp hresults
  have hok : ∀ item, (parse item).toOption = some (some result) ↔
      parse item = .ok (some result) := by
    intro item
    cases parse item with
    | error raised => simp [Except.toOption]
    | ok other => simp [Except.toOption]
  rw [List.reduceOption_mem_iff]
  constructor
  · intro hmem
    obtain ⟨item, hitem, hparse⟩ := mem_of_mapM hsome hmem
    exact ⟨item, hitem, (hok item).mp hparse⟩
  · rintro ⟨item, hitem, hparse⟩
    exact mem_results_of_mapM hsome hitem ((hok item).mpr hparse)

end Raising

/-! ## Comprehensions with a filter -/

section Filtered

variable {Item Result : Type*} {parse : Item → Option (Option Result)}

/-- What each turn determines of its result, for the items that are not
skipped. -/
theorem map_reduceOption_of_mapM {View : Type*} {view : Result → View}
    {expected : Item → Option View} {items : List Item}
    {results : List (Option Result)}
    (hexpected : ∀ item ∈ items, ∀ result, parse item = some result →
      result.map view = expected item)
    (hresults : items.mapM parse = some results) :
    results.reduceOption.map view = items.filterMap expected := by
  calc results.reduceOption.map view
      = (results.map (Option.map view)).reduceOption :=
        List.reduceOption_map.symm
    _ = (items.map expected).reduceOption := by
        rw [map_of_mapM hexpected hresults]
    _ = items.filterMap expected := by
        rw [List.reduceOption, List.filterMap_map, Function.id_comp]

/-- The results have the expected views exactly when no turn raises. -/
theorem map_mapM_reduceOption_iff {View : Type*} {view : Result → View}
    {expected : Item → Option View} {items : List Item}
    (hexpected : ∀ item ∈ items, ∀ result, parse item = some result →
      result.map view = expected item) :
    ((items.mapM parse).map List.reduceOption).map (List.map view) =
        some (items.filterMap expected) ↔
      ∀ item ∈ items, (parse item).isSome = true := by
  rw [← isSome_mapM_iff]
  cases hresults : items.mapM parse with
  | none => simp
  | some results =>
      refine iff_of_true ?_ rfl
      rw [Option.map_some, Option.map_some,
        map_reduceOption_of_mapM hexpected hresults]

/-- The results are all good exactly when no turn raises and each one that does
not skip its item gives a good result. -/
theorem exists_mapM_reduceOption_iff {Good : Result → Prop}
    (items : List Item) :
    (∃ results, (items.mapM parse).map List.reduceOption = some results ∧
        ∀ result ∈ results, Good result) ↔
      ∀ item ∈ items, (parse item).isSome = true ∧
        ∀ result, parse item = some (some result) → Good result := by
  constructor
  · rintro ⟨results, hresults, hgood⟩ item hitem
    obtain ⟨parsed, hparsed, rfl⟩ := Option.map_eq_some_iff.mp hresults
    refine ⟨(isSome_mapM_iff items).mp (by rw [hparsed]; rfl) item hitem,
      fun result hresult => hgood result ?_⟩
    rw [List.reduceOption_mem_iff]
    exact mem_results_of_mapM hparsed hitem hresult
  · intro hall
    have hsome : (items.mapM parse).isSome = true :=
      (isSome_mapM_iff items).mpr fun item hitem => (hall item hitem).1
    obtain ⟨parsed, hparsed⟩ := Option.isSome_iff_exists.mp hsome
    refine ⟨parsed.reduceOption, by rw [hparsed]; rfl, fun result hresult => ?_⟩
    obtain ⟨item, hitem, hparse⟩ := mem_of_mapM hparsed
      (List.reduceOption_mem_iff.mp hresult)
    exact (hall item hitem).2 result hparse

end Filtered

/-! ## Loops with a state -/

section Accumulating

variable {State Item : Type*} {step : State → Item → Option State}

/-- What every turn of a loop keeps, the loop keeps. -/
theorem foldlM_induction {Good : State → Prop}
    (hstep : ∀ state item next, Good state → step state item = some next →
      Good next) (items : List Item) {start final : State}
    (hstart : Good start) (hrun : items.foldlM step start = some final) :
    Good final := by
  induction items generalizing start with
  | nil =>
      obtain rfl : start = final := by simpa using hrun
      exact hstart
  | cons item rest ih =>
      obtain ⟨next, hnext, hrest⟩ := Option.bind_eq_some_iff.mp hrun
      exact ih (hstep start item next hstart hnext) hrest

/-- What every turn of a loop adds, computed before the loop. -/
theorem foldlM_eq_map_mapM {Result : Type*} {parse : Item → Option Result}
    {update : State → Result → State}
    (hstep : ∀ state item, step state item = (parse item).map (update state))
    (items : List Item) (state : State) :
    items.foldlM step state =
      (items.mapM parse).map fun results => results.foldl update state := by
  induction items generalizing state with
  | nil => rfl
  | cons item rest ih =>
      rw [List.foldlM_cons, List.mapM_cons, hstep]
      cases parse item with
      | none => rfl
      | some result =>
          have htail := ih (update state result)
          cases hrest : rest.mapM parse with
          | none =>
              rw [hrest] at htail
              exact htail
          | some results =>
              rw [hrest] at htail
              exact htail

end Accumulating

end UTTG.Loops
