import Mathlib

/-!
# Grouping in two stages

Items are grouped by a key, and the groups again by something that the key
tells.  The groups of the first stage that fall into a group of the second stage
make up its items, so that sums and maxima over the first groups are those over
the items.
-/

namespace UTTG.Grouping

section Fibers

variable {Item Key : Type*} [DecidableEq Key] (key : Item → Key)

/-- The items under a key. -/
def fiber (items : Multiset Item) (value : Key) : Multiset Item :=
  items.filter fun item => key item = value

variable {key}

/-- The groups of all keys make up the items. -/
theorem sum_fibers {keys : List Key} (hdistinct : keys.Nodup)
    {items : Multiset Item} (hkeys : ∀ item ∈ items, key item ∈ keys) :
    (keys.map (fiber key items)).sum = items := by
  induction keys generalizing items with
  | nil =>
      rw [List.map_nil, List.sum_nil, eq_comm, Multiset.eq_zero_iff_forall_notMem]
      exact fun item hitem => List.not_mem_nil (hkeys item hitem)
  | cons value rest ih =>
      obtain ⟨habsent, hrest⟩ := List.nodup_cons.mp hdistinct
      have hothers : rest.map (fiber key items) =
          rest.map (fiber key (items.filter fun item => ¬key item = value)) := by
        refine List.map_congr_left fun other hother => ?_
        rw [fiber, fiber, Multiset.filter_filter]
        refine Multiset.filter_congr fun item _ => ?_
        constructor
        · rintro rfl
          exact ⟨rfl, fun heq => habsent (heq ▸ hother)⟩
        · exact And.left
      rw [List.map_cons, List.sum_cons, hothers, ih hrest]
      · exact Multiset.filter_add_not _ items
      · intro item hitem
        obtain ⟨hmem, hne⟩ := Multiset.mem_filter.mp hitem
        exact (List.mem_cons.mp (hkeys item hmem)).resolve_left hne

/-- The groups of some keys make up the items with these keys. -/
theorem sum_fibers_filter {keys : List Key} (hdistinct : keys.Nodup)
    {items : Multiset Item} (hkeys : ∀ item ∈ items, key item ∈ keys)
    (wanted : Key → Prop) [DecidablePred wanted] :
    ((keys.filter fun value => wanted value).map (fiber key items)).sum =
      items.filter fun item => wanted (key item) := by
  have hsame : (keys.filter fun value => wanted value).map (fiber key items) =
      (keys.filter fun value => wanted value).map
        (fiber key (items.filter fun item => wanted (key item))) := by
    refine List.map_congr_left fun value hvalue => ?_
    have hwanted : wanted value := by simpa using (List.mem_filter.mp hvalue).2
    rw [fiber, fiber, Multiset.filter_filter]
    refine Multiset.filter_congr fun item _ => ?_
    constructor
    · rintro rfl
      exact ⟨rfl, hwanted⟩
    · exact And.left
  rw [hsame]
  refine sum_fibers (hdistinct.filter _) fun item hitem => ?_
  obtain ⟨hmem, hwanted⟩ := Multiset.mem_filter.mp hitem
  exact List.mem_filter.mpr ⟨hkeys item hmem, by simpa using hwanted⟩

end Fibers

section Stages

variable {Item Row Key Coarse : Type*} [DecidableEq Key]

/-- Rows that stand for the groups of the items: each key of an item has one
row, and each row has an item. -/
structure Stands (itemKey : Item → Key) (rowKey : Row → Key)
    (items : Multiset Item) (rows : List Row) : Prop where
  distinct : (rows.map rowKey).Nodup
  covers : ∀ item ∈ items, itemKey item ∈ rows.map rowKey
  inhabited : ∀ row ∈ rows, ∃ item ∈ items, itemKey item = rowKey row

variable {itemKey : Item → Key} {rowKey : Row → Key} {items : Multiset Item}
  {rows : List Row}

/-- The groups of the wanted rows make up the wanted items. -/
theorem Stands.sum_own (hstands : Stands itemKey rowKey items rows)
    (wanted : Key → Prop) [DecidablePred wanted] :
    ((rows.filter fun row => wanted (rowKey row)).map fun row =>
        fiber itemKey items (rowKey row)).sum =
      items.filter fun item => wanted (itemKey item) := by
  rw [← sum_fibers_filter hstands.distinct hstands.covers wanted,
    List.filter_map, List.map_map]
  rfl

omit [DecidableEq Key] in
/-- The wanted rows fall into the same groups of the second stage as the wanted
items. -/
theorem Stands.mem_coarse_iff (hstands : Stands itemKey rowKey items rows)
    (wanted : Key → Prop) [DecidablePred wanted] (coarse : Key → Coarse)
    (value : Coarse) :
    (∃ row ∈ rows.filter fun row => wanted (rowKey row),
        coarse (rowKey row) = value) ↔
      ∃ item ∈ items.filter fun item => wanted (itemKey item),
        coarse (itemKey item) = value := by
  simp only [List.mem_filter, Multiset.mem_filter, decide_eq_true_eq]
  constructor
  · rintro ⟨row, ⟨hrow, hwanted⟩, rfl⟩
    obtain ⟨item, hitem, hkey⟩ := hstands.inhabited row hrow
    exact ⟨item, ⟨hitem, by rwa [hkey]⟩, by rw [hkey]⟩
  · rintro ⟨item, ⟨hitem, hwanted⟩, rfl⟩
    obtain ⟨row, hrow, hkey⟩ := List.mem_map.mp (hstands.covers item hitem)
    exact ⟨row, ⟨hrow, by rwa [hkey]⟩, by rw [hkey]⟩

end Stages

/-! ## Sums and maxima over the groups -/

section Aggregates

variable {Item Row : Type*}

/-- What is additive on the groups is additive over the rows. -/
theorem sum_map_hom {Value : Type*} [AddCommMonoid Value]
    (hom : Multiset Item →+ Value) {own : Row → Multiset Item}
    {measure : Row → Value} {rows : List Row}
    (hmeasure : ∀ row ∈ rows, measure row = hom (own row)) :
    (rows.map measure).sum = hom (rows.map own).sum := by
  rw [map_list_sum, List.map_map]
  exact congrArg List.sum (List.map_congr_left hmeasure)

/-- The maximum over the rows, where nothing is below the default. -/
theorem max?_getD_eq_sup {Value : Type*} [LinearOrder Value] [OrderBot Value]
    (values : List Value) :
    values.max?.getD ⊥ = (values : Multiset Value).sup := by
  cases hmax : values.max? with
  | none =>
      rw [List.max?_eq_none_iff] at hmax
      rw [hmax]
      exact Multiset.sup_zero.symm
  | some greatest =>
      obtain ⟨hmem, hle⟩ := List.max?_eq_some_iff.mp hmax
      refine le_antisymm (Multiset.le_sup (Multiset.mem_coe.mpr hmem)) ?_
      exact Multiset.sup_le.mpr fun value hvalue => hle value hvalue

/-- The maximum over the rows of the maxima of their groups. -/
theorem max?_map_sup {Value : Type*} [LinearOrder Value] [OrderBot Value]
    {own : Row → Multiset Value} {measure : Row → Value} {rows : List Row}
    (hmeasure : ∀ row ∈ rows, measure row = (own row).sup) :
    (rows.map measure).max?.getD ⊥ = (rows.map own).sum.sup := by
  rw [max?_getD_eq_sup]
  induction rows with
  | nil => rfl
  | cons row rest ih =>
      obtain ⟨hrow, hrest⟩ := List.forall_mem_cons.mp hmeasure
      rw [List.map_cons, List.map_cons, List.sum_cons, Multiset.sup_add,
        ← ih hrest, ← hrow, ← Multiset.cons_coe, Multiset.sup_cons]

end Aggregates

end UTTG.Grouping
