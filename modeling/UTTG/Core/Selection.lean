import Mathlib

/-!
# Ordered selections with a limit

`SELECT … WHERE … ORDER BY … LIMIT …` as a relation: the rows of an answer are
the first ones of some listing of the selected rows in ascending rank.  Rows of
equal rank may be listed in any order, so a statement may have several answers.
An answer does not depend on the order of the table, and it carries over to any
other description of the selected rows that has the same ranks.
-/

namespace UTTG.Selection

section Model

variable {Row Rank : Type*} [LinearOrder Rank] (rank : Row → Rank)
  (selected : Row → Bool) (limit : ℕ)

/-- All selected rows in ascending rank. -/
structure Listing (rows listing : List Row) : Prop where
  perm : listing.Perm (rows.filter selected)
  ascending : listing.Pairwise fun left right => rank left ≤ rank right

/-- An answer of the statement over these rows. -/
def Answers (rows answer : List Row) : Prop :=
  ∃ listing, Listing rank selected rows listing ∧ answer = listing.take limit

end Model

section Answer

variable {Row Rank : Type*} [LinearOrder Rank] {rank : Row → Rank}
  {selected : Row → Bool} {limit : ℕ} {rows answer : List Row}

theorem Listing.mem_iff {listing : List Row}
    (hlisting : Listing rank selected rows listing) {row : Row} :
    row ∈ listing ↔ row ∈ rows ∧ selected row = true := by
  rw [hlisting.perm.mem_iff, List.mem_filter]

theorem Answers.mem (hanswer : Answers rank selected limit rows answer)
    {row : Row} (hrow : row ∈ answer) : row ∈ rows ∧ selected row = true := by
  obtain ⟨listing, hlisting, rfl⟩ := hanswer
  exact hlisting.mem_iff.mp (List.mem_of_mem_take hrow)

theorem Answers.length_eq (hanswer : Answers rank selected limit rows answer) :
    answer.length = min limit (rows.countP selected) := by
  obtain ⟨listing, hlisting, rfl⟩ := hanswer
  rw [List.length_take, hlisting.perm.length_eq, List.countP_eq_length_filter]

theorem Answers.ascending (hanswer : Answers rank selected limit rows answer) :
    answer.Pairwise fun left right => rank left ≤ rank right := by
  obtain ⟨listing, hlisting, rfl⟩ := hanswer
  exact hlisting.ascending.sublist (List.take_sublist limit listing)

/-- What is left out comes no earlier than anything in the answer. -/
theorem Answers.least (hanswer : Answers rank selected limit rows answer)
    {row other : Row} (hrow : row ∈ answer) (hother : other ∈ rows)
    (hselected : selected other = true) (hout : other ∉ answer) :
    rank row ≤ rank other := by
  obtain ⟨listing, hlisting, rfl⟩ := hanswer
  have hmem : other ∈ listing := hlisting.mem_iff.mpr ⟨hother, hselected⟩
  rw [← List.take_append_drop limit listing, List.mem_append] at hmem
  have hpair := hlisting.ascending
  rw [← List.take_append_drop limit listing, List.pairwise_append] at hpair
  exact hpair.2.2 row hrow other (hmem.resolve_left hout)

/-- Rows with distinct keys are answered with distinct keys. -/
theorem Answers.nodup_map {Key : Type*} {key : Row → Key}
    (hanswer : Answers rank selected limit rows answer)
    (hdistinct : (rows.map key).Nodup) : (answer.map key).Nodup := by
  obtain ⟨listing, hlisting, rfl⟩ := hanswer
  have hfiltered : ((rows.filter selected).map key).Nodup :=
    (List.filter_sublist.map key).nodup hdistinct
  exact ((List.take_sublist limit listing).map key).nodup
    ((hlisting.perm.map key).nodup_iff.mpr hfiltered)

/-- The order of the table carries no meaning. -/
theorem Answers.of_perm {others : List Row} (hperm : rows.Perm others)
    (hanswer : Answers rank selected limit rows answer) :
    Answers rank selected limit others answer := by
  obtain ⟨listing, hlisting, rfl⟩ := hanswer
  exact ⟨listing, ⟨hlisting.perm.trans (hperm.filter selected),
    hlisting.ascending⟩, rfl⟩

/-- Within the limit nothing is left out. -/
theorem Answers.mem_of_le (hanswer : Answers rank selected limit rows answer)
    (hle : rows.countP selected ≤ limit) {row : Row} (hrow : row ∈ rows)
    (hselected : selected row = true) : row ∈ answer := by
  obtain ⟨listing, hlisting, rfl⟩ := hanswer
  have hlength : listing.length ≤ limit := by
    rwa [hlisting.perm.length_eq, ← List.countP_eq_length_filter]
  rw [List.take_of_length_le hlength]
  exact hlisting.mem_iff.mpr ⟨hrow, hselected⟩

/-- A statement with `LIMIT 1` has no row exactly when nothing is selected. -/
theorem Answers.eq_nil_iff (hanswer : Answers rank selected limit rows answer)
    (hlimit : 0 < limit) :
    answer = [] ↔ ∀ row ∈ rows, selected row = false := by
  rw [← List.length_eq_zero_iff, hanswer.length_eq, Nat.min_eq_zero_iff,
    List.countP_eq_zero]
  simp only [Bool.not_eq_true, or_iff_right_iff_imp]
  intro hzero
  omega

/-! ## What an answer is the beginning of -/

/-- The first rows, in ascending rank, of all rows with a property. -/
structure FirstOf (Current : Row → Prop) (rank : Row → Rank) (limit : ℕ)
    (rows : List Row) : Prop where
  ascending : rows.Pairwise fun left right => rank left ≤ rank right
  distinct : rows.Nodup
  current : ∀ row ∈ rows, Current row
  within : rows.length ≤ limit
  complete : ∀ row, Current row → row ∈ rows ∨
    (rows.length = limit ∧ ∀ other ∈ rows, rank other ≤ rank row)

theorem Answers.firstOf (hanswer : Answers rank selected limit rows answer)
    (hnodup : rows.Nodup) {Current : Row → Prop}
    (hcurrent : ∀ row, Current row ↔ row ∈ rows ∧ selected row = true) :
    FirstOf Current rank limit answer where
  ascending := hanswer.ascending
  distinct := by
    obtain ⟨listing, hlisting, rfl⟩ := hanswer
    exact (List.take_sublist limit listing).nodup
      (hlisting.perm.nodup_iff.mpr (hnodup.filter _))
  current row hrow := (hcurrent row).mpr (hanswer.mem hrow)
  within := by
    rw [hanswer.length_eq]
    exact min_le_left _ _
  complete row hrow := by
    obtain ⟨hmem, hselected⟩ := (hcurrent row).mp hrow
    by_cases hin : row ∈ answer
    · exact .inl hin
    · refine .inr ⟨?_, fun other hother =>
        hanswer.least hother hmem hselected hin⟩
      rw [hanswer.length_eq, min_eq_left]
      by_contra hlimit
      exact hin (hanswer.mem_of_le (not_le.mp hlimit).le hmem hselected)

end Answer

/-! ## The first row of each group -/

section Distinct

variable {Row Group Rank : Type*} [DecidableEq Group] {group : Row → Group}

/-- `DISTINCT ON (group)` over rows that are listed already. -/
def distinctOn (group : Row → Group) : List Row → List Row
  | [] => []
  | row :: rest =>
      row :: (distinctOn group rest).filter fun other => group other ≠ group row

theorem distinctOn_sublist (group : Row → Group) (listing : List Row) :
    (distinctOn group listing).Sublist listing := by
  induction listing with
  | nil => exact .slnil
  | cons row rest ih => exact (List.filter_sublist.trans ih).cons_cons row

theorem nodup_map_distinctOn (group : Row → Group) (listing : List Row) :
    ((distinctOn group listing).map group).Nodup := by
  induction listing with
  | nil => exact List.nodup_nil
  | cons row rest ih =>
      rw [distinctOn, List.map_cons, List.nodup_cons]
      refine ⟨?_, (List.filter_sublist.map group).nodup ih⟩
      simp

/-- Every group has a row. -/
theorem mem_map_distinctOn {listing : List Row} {value : Group} :
    value ∈ (distinctOn group listing).map group ↔
      value ∈ listing.map group := by
  induction listing with
  | nil => rfl
  | cons row rest ih =>
      rw [distinctOn, List.map_cons, List.map_cons, List.mem_cons,
        List.mem_cons, ← ih]
      by_cases hvalue : value = group row
      · simp [hvalue]
      · simp only [hvalue, false_or, List.mem_map, List.mem_filter,
          decide_eq_true_eq]
        constructor
        · rintro ⟨other, ⟨hmem, -⟩, rfl⟩
          exact ⟨other, hmem, rfl⟩
        · rintro ⟨other, hmem, rfl⟩
          exact ⟨other, ⟨hmem, hvalue⟩, rfl⟩

/-- The row of a group comes before the others of the group. -/
theorem distinctOn_first {related : Row → Row → Prop} {listing : List Row}
    (hrelated : listing.Pairwise related) {row other : Row}
    (hrow : row ∈ distinctOn group listing) (hother : other ∈ listing)
    (hgroup : group other = group row) : other = row ∨ related row other := by
  induction listing with
  | nil => simp at hother
  | cons first rest ih =>
      obtain ⟨hfirst, hrest⟩ := List.pairwise_cons.mp hrelated
      rw [distinctOn, List.mem_cons] at hrow
      obtain rfl | hrow := hrow
      · exact (List.mem_cons.mp hother).imp_right (hfirst other)
      · obtain ⟨hmem, hne⟩ := List.mem_filter.mp hrow
        obtain rfl | hother := List.mem_cons.mp hother
        · simp [hgroup] at hne
        · exact ih hrest hmem hother

end Distinct

/-! ## Another description of the rows -/

section Carry

variable {Row Item Rank : Type*} [LinearOrder Rank] {rank : Row → Rank}
  {itemRank : Item → Rank} {selected : Row → Bool} {wanted : Item → Bool}
  {rows listing answer : List Row} {items : List Item} {limit : ℕ}
  {view : Row → Item}

/-- Rows that are shown as the wanted items are listed as these are. -/
theorem Listing.map (hlisting : Listing rank selected rows listing)
    (hview : ((rows.filter selected).map view).Perm (items.filter wanted))
    (hrank : ∀ row ∈ rows, selected row = true →
      itemRank (view row) = rank row) :
    Listing itemRank wanted items (listing.map view) := by
  refine ⟨(hlisting.perm.map view).trans hview, ?_⟩
  rw [List.pairwise_map]
  refine hlisting.ascending.imp_of_mem fun {left right} hleft hright hle => ?_
  obtain ⟨hleftRow, hleftSelected⟩ := hlisting.mem_iff.mp hleft
  obtain ⟨hrightRow, hrightSelected⟩ := hlisting.mem_iff.mp hright
  rwa [hrank left hleftRow hleftSelected, hrank right hrightRow hrightSelected]

/-- An answer is shown as an answer over the items. -/
theorem Answers.map (hanswer : Answers rank selected limit rows answer)
    (hview : ((rows.filter selected).map view).Perm (items.filter wanted))
    (hrank : ∀ row ∈ rows, selected row = true →
      itemRank (view row) = rank row) :
    Answers itemRank wanted limit items (answer.map view) := by
  obtain ⟨listing, hlisting, rfl⟩ := hanswer
  exact ⟨listing.map view, hlisting.map hview hrank, List.map_take⟩

end Carry

end UTTG.Selection
