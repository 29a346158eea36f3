import Mathlib

/-!
# Keeping the last row of each key

Rows have a key, which several may share, and a position, which none do.
Deleting every row that another row of its key comes after leaves one row of
each key, the one with the greatest position.
-/

namespace UTTG.Duplicates

variable {Row Key Position : Type*} (key : Row → Key) (position : Row → Position)

section Delete

variable [DecidableEq Key] [LinearOrder Position]

/-- Another row of the key comes after this one. -/
def isSuperseded (rows : List Row) (current : Row) : Bool :=
  rows.any fun duplicate =>
    decide (key current = key duplicate) &&
      decide (position current < position duplicate)

def deleteSuperseded (rows : List Row) : List Row :=
  rows.filter fun current => !isSuperseded key position rows current

end Delete

/-- One row of each key is left, the last of those before, and rows that share
their key with no other are untouched. -/
structure Deduplicated [LE Position] (before after : List Row) : Prop where
  sublist : after.Sublist before
  distinct : (after.map key).Nodup
  present : ∀ row ∈ before, key row ∈ after.map key
  greatest : ∀ row ∈ after, ∀ other ∈ before, key other = key row →
    position other ≤ position row
  alone : ∀ row ∈ before, (∀ other ∈ before, key other = key row → other = row) →
    row ∈ after
  unchanged : (before.map key).Nodup → after = before

variable {key position}

theorem deduplicated_self [PartialOrder Position] {rows : List Row}
    (hdistinct : (rows.map key).Nodup) : Deduplicated key position rows rows where
  sublist := List.Sublist.refl rows
  distinct := hdistinct
  present _ hmem := List.mem_map_of_mem hmem
  greatest _ hrow _ hother hkey :=
    (congrArg position (List.inj_on_of_nodup_map hdistinct hother hrow hkey)).le
  alone _ hmem _ := hmem
  unchanged _ := rfl

variable [DecidableEq Key] [LinearOrder Position]

theorem mem_deleteSuperseded {rows : List Row} {row : Row} :
    row ∈ deleteSuperseded key position rows ↔
      row ∈ rows ∧
        ∀ other ∈ rows, key other = key row → position other ≤ position row := by
  rw [deleteSuperseded, List.mem_filter]
  apply and_congr_right
  intro _
  simp only [isSuperseded, Bool.not_eq_true', List.any_eq_false,
    Bool.and_eq_true, decide_eq_true_eq, not_and, not_lt]
  exact forall₂_congr fun other _ => by rw [eq_comm]

omit [DecidableEq Key] in
/-- A key that has rows has a last one. -/
theorem exists_greatest (key : Row → Key) (position : Row → Position)
    {rows : List Row} {row : Row} (hrow : row ∈ rows) :
    ∃ last ∈ rows, key last = key row ∧
      ∀ other ∈ rows, key other = key row → position other ≤ position last := by
  have hfinite : {other | other ∈ rows ∧ key other = key row}.Finite :=
    (List.finite_toSet rows).subset fun other hother => hother.1
  obtain ⟨last, ⟨hlast, hkey⟩, hgreatest⟩ :=
    Set.exists_max_image _ position hfinite ⟨row, hrow, rfl⟩
  exact ⟨last, hlast, hkey, fun other hother heq => hgreatest other ⟨hother, heq⟩⟩

/-- Deleting every row that another of its key comes after keeps the last. -/
theorem deduplicated_deleteSuperseded {rows : List Row}
    (hpositions : (rows.map position).Nodup) :
    Deduplicated key position rows (deleteSuperseded key position rows) := by
  have hsublist : (deleteSuperseded key position rows).Sublist rows :=
    List.filter_sublist
  refine
    { sublist := hsublist
      distinct := ?_
      present := ?_
      greatest := fun row hrow => (mem_deleteSuperseded.mp hrow).2
      alone := ?_
      unchanged := ?_ }
  · apply List.Nodup.map_on _ (hsublist.nodup hpositions.of_map)
    intro left hleft right hright hkey
    obtain ⟨hleft, hleftlast⟩ := mem_deleteSuperseded.mp hleft
    obtain ⟨hright, hrightlast⟩ := mem_deleteSuperseded.mp hright
    apply List.inj_on_of_nodup_map hpositions hleft hright
    exact le_antisymm (hrightlast left hleft hkey)
      (hleftlast right hright hkey.symm)
  · intro row hrow
    obtain ⟨last, hlast, hkey, hgreatest⟩ :=
      exists_greatest key position hrow
    rw [← hkey]
    apply List.mem_map_of_mem
    rw [mem_deleteSuperseded, hkey]
    exact ⟨hlast, hgreatest⟩
  · intro row hrow halone
    rw [mem_deleteSuperseded]
    refine ⟨hrow, fun other hother hkey => ?_⟩
    rw [halone other hother hkey]
  · intro hdistinct
    rw [deleteSuperseded, List.filter_eq_self]
    intro row hrow
    have hself : Deduplicated key position rows rows :=
      deduplicated_self hdistinct
    have hkept : row ∈ deleteSuperseded key position rows :=
      mem_deleteSuperseded.mpr ⟨hrow, hself.greatest row hrow⟩
    exact (List.mem_filter.mp hkept).2

end UTTG.Duplicates
