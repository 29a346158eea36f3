import Mathlib

/-!
# Readings by time

The value of a time is the last one that was read for it.  A window shows the
values of the times that count, from the newest of them back to a length before
it, in the order of time.  What it shows depends on the values of the times
only.
-/

namespace UTTG.Readings

variable {Time Value : Type*}

section Last

variable [DecidableEq Time]

/-- The last value that was read for a time. -/
def lastAt (readings : List (Time × Value)) (instant : Time) : Option Value :=
  (readings.filter fun reading => reading.1 = instant).getLast?.map Prod.snd

theorem lastAt_eq_find? (readings : List (Time × Value)) (instant : Time) :
    lastAt readings instant =
      (readings.reverse.find? fun reading => reading.1 = instant).map
        Prod.snd := by
  rw [lastAt, ← List.head?_reverse, ← List.filter_reverse, List.head?_filter]

theorem mem_of_lastAt {readings : List (Time × Value)} {instant : Time}
    {value : Value} (hlast : lastAt readings instant = some value) :
    (instant, value) ∈ readings := by
  obtain ⟨reading, hreading, rfl⟩ := Option.map_eq_some_iff.mp hlast
  have hmem := List.mem_filter.mp (List.mem_of_getLast? hreading)
  have htime : reading.1 = instant := by simpa using hmem.2
  rw [← htime]
  exact hmem.1

theorem isSome_lastAt_iff (readings : List (Time × Value)) (instant : Time) :
    (lastAt readings instant).isSome = true ↔
      instant ∈ readings.map Prod.fst := by
  constructor
  · intro hsome
    obtain ⟨value, hvalue⟩ := Option.isSome_iff_exists.mp hsome
    exact List.mem_map_of_mem (mem_of_lastAt hvalue)
  · intro hmem
    obtain ⟨reading, hreading, rfl⟩ := List.mem_map.mp hmem
    have hfilter : reading ∈
        readings.filter fun other => other.1 = reading.1 :=
      List.mem_filter.mpr ⟨hreading, by simp⟩
    rw [lastAt, Option.isSome_map, List.getLast?_isSome]
    exact List.ne_nil_of_mem hfilter

end Last

section Window

variable [LinearOrder Time] [Sub Time]

/-- The values of a window in the order of time: the newest time that counts
is the last, each value is the last one read for its time, and every time that
counts and is within the length of the newest is there. -/
structure Shows (readings : List (Time × Value)) (counts : Time → Prop)
    (length : Time) (time : Value → Time) (shown : List Value) : Prop where
  ascending : (shown.map time).Pairwise (· < ·)
  newest : ∀ instant, counts instant →
    (lastAt readings instant).isSome = true →
      ∃ newest ∈ shown.getLast?, instant ≤ time newest
  sound : ∀ value ∈ shown,
    counts (time value) ∧ lastAt readings (time value) = some value
  recent : ∀ newest ∈ shown.getLast?, ∀ value ∈ shown,
    time newest - time value ≤ length
  complete : ∀ newest ∈ shown.getLast?, ∀ instant value, counts instant →
    lastAt readings instant = some value →
      time newest - instant ≤ length → value ∈ shown

variable {readings others : List (Time × Value)} {counts : Time → Prop}
  {length : Time} {time : Value → Time} {shown other : List Value}

omit [Sub Time] in
/-- The greatest of ascending values is the last one. -/
theorem getLast?_of_greatest (hascending : (shown.map time).Pairwise (· < ·))
    {value : Value} (hvalue : value ∈ shown)
    (hgreatest : ∀ other ∈ shown, time other ≤ time value) :
    shown.getLast? = some value := by
  obtain ⟨init, last, rfl⟩ : ∃ init last, shown = init ++ [last] := by
    simpa using (List.eq_nil_or_concat shown).resolve_left
      (List.ne_nil_of_mem hvalue)
  rcases List.mem_append.mp hvalue with hinit | hlast
  · rw [List.map_append, List.pairwise_append] at hascending
    have hlt := hascending.2.2 (time value) (List.mem_map_of_mem hinit)
      (time last) (List.mem_singleton_self _)
    have hle := hgreatest last
      (List.mem_append_right _ (List.mem_singleton_self _))
    exact absurd hle (not_le_of_gt hlt)
  · rw [List.mem_singleton.mp hlast]
    exact List.getLast?_concat

theorem Shows.subset
    (hsame : ∀ instant, lastAt readings instant = lastAt others instant)
    (hshown : Shows readings counts length time shown)
    (hother : Shows others counts length time other) : shown ⊆ other := by
  intro value hvalue
  obtain ⟨hcounts, hlast⟩ := hshown.sound value hvalue
  have hthere : (lastAt others (time value)).isSome = true := by
    rw [← hsame, hlast]
    rfl
  obtain ⟨newest, hnewest, -⟩ := hother.newest _ hcounts hthere
  obtain ⟨hnewcounts, hnewlast⟩ :=
    hother.sound newest (List.mem_of_getLast? hnewest)
  obtain ⟨last, hmem, hle⟩ := hshown.newest _ hnewcounts (by
    rw [hsame, hnewlast]
    rfl)
  obtain ⟨hlastcounts, hlastvalue⟩ :=
    hshown.sound last (List.mem_of_getLast? hmem)
  obtain ⟨same, hunique, hge⟩ := hother.newest _ hlastcounts (by
    rw [← hsame, hlastvalue]
    rfl)
  obtain rfl := Option.mem_unique hnewest hunique
  refine hother.complete newest hnewest _ value hcounts
    ((hsame _).symm.trans hlast) ?_
  rw [le_antisymm hle hge]
  exact hshown.recent last hmem value hvalue

/-- What a window shows is determined by the last values. -/
theorem Shows.eq
    (hsame : ∀ instant, lastAt readings instant = lastAt others instant)
    (hshown : Shows readings counts length time shown)
    (hother : Shows others counts length time other) : shown = other := by
  have hnodup : ∀ {values : List Value},
      (values.map time).Pairwise (· < ·) → values.Nodup := by
    intro values hascending
    have hdistinct : (values.map time).Nodup := hascending.imp ne_of_lt
    exact hdistinct.of_map
  have hperm : shown.Perm other :=
    (List.perm_ext_iff_of_nodup (hnodup hshown.ascending)
      (hnodup hother.ascending)).mpr fun value =>
        ⟨fun hvalue => hshown.subset hsame hother hvalue,
          fun hvalue => hother.subset (fun instant => (hsame instant).symm)
            hshown hvalue⟩
  exact hperm.eq_of_pairwise
    (fun left right _ _ hlt hgt => absurd hgt (lt_asymm hlt))
    (List.pairwise_map.mp hshown.ascending)
    (List.pairwise_map.mp hother.ascending)

end Window

end UTTG.Readings
