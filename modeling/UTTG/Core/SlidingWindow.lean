import Mathlib

/-!
# Counting in every interval

A bound on the events in every half-open interval of a length is kept by an
event exactly when the events that are less than this length old are few enough.
Events that drew distinct numbers from one counter are at most as many as the
greatest number.
-/

namespace UTTG.SlidingWindow

variable {Event Time : Type*}

section Interval

variable [AddCommGroup Time] [LinearOrder Time]
  (time : Event → Time) (counts : Event → Bool) (length : Time)

/-- The counted events from `since` on and before `since + length`. -/
def within (since : Time) (events : List Event) : ℕ :=
  events.countP fun event =>
    counts event && decide (since ≤ time event ∧ time event < since + length)

/-- No interval holds more counted events than the limit. -/
def AtMost (limit : ℕ) (events : List Event) : Prop :=
  ∀ since, within time counts length since events ≤ limit

/-- The counted events that are less than the length old. -/
def recent (now : Time) (events : List Event) : List Event :=
  events.filter fun event => counts event && decide (now - length < time event)

variable {time counts length}

theorem mem_recent {now : Time} {events : List Event} {event : Event} :
    event ∈ recent time counts length now events ↔
      event ∈ events ∧ counts event = true ∧ now - length < time event := by
  rw [recent, List.mem_filter, Bool.and_eq_true, decide_eq_true_eq]

theorem atMost_nil (limit : ℕ) : AtMost time counts length limit [] :=
  fun _ => Nat.zero_le limit

/-- An event that does not count changes nothing. -/
theorem atMost_concat_of_not_counted {event : Event}
    (hevent : counts event = false) (limit : ℕ) (events : List Event) :
    AtMost time counts length limit (events ++ [event]) ↔
      AtMost time counts length limit events := by
  have hsame : ∀ since, within time counts length since (events ++ [event]) =
      within time counts length since events := by
    intro since
    rw [within, within, List.countP_append, List.countP_singleton, hevent]
    rfl
  simp only [AtMost, hsame]

variable [IsOrderedAddMonoid Time]

/-- Some interval holds the newest event and all that are recent then. -/
theorem exists_interval {event : Event} {events : List Event}
    (hlength : 0 < length) (hpast : ∀ other ∈ events, time other ≤ time event) :
    ∃ since, since ≤ time event ∧ time event < since + length ∧
      ∀ other ∈ recent time counts length (time event) events,
        since ≤ time other ∧ time other < since + length := by
  obtain ⟨oldest, holdest, hleast⟩ := Finset.exists_min_image
    ((recent time counts length (time event) events ++ [event]).map
      time).toFinset id ⟨time event, by simp⟩
  have hle : ∀ other ∈ recent time counts length (time event) events ++
      [event], oldest ≤ time other := fun other hother =>
    hleast (time other) (List.mem_toFinset.mpr (List.mem_map_of_mem hother))
  have hafter : time event < oldest + length := by
    obtain ⟨other, hother, rfl⟩ := List.mem_map.mp
      (List.mem_toFinset.mp holdest)
    rcases List.mem_append.mp hother with hrecent | hnewest
    · exact sub_lt_iff_lt_add.mp (mem_recent.mp hrecent).2.2
    · rw [List.mem_singleton.mp hnewest]
      exact lt_add_of_pos_right _ hlength
  refine ⟨oldest, hle event (by simp), hafter, fun other hother => ?_⟩
  have hmem := (mem_recent.mp hother).1
  exact ⟨hle other (List.mem_append_left _ hother),
    lt_of_le_of_lt (hpast other hmem) hafter⟩

/-- A counted event keeps the bound exactly when there is room for it among the
recent ones. -/
theorem atMost_concat_iff {event : Event} {events : List Event} {limit : ℕ}
    (hlength : 0 < length) (hpast : ∀ other ∈ events, time other ≤ time event)
    (hevent : counts event = true)
    (hkept : AtMost time counts length limit events) :
    AtMost time counts length limit (events ++ [event]) ↔
      (recent time counts length (time event) events).length + 1 ≤ limit := by
  constructor
  · intro hall
    obtain ⟨since, hsince, hbefore, hrecent⟩ :=
      @exists_interval _ _ _ _ _ counts _ _ event events hlength hpast
    have hcount : (recent time counts length (time event) events).length ≤
        within time counts length since events := by
      rw [recent, ← List.countP_eq_length_filter]
      refine List.countP_mono_left fun other hother hboth => ?_
      rw [Bool.and_eq_true, decide_eq_true_eq] at hboth
      rw [Bool.and_eq_true, decide_eq_true_eq]
      exact ⟨hboth.1, hrecent other (mem_recent.mpr ⟨hother, hboth⟩)⟩
    calc (recent time counts length (time event) events).length + 1
        ≤ within time counts length since events + 1 :=
          Nat.add_le_add_right hcount 1
      _ = within time counts length since (events ++ [event]) := by
          rw [within, within, List.countP_append, List.countP_singleton,
            if_pos (by simp [hevent, hsince, hbefore])]
      _ ≤ limit := hall since
  · intro hroom since
    rw [within, List.countP_append, List.countP_singleton]
    split
    case isFalse => exact hkept since
    case isTrue hinside =>
      rw [Bool.and_eq_true, decide_eq_true_eq] at hinside
      refine le_trans (Nat.add_le_add_right ?_ 1) hroom
      rw [recent, ← List.countP_eq_length_filter]
      refine List.countP_mono_left fun other _ hboth => ?_
      rw [Bool.and_eq_true, decide_eq_true_eq] at hboth
      rw [Bool.and_eq_true, decide_eq_true_eq]
      refine ⟨hboth.1, sub_lt_iff_lt_add.mpr ?_⟩
      exact lt_of_lt_of_le hinside.2.2 (by gcongr; exact hboth.2.1)

end Interval

/-- Numbers from one to a limit that are pairwise distinct are at most as many
as the limit. -/
theorem length_le_of_distinct {number : Event → ℕ} {events : List Event}
    {limit : ℕ} (hdistinct : (events.map number).Nodup)
    (hrange : ∀ event ∈ events, 1 ≤ number event ∧ number event ≤ limit) :
    events.length ≤ limit := by
  have hsubset : (events.map number).toFinset ⊆ Finset.Icc 1 limit := by
    intro value hvalue
    obtain ⟨event, hevent, rfl⟩ := List.mem_map.mp (List.mem_toFinset.mp hvalue)
    exact Finset.mem_Icc.mpr (hrange event hevent)
  calc events.length
      = (events.map number).toFinset.card := by
        rw [List.toFinset_card_of_nodup hdistinct, List.length_map]
    _ ≤ (Finset.Icc 1 limit).card := Finset.card_le_card hsubset
    _ = limit := by rw [Nat.card_Icc, Nat.add_sub_cancel]

end UTTG.SlidingWindow
