import UTTG.Core.Expiring

/-!
# Leases on an expiring key

Holders take turns on one key of a shared store.  A holder acquires the key
with a conditional set that carries the lease as its expiry, and releases it
by an unconditional set that keeps the key for a further pause.  The key does
not record who set it, so what a release does depends on whether the lease of
the releasing holder is still running.

Two invariants are proved.  If every holder releases before its lease lapses,
at most one holder is inside and every pause is respected.  Without that
assumption, the lease of a holder is respected as long as no lapsed holder
releases during it.
-/

namespace UTTG.Lease

open UTTG.Expiring

variable {Holder Time : Type*} [LinearOrder Time] [Add Time]

/-- The key, the acquisition time of every holder that is inside, and the
releases so far with the pause each asked for. -/
structure State (Holder Time : Type*) where
  clock : Time
  slot : Slot Unit Time
  since : Holder → Option Time
  released : List (Time × Time)

inductive Event (Holder Time : Type*) where
  | idle
  | acquire (holder : Holder)
  | release (holder : Holder) (pause : Time)
  | abandon (holder : Holder)

variable [DecidableEq Holder]

/-- What each event does to the key and to the holders. -/
inductive Step (lease : Time) :
    State Holder Time → Event Holder Time → State Holder Time → Prop
  | idle (state : State Holder Time) (clock : Time)
      (hclock : state.clock ≤ clock) :
      Step lease state .idle { state with clock := clock }
  | acquire (state : State Holder Time) (holder : Holder)
      (habsent : state.slot.get state.clock = none) :
      Step lease state (.acquire holder)
        { state with
          slot := Slot.set () (state.clock + lease)
          since := Function.update state.since holder (some state.clock) }
  | release (state : State Holder Time) (holder : Holder) (start pause : Time)
      (hsince : state.since holder = some start) :
      Step lease state (.release holder pause)
        { state with
          slot := Slot.set () (state.clock + pause)
          since := Function.update state.since holder none
          released := (state.clock, pause) :: state.released }
  | abandon (state : State Holder Time) (holder : Holder) :
      Step lease state (.abandon holder)
        { state with since := Function.update state.since holder none }

omit [LinearOrder Time] [Add Time] in
/-- Removing a holder leaves only holders that were inside before. -/
theorem since_of_update_none {since : Holder → Option Time}
    {holder other : Holder} {start : Time}
    (hsince : Function.update since holder none other = some start) :
    other ≠ holder ∧ since other = some start := by
  by_cases hother : other = holder
  · subst hother
    simp at hsince
  · rw [Function.update_of_ne hother] at hsince
    exact ⟨hother, hsince⟩

omit [Add Time] in
/-- A key that is set until `deadline` is present before it. -/
theorem lt_of_absent {slot : Slot Unit Time} {clock deadline : Time}
    (hslot : slot = some ⟨(), some deadline⟩)
    (habsent : slot.get clock = none) : deadline ≤ clock := by
  rw [hslot, Slot.get_some] at habsent
  by_contra hlive
  simp [hlive] at habsent

/-! ## Holders that release in time -/

section InTime

variable (lease : Time)

/-- Every holder that is inside still has its lease. -/
def OnTime (state : State Holder Time) : Prop :=
  ∀ holder start, state.since holder = some start →
    state.clock < start + lease

/-- The key carries the lease of the only holder; every pause is over or
covered by the key, and was over when the present holder came in. -/
structure Exclusive (state : State Holder Time) : Prop where
  onTime : OnTime lease state
  leased : ∀ holder start, state.since holder = some start →
    state.slot = some ⟨(), some (start + lease)⟩
  single : ∀ left right leftStart rightStart,
    state.since left = some leftStart → state.since right = some rightStart →
      left = right
  begun : ∀ holder start, state.since holder = some start →
    start ≤ state.clock
  spaced : ∀ time pause, (time, pause) ∈ state.released →
    time + pause ≤ state.clock ∨
      ∃ deadline, state.slot = some ⟨(), some deadline⟩ ∧
        time + pause ≤ deadline
  settled : ∀ holder start, state.since holder = some start →
    ∀ time pause, (time, pause) ∈ state.released → time + pause ≤ start

variable {lease}

omit [DecidableEq Holder] in
/-- While the key is absent nobody is inside. -/
theorem Exclusive.empty_of_absent {state : State Holder Time}
    (hinv : Exclusive lease state)
    (habsent : state.slot.get state.clock = none) (holder : Holder) :
    state.since holder = none := by
  cases hsince : state.since holder with
  | none => rfl
  | some start =>
      have hover := lt_of_absent (hinv.leased holder start hsince) habsent
      exact absurd (hinv.onTime holder start hsince) (not_lt.mpr hover)

omit [DecidableEq Holder] in
/-- When the key can be acquired, every pause is over. -/
theorem Exclusive.pauses_over {state : State Holder Time}
    (hinv : Exclusive lease state)
    (habsent : state.slot.get state.clock = none)
    (time pause : Time) (hmem : (time, pause) ∈ state.released) :
    time + pause ≤ state.clock := by
  rcases hinv.spaced time pause hmem with hover | ⟨deadline, hslot, hle⟩
  · exact hover
  · exact hle.trans (lt_of_absent hslot habsent)

omit [DecidableEq Holder] in
theorem Exclusive.init {state : State Holder Time}
    (hempty : ∀ holder, state.since holder = none)
    (hreleased : state.released = []) : Exclusive lease state where
  onTime holder start hsince := by simp [hempty holder] at hsince
  leased holder start hsince := by simp [hempty holder] at hsince
  single left _ leftStart _ hleft := by simp [hempty left] at hleft
  begun holder start hsince := by simp [hempty holder] at hsince
  spaced time pause hmem := by simp [hreleased] at hmem
  settled holder start hsince := by simp [hempty holder] at hsince

/-- Steps into on-time states preserve exclusion and spacing. -/
theorem Exclusive.step {state next : State Holder Time}
    {event : Event Holder Time} (hinv : Exclusive lease state)
    (hstep : Step lease state event next) (honTime : OnTime lease next) :
    Exclusive lease next := by
  cases hstep with
  | idle clock hclock =>
      exact {
        onTime := honTime
        leased := hinv.leased
        single := hinv.single
        begun := fun holder start hsince =>
          (hinv.begun holder start hsince).trans hclock
        spaced := fun time pause hmem =>
          (hinv.spaced time pause hmem).imp_left fun hover =>
            hover.trans hclock
        settled := hinv.settled }
  | acquire holder habsent =>
      have hempty := hinv.empty_of_absent habsent
      have hnew : ∀ other start,
          Function.update state.since holder (some state.clock) other =
            some start → other = holder ∧ start = state.clock := by
        intro other start hsince
        by_cases hother : other = holder
        · subst hother
          simpa [eq_comm] using hsince
        · rw [Function.update_of_ne hother, hempty other] at hsince
          simp at hsince
      refine ⟨honTime, ?_, ?_, ?_, ?_, ?_⟩
      · intro other start hsince
        obtain ⟨-, rfl⟩ := hnew other start hsince
        rfl
      · intro left right leftStart rightStart hleft hright
        rw [(hnew left leftStart hleft).1, (hnew right rightStart hright).1]
      · intro other start hsince
        obtain ⟨-, rfl⟩ := hnew other start hsince
        exact le_rfl
      · intro time pause hmem
        exact .inl (hinv.pauses_over habsent time pause hmem)
      · intro other start hsince time pause hmem
        obtain ⟨-, rfl⟩ := hnew other start hsince
        exact hinv.pauses_over habsent time pause hmem
  | release holder start pause hsince =>
      -- The releasing holder was alone, so nobody is inside afterwards.
      have hempty : ∀ other,
          Function.update state.since holder none other = none := by
        intro other
        cases hother : Function.update state.since holder none other with
        | none => rfl
        | some otherStart =>
            obtain ⟨hne, hinside⟩ := since_of_update_none hother
            exact absurd
              (hinv.single other holder otherStart start hinside hsince) hne
      refine ⟨honTime, ?_, ?_, ?_, ?_, ?_⟩
      · intro other otherStart hother
        simp [hempty other] at hother
      · intro left right leftStart rightStart hleft
        simp [hempty left] at hleft
      · intro other otherStart hother
        simp [hempty other] at hother
      · intro time otherPause hmem
        rcases List.mem_cons.mp hmem with heq | hmem
        · obtain ⟨rfl, rfl⟩ := Prod.mk.inj heq
          exact .inr ⟨_, rfl, le_rfl⟩
        · exact .inl ((hinv.settled holder start hsince _ _ hmem).trans
            (hinv.begun holder start hsince))
      · intro other otherStart hother
        simp [hempty other] at hother
  | abandon holder =>
      have hinside : ∀ other start,
          Function.update state.since holder none other = some start →
            other ≠ holder ∧ state.since other = some start :=
        fun _ _ => since_of_update_none
      exact {
        onTime := honTime
        leased := fun other start hsince =>
          hinv.leased other start (hinside other start hsince).2
        single := fun left right leftStart rightStart hleft hright =>
          hinv.single left right leftStart rightStart
            (hinside left leftStart hleft).2 (hinside right rightStart hright).2
        begun := fun other start hsince =>
          hinv.begun other start (hinside other start hsince).2
        spaced := hinv.spaced
        settled := fun other start hsince =>
          hinv.settled other start (hinside other start hsince).2 }

end InTime

/-! ## Holders that may overrun -/

section Overrun

variable (lease : Time)

/-- The key carries the lease of every holder whose lease still runs, and
there is at most one such holder. -/
structure Covered (state : State Holder Time) : Prop where
  carries : ∀ holder start, state.since holder = some start →
    state.clock < start + lease →
      state.slot = some ⟨(), some (start + lease)⟩
  single : ∀ left right leftStart rightStart,
    state.since left = some leftStart → state.since right = some rightStart →
      state.clock < leftStart + lease → state.clock < rightStart + lease →
        left = right

/-- A holder releases during its lease, or while no other lease runs. -/
def Release (state : State Holder Time) : Event Holder Time → Prop
  | .release holder _ =>
      ∀ start, state.since holder = some start → start + lease ≤ state.clock →
        ∀ other taken, other ≠ holder → state.since other = some taken →
          taken + lease ≤ state.clock
  | _ => True

variable {lease}

omit [DecidableEq Holder] in
theorem Covered.init {state : State Holder Time}
    (hempty : ∀ holder, state.since holder = none) : Covered lease state where
  carries holder start hsince := by simp [hempty holder] at hsince
  single left _ leftStart _ hleft := by simp [hempty left] at hleft

omit [DecidableEq Holder] in
/-- An absent key shows that every other lease has lapsed. -/
theorem Covered.lapsed_of_absent {state : State Holder Time}
    (hinv : Covered lease state)
    (habsent : state.slot.get state.clock = none) {holder : Holder}
    {start : Time} (hsince : state.since holder = some start) :
    start + lease ≤ state.clock := by
  by_contra hrunning
  have hlive := not_le.mp hrunning
  exact hrunning (lt_of_absent (hinv.carries holder start hsince hlive) habsent)

/-- Leases stay covered as long as no lapsed release overwrites one. -/
theorem Covered.step {state next : State Holder Time}
    {event : Event Holder Time} (hinv : Covered lease state)
    (hstep : Step lease state event next)
    (hrelease : Release lease state event) : Covered lease next := by
  cases hstep with
  | idle clock hclock =>
      exact {
        carries := fun holder start hsince hlive =>
          hinv.carries holder start hsince (hclock.trans_lt hlive)
        single := fun left right leftStart rightStart hleft hright hl hr =>
          hinv.single left right leftStart rightStart hleft hright
            (hclock.trans_lt hl) (hclock.trans_lt hr) }
  | acquire holder habsent =>
      have hlapsed : ∀ other start, other ≠ holder →
          Function.update state.since holder (some state.clock) other =
            some start → start + lease ≤ state.clock := by
        intro other start hother hsince
        rw [Function.update_of_ne hother] at hsince
        exact hinv.lapsed_of_absent habsent hsince
      have honly : ∀ other start,
          Function.update state.since holder (some state.clock) other =
            some start → state.clock < start + lease → other = holder := by
        intro other start hsince hlive
        by_contra hother
        exact absurd hlive (not_lt.mpr (hlapsed other start hother hsince))
      refine ⟨?_, ?_⟩
      · intro other start hsince hlive
        obtain rfl := honly other start hsince hlive
        obtain rfl : state.clock = start := by simpa using hsince
        rfl
      · intro left right leftStart rightStart hleft hright hl hr
        rw [honly left leftStart hleft hl, honly right rightStart hright hr]
  | release holder start pause hsince =>
      have hlapsed : ∀ other taken,
          Function.update state.since holder none other = some taken →
            taken + lease ≤ state.clock := by
        intro other taken hother
        obtain ⟨hne, hinside⟩ := since_of_update_none hother
        by_cases hown : state.clock < start + lease
        · by_contra hlive
          exact hne (hinv.single other holder taken start hinside hsince
            (not_le.mp hlive) hown)
        · exact hrelease start hsince (not_lt.mp hown) other taken hne hinside
      refine ⟨?_, ?_⟩
      · intro other taken hother hlive
        exact absurd hlive (not_lt.mpr (hlapsed other taken hother))
      · intro left right leftStart rightStart hleft hright
        exact hinv.single left right leftStart rightStart
          (since_of_update_none hleft).2 (since_of_update_none hright).2
  | abandon holder =>
      exact {
        carries := fun other start hsince =>
          hinv.carries other start (since_of_update_none hsince).2
        single := fun left right leftStart rightStart hleft hright =>
          hinv.single left right leftStart rightStart
            (since_of_update_none hleft).2 (since_of_update_none hright).2 }

end Overrun

end UTTG.Lease
