import UTTG.Core.Lease
import UTTG.Ingestion.Guarded

/-!
# Exclusion and spacing of guarded jobs

The loop of `_run_guarded` refines the lease protocol on one expiring key:
acquiring the slot is taking a lease of `_RUNNING_LEASE_SECONDS`, `_hold_slot`
is a release with a pause, and every other await leaves the lease view alone.
The results about replicas follow from the two invariants of that protocol.
-/

namespace UTTG.Guarded

open UTTG.Expiring UTTG.Transition

variable {Replica : Type*} [DecidableEq Replica]

/-- The lease view of a scheduler state. -/
def view (intervalSeconds : ℕ) (state : State Replica) :
    Lease.State Replica ℚ where
  clock := state.clock
  slot := state.slot
  since replica := (state.phase replica).since
  released := state.held.map fun held =>
    (held.time, (holdSeconds (held.ending.seconds intervalSeconds) : ℚ))

/-- The ending of a run whose `_hold_slot` comes next. -/
def Phase.ending : Phase → Option Ending
  | .failed _ _ delay => some (.failure delay)
  | .succeeded _ => some .success
  | _ => none

/-- What an await means for the lease. -/
def leaseEvent (intervalSeconds : ℕ) (state : State Replica) :
    Action Replica → Lease.Event Replica ℚ
  | .acquire replica =>
      if state.slot.exist state.clock then .idle else .acquire replica
  | .hold replica =>
      match (state.phase replica).ending with
      | some ending =>
          .release replica (holdSeconds (ending.seconds intervalSeconds))
      | none => .idle
  | .crash replica => .abandon replica
  | _ => .idle

theorem since_update (phase : Replica → Phase) (replica : Replica)
    (target : Phase) :
    (fun other => (Function.update phase replica target other).since) =
      Function.update (fun other => (phase other).since) replica
        target.since := by
  funext other
  by_cases hother : other = replica
  · subst hother
    simp
  · simp [Function.update_of_ne hother]

/-- Moving between phases of the same lease status changes nothing. -/
theorem view_goto (intervalSeconds : ℕ) (state : State Replica)
    (replica : Replica) (target : Phase)
    (hsince : target.since = (state.phase replica).since) :
    view intervalSeconds (state.goto replica target) =
      view intervalSeconds state := by
  simp only [view, State.goto, since_update, hsince,
    Function.update_eq_self]

theorem idle_refl (state : Lease.State Replica ℚ) :
    Lease.Step runningLeaseSeconds state .idle state :=
  .idle state state.clock le_rfl

theorem goto_idle (intervalSeconds : ℕ) (state : State Replica)
    (replica : Replica) (target : Phase)
    (hsince : target.since = (state.phase replica).since) :
    Lease.Step runningLeaseSeconds (view intervalSeconds state) .idle
      (view intervalSeconds (state.goto replica target)) := by
  rw [view_goto intervalSeconds state replica target hsince]
  exact idle_refl _

/-- `_hold_slot` is a release of the lease. -/
theorem holdFor_release (intervalSeconds : ℕ) (state : State Replica)
    (replica : Replica) (ending : Ending) (target : Phase) {since : ℚ}
    (hinside : (state.phase replica).since = some since)
    (houtside : target.since = none) :
    Lease.Step runningLeaseSeconds (view intervalSeconds state)
      (.release replica (holdSeconds (ending.seconds intervalSeconds)))
      (view intervalSeconds
        (state.holdFor intervalSeconds replica ending target)) := by
  have hview : view intervalSeconds
      (state.holdFor intervalSeconds replica ending target) =
      { view intervalSeconds state with
        slot := Slot.set () (state.clock +
          (holdSeconds (ending.seconds intervalSeconds) : ℚ))
        since := Function.update (fun other => (state.phase other).since)
          replica none
        released := (state.clock,
          (holdSeconds (ending.seconds intervalSeconds) : ℚ)) ::
            (view intervalSeconds state).released } := by
    simp only [view, State.holdFor, since_update, houtside, holdSlot,
      List.map_cons]
  rw [hview]
  exact .release (view intervalSeconds state) replica since _ hinside

/-- A successful `SET NX` is an acquisition of the lease. -/
theorem acquire_cases {intervalSeconds : ℕ} {state next : State Replica}
    {replica : Replica}
    (hstep : step intervalSeconds state (.acquire replica) = some next) :
    ∃ failures, state.phase replica = .acquiring failures ∧
      ((state.slot.get state.clock = none ∧
          next = { state.goto replica (.running failures state.clock) with
            slot := Slot.set () (state.clock + runningLeaseSeconds) }) ∨
        (state.slot.exist state.clock = true ∧
          next = state.goto replica (.waiting failures))) := by
  simp only [step] at hstep
  split at hstep
  case h_1 failures hphase =>
    refine ⟨failures, hphase, ?_⟩
    rcases Slot.setNx_cases state.clock ()
      (state.clock + runningLeaseSeconds) state.slot with
      ⟨habsent, hset⟩ | ⟨hpresent, hset⟩
    · simp only [acquireSlot, hset, Option.some.injEq] at hstep
      exact .inl ⟨(Slot.exist_eq_false_iff _ _).mp habsent, hstep.symm⟩
    · simp only [acquireSlot, hset, Option.some.injEq] at hstep
      exact .inr ⟨hpresent, hstep.symm⟩
  case h_2 => simp at hstep

/-- `_hold_slot` comes at the end of a run. -/
theorem hold_cases {intervalSeconds : ℕ} {state next : State Replica}
    {replica : Replica}
    (hstep : step intervalSeconds state (.hold replica) = some next) :
    ∃ since ending target, (state.phase replica).since = some since ∧
      (state.phase replica).ending = some ending ∧
      Phase.since target = none ∧
      next = state.holdFor intervalSeconds replica ending target := by
  simp only [step] at hstep
  split at hstep
  case h_1 failures since delay hphase =>
    exact ⟨since, .failure delay, _, by simp [hphase, Phase.since],
      by simp [hphase, Phase.ending], rfl, (Option.some.inj hstep).symm⟩
  case h_2 since hphase =>
    exact ⟨since, .success, _, by simp [hphase, Phase.since],
      by simp [hphase, Phase.ending], rfl, (Option.some.inj hstep).symm⟩
  case h_3 => simp at hstep

/-- Every await of the loop is a step of the lease protocol. -/
theorem step_refines {intervalSeconds : ℕ} {state next : State Replica}
    {action : Action Replica}
    (hstep : step intervalSeconds state action = some next) :
    Lease.Step runningLeaseSeconds (view intervalSeconds state)
      (leaseEvent intervalSeconds state action)
      (view intervalSeconds next) := by
  cases action with
  | elapse duration =>
      simp only [step] at hstep
      split at hstep
      case isTrue hduration =>
        obtain rfl := Option.some.inj hstep
        exact .idle (view intervalSeconds state) _
          (le_add_of_nonneg_right hduration)
      case isFalse => simp at hstep
  | acquire replica =>
      obtain ⟨failures, hphase, ⟨habsent, rfl⟩ | ⟨hpresent, rfl⟩⟩ :=
        acquire_cases hstep
      · have hevent : leaseEvent intervalSeconds state (.acquire replica) =
            .acquire replica := by
          simp [leaseEvent, (Slot.exist_eq_false_iff _ _).mpr habsent]
        have hview : view intervalSeconds
            { state.goto replica (.running failures state.clock) with
              slot := Slot.set () (state.clock + runningLeaseSeconds) } =
            { view intervalSeconds state with
              slot := Slot.set () (state.clock + runningLeaseSeconds)
              since := Function.update
                (fun other => (state.phase other).since) replica
                (some state.clock) } := by
          simp only [view, State.goto, since_update]
          rfl
        rw [hevent, hview]
        exact .acquire (view intervalSeconds state) replica habsent
      · simp only [leaseEvent, hpresent, if_true]
        exact goto_idle intervalSeconds state replica _
          (by simp [hphase, Phase.since])
  | hold replica =>
      obtain ⟨since, ending, target, hinside, hending, houtside, rfl⟩ :=
        hold_cases hstep
      simp only [leaseEvent, hending]
      exact holdFor_release intervalSeconds state replica ending target
        hinside houtside
  | crash replica =>
      obtain rfl := Option.some.inj hstep
      have hview : view intervalSeconds (state.goto replica .stopped) =
          { view intervalSeconds state with
            since := Function.update
              (fun other => (state.phase other).since) replica none } := by
        simp only [view, State.goto, since_update]
        rfl
      rw [hview]
      exact .abandon (view intervalSeconds state) replica
  | wake replica =>
      simp only [step] at hstep
      split at hstep
      case h_1 failures wake hphase =>
        split at hstep
        case isTrue =>
          obtain rfl := Option.some.inj hstep
          exact goto_idle intervalSeconds state replica _
            (by simp [hphase, Phase.since])
        case isFalse => simp at hstep
      case h_2 => simp at hstep
  | start replica | askTtl replica | jobReturns replica
  | jobRaises replica jitter | record replica =>
      simp only [step] at hstep
      split at hstep
      case h_1 hphase =>
        obtain rfl := Option.some.inj hstep
        exact goto_idle intervalSeconds state replica _
          (by simp [hphase, Phase.since])
      case h_2 => simp at hstep

/-! ## Runs that end within their lease -/

/-- Every replica that is inside acquired the slot less than
`_RUNNING_LEASE_SECONDS` ago. -/
def OnTime (state : State Replica) : Prop :=
  ∀ replica, ∀ since ∈ (state.phase replica).since,
    state.clock < since + runningLeaseSeconds

instance [Fintype Replica] (state : State Replica) :
    Decidable (OnTime state) :=
  inferInstanceAs (Decidable (∀ _, ∀ _ ∈ _, _ < _))

/-- Replicas that have not started, over an empty lock store. -/
def freshStart (count : ℕ) : State (Fin count) where
  clock := 0
  slot := none
  phase _ := .stopped
  held := []

theorem freshStart_init (count intervalSeconds : ℕ) :
    (system (Fin count) intervalSeconds).Init (freshStart count) :=
  ⟨fun _ => rfl, rfl⟩

/-- The jitter with which the tests of the scheduler run. -/
def unitJitter : Jitter := ⟨1, by norm_num, by norm_num⟩

/-- The instant before which no run may start after this `_hold_slot`. -/
def Held.reopens (intervalSeconds : ℕ) (held : Held Replica) : ℚ :=
  match held.ending with
  | .success => held.time + intervalSeconds
  | .failure delay => held.time + max (pyInt delay) 1

theorem pyInt_natCast (number : ℕ) : pyInt number = number := by
  simp [pyInt]

omit [DecidableEq Replica] in
/-- The expiry written by `_hold_slot` is at least the documented pause. -/
theorem Held.reopens_le (intervalSeconds : ℕ) (held : Held Replica) :
    held.reopens intervalSeconds ≤
      held.time + (holdSeconds (held.ending.seconds intervalSeconds) : ℚ) := by
  obtain ⟨_, time, ending⟩ := held
  cases ending with
  | success =>
      have hle : (intervalSeconds : ℤ) ≤ holdSeconds intervalSeconds := by
        rw [holdSeconds, pyInt_natCast]
        exact le_max_left _ _
      simpa [Held.reopens, Ending.seconds] using
        (by exact_mod_cast hle :
          (intervalSeconds : ℚ) ≤ (holdSeconds intervalSeconds : ℚ))
  | failure delay => simp [Held.reopens, Ending.seconds, holdSeconds]

theorem exclusive_of_reachable {intervalSeconds : ℕ} {state : State Replica}
    (hreach : (system Replica intervalSeconds).ReachableVia
      (fun _ _ next => OnTime next) state) :
    Lease.Exclusive runningLeaseSeconds (view intervalSeconds state) := by
  refine System.ReachableVia.invariant
    (fun state =>
      Lease.Exclusive runningLeaseSeconds (view intervalSeconds state))
    ?_ ?_ hreach
  · rintro start ⟨hstopped, hheld⟩
    refine .init (fun replica => ?_) ?_
    · simp [view, hstopped replica, Phase.since]
    · simp [view, hheld]
  · intro before action after hinv hstep honTime
    exact hinv.step (step_refines hstep) honTime

/-- While every run ends within its lease, at most one replica is between
acquiring the slot and the `_hold_slot` that ends its run, and no replica
starts a run before the pause of every earlier `_hold_slot` is over. -/
theorem guarded_runs_exclusive_and_spaced (intervalSeconds : ℕ)
    {state : State Replica}
    (hreach : (system Replica intervalSeconds).ReachableVia
      (fun _ _ next => OnTime next) state) :
    (∀ left right, (state.phase left).since.isSome →
      (state.phase right).since.isSome → left = right) ∧
    ∀ replica next,
      step intervalSeconds state (.acquire replica) = some next →
      (next.phase replica).since.isSome →
        ∀ held ∈ state.held, held.reopens intervalSeconds ≤ state.clock := by
  have hinv := exclusive_of_reachable hreach
  constructor
  · intro left right hleft hright
    obtain ⟨leftStart, hleft⟩ := Option.isSome_iff_exists.mp hleft
    obtain ⟨rightStart, hright⟩ := Option.isSome_iff_exists.mp hright
    exact hinv.single left right leftStart rightStart hleft hright
  · intro replica next hstep hinside held hmem
    obtain ⟨failures, -, ⟨habsent, -⟩ | ⟨-, rfl⟩⟩ := acquire_cases hstep
    · have hover := hinv.pauses_over habsent held.time
        (holdSeconds (held.ending.seconds intervalSeconds) : ℚ)
        (List.mem_map.mpr ⟨held, hmem, rfl⟩)
      exact (held.reopens_le intervalSeconds).trans hover
    · simp [State.goto, Phase.since] at hinside

/-- A failed run of one replica and the successful retry of another. -/
def retryActions : List (Action (Fin 2)) :=
  [.start 0, .acquire 0, .elapse 10, .jobRaises 0 unitJitter, .hold 0,
    .start 1, .acquire 1, .askTtl 1, .elapse 60, .wake 1]

theorem retry_exclusive_and_spaced :
    ∃ state, (system (Fin 2) 300).run (freshStart 2) retryActions =
        some state ∧
      (∀ left right, (state.phase left).since.isSome →
        (state.phase right).since.isSome → left = right) ∧
      ∀ replica next, step 300 state (.acquire replica) = some next →
        (next.phase replica).since.isSome →
          ∀ held ∈ state.held, held.reopens 300 ≤ state.clock :=
  have hsome : ((system (Fin 2) 300).run (freshStart 2) retryActions).isSome :=
    by decide +kernel
  ⟨_, (Option.some_get hsome).symm,
    guarded_runs_exclusive_and_spaced 300
      (.run (.init (freshStart_init 2 300)) (by decide +kernel)
        (Option.some_get hsome).symm)⟩

/-! ## Runs that outlast their lease -/

/-- What the lease promises of one step.  A replica acquires the slot only
when the lease of every other run has lapsed, and a run whose own lease has
lapsed leaves the slot alone while another lease is in force. -/
def Honoured (state : State Replica) (action : Action Replica)
    (next : State Replica) : Prop :=
  match action with
  | .acquire replica =>
      (next.phase replica).since.isSome →
        ∀ other, other ≠ replica → ∀ since ∈ (state.phase other).since,
          since + runningLeaseSeconds ≤ state.clock
  | .hold replica =>
      ∀ since ∈ (state.phase replica).since,
        since + runningLeaseSeconds ≤ state.clock →
          ∀ other, other ≠ replica → ∀ taken ∈ (state.phase other).since,
            state.clock < taken + runningLeaseSeconds →
              next.slot = state.slot
  | _ => True

/-- A run that calls `_hold_slot` is within its lease, or no other lease is in
force. -/
def HoldsInLease (state : State Replica) (action : Action Replica) : Prop :=
  match action with
  | .hold replica =>
      ∀ since ∈ (state.phase replica).since,
        since + runningLeaseSeconds ≤ state.clock →
          ∀ other, other ≠ replica → ∀ taken ∈ (state.phase other).since,
            taken + runningLeaseSeconds ≤ state.clock
  | _ => True

instance [Fintype Replica] (state next : State Replica)
    (action : Action Replica) : Decidable (Honoured state action next) :=
  match action with
  | .acquire _ => inferInstanceAs (Decidable (_ → ∀ _, _ → ∀ _ ∈ _, _ ≤ _))
  | .hold _ =>
      inferInstanceAs
        (Decidable (∀ _ ∈ _, _ → ∀ _, _ → ∀ _ ∈ _, _ → _ = _))
  | .elapse _ | .start _ | .askTtl _ | .wake _ | .jobReturns _
  | .jobRaises _ _ | .record _ | .crash _ => inferInstanceAs (Decidable True)

instance [Fintype Replica] (state : State Replica) (action : Action Replica) :
    Decidable (HoldsInLease state action) :=
  match action with
  | .hold _ =>
      inferInstanceAs
        (Decidable (∀ _ ∈ _, _ → ∀ _, _ → ∀ _ ∈ _, _ ≤ _))
  | .elapse _ | .start _ | .acquire _ | .askTtl _ | .wake _ | .jobReturns _
  | .jobRaises _ _ | .record _ | .crash _ => inferInstanceAs (Decidable True)

omit [DecidableEq Replica] in
theorem release_of_holdsInLease {intervalSeconds : ℕ} {state : State Replica}
    {action : Action Replica} (hholds : HoldsInLease state action) :
    Lease.Release runningLeaseSeconds (view intervalSeconds state)
      (leaseEvent intervalSeconds state action) := by
  cases action with
  | hold replica =>
      simp only [leaseEvent]
      split
      · intro since hsince hlapsed other taken hother htaken
        exact hholds since hsince hlapsed other hother taken htaken
      · trivial
  | acquire replica =>
      simp only [leaseEvent]
      split <;> trivial
  | _ => trivial

/-- While every run calls `_hold_slot` within its lease, or when no other lease
is in force, every lease is honoured. -/
theorem leases_honoured (intervalSeconds : ℕ) (start : State Replica)
    (actions : List (Action Replica))
    (hinit : (system Replica intervalSeconds).Init start)
    (hholds : (system Replica intervalSeconds).Steps
      (fun state action _ => HoldsInLease state action) start actions) :
    (system Replica intervalSeconds).Steps Honoured start actions := by
  refine System.Steps.of_invariant
    (fun state =>
      Lease.Covered runningLeaseSeconds (view intervalSeconds state))
    ?_ ?_ (.init fun replica => ?_) hholds
  · intro state action next hinv hstep hholds
    exact hinv.step (step_refines hstep) (release_of_holdsInLease hholds)
  · intro state action next hinv hstep hholds
    cases action with
    | hold replica =>
        intro since hsince hlapsed other hother taken htaken hlive
        have hover := hholds since hsince hlapsed other hother taken htaken
        exact absurd hlive (not_lt.mpr hover)
    | acquire replica =>
        intro hinside
        have hacquire : step intervalSeconds state (.acquire replica) =
            some next := hstep
        obtain ⟨failures, -, ⟨habsent, -⟩ | ⟨-, rfl⟩⟩ :=
          acquire_cases hacquire
        · intro other _ since hsince
          exact hinv.lapsed_of_absent habsent hsince
        · simp [State.goto, Phase.since] at hinside
    | _ => trivial
  · simp [view, hinit.1 replica, Phase.since]

/-- The first run outlasts its lease, the second replica takes over, and the
first one then fails and holds the slot for the retry delay only. -/
def overrunActions : List (Action (Fin 3)) :=
  [.start 0, .acquire 0, .elapse 901, .start 1, .acquire 1,
    .jobRaises 0 unitJitter, .hold 0, .elapse 61, .start 2, .acquire 2]

/-- The third replica acquires the slot 61 seconds after the second one did,
while the second one is still running under its 900-second lease. -/
theorem overrun_not_honoured :
    ¬ (system (Fin 3) 300).Steps Honoured (freshStart 3) overrunActions ∧
    ((system (Fin 3) 300).run (freshStart 3) overrunActions).map
        (fun state => ((state.phase 1).since, (state.phase 2).since)) =
      some (some 901, some 962) := by
  decide +kernel

/-- The first run outlasts its lease, and calls `_hold_slot` after the one that
took over. -/
def lateActions : List (Action (Fin 2)) :=
  [.start 0, .acquire 0, .elapse 901, .start 1, .acquire 1, .elapse 10,
    .jobReturns 1, .hold 1, .jobReturns 0, .hold 0]

theorem late_leases_honoured :
    (system (Fin 2) 300).Steps Honoured (freshStart 2) lateActions :=
  leases_honoured 300 (freshStart 2) lateActions (freshStart_init 2 300)
    (by decide +kernel)

end UTTG.Guarded
