import UTTG.Providers.Transport

/-!
# The failure counter and the open key

`_record_failure` sends up to three commands, one after another: `INCR`, then
`EXPIRE` when the counter was created, then the `SET` of the open key when the
threshold is reached.  The two keys have lifetimes of their own, and commands
of other calls and processes come in between.
-/

namespace UTTG.Transport

open UTTG.Circuit UTTG.Expiring UTTG.Transition

variable {Call Instance : Type*} [DecidableEq Call] [DecidableEq Instance]

/-- The failures that the counter holds; none when it is absent. -/
def recorded (state : State Call Instance) : ℕ :=
  (state.keys.failures.get state.clock).getD 0

/-- No `_record_failure` is in progress. -/
def Quiet (state : State Call Instance) : Prop :=
  ∀ call, (state.phase call).recording = false

/-- A counter that reached the threshold lapses before the open key does, and
the open key is set. -/
def Outlived (state : State Call Instance) : Prop :=
  circuitFailureThreshold ≤ recorded state →
    ∃ deadline ∈ state.keys.failures.bind Entry.deadline,
      ∃ close ∈ state.keys.circuitOpen.bind Entry.deadline,
        state.clock < close ∧ deadline < close

/-- The store answers the command, and no process dies inside
`_record_failure`. -/
def Answered (state : State Call Instance) : Action Call → Prop
  | .move _ (.test reply) | .move _ (.clear reply) | .move _ (.count reply)
  | .move _ (.expire reply) | .move _ (.openCircuit reply) =>
      reply = .answered
  | .move call .crash => (state.phase call).recording = false
  | .elapse _ | .move _ .acquire | .move _ .start | .move _ (.read _)
  | .move _ .wake => True

/-- The open key is about to be set, or it is set and lapses after
`deadline`. -/
def Covered (state : State Call Instance) (deadline : ℚ) : Prop :=
  (∃ call ending, state.phase call = .opening ending) ∨
    ∃ close ∈ state.keys.circuitOpen.bind Entry.deadline, deadline < close

/-- An `EXPIRE` that comes after the counter reached the threshold gives it a
deadline that the open key covers. -/
def ExpiresCovered (state : State Call Instance) : Action Call → Prop
  | .move _ (.expire _) => recorded state < circuitFailureThreshold ∨
      Covered state (state.clock + circuitFailureWindowSeconds)
  | _ => True

variable {setup : Setup Call Instance} {state next : State Call Instance}
  {action : Action Call}

/-- The action sends an `INCR` of `_record_failure`. -/
def Action.counts : Action Call → Bool
  | .move _ (.count _) => true
  | _ => false

/-- In the last part of a run, which starts with the run or without a counter,
the counter never lapses; it holds at least `failures`, counted in that part
or held at the start. -/
def WithinWindow (setup : Setup Call Instance)
    (start : State Call Instance) (actions : List (Action Call))
    (failures : ℕ) : Prop :=
  ∃ before within first, actions = before ++ within ∧
    (system setup).run start before = some first ∧
    (before = [] ∨ recorded first = 0) ∧
    (system setup).Steps
      (fun _ _ after => after.keys.failures.exist after.clock = true)
      first within ∧
    failures ≤ recorded first + within.countP Action.counts

/-- At some time of a run one window has as many failures as the threshold. -/
def ReachesThreshold (setup : Setup Call Instance)
    (start : State Call Instance) (actions : List (Action Call)) : Prop :=
  ∃ part rest, actions = part ++ rest ∧
    WithinWindow setup start part circuitFailureThreshold

instance [Fintype Call] (state : State Call Instance) :
    Decidable (Quiet state) :=
  inferInstanceAs (Decidable (∀ _, _ = false))

instance (state : State Call Instance) : Decidable (Outlived state) :=
  inferInstanceAs (Decidable (_ → ∃ _ ∈ _, ∃ _ ∈ _, _ ∧ _))

instance (state : State Call Instance) :
    (action : Action Call) → Decidable (Answered state action)
  | .move _ (.test _) | .move _ (.clear _) | .move _ (.count _)
  | .move _ (.expire _) | .move _ (.openCircuit _) =>
      inferInstanceAs (Decidable (_ = Reply.answered))
  | .move _ .crash => inferInstanceAs (Decidable (_ = false))
  | .elapse _ | .move _ .acquire | .move _ .start | .move _ (.read _)
  | .move _ .wake => inferInstanceAs (Decidable True)

instance : (phase : Phase) → Decidable (∃ ending, phase = .opening ending)
  | .opening ending => isTrue ⟨ending, rfl⟩
  | .idle | .admitted | .ready _ _ | .requesting _ _ | .sleeping _ _
  | .clearing | .counting _ | .expiring _ _ | .ended _ =>
      isFalse fun ⟨_, hopening⟩ => nomatch hopening

instance [Fintype Call] (state : State Call Instance) (deadline : ℚ) :
    Decidable (Covered state deadline) :=
  inferInstanceAs (Decidable ((∃ _ _, _ = _) ∨ ∃ _ ∈ _, _))

instance [Fintype Call] (state : State Call Instance) :
    (action : Action Call) → Decidable (ExpiresCovered state action)
  | .move _ (.expire _) => inferInstanceAs (Decidable (_ < _ ∨ Covered _ _))
  | .elapse _ | .move _ (.test _) | .move _ .acquire | .move _ .start
  | .move _ (.read _) | .move _ .wake | .move _ (.clear _)
  | .move _ (.count _) | .move _ (.openCircuit _) | .move _ .crash =>
      inferInstanceAs (Decidable True)

/-! ## The commands of one failure -/

/-- A call that goes on or gives its permit back is not held up. -/
theorem step_of_move {call : Call} {event : Event} {phase : Phase}
    {keys : Keys}
    (hmove : move (setup.lastClient call) state.clock state.keys
      (state.phase call) event = some (phase, keys))
    (hholds : (state.phase call).holds = true) :
    ∃ next, step setup state (.move call event) = some next ∧
      next.clock = state.clock ∧ next.keys = keys ∧
      next.phase call = phase := by
  cases hafter : phase.holds with
  | true => simp [step, hmove, regulate, hholds, hafter]
  | false => simp [step, hmove, regulate, hholds, hafter]

/-- The commands of one `_record_failure` that nothing comes between. -/
theorem run_recordFailure {call : Call} {ending : Ending}
    (hphase : state.phase call = .counting ending) :
    ∃ events final, (system setup).run state events = some final ∧
      (system setup).Steps (fun before action _ => Answered before action)
        state events ∧
      final.clock = state.clock ∧
      final.keys = (recordFailure state.clock state.keys).2 ∧
      final.phase call = .ended ending := by
  have hcount : move (setup.lastClient call) state.clock state.keys
      (state.phase call) (.count .answered) =
      some (afterCount ending (state.keys.failures.incr state.clock).1,
        { state.keys with
          failures := (state.keys.failures.incr state.clock).2 }) := by
    rw [hphase]
    rfl
  obtain ⟨counted, hcounted, hclock, hkeys, hnext⟩ :=
    step_of_move hcount (by rw [hphase]; rfl)
  by_cases hfirst : (state.keys.failures.incr state.clock).1 = 1
  · rw [hfirst, afterCount, if_pos rfl] at hnext
    have hexpire : move (setup.lastClient call) counted.clock counted.keys
        (counted.phase call) (.expire .answered) =
        some (.ended ending, { counted.keys with
          failures := counted.keys.failures.expire counted.clock
            (counted.clock + circuitFailureWindowSeconds) }) := by
      rw [hnext]
      rfl
    obtain ⟨expired, hexpired, hlater, hafter, hended⟩ :=
      step_of_move hexpire (by rw [hnext]; rfl)
    refine ⟨[.move call (.count .answered), .move call (.expire .answered)],
      expired, ?_, fun _ _ => ⟨rfl, fun _ _ => ⟨rfl, trivial⟩⟩,
      hlater.trans hclock, ?_, hended⟩
    · simp [System.run, system, hcounted, hexpired]
    · rw [hafter, hkeys, hclock]
      simp [recordFailure, FixedWindow.record, hfirst, circuitFailureThreshold]
  · rw [afterCount, if_neg hfirst, afterExpire] at hnext
    by_cases hreached : circuitFailureThreshold ≤
        (state.keys.failures.incr state.clock).1
    · rw [if_pos hreached] at hnext
      have hopen : move (setup.lastClient call) counted.clock counted.keys
          (counted.phase call) (.openCircuit .answered) =
          some (.ended ending, { counted.keys with
            circuitOpen :=
              Slot.set () (counted.clock + circuitOpenSeconds) }) := by
        rw [hnext]
        rfl
      obtain ⟨opened, hopened, hlater, hafter, hended⟩ :=
        step_of_move hopen (by rw [hnext]; rfl)
      refine ⟨[.move call (.count .answered),
        .move call (.openCircuit .answered)], opened, ?_,
        fun _ _ => ⟨rfl, fun _ _ => ⟨rfl, trivial⟩⟩, hlater.trans hclock, ?_,
        hended⟩
      · simp [System.run, system, hcounted, hopened]
      · rw [hafter, hkeys, hclock]
        simp [recordFailure, FixedWindow.record, hfirst, hreached]
    · rw [if_neg hreached] at hnext
      refine ⟨[.move call (.count .answered)], counted, ?_,
        fun _ _ => ⟨rfl, trivial⟩, hclock, ?_, hnext⟩
      · simp [System.run, system, hcounted]
      · rw [hkeys]
        simp [recordFailure, FixedWindow.record, hfirst, hreached]

/-! ## The open key outlives the counter -/

/-- A counter without a deadline is about to get one; a deadline is at most a
window away; and one of a counter at the threshold is covered. -/
structure Covering (state : State Call Instance) : Prop where
  pending : ∀ failures, state.keys.failures = some ⟨failures, none⟩ →
    ∃ call ending first, state.phase call = .expiring ending first
  bounded : ∀ failures deadline,
    state.keys.failures = some ⟨failures, some deadline⟩ →
      deadline ≤ state.clock + circuitFailureWindowSeconds
  covered : ∀ failures deadline,
    state.keys.failures = some ⟨failures, some deadline⟩ →
      circuitFailureThreshold ≤ failures → Covered state deadline

omit [DecidableEq Call] [DecidableEq Instance] in
theorem Covering.outlived (hcovering : Covering state) (hquiet : Quiet state) :
    Outlived state := by
  intro hreached
  have hlive : ∃ failures, state.keys.failures.get state.clock =
      some failures := by
    by_contra hnone
    rw [not_exists, ← Option.eq_none_iff_forall_ne_some] at hnone
    simp [recorded, hnone, circuitFailureThreshold] at hreached
  obtain ⟨failures, hget⟩ := hlive
  obtain ⟨⟨_, deadline⟩, hslot, rfl⟩ := Slot.exists_entry_of_get hget
  cases deadline with
  | none =>
      obtain ⟨call, ending, first, hphase⟩ := hcovering.pending _ hslot
      have hidle := hquiet call
      simp [hphase, Phase.recording] at hidle
  | some deadline =>
      rw [recorded, hget, Option.getD_some] at hreached
      have hlive : state.clock < deadline := by
        rw [hslot, Slot.get_some] at hget
        split at hget
        · simp at hget
        · exact not_le.mp ‹_›
      rcases hcovering.covered _ _ hslot hreached with
        ⟨call, ending, hphase⟩ | ⟨close, hopen, hlater⟩
      · have hidle := hquiet call
        simp [hphase, Phase.recording] at hidle
      · exact ⟨deadline, by simp [hslot], close, hopen,
          hlive.trans hlater, hlater⟩

/-- A phase that the mover is not in stays where it is. -/
theorem phase_kept {call other : Call} {event : Event} {phase : Phase}
    (hstep : step setup state (.move call event) = some next)
    (hphase : state.phase other = phase) (hmover : state.phase call ≠ phase) :
    next.phase other = phase := by
  have hother : other ≠ call := by
    rintro rfl
    exact hmover hphase
  rw [phase_of_other hstep hother, hphase]

theorem Covered.of_move {call : Call} {event : Event} {deadline : ℚ}
    (hcovered : Covered state deadline)
    (hstep : step setup state (.move call event) = some next)
    (hmover : ∀ ending, state.phase call ≠ .opening ending)
    (hsame : next.keys.circuitOpen = state.keys.circuitOpen) :
    Covered next deadline := by
  rcases hcovered with ⟨other, ending, hphase⟩ | ⟨close, hopen, hlater⟩
  · exact .inl ⟨other, ending, phase_kept hstep hphase (hmover ending)⟩
  · exact .inr ⟨close, hsame ▸ hopen, hlater⟩

theorem Covering.of_init (hinit : (system setup).Init state) :
    Covering state := by
  constructor <;> simp [hinit.1]

/-- A move that leaves the counter as it is or deletes it. -/
theorem Covering.of_counter {call : Call} {event : Event}
    (hcovering : Covering state)
    (hstep : step setup state (.move call event) = some next)
    (hmover : (state.phase call).recording = false)
    (hcounter : next.keys.failures = state.keys.failures ∨
      next.keys.failures = none)
    (hsame : next.keys.circuitOpen = state.keys.circuitOpen) :
    Covering next := by
  obtain ⟨-, -, hclock, -⟩ := step_move hstep
  rcases hcounter with hcounter | hcounter
  · constructor
    · intro failures hnext
      obtain ⟨other, ending, first, hphase⟩ :=
        hcovering.pending failures (hcounter ▸ hnext)
      refine ⟨other, ending, first, phase_kept hstep hphase ?_⟩
      intro hexpiring
      simp [hexpiring, Phase.recording] at hmover
    · intro failures deadline hnext
      rw [hclock]
      exact hcovering.bounded failures deadline (hcounter ▸ hnext)
    · intro failures deadline hnext hreached
      have hcovered :=
        hcovering.covered failures deadline (hcounter ▸ hnext) hreached
      refine hcovered.of_move hstep ?_ hsame
      intro ending hopening
      simp [hopening, Phase.recording] at hmover
  · constructor <;> simp [hcounter]

/-- The call that brings the counter to the threshold goes on to set the open
key. -/
theorem Covering.counted {call : Call} {ending : Ending}
    (hcovering : Covering state)
    (hstep : step setup state (.move call (.count .answered)) = some next)
    (hbefore : state.phase call = .counting ending)
    (hphase : next.phase call =
      afterCount ending (state.keys.failures.incr state.clock).1)
    (hkeys : next.keys = { state.keys with
      failures := (state.keys.failures.incr state.clock).2 }) :
    Covering next := by
  obtain ⟨-, -, hclock, -⟩ := step_move hstep
  rcases Slot.incr_cases state.clock state.keys.failures with
    ⟨-, hincr⟩ | ⟨count, deadline, hslot, -, hincr⟩
  · rw [hincr] at hphase hkeys
    constructor
    · intro failures hnext
      exact ⟨call, ending, 1, hphase⟩
    · intro failures deadline hnext
      simp [hkeys] at hnext
    · intro failures deadline hnext
      simp [hkeys] at hnext
  · rw [hincr] at hphase hkeys
    have hcounter : next.keys.failures = some ⟨count + 1, deadline⟩ := by
      rw [hkeys]
    constructor
    · intro failures hnext
      obtain ⟨-, rfl⟩ : count + 1 = failures ∧ deadline = none := by
        simpa [hcounter] using hnext
      obtain ⟨other, before, first, hexpiring⟩ :=
        hcovering.pending count hslot
      exact ⟨other, before, first,
        phase_kept hstep hexpiring (by simp [hbefore])⟩
    · intro failures later hnext
      obtain ⟨-, rfl⟩ : count + 1 = failures ∧ deadline = some later := by
        simpa [hcounter] using hnext
      rw [hclock]
      exact hcovering.bounded count later hslot
    · intro failures later hnext hreached
      obtain ⟨rfl, -⟩ : count + 1 = failures ∧ deadline = some later := by
        simpa [hcounter] using hnext
      refine .inl ⟨call, ending, ?_⟩
      have hnot : count + 1 ≠ 1 := by
        simp only [circuitFailureThreshold] at hreached
        omega
      rw [hphase, afterCount, if_neg hnot, afterExpire, if_pos hreached]

/-- The new deadline of a counter at the threshold is covered by assumption. -/
theorem Covering.expired {call : Call} {ending : Ending} {first : ℕ}
    (hstep : step setup state (.move call (.expire .answered)) = some next)
    (hexpires : recorded state < circuitFailureThreshold ∨
      Covered state (state.clock + circuitFailureWindowSeconds))
    (hbefore : state.phase call = .expiring ending first)
    (hkeys : next.keys = { state.keys with
      failures := state.keys.failures.expire state.clock
        (state.clock + circuitFailureWindowSeconds) }) :
    Covering next := by
  obtain ⟨-, -, hclock, -⟩ := step_move hstep
  have hcounter (failures : ℕ) (deadline : Option ℚ)
      (hnext : next.keys.failures = some ⟨failures, deadline⟩) :
      recorded state = failures ∧
        deadline = some (state.clock + circuitFailureWindowSeconds) := by
    rw [hkeys] at hnext
    obtain ⟨count, hget, hentry⟩ := Option.map_eq_some_iff.mp hnext
    obtain ⟨rfl, rfl⟩ := Entry.mk.inj hentry
    exact ⟨by rw [recorded, hget, Option.getD_some], rfl⟩
  constructor
  · intro failures hnext
    simpa using (hcounter failures none hnext).2
  · intro failures deadline hnext
    rw [Option.some.inj (hcounter failures deadline hnext).2, hclock]
  · intro failures deadline hnext hreached
    obtain ⟨rfl, hdeadline⟩ := hcounter failures deadline hnext
    rw [Option.some.inj hdeadline]
    have hcovered := hexpires.resolve_left (not_lt.mpr hreached)
    exact hcovered.of_move hstep (by simp [hbefore]) (by rw [hkeys])

/-- The open key lives longer than any counter lives from now on. -/
theorem Covering.opened {call : Call} {ending : Ending}
    (hcovering : Covering state)
    (hstep : step setup state (.move call (.openCircuit .answered)) =
      some next)
    (hbefore : state.phase call = .opening ending)
    (hkeys : next.keys = { state.keys with
      circuitOpen := Slot.set () (state.clock + circuitOpenSeconds) }) :
    Covering next := by
  obtain ⟨-, -, hclock, -⟩ := step_move hstep
  have hcounter : next.keys.failures = state.keys.failures := by rw [hkeys]
  constructor
  · intro failures hnext
    obtain ⟨other, before, first, hexpiring⟩ :=
      hcovering.pending failures (hcounter ▸ hnext)
    exact ⟨other, before, first,
      phase_kept hstep hexpiring (by simp [hbefore])⟩
  · intro failures deadline hnext
    rw [hclock]
    exact hcovering.bounded failures deadline (hcounter ▸ hnext)
  · intro failures deadline hnext hreached
    refine .inr ⟨state.clock + circuitOpenSeconds, by rw [hkeys]; rfl, ?_⟩
    have hbounded := hcovering.bounded failures deadline (hcounter ▸ hnext)
    calc deadline ≤ state.clock + circuitFailureWindowSeconds := hbounded
      _ < state.clock + circuitOpenSeconds := by
        norm_num [circuitFailureWindowSeconds, circuitOpenSeconds]

theorem Covering.step (hcovering : Covering state)
    (hstep : Transport.step setup state action = some next)
    (hanswered : Answered state action)
    (hexpires : ExpiresCovered state action) : Covering next := by
  cases action with
  | elapse duration =>
      obtain ⟨hduration, rfl⟩ := step_elapse hstep
      refine ⟨hcovering.pending, ?_, hcovering.covered⟩
      intro failures deadline hslot
      have := hcovering.bounded failures deadline hslot
      dsimp only
      linarith
  | move call event =>
      obtain ⟨phase, hmove, hclock, hphase⟩ := step_move hstep
      have hnext : next.phase call = phase := by
        rw [hphase, Function.update_self]
      have heffect := effect_of_move hmove
      generalize hbefore : state.phase call = before at heffect
      generalize hkeys : next.keys = after at heffect
      cases heffect with
      | elsewhere hquiet hafter hcleared =>
          have hmover : (state.phase call).recording = false := by
            rw [hbefore, hquiet]
          rcases hcleared with hsame | hcleared
          · exact hcovering.of_counter hstep hmover
              (.inl (by rw [hkeys, hsame])) (by rw [hkeys, hsame])
          · exact hcovering.of_counter hstep hmover
              (.inr (by rw [hkeys, hcleared]; rfl))
              (by rw [hkeys, hcleared]; rfl)
      | crashed hrecording =>
          simp [Answered, hbefore, hrecording] at hanswered
      | counted ending reply =>
          obtain rfl : reply = .answered := hanswered
          exact hcovering.counted hstep hbefore hnext hkeys
      | expired ending first reply =>
          obtain rfl : reply = .answered := hanswered
          exact .expired hstep hexpires hbefore hkeys
      | opened ending reply =>
          obtain rfl : reply = .answered := hanswered
          exact hcovering.opened hstep hbefore hkeys

/-! ## Opening the circuit again -/

/-- A step adds a failure to the counter only by an `INCR`. -/
theorem recorded_step (hstep : step setup state action = some next) :
    recorded next ≤ recorded state + [action].countP Action.counts := by
  cases action with
  | elapse duration =>
      obtain ⟨hduration, rfl⟩ := step_elapse hstep
      have hle : state.clock ≤ state.clock + duration :=
        le_add_of_nonneg_right hduration
      rcases Slot.get_later state.keys.failures hle with hnone | hsame
      · simp [recorded, hnone]
      · simp [recorded, hsame]
  | move call event =>
      obtain ⟨phase, hmove, hclock, -⟩ := step_move hstep
      have heffect := effect_of_move hmove
      generalize state.phase call = before at heffect
      rw [recorded, recorded, hclock]
      generalize next.keys = after at heffect
      cases heffect with
      | elsewhere hquiet hafter hcleared =>
          rcases hcleared with rfl | rfl
          · exact Nat.le_add_right _ _
          · exact Nat.zero_le _
      | crashed hrecording => exact Nat.le_add_right _ _
      | counted ending reply =>
          split
          · exact Nat.le_add_right _ _
          · rw [Slot.get_incr, Slot.incr_eq]
            rfl
      | expired ending first reply =>
          split
          · exact Nat.le_add_right _ _
          · rw [Slot.get_expire]
            split
            · exact Nat.zero_le _
            · exact Nat.le_add_right _ _
      | opened ending reply =>
          split
          · exact Nat.le_add_right _ _
          · exact Nat.le_add_right _ _

theorem WithinWindow.concat {start : State Call Instance}
    {actions : List (Action Call)}
    (hwithin : WithinWindow setup start actions (recorded state))
    (hrun : (system setup).run start actions = some state)
    (hstep : step setup state action = some next) :
    WithinWindow setup start (actions ++ [action]) (recorded next) := by
  cases hlive : next.keys.failures.exist next.clock with
  | false =>
      -- the window is over
      have hnone : recorded next = 0 := by
        rw [Slot.exist_eq_false_iff] at hlive
        rw [recorded, hlive, Option.getD_none]
      refine ⟨actions ++ [action], [], next, by simp, ?_, .inr hnone,
        trivial, by simp [hnone]⟩
      rw [System.run_append, hrun, Option.bind_some, System.run_singleton]
      exact hstep
  | true =>
      obtain ⟨before, within, first, rfl, hbefore, hstart, hlasts, hle⟩ :=
        hwithin
      refine ⟨before, within ++ [action], first, by simp, hbefore, hstart, ?_,
        ?_⟩
      · rw [System.run_append, hbefore, Option.bind_some] at hrun
        exact hlasts.concat hrun hstep hlive
      · calc recorded next
          _ ≤ recorded state + [action].countP Action.counts :=
            recorded_step hstep
          _ ≤ recorded first + within.countP Action.counts +
              [action].countP Action.counts := Nat.add_le_add_right hle _
          _ = recorded first + (within ++ [action]).countP Action.counts := by
            rw [List.countP_append, Nat.add_assoc]

theorem ReachesThreshold.append {start : State Call Instance}
    {actions : List (Action Call)}
    (hreaches : ReachesThreshold setup start actions)
    (more : List (Action Call)) :
    ReachesThreshold setup start (actions ++ more) := by
  obtain ⟨part, rest, rfl, hwithin⟩ := hreaches
  exact ⟨part, rest ++ more, by simp, hwithin⟩

/-- The `EXPIRE` is sent after the first failure only. -/
theorem Effect.first_of_expiring {clock : ℚ} {keys after : Keys}
    {phase next : Phase} {event : Event}
    (heffect : Effect clock keys phase event next after) {ending : Ending}
    {failures : ℕ} (hnext : next = .expiring ending failures) :
    failures = 1 := by
  cases heffect with
  | elsewhere hquiet hafter hcleared =>
      obtain ⟨_, hcounting⟩ := hafter (by simp [hnext, Phase.recording])
      simp [hnext] at hcounting
  | crashed hrecording => simp at hnext
  | counted before reply =>
      split at hnext
      · simp only [afterCount, afterExpire] at hnext
        split at hnext
        case isTrue hfirst =>
          obtain ⟨-, rfl⟩ := Phase.expiring.inj hnext
          exact hfirst
        case isFalse => split at hnext <;> simp at hnext
      · simp at hnext
  | expired before first reply =>
      simp only [afterExpire] at hnext
      repeat' split at hnext
      all_goals simp at hnext
  | opened before reply => simp at hnext

/-- A call goes on to set the open key after it counted a failure that reaches
the threshold. -/
theorem Effect.reached_of_opening {clock : ℚ} {keys after : Keys}
    {phase next : Phase} {event : Event}
    (heffect : Effect clock keys phase event next after) {ending : Ending}
    (hnext : next = .opening ending)
    (honce : ∀ ending first, phase = .expiring ending first → first = 1) :
    circuitFailureThreshold ≤ (after.failures.get clock).getD 0 := by
  cases heffect with
  | elsewhere hquiet hafter hcleared =>
      obtain ⟨_, hcounting⟩ := hafter (by simp [hnext, Phase.recording])
      simp [hnext] at hcounting
  | crashed hrecording => simp at hnext
  | counted before reply =>
      split at hnext
      case isTrue hanswered =>
        subst hanswered
        simp only [afterCount, afterExpire] at hnext
        split at hnext
        · simp at hnext
        · split at hnext
          case isTrue hreached =>
            rw [if_neg (by simp), Slot.get_incr]
            exact hreached
          case isFalse => simp at hnext
      case isFalse => simp at hnext
  | expired before first reply =>
      rw [honce before first rfl] at hnext
      simp only [afterExpire, circuitFailureThreshold] at hnext
      split at hnext <;> simp at hnext
  | opened before reply => simp at hnext

/-- What a run from a state has done to open the circuit. -/
structure Reopening (setup : Setup Call Instance)
    (start : State Call Instance) (actions : List (Action Call))
    (state : State Call Instance) : Prop where
  later : start.clock ≤ state.clock
  once : ∀ call ending first,
    state.phase call = .expiring ending first → first = 1
  within : WithinWindow setup start actions (recorded state)
  reached : (∃ call ending, state.phase call = .opening ending) ∨
      state.keys.circuitOpen ≠ start.keys.circuitOpen →
    ReachesThreshold setup start actions

theorem Reopening.of_quiet (hquiet : Quiet state) :
    Reopening setup state [] state where
  later := le_rfl
  once call ending first hphase := by
    have hidle := hquiet call
    simp [hphase, Phase.recording] at hidle
  within := ⟨[], [], state, rfl, rfl, .inl rfl, trivial, le_rfl⟩
  reached hopening := by
    rcases hopening with ⟨call, ending, hphase⟩ | hdiffers
    · have hidle := hquiet call
      simp [hphase, Phase.recording] at hidle
    · exact absurd rfl hdiffers

theorem Reopening.step {start : State Call Instance}
    {actions : List (Action Call)}
    (hreopening : Reopening setup start actions state)
    (hrun : (system setup).run start actions = some state)
    (hstep : Transport.step setup state action = some next) :
    Reopening setup start (actions ++ [action]) next := by
  have hwithin := hreopening.within.concat hrun hstep
  refine ⟨hreopening.later.trans (clock_le hstep), ?_, hwithin, ?_⟩
  · intro other ending first hphase
    cases action with
    | elapse duration =>
        obtain ⟨-, rfl⟩ := step_elapse hstep
        exact hreopening.once other ending first hphase
    | move call event =>
        by_cases hother : other = call
        · subst hother
          obtain ⟨phase, hmove, -, hnext⟩ := step_move hstep
          rw [hnext, Function.update_self] at hphase
          exact (effect_of_move hmove).first_of_expiring hphase
        · rw [phase_of_other hstep hother] at hphase
          exact hreopening.once other ending first hphase
  · intro hopening
    cases action with
    | elapse duration =>
        obtain ⟨-, rfl⟩ := step_elapse hstep
        exact (hreopening.reached hopening).append _
    | move call event =>
        obtain ⟨phase, hmove, hclock, hnext⟩ := step_move hstep
        rcases hopening with ⟨other, ending, hphase⟩ | hdiffers
        · by_cases hother : other = call
          · subst hother
            rw [hnext, Function.update_self] at hphase
            have hreached := (effect_of_move hmove).reached_of_opening hphase
              (hreopening.once other)
            rw [← hclock] at hreached
            obtain ⟨before, within, first, hsplit, hbefore, hstart, hlive,
              hle⟩ := hwithin
            exact ⟨_, [], (List.append_nil _).symm, before, within, first,
              hsplit, hbefore, hstart, hlive, hreached.trans hle⟩
          · rw [phase_of_other hstep hother] at hphase
            exact (hreopening.reached (.inl ⟨other, ending, hphase⟩)).append _
        · refine (hreopening.reached ?_).append _
          rcases circuitOpen_of_move hmove with hsame | ⟨reply, rfl, -⟩
          · rw [hsame] at hdiffers
            exact .inr hdiffers
          · obtain ⟨ending, hphase, -⟩ := ended_of_openCircuit hmove
            exact .inl ⟨call, ending, hphase⟩

/-- The circuit opens again only after one window reached the threshold. -/
theorem reaches_threshold (hquiet : Quiet state)
    (hclosed : circuitIsOpen state.clock state.keys = false)
    {actions : List (Action Call)} {final : State Call Instance}
    (hrun : (system setup).run state actions = some final)
    (hopen : circuitIsOpen final.clock final.keys = true) :
    ReachesThreshold setup state actions := by
  have hreopening : Reopening setup state actions final :=
    System.run_induction (Reopening setup state) (.of_quiet hquiet)
      (fun _ _ _ _ hreopening hrun hstep => hreopening.step hrun hstep) hrun
  refine hreopening.reached (.inr fun hsame => ?_)
  rw [circuitIsOpen_later hreopening.later hsame hclosed] at hopen
  exact Bool.false_ne_true hopen

/-- In every run whose commands are answered, in which no process dies while it
records, and in which an `EXPIRE` finds the counter below the threshold or gives
it a covered deadline: whenever no failure is being recorded, a counter that
reached the threshold is outlived by the open key.  So while the circuit is
closed the counter is below the threshold, and the circuit opens again only
after further failures made up the threshold in one window. -/
theorem counter_outlived (setup : Setup Call Instance)
    {start : State Call Instance} (hinit : (system setup).Init start)
    {actions : List (Action Call)}
    (hsteps : (system setup).Steps
      (fun before action _ =>
        Answered before action ∧ ExpiresCovered before action)
      start actions)
    {state : State Call Instance}
    (hrun : (system setup).run start actions = some state)
    (hquiet : Quiet state) :
    Outlived state ∧
      (circuitIsOpen state.clock state.keys = false →
        recorded state < circuitFailureThreshold ∧
          ∀ later final, (system setup).run state later = some final →
            circuitIsOpen final.clock final.keys = true →
              ReachesThreshold setup state later) := by
  have hreach := System.ReachableVia.run (.init hinit) hsteps hrun
  have hcovering : Covering state := hreach.invariant Covering
    (fun _ hstart => .of_init hstart)
    (fun _ _ _ hcovering hstep hallowed =>
      hcovering.step hstep hallowed.1 hallowed.2)
  refine ⟨hcovering.outlived hquiet, fun hclosed => ⟨?_, ?_⟩⟩
  · by_contra hreached
    obtain ⟨-, -, close, hclose, hlive, -⟩ :=
      hcovering.outlived hquiet (not_lt.mp hreached)
    rw [circuitIsOpen, Slot.exist_of_lt_deadline hclose hlive] at hclosed
    simp at hclosed
  · intro later final hlater hopen
    exact reaches_threshold hquiet hclosed hlater hopen

/-- Five refused calls, each of them prompt. -/
theorem prompt_expire_outlived :
    ∃ state ∈ (system pairOfTransports).run beforeCalls
        (fourRefused ++ pass 4 ++ refuse 4 ++
          [.elapse 20, .move 4 (.openCircuit .answered), .elapse 250]),
      Outlived state ∧ recorded state = circuitFailureThreshold := by
  have hrun : ∃ state ∈ (system pairOfTransports).run beforeCalls
      (fourRefused ++ pass 4 ++ refuse 4 ++
        [.elapse 20, .move 4 (.openCircuit .answered), .elapse 250]),
      Quiet state ∧ recorded state = circuitFailureThreshold := by
    decide +kernel
  obtain ⟨state, hstate, hquiet, hrecorded⟩ := hrun
  have houtlived := counter_outlived pairOfTransports beforeCalls_init
    (by decide +kernel) hstate hquiet
  exact ⟨state, hstate, houtlived.1, hrecorded⟩

/-- Five refused calls.  The process of the first one stalls between its two
commands for longer than a window, and the other ones open the circuit. -/
def stalled : List (Action (Fin 6)) :=
  pass 4 ++ refuse 4 ++ pass 0 ++ refuse 0 ++ pass 1 ++ refuse 1 ++
    pass 2 ++ refuse 2 ++ pass 3 ++ refuse 3 ++
    [.move 3 (.openCircuit .answered), .elapse 400,
      .move 4 (.expire .answered), .elapse 250]

/-- The circuit closes before the counter of five failures lapses. -/
theorem late_expire_outlives :
    (system pairOfTransports).Steps
        (fun before action _ => Answered before action) beforeCalls stalled ∧
      ∃ state ∈ (system pairOfTransports).run beforeCalls stalled,
        Quiet state ∧ ¬Outlived state ∧
          circuitIsOpen state.clock state.keys = false ∧
          recorded state = circuitFailureThreshold := by
  decide +kernel

end UTTG.Transport
