import UTTG.Providers.SpaceTrackTickets

/-!
# The cooldowns of the datasets

A call reads the cooldown of its dataset before it queries, and writes it after
the reply.  The queries that had been recorded when it read no cooldown are past
theirs; nothing is known of the others.
-/

namespace UTTG.SpaceTrack

open UTTG.Expiring

/-- The query that a call has sent and not recorded. -/
def Phase.underway : Phase → Option Sent
  | .sent .query request | .received request => some request
  | _ => none

theorem underway_of_plain {phase : Phase} (hplain : phase.plain = true) :
    phase.underway = none := by
  cases phase with
  | unlocked | loggedIn | dated | keyed | ended => rfl
  | _ => cases hplain

section Knowledge

variable {Client Call : Type*}

/-- Recorded queries have a cooldown that outlasts theirs, and those that a call
has seen recorded were past their cooldown then. -/
structure Cooldowns (setting : Setting Client Call)
    (state : State Client Call) : Prop where
  past : ∀ request ∈ state.sends, request.time ≤ state.clock
  underway : ∀ call request, (state.phase call).underway = some request →
    request.time ≤ state.clock ∧
      request.query = some (setting.dataset call)
  recordedPast : ∀ request ∈ state.recorded, request.time ≤ state.clock
  recorded : ∀ request ∈ state.recorded, ∀ dataset,
    request.query = some dataset → ∃ deadline,
      state.slot (.cooldown dataset) = some ⟨1, some deadline⟩ ∧
        request.time + dataset.cooldown ≤ deadline
  seen : ∀ call, (state.phase call).checked = true →
    ∀ request ∈ state.seen call,
      request.query = some (setting.dataset call) →
        request.time + (setting.dataset call).cooldown ≤ state.clock

/-- The cooldowns and what is known of them stay as they are. -/
structure Calm (state next : State Client Call) : Prop where
  clock : state.clock ≤ next.clock
  sends : next.sends = state.sends
  recorded : next.recorded = state.recorded
  seen : next.seen = state.seen
  slots : ∀ dataset, next.slot (.cooldown dataset) =
    state.slot (.cooldown dataset)

/-- Besides, no call begins and none sends a query. -/
structure Ordinary (state next : State Client Call) : Prop
    extends Calm state next where
  checked : ∀ call, (next.phase call).checked = true →
    (state.phase call).checked = true
  underway : ∀ call request, (next.phase call).underway = some request →
    (state.phase call).underway = some request

theorem Calm.refl (state : State Client Call) : Calm state state :=
  ⟨le_refl _, rfl, rfl, rfl, fun _ => rfl⟩

theorem calm_write_window (state : State Client Call) (span : Span)
    (window : ℤ) (slot : Slot ℕ ℚ) :
    Calm state (state.write (.window span window) slot) :=
  ⟨le_refl _, rfl, rfl, rfl, fun dataset => by
    rw [slot_write, if_neg (by simp)]⟩

theorem calm_count (state : State Client Call) (span : Span) (window : ℤ) :
    Calm state (state.count span window).2 :=
  ⟨le_refl _, rfl, rfl, rfl, fun _ => (count_other state (by simp)).1⟩

theorem Cooldowns.ordinary {setting : Setting Client Call}
    {state next : State Client Call} (hcooldowns : Cooldowns setting state)
    (hordinary : Ordinary state next) : Cooldowns setting next := by
  have hcalm := hordinary.toCalm
  refine ⟨?_, fun call request hrequest => ?_, ?_, ?_,
    fun call hchecked request hrequest hquery => ?_⟩
  · rw [hcalm.sends]
    exact fun request hrequest =>
      (hcooldowns.past request hrequest).trans hcalm.clock
  · obtain ⟨hpast, hquery⟩ := hcooldowns.underway call request
      (hordinary.underway call request hrequest)
    exact ⟨hpast.trans hcalm.clock, hquery⟩
  · rw [hcalm.recorded]
    exact fun request hrequest =>
      (hcooldowns.recordedPast request hrequest).trans hcalm.clock
  · rw [hcalm.recorded]
    intro request hrequest dataset hquery
    rw [hcalm.slots]
    exact hcooldowns.recorded request hrequest dataset hquery
  · rw [hcalm.seen] at hrequest
    exact (hcooldowns.seen call (hordinary.checked call hchecked) request
      hrequest hquery).trans hcalm.clock

end Knowledge

/-! ## Steps of calls -/

section Steps

theorem settle_underway (target : Target) (draws : Draws) :
    (settle target draws).underway = none := by
  rcases settle_cases target draws with ⟨outcome, hended⟩ | ⟨hcleared, -⟩
  · rw [hended]
    rfl
  · rw [hcleared]
    rfl

variable {Client Call : Type*} [DecidableEq Call]

theorem Calm.ordinary {state executed : State Client Call}
    (hcalm : Calm state executed) (hphase : executed.phase = state.phase)
    {call : Call} {phase : Phase}
    (hchecked : (state.phase call).checked = true)
    (hunderway : ∀ request, phase.underway = some request →
      (state.phase call).underway = some request) :
    Ordinary state (executed.goto call phase) where
  clock := hcalm.clock
  sends := hcalm.sends
  recorded := hcalm.recorded
  seen := hcalm.seen
  slots := hcalm.slots
  checked other hother := by
    rw [phase_goto] at hother
    split at hother
    case isTrue hsame => exact hsame ▸ hchecked
    case isFalse => rwa [hphase] at hother
  underway other request hother := by
    rw [phase_goto] at hother
    split at hother
    case isTrue hsame => exact hsame ▸ hunderway request hother
    case isFalse => rwa [hphase] at hother

theorem Calm.ordinary_command {state executed : State Client Call}
    (hcalm : Calm state executed) (hphase : executed.phase = state.phase)
    {call : Call} {reply : Reply} {phase : Phase}
    (hchecked : (state.phase call).checked = true)
    (hunderway : phase.underway = none) :
    Ordinary state (state.command call reply executed phase) := by
  rcases command_cases state call reply executed phase with hnext | hnext | hnext
  · rw [hnext]
    exact hcalm.ordinary hphase hchecked (by simp [hunderway])
  · rw [hnext]
    exact hcalm.ordinary hphase hchecked (by simp [Phase.underway])
  · rw [hnext]
    exact (Calm.refl state).ordinary rfl hchecked (by simp [Phase.underway])

theorem Cooldowns.ended {setting : Setting Client Call}
    {state : State Client Call} (hcooldowns : Cooldowns setting state)
    (call : Call) (outcome : Outcome) :
    Cooldowns setting (state.goto call (.ended outcome)) := by
  refine ⟨hcooldowns.past, fun other request hother => ?_,
    hcooldowns.recordedPast, hcooldowns.recorded, fun other hchecked => ?_⟩
  · rw [phase_goto] at hother
    split at hother
    · cases hother
    · exact hcooldowns.underway other request hother
  · rw [phase_goto] at hchecked
    split at hchecked
    · cases hchecked
    · exact hcooldowns.seen other hchecked

theorem Cooldowns.sends {setting : Setting Client Call}
    {state next : State Client Call} {call : Call}
    (hcooldowns : Cooldowns setting state)
    (hsends : Sends setting state next call) : Cooldowns setting next := by
  obtain ⟨target, draws, hphase, rfl⟩ := hsends
  refine ⟨fun request hrequest => ?_, fun other request hother => ?_,
    hcooldowns.recordedPast, hcooldowns.recorded, fun other hchecked => ?_⟩
  · rcases List.mem_append.mp hrequest with hbefore | hlast
    · exact hcooldowns.past request hbefore
    · rw [List.mem_singleton.mp hlast]
      exact le_refl state.clock
  · rw [phase_goto] at hother
    split at hother
    case isTrue hsame =>
      subst hsame
      cases target with
      | login => cases hother
      | query =>
          obtain rfl := Option.some.inj hother
          exact ⟨le_refl state.clock, rfl⟩
    case isFalse => exact hcooldowns.underway other request hother
  · rw [phase_goto] at hchecked
    split at hchecked
    case isTrue hsame =>
      subst hsame
      exact hcooldowns.seen other (by rw [hphase]; rfl)
    case isFalse => exact hcooldowns.seen other hchecked

variable [DecidableEq Client]

/-- A call that checks the cooldown, one that sends, and one that records its
query do more than the others. -/
theorem step_ordinary {setting : Setting Client Call}
    {state next : State Client Call} {action : Action Call}
    (hstep : step setting state action = some next) :
    Ordinary state next ∨ (∃ call reply, action = .check call reply) ∨
      (∃ call, action = .send call) ∨
        ∃ call reply, action = .record call reply := by
  have hcalm := Calm.refl state
  cases action with
  | elapse duration =>
      simp only [step] at hstep
      split at hstep
      case isFalse => cases hstep
      case isTrue hduration =>
        obtain rfl := Option.some.inj hstep
        exact .inl ⟨⟨le_add_of_nonneg_right hduration, rfl, rfl, rfl,
          fun _ => rfl⟩, fun _ hchecked => hchecked,
          fun _ _ hunderway => hunderway⟩
  | check call reply => exact .inr (.inl ⟨call, reply, rfl⟩)
  | readMinute call | readHour call | raise call =>
      obtain ⟨hchecked, phase, hplain, rfl⟩ := moves_of_step call hstep
        (by simp)
      exact .inl (hcalm.ordinary rfl hchecked
        (by simp [underway_of_plain hplain]))
  | incr call reply =>
      left
      simp only [step] at hstep
      split at hstep
      case h_1 target minute hour hphase =>
        obtain rfl := Option.some.inj hstep
        refine (calm_count state .minute minute).ordinary_command rfl
          (by rw [hphase]; rfl) ?_
        split <;> rfl
      case h_2 target minute hour hphase =>
        obtain rfl := Option.some.inj hstep
        refine (calm_count state .hour hour).ordinary_command rfl
          (by rw [hphase]; rfl) ?_
        split
        · rfl
        · exact settle_underway _ _
      case h_3 => cases hstep
  | expire call reply =>
      left
      simp only [step] at hstep
      split at hstep
      case h_1 target minute hour hphase =>
        obtain rfl := Option.some.inj hstep
        exact (calm_write_window state .minute _ _).ordinary_command rfl
          (by rw [hphase]; rfl) rfl
      case h_2 target draws hphase =>
        obtain rfl := Option.some.inj hstep
        exact (calm_write_window state .hour _ _).ordinary_command rfl
          (by rw [hphase]; rfl) (settle_underway _ _)
      case h_3 => cases hstep
  | send call => exact .inr (.inr (.inl ⟨call, rfl⟩))
  | respond call accepted =>
      left
      simp only [step] at hstep
      split at hstep
      case h_2 => cases hstep
      case h_1 target request hphase =>
        have hchecked : (state.phase call).checked = true := by
          rw [hphase]
          rfl
        split at hstep
        · split at hstep
          · obtain rfl := Option.some.inj hstep
            refine Calm.ordinary ?_ ?_ hchecked ?_
            · exact ⟨le_refl _, rfl, rfl, rfl, fun _ => rfl⟩
            · rfl
            · simp [Phase.underway]
          · obtain rfl := Option.some.inj hstep
            refine hcalm.ordinary rfl hchecked fun other hother => ?_
            rw [hphase]
            exact hother
        · obtain rfl := Option.some.inj hstep
          exact hcalm.ordinary rfl hchecked (by simp [Phase.underway])
  | record call reply => exact .inr (.inr (.inr ⟨call, reply, rfl⟩))

/-- A call that finds no cooldown has seen only queries whose cooldown is
over. -/
theorem Cooldowns.check {setting : Setting Client Call}
    {state next : State Client Call} {call : Call} {reply : Reply}
    (hcooldowns : Cooldowns setting state)
    (hstep : step setting state (.check call reply) = some next) :
    Cooldowns setting next := by
  simp only [step] at hstep
  split at hstep
  case h_2 => cases hstep
  case h_1 hphase =>
    split at hstep
    case h_1 hnone =>
      have hseen : ∀ phase : Phase, phase.underway = none →
          Cooldowns setting ({ state with
            seen := Function.update state.seen call state.recorded }.goto call
              phase) := by
        intro phase hunderway
        refine ⟨hcooldowns.past, fun other request hother => ?_,
          hcooldowns.recordedPast, hcooldowns.recorded,
          fun other hchecked request hrequest hquery => ?_⟩
        · rw [phase_goto] at hother
          split at hother
          · rw [hunderway] at hother
            cases hother
          · exact hcooldowns.underway other request hother
        · rw [phase_goto] at hchecked
          change request ∈ Function.update state.seen call state.recorded
            other at hrequest
          split at hchecked
          case isTrue hsame =>
            subst hsame
            rw [Function.update_self] at hrequest
            obtain ⟨deadline, hslot, hdeadline⟩ :=
              hcooldowns.recorded request hrequest _ hquery
            rw [hslot, Slot.get_some] at hnone
            split at hnone
            · exact hdeadline.trans ‹_›
            · cases hnone
          case isFalse hne =>
            rw [Function.update_of_ne hne] at hrequest
            exact hcooldowns.seen other hchecked request hrequest hquery
      obtain rfl := Option.some.inj hstep
      rcases command_cases state call reply ({ state with
          seen := Function.update state.seen call state.recorded } :
            State Client Call) .unlocked with
        hnext | hnext | hnext
      · rw [hnext]
        exact hseen _ rfl
      · rw [hnext]
        exact hseen _ rfl
      · rw [hnext]
        exact hcooldowns.ended call _
    case h_2 =>
      obtain rfl := Option.some.inj hstep
      rcases command_cases state call reply state (.ended (.raised
          (setting.dataset call).cooldownActive)) with
        hnext | hnext | hnext
      · rw [hnext]
        exact hcooldowns.ended call _
      · rw [hnext]
        exact hcooldowns.ended call _
      · rw [hnext]
        exact hcooldowns.ended call _

/-- The cooldown that a call writes outlasts those of all recorded queries. -/
theorem Cooldowns.record {setting : Setting Client Call}
    {state next : State Client Call} {call : Call} {reply : Reply}
    (hcooldowns : Cooldowns setting state)
    (hstep : step setting state (.record call reply) = some next) :
    Cooldowns setting next := by
  simp only [step] at hstep
  split at hstep
  case h_2 => cases hstep
  case h_1 request hphase =>
    have hrequest := hcooldowns.underway call request (by rw [hphase]; rfl)
    have hexecuted : Cooldowns setting { state.write
        (.cooldown (setting.dataset call))
        (Slot.set 1 (state.clock + (setting.dataset call).cooldown)) with
          recorded := state.recorded ++ [request] } := by
      have hpast : ∀ other ∈ state.recorded ++ [request],
          other.time ≤ state.clock := by
        intro other hother
        rcases List.mem_append.mp hother with hbefore | hlast
        · exact hcooldowns.recordedPast other hbefore
        · rw [List.mem_singleton.mp hlast]
          exact hrequest.1
      refine ⟨hcooldowns.past, hcooldowns.underway, hpast,
        fun other hother dataset hquery => ?_, hcooldowns.seen⟩
      change ∃ deadline, (state.write _ _).slot (.cooldown dataset) = _ ∧ _
      rw [slot_write]
      by_cases hdataset : dataset = setting.dataset call
      · subst hdataset
        rw [if_pos rfl]
        exact ⟨_, rfl, by gcongr; exact hpast other hother⟩
      · rw [if_neg (by simpa using hdataset)]
        rcases List.mem_append.mp hother with hbefore | hlast
        · exact hcooldowns.recorded other hbefore dataset hquery
        · rw [List.mem_singleton.mp hlast, hrequest.2] at hquery
          exact absurd (Option.some.inj hquery).symm hdataset
    obtain rfl := Option.some.inj hstep
    rcases command_cases state call reply _ (.ended .returned) with
      hnext | hnext | hnext
    · rw [hnext]
      exact hexecuted.ended call _
    · rw [hnext]
      exact hexecuted.ended call _
    · rw [hnext]
      exact hcooldowns.ended call _

theorem Cooldowns.step {setting : Setting Client Call}
    {state next : State Client Call} {action : Action Call}
    (hcooldowns : Cooldowns setting state)
    (hstep : step setting state action = some next) :
    Cooldowns setting next := by
  rcases step_ordinary hstep with hordinary | ⟨call, reply, rfl⟩ |
    ⟨call, rfl⟩ | ⟨call, reply, rfl⟩
  · exact hcooldowns.ordinary hordinary
  · exact hcooldowns.check hstep
  · simp only [SpaceTrack.step] at hstep
    split at hstep
    case h_2 => cases hstep
    case h_1 target draws hphase =>
      exact hcooldowns.sends
        ⟨target, draws, hphase, (Option.some.inj hstep).symm⟩
  · exact hcooldowns.record hstep

end Steps

end UTTG.SpaceTrack
