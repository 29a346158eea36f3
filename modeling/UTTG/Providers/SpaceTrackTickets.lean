import UTTG.Core.SlidingWindow
import UTTG.Providers.SpaceTrack

/-!
# The numbers that requests draw

Each request draws a number from the counter of its minute and of its hour
before it is sent.  Under any interleaving no number is drawn twice from one
counter, so the requests that one counter has counted are within its limit.
-/

namespace UTTG.SpaceTrack

open UTTG.Expiring UTTG.SlidingWindow

/-! ## What a step does to the counters -/

/-- The number that a call has drawn and not yet used. -/
def Phase.held (span : Span) : Phase → Option Draw
  | .minuteCreated _ minute _ | .minuteCounted _ minute _ =>
      match span with
      | .minute => some minute
      | .hour => none
  | .hourCreated _ draws | .cleared _ draws => some (draws.of span)
  | _ => none

theorem held_of_plain (span : Span) {phase : Phase}
    (hplain : phase.plain = true) : phase.held span = none := by
  cases phase with
  | unlocked | loggedIn | dated | keyed | ended => rfl
  | _ => cases hplain

section Counters

variable {Client Call : Type*}

/-- For the counters of a span nothing has happened, except that some may have
lapsed. -/
structure Similar (span : Span) (state next : State Client Call) : Prop where
  clock : state.clock ≤ next.clock
  sends : next.sends = state.sends
  opened : ∀ window, next.opened (.window span window) =
    state.opened (.window span window)
  slots : ∀ window value,
    (next.slot (.window span window)).get next.clock = some value →
      (state.slot (.window span window)).get state.clock = some value

/-- No call draws from a counter of the span or sends a request. -/
structure Quiet (span : Span) (state next : State Client Call) : Prop
    extends Similar span state next where
  held : ∀ call draw, (next.phase call).held span = some draw →
    (state.phase call).held span = some draw
  cleared : ∀ call target draws, next.phase call = .cleared target draws →
    state.phase call = .cleared target draws ∨
      (draws.of span).count ≤ span.limit

/-- A call draws from the counter of a window, and may go on. -/
structure Drawn (span : Span) (call : Call) (window : ℤ)
    (state next : State Client Call) : Prop where
  clock : next.clock = state.clock
  sends : next.sends = state.sends
  opened : next.opened = (state.count span window).2.opened
  slots : ∀ key, next.slot key = (state.count span window).2.slot key
  others : ∀ other, other ≠ call → next.phase other = state.phase other
  held : ∀ draw, (next.phase call).held span = some draw →
    draw = (state.count span window).1
  cleared : ∀ target draws, next.phase call = .cleared target draws →
    (draws.of span).count ≤ span.limit

theorem Similar.refl (span : Span) (state : State Client Call) :
    Similar span state state :=
  ⟨le_refl _, rfl, fun _ => rfl, fun _ _ hvalue => hvalue⟩

theorem similar_of_eq {span : Span} {state next : State Client Call}
    (hclock : next.clock = state.clock) (hsends : next.sends = state.sends)
    (hopened : next.opened = state.opened) (hstore : next.store = state.store) :
    Similar span state next where
  clock := hclock.ge
  sends := hsends
  opened _ := by rw [hopened]
  slots _ _ hvalue := by
    rwa [hclock, State.slot, hstore] at hvalue

theorem get_of_get_later {now later : ℚ} (hle : now ≤ later) {slot : Slot ℕ ℚ}
    {value : ℕ} (hvalue : slot.get later = some value) :
    slot.get now = some value := by
  rcases Slot.get_later slot hle with hnone | hsame
  · rw [hnone] at hvalue
    cases hvalue
  · rw [← hsame, hvalue]

theorem similar_elapse (span : Span) (state : State Client Call)
    {duration : ℚ} (hduration : 0 ≤ duration) :
    Similar span state { state with clock := state.clock + duration } where
  clock := le_add_of_nonneg_right hduration
  sends := rfl
  opened _ := rfl
  slots _ _ hvalue :=
    get_of_get_later (le_add_of_nonneg_right hduration) hvalue

/-- A write under another key, or of what the counter holds. -/
theorem similar_write (span : Span) (state : State Client Call) {key : Key}
    {slot : Slot ℕ ℚ}
    (hslot : ∀ window value, key = .window span window →
      slot.get state.clock = some value →
        (state.slot key).get state.clock = some value) :
    Similar span state (state.write key slot) where
  clock := le_refl _
  sends := rfl
  opened _ := rfl
  slots window value hvalue := by
    rw [slot_write] at hvalue
    split at hvalue
    case isTrue hkey => exact hkey ▸ hslot window value hkey.symm hvalue
    case isFalse => exact hvalue

theorem similar_expireWindow (span other : Span) (state : State Client Call)
    (window : ℤ) :
    Similar span state (state.expireWindow other window) := by
  refine similar_write span state fun _ value _ hvalue => ?_
  rw [Slot.get_expire] at hvalue
  split at hvalue
  · cases hvalue
  · exact hvalue

theorem similar_count {span other : Span} (hother : other ≠ span)
    (state : State Client Call) (window : ℤ) :
    Similar span state (state.count other window).2 where
  clock := le_refl _
  sends := rfl
  opened inner := by
    have hkey : Key.window span inner ≠ .window other window := by
      intro heq
      exact hother (Key.window.inj heq).1.symm
    simp only [State.count]
    split
    · exact Function.update_of_ne hkey _ _
    · rfl
  slots inner value hvalue := by
    refine (similar_write span state fun _ _ hkey _ => ?_).slots inner value
      hvalue
    exact absurd (Key.window.inj hkey).1 hother

/-! ## No number is drawn twice -/

/-- The number has been drawn from the counter that it names. -/
structure Issued (state : State Client Call) (span : Span) (draw : Draw) :
    Prop where
  positive : 1 ≤ draw.count
  opening : draw.opening ≤ state.opened (.window span draw.window)
  counted : draw.opening = state.opened (.window span draw.window) →
    ∀ value, (state.slot (.window span draw.window)).get state.clock =
      some value → draw.count ≤ value

/-- The numbers drawn for a span, held or used, are pairwise different, and
those used are within the limit. -/
structure Tickets (span : Span) (state : State Client Call) : Prop where
  held : ∀ call draw, (state.phase call).held span = some draw →
    Issued state span draw
  sent : ∀ request ∈ state.sends, Issued state span (request.draws.of span)
  distinct : (state.sends.map fun request => request.draws.of span).Nodup
  unsent : ∀ call draw, (state.phase call).held span = some draw →
    draw ∉ state.sends.map fun request => request.draws.of span
  apart : ∀ call other draw, (state.phase call).held span = some draw →
    (state.phase other).held span = some draw → call = other
  cleared : ∀ call target draws, state.phase call = .cleared target draws →
    (draws.of span).count ≤ span.limit
  within : ∀ request ∈ state.sends,
    (request.draws.of span).count ≤ span.limit

theorem Issued.similar {span : Span} {state next : State Client Call}
    {draw : Draw} (hissued : Issued state span draw)
    (hsimilar : Similar span state next) : Issued next span draw where
  positive := hissued.positive
  opening := by
    rw [hsimilar.opened]
    exact hissued.opening
  counted hopening value hvalue := by
    rw [hsimilar.opened] at hopening
    exact hissued.counted hopening value (hsimilar.slots _ value hvalue)

theorem issued_count (state : State Client Call) (span : Span) (window : ℤ) :
    Issued (state.count span window).2 span (state.count span window).1 := by
  obtain ⟨hslot, hcases⟩ := count_cases state span window
  refine ⟨?_, le_refl _, fun _ value hvalue => ?_⟩
  · rcases hcases with ⟨hone, -⟩ | ⟨value, -, hvalue, -⟩
    · exact hone.ge
    · rw [hvalue]
      exact Nat.succ_pos value
  · rw [Option.some.inj (hslot.symm.trans hvalue)]

/-- What had been drawn stays drawn, and is not drawn again. -/
theorem Issued.count {span : Span} {state : State Client Call} {draw : Draw}
    (hissued : Issued state span draw) (window : ℤ) :
    Issued (state.count span window).2 span draw ∧
      draw ≠ (state.count span window).1 := by
  obtain ⟨hslot, hcases⟩ := count_cases state span window
  by_cases hwindow : draw.window = window
  · subst hwindow
    rcases hcases with ⟨-, hopened⟩ | ⟨value, hvalue, hcount, hopened⟩
    · have hless : draw.opening <
          (state.count span draw.window).2.opened
            (.window span draw.window) := by
        rw [hopened]
        exact Nat.lt_succ_of_le hissued.opening
      refine ⟨⟨hissued.positive, hless.le, fun hopening => ?_⟩, fun hsame => ?_⟩
      · exact absurd hopening (ne_of_lt hless)
      · exact absurd (congrArg Draw.opening hsame) (ne_of_lt hless)
    · refine ⟨⟨hissued.positive, ?_, fun hopening other hother => ?_⟩,
        fun hsame => ?_⟩
      · rw [hopened]
        exact hissued.opening
      · rw [hopened] at hopening
        have hbound := hissued.counted hopening value hvalue
        obtain rfl := Option.some.inj (hslot.symm.trans hother)
        omega
      · have hopening : draw.opening =
            (state.count span draw.window).2.opened
              (.window span draw.window) := congrArg Draw.opening hsame
        have hbound := hissued.counted (hopening.trans hopened) value hvalue
        have hequal := congrArg Draw.count hsame
        omega
  · have hkey : Key.window span draw.window ≠ .window span window := by
      intro heq
      exact hwindow (Key.window.inj heq).2
    obtain ⟨hother, hopened⟩ := count_other state hkey
    refine ⟨⟨hissued.positive, ?_, fun hopening value hvalue => ?_⟩,
      fun hsame => ?_⟩
    · rw [hopened]
      exact hissued.opening
    · rw [hopened] at hopening
      rw [hother] at hvalue
      exact hissued.counted hopening value hvalue
    · exact hwindow (congrArg Draw.window hsame)

theorem Issued.congr {span : Span} {state next : State Client Call}
    {draw : Draw} (hissued : Issued state span draw)
    (hclock : next.clock = state.clock) (hopened : next.opened = state.opened)
    (hslots : ∀ key, next.slot key = state.slot key) :
    Issued next span draw := by
  refine ⟨hissued.positive, ?_, fun hopening value hvalue => ?_⟩
  · rw [hopened]
    exact hissued.opening
  · rw [hopened] at hopening
    rw [hclock, hslots] at hvalue
    exact hissued.counted hopening value hvalue

theorem Tickets.quiet {span : Span} {state next : State Client Call}
    (htickets : Tickets span state) (hquiet : Quiet span state next) :
    Tickets span next := by
  have hsimilar := hquiet.toSimilar
  refine ⟨fun call draw hheld => ?_, ?_, ?_, fun call draw hheld => ?_,
    fun call other draw hcall hother => ?_, fun call target draws hcleared => ?_,
    ?_⟩
  · exact (htickets.held call draw (hquiet.held call draw hheld)).similar
      hsimilar
  · rw [hsimilar.sends]
    exact fun request hrequest => (htickets.sent request hrequest).similar
      hsimilar
  · rw [hsimilar.sends]
    exact htickets.distinct
  · rw [hsimilar.sends]
    exact htickets.unsent call draw (hquiet.held call draw hheld)
  · exact htickets.apart call other draw (hquiet.held call draw hcall)
      (hquiet.held other draw hother)
  · rcases hquiet.cleared call target draws hcleared with hbefore | hwithin
    · exact htickets.cleared call target draws hbefore
    · exact hwithin
  · rw [hsimilar.sends]
    exact htickets.within

theorem Tickets.drawn {span : Span} {state next : State Client Call}
    {call : Call} {window : ℤ} (htickets : Tickets span state)
    (hdrawn : Drawn span call window state next) : Tickets span next := by
  have hkept : ∀ draw, Issued state span draw →
      Issued next span draw ∧ draw ≠ (state.count span window).1 := by
    intro draw hissued
    obtain ⟨hcounted, hne⟩ := hissued.count window
    exact ⟨hcounted.congr hdrawn.clock hdrawn.opened hdrawn.slots, hne⟩
  have hnew : Issued next span (state.count span window).1 :=
    (issued_count state span window).congr hdrawn.clock hdrawn.opened
      hdrawn.slots
  have hunsent : (state.count span window).1 ∉
      state.sends.map fun request => request.draws.of span := by
    intro hmem
    obtain ⟨request, hrequest, hsame⟩ := List.mem_map.mp hmem
    exact (hkept _ (htickets.sent request hrequest)).2 hsame
  -- no other call holds what has just been drawn
  have hother : ∀ other draw, other ≠ call →
      (next.phase other).held span = some draw →
        (state.phase other).held span = some draw ∧
          draw ≠ (state.count span window).1 := by
    intro other draw hne hheld
    rw [hdrawn.others other hne] at hheld
    exact ⟨hheld, (hkept draw (htickets.held other draw hheld)).2⟩
  refine ⟨fun other draw hheld => ?_, ?_, ?_, fun other draw hheld => ?_,
    fun left right draw hleft hright => ?_, fun other target draws hcleared => ?_,
    ?_⟩
  · by_cases hsame : other = call
    · subst hsame
      rw [hdrawn.held draw hheld]
      exact hnew
    · obtain ⟨hbefore, -⟩ := hother other draw hsame hheld
      exact (hkept draw (htickets.held other draw hbefore)).1
  · rw [hdrawn.sends]
    exact fun request hrequest => (hkept _ (htickets.sent request hrequest)).1
  · rw [hdrawn.sends]
    exact htickets.distinct
  · rw [hdrawn.sends]
    by_cases hsame : other = call
    · subst hsame
      rw [hdrawn.held draw hheld]
      exact hunsent
    · obtain ⟨hbefore, -⟩ := hother other draw hsame hheld
      exact htickets.unsent other draw hbefore
  · by_cases hleftCall : left = call
    · by_cases hrightCall : right = call
      · rw [hleftCall, hrightCall]
      · subst hleftCall
        exact absurd (hdrawn.held draw hleft)
          (hother right draw hrightCall hright).2
    · obtain ⟨hleftBefore, hne⟩ := hother left draw hleftCall hleft
      by_cases hrightCall : right = call
      · subst hrightCall
        exact absurd (hdrawn.held draw hright) hne
      · exact htickets.apart left right draw hleftBefore
          (hother right draw hrightCall hright).1
  · by_cases hsame : other = call
    · subst hsame
      exact hdrawn.cleared target draws hcleared
    · rw [hdrawn.others other hsame] at hcleared
      exact htickets.cleared other target draws hcleared
  · rw [hdrawn.sends]
    exact htickets.within

/-- Requests that one counter counted are within its limit. -/
theorem Tickets.length_le {span : Span} {state : State Client Call}
    (htickets : Tickets span state) {requests : List Sent}
    (hrequests : requests.Sublist state.sends) {counter : ℤ × ℕ}
    (hcounter : ∀ request ∈ requests,
      (request.draws.of span).counter = counter) :
    requests.length ≤ span.limit := by
  refine @length_le_of_distinct Sent
    (fun request => (request.draws.of span).count) requests span.limit ?_
    fun request hrequest => ?_
  · have hdistinct := (hrequests.map fun request =>
      request.draws.of span).nodup htickets.distinct
    refine List.Nodup.map_on (fun left hleft right hright hcount => ?_)
      hdistinct.of_map
    refine List.inj_on_of_nodup_map hdistinct hleft hright ?_
    have hsame : (left.draws.of span).counter =
        (right.draws.of span).counter :=
      (hcounter left hleft).trans (hcounter right hright).symm
    obtain ⟨hwindow, hopening⟩ := Prod.mk.inj hsame
    cases hleftDraw : left.draws.of span with
    | mk leftWindow leftOpening leftCount =>
        cases hrightDraw : right.draws.of span with
        | mk rightWindow rightOpening rightCount =>
            rw [hleftDraw, hrightDraw] at hwindow hopening hcount
            rw [Draw.mk.injEq]
            exact ⟨hwindow, hopening, hcount⟩
  · have hmem := hrequests.subset hrequest
    exact ⟨(htickets.sent request hmem).positive,
      htickets.within request hmem⟩

end Counters

/-! ## Steps of calls -/

section Steps

theorem settle_held {span : Span} {target : Target} {draws : Draws} {draw : Draw}
    (hheld : (settle target draws).held span = some draw) :
    draw = draws.of span := by
  rcases settle_cases target draws with ⟨outcome, hended⟩ | ⟨hcleared, -⟩
  · rw [hended] at hheld
    cases hheld
  · rw [hcleared] at hheld
    exact (Option.some.inj hheld).symm

theorem settle_cleared {span : Span} {target other : Target}
    {draws others : Draws}
    (hphase : settle target draws = .cleared other others) :
    (others.of span).count ≤ span.limit := by
  rcases settle_cases target draws with ⟨outcome, hended⟩ |
    ⟨hcleared, hlimits⟩
  · rw [hended] at hphase
    cases hphase
  · rw [hcleared] at hphase
    obtain ⟨-, rfl⟩ := Phase.cleared.inj hphase
    exact hlimits span

variable {Client Call : Type*} [DecidableEq Call]

/-- A call moves on without drawing. -/
theorem Similar.quiet {span : Span} {state executed : State Client Call}
    (hsimilar : Similar span state executed)
    (hphase : executed.phase = state.phase) {call : Call} {phase : Phase}
    (hheld : ∀ draw, phase.held span = some draw →
      (state.phase call).held span = some draw)
    (hcleared : ∀ target draws, phase = .cleared target draws →
      (draws.of span).count ≤ span.limit) :
    Quiet span state (executed.goto call phase) where
  clock := hsimilar.clock
  sends := hsimilar.sends
  opened := hsimilar.opened
  slots := hsimilar.slots
  held other draw hdraw := by
    rw [phase_goto] at hdraw
    split at hdraw
    case isTrue hsame => exact hsame ▸ hheld draw hdraw
    case isFalse => rwa [hphase] at hdraw
  cleared other target draws hother := by
    rw [phase_goto] at hother
    split at hother
    case isTrue => exact .inr (hcleared target draws hother)
    case isFalse => exact .inl (by rwa [hphase] at hother)

/-- A command that does not draw from the counters of the span. -/
theorem Similar.quiet_command {span : Span} {state executed : State Client Call}
    (hsimilar : Similar span state executed)
    (hphase : executed.phase = state.phase) {call : Call} {reply : Reply}
    {phase : Phase}
    (hheld : ∀ draw, phase.held span = some draw →
      (state.phase call).held span = some draw)
    (hcleared : ∀ target draws, phase = .cleared target draws →
      (draws.of span).count ≤ span.limit) :
    Quiet span state (state.command call reply executed phase) := by
  rcases command_cases state call reply executed phase with hnext | hnext | hnext
  · rw [hnext]
    exact hsimilar.quiet hphase hheld hcleared
  · rw [hnext]
    exact hsimilar.quiet hphase (by simp [Phase.held]) (by simp)
  · rw [hnext]
    exact (Similar.refl span state).quiet rfl (by simp [Phase.held]) (by simp)

/-- A command that draws. -/
theorem drawn_command {span : Span} {state : State Client Call} {window : ℤ}
    {call : Call} {reply : Reply} {phase : Phase}
    (hheld : ∀ draw, phase.held span = some draw →
      draw = (state.count span window).1)
    (hcleared : ∀ target draws, phase = .cleared target draws →
      (draws.of span).count ≤ span.limit) :
    Quiet span state
        (state.command call reply (state.count span window).2 phase) ∨
      Drawn span call window state
        (state.command call reply (state.count span window).2 phase) := by
  have hothers : ∀ (other : Call) (next : Phase), other ≠ call →
      ((state.count span window).2.goto call next).phase other =
        state.phase other := by
    intro other next hne
    rw [phase_goto, if_neg hne]
    rfl
  have hself : ∀ next : Phase,
      ((state.count span window).2.goto call next).phase call = next := by
    intro next
    rw [phase_goto, if_pos rfl]
  rcases command_cases state call reply (state.count span window).2 phase with
    hnext | hnext | hnext
  · right
    rw [hnext]
    refine ⟨rfl, rfl, rfl, fun _ => rfl, fun other hne =>
      hothers other phase hne, fun draw hdraw => ?_, fun target draws hphase => ?_⟩
    · rw [hself] at hdraw
      exact hheld draw hdraw
    · rw [hself] at hphase
      exact hcleared target draws hphase
  · right
    rw [hnext]
    refine ⟨rfl, rfl, rfl, fun _ => rfl, fun other hne =>
      hothers other _ hne, fun draw hdraw => ?_, fun target draws hphase => ?_⟩
    · rw [hself] at hdraw
      cases hdraw
    · rw [hself] at hphase
      cases hphase
  · left
    rw [hnext]
    exact (Similar.refl span state).quiet rfl (by simp [Phase.held]) (by simp)

/-- A call that the guard has let through sends its request. -/
def Sends (setting : Setting Client Call) (state next : State Client Call)
    (call : Call) : Prop :=
  ∃ target draws, state.phase call = .cleared target draws ∧
    next = { state with
      sends := state.sends ++ [requestOf setting state call target draws] }.goto
        call (.sent target (requestOf setting state call target draws))

theorem Tickets.sends {span : Span} {setting : Setting Client Call}
    {state next : State Client Call} {call : Call}
    (htickets : Tickets span state) (hsends : Sends setting state next call) :
    Tickets span next := by
  obtain ⟨target, draws, hphase, rfl⟩ := hsends
  have hused : (state.phase call).held span = some (draws.of span) := by
    rw [hphase]
    rfl
  -- the number of the request is no longer held, the others are
  have hheld : ∀ other draw,
      (({ state with sends := state.sends ++
        [requestOf setting state call target draws] }.goto call
          (.sent target (requestOf setting state call target draws))).phase
            other).held span = some draw →
        other ≠ call ∧ (state.phase other).held span = some draw := by
    intro other draw hother
    rw [phase_goto] at hother
    split at hother
    case isTrue => cases hother
    case isFalse hne => exact ⟨hne, hother⟩
  refine ⟨fun other draw hother => ?_, ?_, ?_, fun other draw hother => ?_,
    fun left right draw hleft hright => ?_, fun other kind others hcleared => ?_,
    ?_⟩
  · exact (htickets.held other draw (hheld other draw hother).2).congr rfl rfl
      fun _ => rfl
  · intro request hrequest
    rcases List.mem_append.mp hrequest with hbefore | hlast
    · exact (htickets.sent request hbefore).congr rfl rfl fun _ => rfl
    · rw [List.mem_singleton.mp hlast]
      exact (htickets.held call _ hused).congr rfl rfl fun _ => rfl
  · change ((state.sends ++ [_]).map _).Nodup
    rw [List.map_append, List.map_singleton]
    exact htickets.distinct.append (List.nodup_singleton _)
      (List.disjoint_singleton.mpr (htickets.unsent call _ hused))
  · obtain ⟨hne, hbefore⟩ := hheld other draw hother
    change draw ∉ (state.sends ++ [_]).map _
    rw [List.map_append, List.map_singleton, List.mem_append, not_or,
      List.mem_singleton]
    refine ⟨htickets.unsent other draw hbefore, fun hsame => hne ?_⟩
    exact htickets.apart other call draw hbefore (hsame ▸ hused)
  · exact htickets.apart left right draw (hheld left draw hleft).2
      (hheld right draw hright).2
  · rw [phase_goto] at hcleared
    split at hcleared
    case isTrue => cases hcleared
    case isFalse => exact htickets.cleared other kind others hcleared
  · intro request hrequest
    rcases List.mem_append.mp hrequest with hbefore | hlast
    · exact htickets.within request hbefore
    · rw [List.mem_singleton.mp hlast]
      exact htickets.cleared call target draws hphase

variable [DecidableEq Client]

theorem incr_cases {setting : Setting Client Call} (span : Span)
    {state next : State Client Call} {call : Call} {reply : Reply}
    (hstep : step setting state (.incr call reply) = some next) :
    Quiet span state next ∨ ∃ window, Drawn span call window state next := by
  simp only [step] at hstep
  split at hstep
  case h_1 target minute hour hphase =>
    obtain rfl := Option.some.inj hstep
    have hnext : ∀ draw : Draw, (if draw.count = 1 then
          Phase.minuteCreated target draw hour
        else .minuteCounted target draw hour).held .minute = some draw := by
      intro draw
      split <;> rfl
    cases span with
    | minute =>
        have hcases := @drawn_command Client Call _ .minute state minute call
          reply _ (fun draw hdraw =>
            Option.some.inj (hdraw.symm.trans (hnext _)))
          (fun target draws hcleared => by split at hcleared <;> cases hcleared)
        exact hcases.imp_right fun hdrawn => ⟨minute, hdrawn⟩
    | hour =>
        left
        refine (similar_count (by simp) state minute).quiet_command rfl
          (fun draw hdraw => ?_) fun target draws hcleared => ?_
        · split at hdraw <;> cases hdraw
        · split at hcleared <;> cases hcleared
  case h_2 target minute hour hphase =>
    obtain rfl := Option.some.inj hstep
    have hnext : ∀ (span : Span) (draw held : Draw), (if draw.count = 1 then
          Phase.hourCreated target ⟨minute, draw⟩
        else settle target ⟨minute, draw⟩).held span = some held →
          held = Draws.of ⟨minute, draw⟩ span := by
      intro span draw held hheld
      split at hheld
      · exact (Option.some.inj hheld).symm
      · exact settle_held hheld
    have hcleared : ∀ (span : Span) (draw : Draw) (other : Target)
        (others : Draws), (if draw.count = 1 then
          Phase.hourCreated target ⟨minute, draw⟩
        else settle target ⟨minute, draw⟩) = .cleared other others →
          (others.of span).count ≤ span.limit := by
      intro span draw other others hother
      split at hother
      · cases hother
      · exact settle_cleared hother
    cases span with
    | minute =>
        left
        refine (similar_count (by simp) state hour).quiet_command rfl
          (fun draw hdraw => ?_) (hcleared .minute _)
        rw [hnext .minute _ draw hdraw, hphase]
        rfl
    | hour =>
        have hcases := @drawn_command Client Call _ .hour state hour call reply
          _ (fun draw hdraw => hnext .hour _ draw hdraw) (hcleared .hour _)
        exact hcases.imp_right fun hdrawn => ⟨hour, hdrawn⟩
  case h_3 => cases hstep

/-- Besides the commands, a call only moves between phases that hold what it
has drawn. -/
theorem step_cases {setting : Setting Client Call} (span : Span)
    {state next : State Client Call} {action : Action Call}
    (hstep : step setting state action = some next) :
    Quiet span state next ∨
      (∃ call window, Drawn span call window state next) ∨
      ∃ call, action = .send call ∧ Sends setting state next call := by
  have hsame := Similar.refl span state
  cases action with
  | elapse duration =>
      simp only [step] at hstep
      split at hstep
      case isFalse => cases hstep
      case isTrue hduration =>
        obtain rfl := Option.some.inj hstep
        exact .inl ⟨similar_elapse span state hduration, fun _ _ hheld => hheld,
          fun _ _ _ hcleared => .inl hcleared⟩
  | check call reply =>
      simp only [step] at hstep
      split at hstep
      case h_2 => cases hstep
      case h_1 =>
        split at hstep
        · obtain rfl := Option.some.inj hstep
          refine .inl (Similar.quiet_command ?_ ?_ ?_ ?_)
          · exact similar_of_eq rfl rfl rfl rfl
          · rfl
          · simp [Phase.held]
          · simp
        · obtain rfl := Option.some.inj hstep
          exact .inl (hsame.quiet_command rfl (by simp [Phase.held]) (by simp))
  | readMinute call | readHour call | raise call =>
      obtain ⟨-, phase, hplain, rfl⟩ := moves_of_step call hstep (by simp)
      exact .inl (hsame.quiet rfl (by simp [held_of_plain span hplain])
        fun target draws hcleared => by simp [hcleared, Phase.plain] at hplain)
  | incr call reply =>
      rcases incr_cases span hstep with hquiet | ⟨window, hdrawn⟩
      · exact .inl hquiet
      · exact .inr (.inl ⟨call, window, hdrawn⟩)
  | expire call reply =>
      simp only [step] at hstep
      split at hstep
      case h_1 target minute hour hphase =>
        obtain rfl := Option.some.inj hstep
        refine .inl ((similar_expireWindow span _ state _).quiet_command rfl
          (fun draw hdraw => ?_) (by simp))
        rw [hphase]
        exact hdraw
      case h_2 target draws hphase =>
        obtain rfl := Option.some.inj hstep
        refine .inl ((similar_expireWindow span _ state _).quiet_command rfl
          (fun draw hdraw => ?_) fun _ _ hcleared => settle_cleared hcleared)
        rw [hphase, settle_held hdraw]
        rfl
      case h_3 => cases hstep
  | send call =>
      simp only [step] at hstep
      split at hstep
      case h_2 => cases hstep
      case h_1 target draws hphase =>
        exact .inr (.inr ⟨call, rfl, target, draws, hphase,
          (Option.some.inj hstep).symm⟩)
  | respond call accepted =>
      simp only [step] at hstep
      split at hstep
      case h_2 => cases hstep
      case h_1 target request hphase =>
        split at hstep
        · split at hstep
          · obtain rfl := Option.some.inj hstep
            refine .inl (Similar.quiet ?_ ?_ ?_ ?_)
            · exact similar_of_eq rfl rfl rfl rfl
            · rfl
            · simp [Phase.held]
            · simp
          · obtain rfl := Option.some.inj hstep
            exact .inl (hsame.quiet rfl (by simp [Phase.held]) (by simp))
        · obtain rfl := Option.some.inj hstep
          exact .inl (hsame.quiet rfl (by simp [Phase.held]) (by simp))
  | record call reply =>
      simp only [step] at hstep
      split at hstep
      case h_2 => cases hstep
      case h_1 request hphase =>
        obtain rfl := Option.some.inj hstep
        have hwrite : Similar span state (state.write
            (.cooldown (setting.dataset call))
            (Slot.set 1 (state.clock + (setting.dataset call).cooldown))) :=
          similar_write span state fun _ _ hkey => by cases hkey
        refine .inl (Similar.quiet_command ?_ ?_ ?_ ?_)
        · exact ⟨hwrite.clock, hwrite.sends, hwrite.opened, hwrite.slots⟩
        · rfl
        · simp [Phase.held]
        · simp

theorem Tickets.step {setting : Setting Client Call} {span : Span}
    {state next : State Client Call} {action : Action Call}
    (htickets : Tickets span state)
    (hstep : step setting state action = some next) : Tickets span next := by
  rcases step_cases span hstep with hquiet | ⟨call, window, hdrawn⟩ |
    ⟨call, -, hsends⟩
  · exact htickets.quiet hquiet
  · exact htickets.drawn hdrawn
  · exact htickets.sends hsends

end Steps

end UTTG.SpaceTrack
