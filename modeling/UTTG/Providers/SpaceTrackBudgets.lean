import UTTG.Providers.SpaceTrackCooldowns

/-!
# The budgets of Space-Track

Within one counter the limits hold under any interleaving, and a query is not
repeated within the cooldown of one that its call has seen recorded.  What can
exceed the budgets are the counters of two windows together, and the queries
that a call did not see because they were under way, failed or not recorded.
-/

namespace UTTG.SpaceTrack

open UTTG.Transition UTTG.SlidingWindow

section Budgets

variable {Client Call : Type*}

/-- Fewer than 30 requests are sent in any minute and fewer than 300 in any
hour, and at most one SATCAT query in any day and one GP query for a number in
any hour. -/
structure BudgetsKept (state : State Client Call) : Prop where
  minute : ∀ since, within Sent.time (fun _ => true) 60 since state.sends < 30
  hour : ∀ since, within Sent.time (fun _ => true) 3600 since state.sends < 300
  satcat : ∀ since, within Sent.time (fun request =>
    request.query = some .satcat) 86400 since state.sends ≤ 1
  gp : ∀ noradId since, within Sent.time (fun request =>
    request.query = some (.gp noradId)) 3600 since state.sends ≤ 1

/-- The requests that are less than a span old. -/
def recentRequests (span : Span) (state : State Client Call) : List Sent :=
  recent Sent.time (fun _ => true) (span.length : ℚ) state.clock state.sends

/-- The queries of a dataset that are less than its cooldown old. -/
def recentQueries (dataset : Dataset) (state : State Client Call) : List Sent :=
  recent Sent.time (fun request => request.query = some dataset)
    (dataset.cooldown : ℚ) state.clock state.sends

/-- The requests less than a span old were counted by the counter of this
one. -/
def WindowKept (span : Span) (state : State Client Call) (draws : Draws) :
    Prop :=
  ∀ request ∈ recentRequests span state,
    (request.draws.of span).counter = (draws.of span).counter

/-- Each query of the dataset that is less than its cooldown old had been
recorded when the call checked. -/
def CooldownKept (setting : Setting Client Call) (state : State Client Call)
    (call : Call) : Prop :=
  ∀ request ∈ recentQueries (setting.dataset call) state,
    request ∈ state.seen call

/-- What the guard has let through. -/
def Phase.ready : Phase → Option (Target × Draws)
  | .cleared target draws => some (target, draws)
  | _ => none

def Action.sender : Action Call → Option Call
  | .send call => some call
  | _ => none

/-- A step that sends a request meets what the counters and the cooldowns do not
ensure. -/
def Kept (setting : Setting Client Call) (state : State Client Call)
    (action : Action Call) (_ : State Client Call) : Prop :=
  ∀ call ∈ action.sender, ∀ ready ∈ (state.phase call).ready,
    WindowKept .minute state ready.2 ∧ WindowKept .hour state ready.2 ∧
      (ready.1 = .query → setting.dataset call ≠ .decay →
        CooldownKept setting state call)

instance (span : Span) (state : State Client Call) (draws : Draws) :
    Decidable (WindowKept span state draws) :=
  inferInstanceAs (Decidable (∀ request ∈ recentRequests span state, _))

instance (setting : Setting Client Call) (state : State Client Call)
    (call : Call) : Decidable (CooldownKept setting state call) :=
  inferInstanceAs (Decidable (∀ request ∈ recentQueries _ state, _))

instance (setting : Setting Client Call) (state : State Client Call)
    (action : Action Call) (next : State Client Call) :
    Decidable (Kept setting state action next) :=
  inferInstanceAs (Decidable (∀ call ∈ action.sender,
    ∀ ready ∈ (state.phase call).ready, _ ∧ _ ∧ (_ → _ → _)))

theorem budgetsKept_iff (state : State Client Call) :
    BudgetsKept state ↔
      (∀ span : Span, AtMost Sent.time (fun _ => true) (span.length : ℚ)
        span.limit state.sends) ∧
      ∀ dataset ≠ Dataset.decay, AtMost Sent.time (fun request =>
        request.query = some dataset) (dataset.cooldown : ℚ) 1 state.sends := by
  constructor
  · rintro ⟨hminute, hhour, hsatcat, hgp⟩
    refine ⟨fun span since => ?_, fun dataset hdataset since => ?_⟩
    · cases span with
      | minute => exact Nat.le_of_lt_succ (hminute since)
      | hour => exact Nat.le_of_lt_succ (hhour since)
    · cases dataset with
      | gp noradId => exact hgp noradId since
      | satcat => exact hsatcat since
      | decay => exact absurd rfl hdataset
  · rintro ⟨hspans, hdatasets⟩
    exact ⟨fun since => Nat.lt_succ_of_le (hspans .minute since),
      fun since => Nat.lt_succ_of_le (hspans .hour since),
      fun since => hdatasets .satcat (by simp) since,
      fun noradId since => hdatasets (.gp noradId) (by simp) since⟩

/-- No query is in its cooldown that the call has seen recorded. -/
theorem CooldownKept.length_le {setting : Setting Client Call}
    {state : State Client Call} {call : Call} {target : Target} {draws : Draws}
    (hkept : CooldownKept setting state call)
    (hphase : state.phase call = .cleared target draws)
    (hcooldowns : Cooldowns setting state) :
    (recentQueries (setting.dataset call) state).length + 1 ≤ 1 := by
  have hseen := hcooldowns.seen call (by rw [hphase]; rfl)
  have hnone : recentQueries (setting.dataset call) state = [] := by
    rw [List.eq_nil_iff_forall_not_mem]
    intro request hrequest
    obtain ⟨-, hquery, hrecent⟩ := mem_recent.mp hrequest
    have hover := hseen request (hkept request hrequest)
      (of_decide_eq_true hquery)
    linarith
  rw [hnone]
  rfl

variable [DecidableEq Call]

/-- Requests that one counter counted, with the next one, keep its limit. -/
theorem WindowKept.length_le (setting : Setting Client Call) {span : Span}
    {state : State Client Call} {call : Call} {target : Target} {draws : Draws}
    (hkept : WindowKept span state draws)
    (hphase : state.phase call = .cleared target draws)
    (htickets : Tickets span state) :
    (recentRequests span state).length + 1 ≤ span.limit := by
  have hnext := htickets.sends (⟨target, draws, hphase, rfl⟩ :
    Sends setting state _ call)
  have hcounter : ∀ request ∈ recentRequests span state ++
      [requestOf setting state call target draws],
      (request.draws.of span).counter = (draws.of span).counter := by
    intro request hrequest
    rcases List.mem_append.mp hrequest with hrecent | hlast
    · exact hkept request hrecent
    · rw [List.mem_singleton.mp hlast]
      rfl
  have hlength := hnext.length_le
    (List.filter_sublist.append (List.Sublist.refl _)) hcounter
  rwa [List.length_append, List.length_singleton] at hlength

/-- A request whose counters and cooldown meet the condition keeps the
budgets. -/
theorem BudgetsKept.sends {setting : Setting Client Call}
    {state next : State Client Call} {call : Call}
    (htickets : ∀ span, Tickets span state)
    (hcooldowns : Cooldowns setting state) (hbudgets : BudgetsKept state)
    (hsends : Sends setting state next call)
    (hkept : Kept setting state (.send call) next) : BudgetsKept next := by
  obtain ⟨target, draws, hphase, rfl⟩ := hsends
  obtain ⟨hminute, hhour, hcooldown⟩ := hkept call rfl (target, draws) (by
    rw [hphase]
    rfl)
  rw [budgetsKept_iff] at hbudgets ⊢
  obtain ⟨hspans, hdatasets⟩ := hbudgets
  refine ⟨fun span => ?_, fun dataset hdecay => ?_⟩
  · have hwindow : WindowKept span state draws := by
      cases span with
      | minute => exact hminute
      | hour => exact hhour
    refine (atMost_concat_iff ?_ hcooldowns.past rfl (hspans span)).mpr
      (hwindow.length_le setting hphase (htickets span))
    cases span <;> norm_num [Span.length]
  · have hquery : (requestOf setting state call target draws).query =
        some dataset ↔ target = .query ∧ setting.dataset call = dataset := by
      simp [requestOf]
    by_cases hsame : target = .query ∧ setting.dataset call = dataset
    · obtain ⟨htarget, rfl⟩ := hsame
      refine (atMost_concat_iff ?_ hcooldowns.past ?_
        (hdatasets _ hdecay)).mpr ?_
      · cases setting.dataset call <;> norm_num [Dataset.cooldown]
      · exact decide_eq_true (hquery.mpr ⟨htarget, rfl⟩)
      · exact (hcooldown htarget hdecay).length_le hphase hcooldowns
    · exact (@atMost_concat_of_not_counted Sent ℚ _ _ Sent.time
        (fun request => request.query = some dataset) _ _
        (decide_eq_false (mt hquery.mp hsame)) _ _).mpr
          (hdatasets dataset hdecay)

variable [DecidableEq Client]

theorem sends_of_send {setting : Setting Client Call}
    {state next : State Client Call} {call : Call}
    (hstep : step setting state (.send call) = some next) :
    Sends setting state next call := by
  simp only [step] at hstep
  split at hstep
  case h_2 => cases hstep
  case h_1 target draws hphase =>
    exact ⟨target, draws, hphase, (Option.some.inj hstep).symm⟩

theorem sends_eq_of_step {setting : Setting Client Call}
    {state next : State Client Call} {action : Action Call}
    (hstep : step setting state action = some next)
    (hsend : ∀ call, action ≠ .send call) : next.sends = state.sends := by
  rcases step_cases .minute hstep with hquiet | ⟨call, window, hdrawn⟩ |
    ⟨call, haction, -⟩
  · exact hquiet.toSimilar.sends
  · exact hdrawn.sends
  · exact absurd haction (hsend call)

theorem invariants_of_init {setting : Setting Client Call}
    {state : State Client Call} (hinit : (system setting).Init state) :
    (∀ span, Tickets span state) ∧ Cooldowns setting state ∧
      BudgetsKept state := by
  obtain ⟨-, hidle, -, hrecorded, hsends⟩ := hinit
  refine ⟨fun span => ?_, ?_, ?_⟩
  · refine ⟨?_, ?_, ?_, ?_, ?_, ?_, ?_⟩ <;>
      simp [hidle, hsends, Phase.held]
  · refine ⟨?_, ?_, ?_, ?_, ?_⟩ <;>
      simp [hidle, hsends, hrecorded, Phase.underway, Phase.checked]
  · rw [budgetsKept_iff, hsends]
    exact ⟨fun _ => atMost_nil _, fun _ _ => atMost_nil _⟩

/-- In every interleaving the budgets are kept in every state, as long as each
request that is sent was counted by the counter of the recent ones, and each
query has seen those in its cooldown recorded. -/
theorem budgets_kept (setting : Setting Client Call)
    {start : State Client Call} (hinit : (system setting).Init start)
    {actions : List (Action Call)}
    (hsteps : (system setting).Steps (Kept setting) start actions) :
    (system setting).States BudgetsKept start actions := by
  refine System.States.of_invariant
    (fun state => (∀ span, Tickets span state) ∧ Cooldowns setting state ∧
      BudgetsKept state)
    (fun state hinv => hinv.2.2) ?_ (invariants_of_init hinit) hsteps
  rintro state action next ⟨htickets, hcooldowns, hbudgets⟩ hstep hkept
  refine ⟨fun span => (htickets span).step hstep, hcooldowns.step hstep, ?_⟩
  by_cases hsend : ∃ call, action = .send call
  · obtain ⟨call, rfl⟩ := hsend
    exact hbudgets.sends htickets hcooldowns (sends_of_send hstep) hkept
  · have hother : ∀ call, action ≠ .send call := fun call heq =>
      hsend ⟨call, heq⟩
    rw [budgetsKept_iff, sends_eq_of_step hstep hother, ← budgetsKept_iff]
    exact hbudgets

end Budgets

/-! ## Calls that overlap -/

/-- One client of an instance with credentials, and calls for these datasets. -/
def oneClient (dataset : Fin 32 → Dataset) : Setting Unit (Fin 32) where
  client _ := ()
  dataset := dataset
  configured := true

/-- An empty store at this time, before any call. -/
def quiet (clock : ℚ) : State Unit (Fin 32) where
  clock := clock
  store _ := none
  authenticated _ := false
  phase _ := .idle
  opened _ := 0
  recorded := []
  seen _ := []
  sends := []

theorem quiet_init (dataset : Fin 32 → Dataset) (clock : ℚ) :
    (system (oneClient dataset)).Init (quiet clock) :=
  ⟨fun _ => rfl, fun _ => rfl, fun _ => rfl, rfl, rfl⟩

/-- A request of a call through the guard; `created` tells which counters it
creates. -/
def guarded (call : Fin 32) (created : Bool) : List (Action (Fin 32)) :=
  [.readMinute call, .readHour call, .incr call .answered] ++
    (if created then [.expire call .answered] else []) ++
    [.incr call .answered] ++
    (if created then [.expire call .answered] else []) ++ [.send call]

/-- A first call, which logs in, and its reply. -/
def firstCall (call : Fin 32) : List (Action (Fin 32)) :=
  .check call .answered :: guarded call true ++ [.respond call true] ++
    guarded call false ++ [.respond call true, .record call .answered]

/-- A GP query, and one for another number half an hour later. -/
def twoNumbers : List (Action (Fin 32)) :=
  firstCall 0 ++ [.elapse 1800, .check 1 .answered] ++
    [.readMinute 1, .readHour 1, .incr 1 .answered, .expire 1 .answered,
      .incr 1 .answered, .send 1]

theorem two_numbers_kept :
    (system (oneClient fun call => .gp call.val)).States BudgetsKept (quiet 0)
      twoNumbers :=
  budgets_kept _ (quiet_init _ 0) (by decide +kernel)

/-- Two SATCAT calls that both check before either has its reply. -/
def bothCheck : List (Action (Fin 32)) :=
  [.check 0 .answered, .check 1 .answered] ++ guarded 0 true ++
    [.respond 0 true] ++ guarded 0 false ++ guarded 1 false

/-- A SATCAT query that is answered with an error, and the next one. -/
def failedQuery : List (Action (Fin 32)) :=
  .check 0 .answered :: guarded 0 true ++ [.respond 0 true] ++
    guarded 0 false ++ [.respond 0 false, .check 1 .answered] ++
    guarded 1 false

/-- A login and 28 queries at the end of a minute, and one query after it. -/
def acrossMinute : List (Action (Fin 32)) :=
  firstCall 0 ++ ((List.finRange 32).drop 1 |>.take 27).flatMap (fun call =>
    .check call .answered :: guarded call false) ++
    [.elapse 2, .check 28 .answered] ++
    [.readMinute 28, .readHour 28, .incr 28 .answered, .expire 28 .answered,
      .incr 28 .answered, .send 28]

/-- Overlapping or failed SATCAT queries are repeated within a day, and 30
requests are sent within two seconds. -/
theorem budgets_exceeded :
    (∃ final ∈ (system (oneClient fun _ => .satcat)).run (quiet 0) bothCheck,
      ¬BudgetsKept final) ∧
    (∃ final ∈ (system (oneClient fun _ => .satcat)).run (quiet 0) failedQuery,
      ¬BudgetsKept final) ∧
    ∃ final ∈ (system (oneClient fun call => .gp call.val)).run (quiet 59)
        acrossMinute, ¬BudgetsKept final := by
  have hexceeded : ∀ (setting : Setting Unit (Fin 32)) (clock since : ℚ)
      (actions : List (Action (Fin 32))),
      (((system setting).run (quiet clock) actions).any fun final =>
        decide (1 < within Sent.time (fun request =>
          request.query = some .satcat) 86400 since final.sends) ||
        decide (29 < within Sent.time (fun _ => true) 60 since final.sends)) =
          true →
      ∃ final ∈ (system setting).run (quiet clock) actions,
        ¬BudgetsKept final := by
    intro setting clock since actions hany
    obtain ⟨final, hfinal, hcount⟩ := (Option.any_eq_true _ _).mp hany
    refine ⟨final, hfinal, fun hkept => ?_⟩
    rw [Bool.or_eq_true, decide_eq_true_eq, decide_eq_true_eq] at hcount
    have hsatcat := hkept.satcat since
    have hminute := hkept.minute since
    omega
  exact ⟨hexceeded _ 0 0 bothCheck (by decide +kernel),
    hexceeded _ 0 0 failedQuery (by decide +kernel),
    hexceeded _ 59 59 acrossMinute (by decide +kernel)⟩

end UTTG.SpaceTrack
