import UTTG.Limits.RateLimiter

/-!
# What the limiter admits

The minute of a request is part of its key, while the counter expires a minute
after its first request.  A counter therefore lives at least as long as its
minute, and each minute starts from an absent counter.
-/

namespace UTTG.Limits

open UTTG.Expiring UTTG.Transition

variable {Request : Type*}

/-- The script let the request pass. -/
def Execution.granted (execution : Execution Request) : Bool :=
  decide (0 ≤ execution.remaining)

/-- The executions for an account and a minute, oldest first. -/
def executionsOf (account : Request → Account)
    (log : List (Execution Request)) (whose : Account) (window : ℤ) :
    List (Execution Request) :=
  log.filter fun execution =>
    account execution.request = whose ∧ execution.window = window

/-- The minute in the key of a request whose script has not run. -/
def Phase.minute : Phase → Option ℤ
  | .keyed window => some window
  | _ => none

/-- A script runs within the minute that its key names. -/
def Prompt (state : State Request) : Action Request → Prop
  | .evaluate request _ =>
      ∀ window ∈ (state.phase request).minute, windowOf state.clock = window
  | _ => True

instance (state : State Request) (action : Action Request) :
    Decidable (Prompt state action) :=
  match action with
  | .evaluate request _ => inferInstanceAs (Decidable
      (∀ window ∈ (state.phase request).minute, windowOf state.clock = window))
  | .elapse _ | .arrive _ | .respond _ => isTrue trivial

/-- A script of one account runs within one minute if its key names it. -/
def PromptIn (account : Request → Account) (whose : Account) (window : ℤ)
    (state : State Request) : Action Request → Prop
  | .evaluate request _ => account request = whose →
      (state.phase request).minute = some window →
        windowOf state.clock = window
  | _ => True

theorem Prompt.promptIn {state : State Request} {action : Action Request}
    (hprompt : Prompt state action) (account : Request → Account)
    (whose : Account) (window : ℤ) :
    PromptIn account whose window state action := by
  cases action with
  | evaluate request reply => exact fun _ hminute => hprompt window hminute
  | _ => trivial

/-- The replies to the executions of one minute. -/
def replies (quota count : ℕ) : List ℤ :=
  (List.range count).map fun index =>
    if index < quota then (quota : ℤ) - 1 - index else -1

/-- The counter of an account and a minute counts the executions, which had the
replies that they should have, and expires a minute after the first of them. -/
structure Counted (account : Request → Account) (whose : Account) (window : ℤ)
    (state : State Request) : Prop where
  counter : state.counters (whose.key window) =
    (executionsOf account state.log whose window).head?.map fun first =>
      ⟨(executionsOf account state.log whose window).length,
        some (first.time + windowSeconds)⟩
  replied : (executionsOf account state.log whose window).map
      Execution.remaining =
    replies whose.quota (executionsOf account state.log whose window).length
  placed : ∀ execution ∈ executionsOf account state.log whose window,
    windowOf execution.time = window

/-! ## Minutes -/

theorem windowOf_eq_iff (clock : ℚ) (window : ℤ) :
    windowOf clock = window ↔
      (window : ℚ) * windowSeconds ≤ clock ∧
        clock < (window + 1 : ℚ) * windowSeconds := by
  have hpositive : (0 : ℚ) < windowSeconds := by norm_num [windowSeconds]
  rw [windowOf, Int.floor_eq_iff, le_div_iff₀ hpositive,
    div_lt_iff₀ hpositive]

/-- A minute ends before a minute has passed since any of its instants. -/
theorem lt_of_windowOf_eq {first now : ℚ}
    (hsame : windowOf first = windowOf now) : now < first + windowSeconds := by
  have hfirst := (windowOf_eq_iff first _).mp hsame
  have hnow := (windowOf_eq_iff now _).mp rfl
  linarith [hfirst.1, hnow.2]

/-- An interval of sixty seconds meets two minutes at most. -/
theorem windowOf_of_interval {since time : ℚ} (hsince : since ≤ time)
    (htime : time ≤ since + windowSeconds) :
    windowOf time = windowOf since ∨ windowOf time = windowOf since + 1 := by
  have hsinceWindow := (windowOf_eq_iff since _).mp rfl
  have htimeWindow := (windowOf_eq_iff time _).mp rfl
  have hpositive : (0 : ℚ) < windowSeconds := by norm_num [windowSeconds]
  have hlower : (windowOf since : ℚ) < windowOf time + 1 := by
    nlinarith [hsinceWindow.1, htimeWindow.2]
  have hupper : (windowOf time : ℚ) < windowOf since + 2 := by
    nlinarith [hsinceWindow.2, htimeWindow.1]
  have hlower' : windowOf since < windowOf time + 1 := by exact_mod_cast hlower
  have hupper' : windowOf time < windowOf since + 2 := by exact_mod_cast hupper
  omega

/-! ## The script -/

theorem executionsOf_append (account : Request → Account)
    (log : List (Execution Request)) (execution : Execution Request)
    (whose : Account) (window : ℤ) :
    executionsOf account (log ++ [execution]) whose window =
      if account execution.request = whose ∧ execution.window = window then
        executionsOf account log whose window ++ [execution]
      else executionsOf account log whose window := by
  rw [executionsOf, List.filter_append]
  split
  · next hsame => simp [hsame, executionsOf]
  · next hother => simp [hother, executionsOf]

theorem mem_executionsOf {account : Request → Account}
    {log : List (Execution Request)} {whose : Account} {window : ℤ}
    {execution : Execution Request} :
    execution ∈ executionsOf account log whose window ↔
      execution ∈ log ∧ account execution.request = whose ∧
        execution.window = window := by
  simp [executionsOf]

/-- The reply of a script that runs within the minute of its key, and the
counter that it leaves. -/
theorem Counted.script {account : Request → Account} {state : State Request}
    {whose : Account} {window : ℤ}
    (hcounted : Counted account whose window state)
    (hprompt : windowOf state.clock = window)
    {own : List (Execution Request)}
    (hown : executionsOf account state.log whose window = own) :
    luaFixedWindow state.clock whose.quota windowSeconds
        (state.counters (whose.key window)) =
      ((if own.length < whose.quota then (whose.quota : ℤ) - 1 - own.length
          else -1, whose.quota),
        some ⟨own.length + 1,
          some ((own.head?.elim state.clock Execution.time) +
            windowSeconds)⟩) := by
  rw [hcounted.counter, hown]
  cases own with
  | nil =>
      simp only [List.head?_nil, Option.map_none, luaFixedWindow,
        FixedWindow.record_none]
      by_cases hquota : whose.quota < 1
      · simp [hquota]
        omega
      · simp [hquota]
  | cons first rest =>
      have hfirst : windowOf first.time = windowOf state.clock := by
        rw [hcounted.placed first (hown ▸ List.mem_cons_self), hprompt]
      have hlive := lt_of_windowOf_eq hfirst
      simp only [List.head?_cons, Option.map_some, luaFixedWindow,
        FixedWindow.record_live _ hlive (Nat.succ_ne_zero rest.length),
        List.length_cons]
      by_cases hquota : whose.quota < rest.length + 1 + 1
      · simp [hquota]
        omega
      · simp [hquota]
        omega

/-! ## Steps -/

section Steps

variable [DecidableEq Request] {account : Request → Account}
  {state next : State Request} {action : Action Request}

/-- The log and the counters change by an execution of the script only. -/
theorem log_of_step (hstep : step account state action = some next) :
    (next.log = state.log ∧ next.counters = state.counters) ∨
      ∃ request reply window, action = .evaluate request reply ∧
        state.phase request = .keyed window ∧
        next.log = (state.runScript request (account request) window).2.log ∧
        next.counters =
          (state.runScript request (account request) window).2.counters := by
  cases action with
  | elapse duration =>
      simp only [step] at hstep
      split at hstep
      · obtain rfl := Option.some.inj hstep
        exact .inl ⟨rfl, rfl⟩
      · simp at hstep
  | arrive request =>
      simp only [step] at hstep
      split at hstep
      · obtain rfl := Option.some.inj hstep
        exact .inl ⟨rfl, rfl⟩
      · simp at hstep
  | evaluate request reply =>
      simp only [step] at hstep
      split at hstep
      case h_1 window hphase =>
        cases reply with
        | answered | lost =>
            obtain rfl := Option.some.inj hstep
            exact .inr ⟨request, _, window, rfl, hphase, rfl, rfl⟩
        | refused =>
            obtain rfl := Option.some.inj hstep
            exact .inl ⟨rfl, rfl⟩
      case h_2 => simp at hstep
  | respond request =>
      simp only [step] at hstep
      split at hstep
      · obtain rfl := Option.some.inj hstep
        exact .inl ⟨rfl, rfl⟩
      · simp at hstep

omit [DecidableEq Request] in
theorem replies_succ (quota count : ℕ) :
    replies quota (count + 1) = replies quota count ++
      [if count < quota then (quota : ℤ) - 1 - count else -1] := by
  rw [replies, replies, List.range_succ, List.map_append, List.map_singleton]

theorem Counted.step {whose : Account} {minute : ℤ}
    (hcounted : Counted account whose minute state)
    (hstep : Limits.step account state action = some next)
    (hprompt : PromptIn account whose minute state action) :
    Counted account whose minute next := by
  rcases log_of_step hstep with
    ⟨hlog, hcounters⟩ | ⟨request, reply, window, rfl, hphase, hlog, hcounters⟩
  · exact ⟨by rw [hcounters, hlog, hcounted.counter],
      by rw [hlog, hcounted.replied], by rw [hlog]; exact hcounted.placed⟩
  simp only [State.runScript] at hlog hcounters
  by_cases hsame : account request = whose ∧ window = minute
  · obtain ⟨rfl, rfl⟩ := hsame
    have hnow : windowOf state.clock = window :=
      hprompt rfl (by rw [hphase]; rfl)
    have hscript := hcounted.script hnow
      (rfl : executionsOf account state.log (account request) window = _)
    simp only [hscript] at hlog hcounters
    have hown := congrArg (fun log =>
      executionsOf account log (account request) window) hlog
    simp only [executionsOf_append, and_self, if_true] at hown
    refine ⟨?_, ?_, fun execution hmem => ?_⟩
    · rw [hcounters, hown, Function.update_self]
      cases executionsOf account state.log (account request) window with
      | nil => rfl
      | cons first rest => simp
    · rw [hown, List.map_append, List.length_append, List.length_singleton,
        replies_succ, hcounted.replied]
      rfl
    · rw [hown] at hmem
      rcases List.mem_append.mp hmem with hold | hnew
      · exact hcounted.placed execution hold
      · rw [List.mem_singleton.mp hnew]
        exact hnow
  · -- the script is one of another account or minute
    have hown : executionsOf account next.log whose minute =
        executionsOf account state.log whose minute := by
      rw [hlog, executionsOf_append, if_neg hsame]
    have hkey : next.counters (whose.key minute) =
        state.counters (whose.key minute) := by
      rw [hcounters, Function.update_of_ne]
      intro hkey
      obtain ⟨hwhose, hminute⟩ := key_injective hkey
      exact hsame ⟨hwhose.symm, hminute.symm⟩
    exact ⟨by rw [hkey, hown, hcounted.counter],
      by rw [hown, hcounted.replied], by rw [hown]; exact hcounted.placed⟩

end Steps

/-! ## Replies of one minute -/

theorem Counted.remaining {account : Request → Account} {state : State Request}
    {whose : Account} {window : ℤ}
    (hcounted : Counted account whose window state) {index : ℕ}
    (hindex : index < (executionsOf account state.log whose window).length) :
    ((executionsOf account state.log whose window)[index]).remaining =
      if index < whose.quota then (whose.quota : ℤ) - 1 - index else -1 := by
  have hreplied := hcounted.replied
  have hget := congrArg (fun replied => replied[index]?) hreplied
  simpa [replies, hindex] using hget

/-- The requests that pass are the first ones, as many as the quota. -/
theorem Counted.granted_eq_take {account : Request → Account}
    {state : State Request} {whose : Account} {window : ℤ}
    (hcounted : Counted account whose window state) :
    (executionsOf account state.log whose window).filter Execution.granted =
      (executionsOf account state.log whose window).take whose.quota := by
  have hremaining := @Counted.remaining _ _ _ _ _ hcounted
  generalize executionsOf account state.log whose window = own at hremaining
  have hfirst : (own.take whose.quota).filter Execution.granted =
      own.take whose.quota := by
    rw [List.filter_eq_self]
    intro execution hmem
    obtain ⟨index, hindex, rfl⟩ := List.mem_take_iff_getElem.mp hmem
    rw [Execution.granted, hremaining (by omega), if_pos (by omega),
      decide_eq_true_eq]
    omega
  have hlater : (own.drop whose.quota).filter Execution.granted = [] := by
    rw [List.filter_eq_nil_iff]
    intro execution hmem
    obtain ⟨index, hindex, rfl⟩ := List.mem_drop_iff_getElem.mp hmem
    rw [Execution.granted, hremaining (by omega), if_neg (by omega)]
    decide
  calc own.filter Execution.granted
      = (own.take whose.quota ++ own.drop whose.quota).filter
          Execution.granted := by rw [List.take_append_drop]
    _ = own.take whose.quota := by
        rw [List.filter_append, hfirst, hlater, List.append_nil]

theorem Counted.length_granted {account : Request → Account}
    {state : State Request} {whose : Account} {window : ℤ}
    (hcounted : Counted account whose window state) :
    ((executionsOf account state.log whose window).filter
        Execution.granted).length =
      min whose.quota (executionsOf account state.log whose window).length := by
  rw [hcounted.granted_eq_take, List.length_take]

/-- What the admitted requests of a minute are told remains. -/
theorem Counted.map_remaining {account : Request → Account}
    {state : State Request} {whose : Account} {window : ℤ}
    (hcounted : Counted account whose window state) :
    ((executionsOf account state.log whose window).filter
        Execution.granted).map Execution.remaining =
      (List.range (min whose.quota
        (executionsOf account state.log whose window).length)).map
          fun index : ℕ => (whose.quota : ℤ) - 1 - index := by
  rw [hcounted.granted_eq_take, List.map_take, hcounted.replied, replies,
    ← List.map_take, List.take_range]
  apply List.map_congr_left
  intro index hindex
  have hbound := List.mem_range.mp hindex
  rw [if_pos (hbound.trans_le (min_le_left _ _))]

/-! ## Any sixty seconds -/

/-- Elements with a property that implies one of two others. -/
theorem countP_le_add {Element : Type*} {selected first second : Element → Bool}
    {elements : List Element}
    (himplies : ∀ element ∈ elements, selected element = true →
      first element = true ∨ second element = true) :
    elements.countP selected ≤
      elements.countP first + elements.countP second := by
  induction elements with
  | nil => exact le_rfl
  | cons element rest ih =>
      have hrest := ih fun other hother =>
        himplies other (List.mem_cons_of_mem element hother)
      have helement := himplies element List.mem_cons_self
      simp only [List.countP_cons]
      by_cases hselected : selected element = true
      · rcases helement hselected with hfirst | hsecond
        · simp only [hselected, hfirst, if_true]
          split
          · omega
          · omega
        · simp only [hselected, hsecond, if_true]
          split
          · omega
          · omega
      · rw [if_neg hselected]
        omega

/-- The executions for an account that let a request pass in the sixty seconds
from an instant on. -/
def grantedSince (account : Request → Account) (whose : Account) (since : ℚ)
    (execution : Execution Request) : Bool :=
  account execution.request = whose ∧ execution.granted ∧
    since ≤ execution.time ∧ execution.time ≤ since + windowSeconds

theorem Counted.interval {account : Request → Account} {state : State Request}
    {whose : Account}
    (hcounted : ∀ window, Counted account whose window state) (since : ℚ) :
    state.log.countP (grantedSince account whose since) ≤ 2 * whose.quota := by
  have hwindow : ∀ window, state.log.countP (fun execution =>
      execution.granted && decide (account execution.request = whose ∧
        execution.window = window)) ≤ whose.quota := by
    intro window
    have hlength := (hcounted window).length_granted
    rw [executionsOf, List.filter_filter, ← List.countP_eq_length_filter]
      at hlength
    exact hlength.trans_le (min_le_left _ _)
  have himplies : ∀ execution ∈ state.log,
      grantedSince account whose since execution = true →
        (execution.granted && decide (account execution.request = whose ∧
          execution.window = windowOf since)) = true ∨
        (execution.granted && decide (account execution.request = whose ∧
          execution.window = windowOf since + 1)) = true := by
    intro execution hmem hselected
    simp only [grantedSince, decide_eq_true_eq] at hselected
    obtain ⟨hwhose, hgranted, hsince, htime⟩ := hselected
    have hplaced := (hcounted execution.window).placed execution
      (mem_executionsOf.mpr ⟨hmem, hwhose, rfl⟩)
    rw [hgranted, ← hplaced]
    rcases windowOf_of_interval hsince htime with hsame | hnext
    · exact .inl (by simp [hwhose, hsame])
    · exact .inr (by simp [hwhose, hnext])
  have hsplit := countP_le_add himplies
  have hfirst := hwindow (windowOf since)
  have hsecond := hwindow (windowOf since + 1)
  omega

/-! ## The counter of a minute -/

/-- While the minute lasts, its counter is there and has counted all its
requests. -/
theorem Counted.live {account : Request → Account} {state : State Request}
    {whose : Account}
    (hcounted : Counted account whose (windowOf state.clock) state)
    (hsome : executionsOf account state.log whose (windowOf state.clock) ≠
      []) :
    (state.counters (whose.key (windowOf state.clock))).get state.clock =
      some (executionsOf account state.log whose
        (windowOf state.clock)).length := by
  rw [hcounted.counter]
  cases hown : executionsOf account state.log whose
      (windowOf state.clock) with
  | nil => exact absurd hown hsome
  | cons first rest =>
      have hlive := lt_of_windowOf_eq
        (hcounted.placed first (hown ▸ List.mem_cons_self))
      rw [List.head?_cons, Option.map_some, Slot.get_some,
        if_neg (not_le.mpr hlive)]

/-! ## What requests are told -/

/-- What a phase says of the executions of its request. -/
def Phase.Told (account : Request → Account) (log : List (Execution Request))
    (request : Request) : Phase → Prop
  | .counted remaining limit =>
      limit = (account request).quota ∧ ∃ execution ∈ log,
        execution.request = request ∧ execution.remaining = remaining
  | .ended (.admitted rate) =>
      rate.limit = (account request).quota ∧ ∃ execution ∈ log,
        execution.request = request ∧ execution.granted = true ∧
          execution.remaining = rate.remaining
  | .ended (.refused rate error) =>
      rate.limit = (account request).quota ∧ rate.remaining = 0 ∧
        error.statusCode = 429 ∧ ∃ execution ∈ log,
          execution.request = request ∧ execution.granted = false
  | _ => True

/-- The script has not run for the request. -/
def Phase.uncounted : Phase → Bool
  | .idle | .keyed _ => true
  | .counted _ _ | .ended _ => false

/-- Each request runs one script, and answers what it replied. -/
structure Answered (account : Request → Account) (state : State Request) :
    Prop where
  told : ∀ request, (state.phase request).Told account state.log request
  once : (state.log.map Execution.request).Nodup
  past : ∀ execution ∈ state.log,
    (state.phase execution.request).uncounted = false

section Answers

variable {account : Request → Account} {state : State Request}

theorem Phase.Told.mono {log more : List (Execution Request)}
    {request : Request} {phase : Phase}
    (htold : phase.Told account log request) (hmore : log ⊆ more) :
    phase.Told account more request := by
  cases phase with
  | idle => trivial
  | keyed window => trivial
  | counted remaining limit =>
      obtain ⟨hlimit, execution, hmem, hrest⟩ := htold
      exact ⟨hlimit, execution, hmore hmem, hrest⟩
  | ended outcome =>
      cases outcome with
      | admitted rate =>
          obtain ⟨hlimit, execution, hmem, hrest⟩ := htold
          exact ⟨hlimit, execution, hmore hmem, hrest⟩
      | refused rate error =>
          obtain ⟨hlimit, hzero, herror, execution, hmem, hrest⟩ := htold
          exact ⟨hlimit, hzero, herror, execution, hmore hmem, hrest⟩
      | unavailable error => trivial

theorem told_outcomeOf {clock : ℚ} {log : List (Execution Request)}
    {request : Request} {remaining : ℤ} {limit : ℕ}
    (htold : (Phase.counted remaining limit).Told account log request) :
    (Phase.ended (outcomeOf clock remaining limit)).Told account log
      request := by
  obtain ⟨rfl, execution, hmem, hrequest, hremaining⟩ := htold
  unfold outcomeOf
  by_cases hnegative : remaining < 0
  · have hzero : max remaining 0 = 0 := max_eq_right hnegative.le
    have hgranted : execution.granted = false := by
      rw [Execution.granted, hremaining, decide_eq_false_iff_not, not_le]
      exact hnegative
    simp only [if_pos hnegative]
    exact ⟨rfl, hzero, rfl, execution, hmem, hrequest, hgranted⟩
  · have hkept : max remaining 0 = remaining :=
      max_eq_left (not_lt.mp hnegative)
    have hgranted : execution.granted = true := by
      rw [Execution.granted, hremaining, decide_eq_true_eq]
      exact not_lt.mp hnegative
    simp only [if_neg hnegative]
    exact ⟨rfl, execution, hmem, hrequest, hgranted, hremaining.trans hkept.symm⟩

variable [DecidableEq Request]

/-- A request goes on without a script. -/
theorem Answered.goto (hanswered : Answered account state) {request : Request}
    {phase : Phase} (htold : phase.Told account state.log request)
    (hpast : (state.phase request).uncounted = true ∨
      phase.uncounted = false) :
    Answered account (state.goto request phase) := by
  refine ⟨fun other => ?_, hanswered.once, fun execution hmem => ?_⟩
  · by_cases hother : other = request
    · subst hother
      simpa [State.goto] using htold
    · simpa [State.goto, hother] using hanswered.told other
  · have hexecuted := hanswered.past execution hmem
    by_cases hother : execution.request = request
    · rw [hother] at hexecuted
      rcases hpast with hbefore | hafter
      · rw [hbefore] at hexecuted
        exact absurd hexecuted (by simp)
      · simpa [State.goto, hother] using hafter
    · simpa [State.goto, hother] using hexecuted

/-- A request runs its script, and moves on. -/
theorem Answered.runScript (hanswered : Answered account state)
    {request : Request} {window : ℤ}
    (hphase : state.phase request = .keyed window) {phase : Phase}
    (htold : phase.Told account
      (state.runScript request (account request) window).2.log request)
    (hphased : phase.uncounted = false) :
    Answered account
      ((state.runScript request (account request) window).2.goto request
        phase) := by
  have hnew : ∀ execution ∈ state.log, execution.request ≠ request := by
    rintro execution hmem rfl
    have hpast := hanswered.past execution hmem
    rw [hphase] at hpast
    exact absurd hpast (by simp [Phase.uncounted])
  refine ⟨fun other => ?_, ?_, fun execution hmem => ?_⟩
  · by_cases hother : other = request
    · subst hother
      simpa [State.goto] using htold
    · have hmore : state.log ⊆
          (state.runScript request (account request) window).2.log :=
        List.subset_append_left state.log _
      have hbefore := (hanswered.told other).mono hmore
      simpa [State.goto, State.runScript, hother] using hbefore
  · change (List.map Execution.request (state.log ++ _)).Nodup
    rw [List.map_append, List.map_singleton]
    refine hanswered.once.append (List.nodup_singleton _) ?_
    intro other hother hsame
    obtain ⟨execution, hmem, rfl⟩ := List.mem_map.mp hother
    exact hnew execution hmem (List.mem_singleton.mp hsame)
  · rcases List.mem_append.mp hmem with hold | hadded
    · have hpast := hanswered.past execution hold
      simpa [State.goto, State.runScript, hnew execution hold] using hpast
    · rw [List.mem_singleton.mp hadded]
      simpa [State.goto] using hphased

theorem Answered.step {next : State Request} {action : Action Request}
    (hanswered : Answered account state)
    (hstep : Limits.step account state action = some next) :
    Answered account next := by
  cases action with
  | elapse duration =>
      simp only [Limits.step] at hstep
      split at hstep
      · obtain rfl := Option.some.inj hstep
        exact ⟨hanswered.told, hanswered.once, hanswered.past⟩
      · simp at hstep
  | arrive request =>
      simp only [Limits.step] at hstep
      split at hstep
      case h_1 hphase =>
        obtain rfl := Option.some.inj hstep
        exact hanswered.goto trivial (.inl (by rw [hphase]; rfl))
      case h_2 => simp at hstep
  | evaluate request reply =>
      simp only [Limits.step] at hstep
      split at hstep
      case h_1 window hphase =>
        cases reply with
        | answered =>
            obtain rfl := Option.some.inj hstep
            refine hanswered.runScript hphase ⟨?_, ?_⟩ rfl
            · simp only [State.runScript, luaFixedWindow]
              split
              · rfl
              · rfl
            · exact ⟨_, List.mem_append_right _ (List.mem_singleton_self _),
                rfl, rfl⟩
        | lost =>
            obtain rfl := Option.some.inj hstep
            exact hanswered.runScript hphase trivial rfl
        | refused =>
            obtain rfl := Option.some.inj hstep
            exact hanswered.goto trivial (.inr rfl)
      case h_2 => simp at hstep
  | respond request =>
      simp only [Limits.step] at hstep
      split at hstep
      case h_1 remaining limit hphase =>
        obtain rfl := Option.some.inj hstep
        have htold := hanswered.told request
        rw [hphase] at htold
        exact hanswered.goto (told_outcomeOf htold) (.inr rfl)
      case h_2 => simp at hstep

end Answers

/-! ## Other accounts -/

section Others

variable [DecidableEq Request] {account : Request → Account}

/-- An action that a client and class are concerned by: one of their requests,
or the time. -/
def Action.concerns (account : Request → Account) (whose : Account) :
    Action Request → Bool
  | .elapse _ => true
  | .arrive request | .evaluate request _ | .respond request =>
      account request = whose

/-- Two states that look the same to an account. -/
structure Agree (account : Request → Account) (whose : Account)
    (left right : State Request) : Prop where
  clock : left.clock = right.clock
  counters : ∀ window,
    left.counters (whose.key window) = right.counters (whose.key window)
  phase : ∀ request, account request = whose →
    left.phase request = right.phase request
  log : left.log.filter (fun execution => account execution.request = whose) =
    right.log.filter fun execution => account execution.request = whose

omit [DecidableEq Request] in
theorem Agree.refl (whose : Account) (state : State Request) :
    Agree account whose state state :=
  ⟨rfl, fun _ => rfl, fun _ _ => rfl, rfl⟩

omit [DecidableEq Request] in
theorem Agree.symm {whose : Account} {left right : State Request}
    (hagree : Agree account whose left right) :
    Agree account whose right left :=
  ⟨hagree.clock.symm, fun window => (hagree.counters window).symm,
    fun request hown => (hagree.phase request hown).symm, hagree.log.symm⟩

theorem Agree.goto {whose : Account} {left right : State Request}
    (hagree : Agree account whose left right) (request : Request)
    (phase : Phase) :
    Agree account whose (left.goto request phase)
      (right.goto request phase) := by
  refine ⟨hagree.clock, hagree.counters, fun other hother => ?_, hagree.log⟩
  simp only [State.goto, Function.update_apply, hagree.phase other hother]

/-- A request of another account moves. -/
theorem Agree.goto_left {whose : Account} {left right : State Request}
    (hagree : Agree account whose left right) {request : Request}
    (hother : account request ≠ whose) (phase : Phase) :
    Agree account whose (left.goto request phase) right := by
  refine ⟨hagree.clock, hagree.counters, fun own hown => ?_, hagree.log⟩
  have hne : own ≠ request := by
    rintro rfl
    exact hother hown
  simpa [State.goto, hne] using hagree.phase own hown

omit [DecidableEq Request] in
theorem Agree.runScript {whose : Account} {left right : State Request}
    (hagree : Agree account whose left right) {request : Request}
    (hown : account request = whose) (window : ℤ) :
    (left.runScript request (account request) window).1 =
        (right.runScript request (account request) window).1 ∧
      Agree account whose
        (left.runScript request (account request) window).2
        (right.runScript request (account request) window).2 := by
  subst hown
  simp only [State.runScript, hagree.clock, hagree.counters]
  refine ⟨trivial, rfl, fun other => ?_, hagree.phase, ?_⟩
  · simp only [Function.update_apply, hagree.counters other]
  · simp only [List.filter_append, hagree.log]

omit [DecidableEq Request] in
/-- A script that runs for another account. -/
theorem Agree.runScript_left {whose : Account} {left right : State Request}
    (hagree : Agree account whose left right) {request : Request}
    (hother : account request ≠ whose) (window : ℤ) :
    Agree account whose
      (left.runScript request (account request) window).2 right := by
  refine ⟨hagree.clock, fun minute => ?_, hagree.phase, ?_⟩
  · have hkey : whose.key minute ≠ (account request).key window := by
      intro heq
      exact hother (key_injective heq).1.symm
    simpa [State.runScript, hkey] using hagree.counters minute
  · simpa [State.runScript, List.filter_append, hother] using hagree.log

/-- A step of the account, or of time, is matched. -/
theorem Agree.step {whose : Account} {left right next : State Request}
    {action : Action Request} (hown : action.concerns account whose = true)
    (hagree : Agree account whose left right)
    (hstep : Limits.step account left action = some next) :
    ∃ other, Limits.step account right action = some other ∧
      Agree account whose next other := by
  cases action with
  | elapse duration =>
      simp only [Limits.step] at hstep ⊢
      split at hstep
      case isTrue hduration =>
        obtain rfl := Option.some.inj hstep
        refine ⟨_, if_pos hduration, ?_⟩
        exact ⟨congrArg (· + duration) hagree.clock, hagree.counters,
          hagree.phase, hagree.log⟩
      case isFalse => simp at hstep
  | arrive request =>
      have hrequest : account request = whose := by
        simpa [Action.concerns] using hown
      simp only [Limits.step, ← hagree.phase request hrequest] at hstep ⊢
      split at hstep
      case h_1 =>
        obtain rfl := Option.some.inj hstep
        rw [← hagree.clock]
        exact ⟨_, rfl, hagree.goto request _⟩
      case h_2 => simp at hstep
  | evaluate request reply =>
      have hrequest : account request = whose := by
        simpa [Action.concerns] using hown
      simp only [Limits.step, ← hagree.phase request hrequest] at hstep ⊢
      split at hstep
      case h_1 window hphase =>
        obtain ⟨hreply, hran⟩ := hagree.runScript hrequest window
        cases reply with
        | answered =>
            obtain rfl := Option.some.inj hstep
            rw [hreply]
            exact ⟨_, rfl, hran.goto request _⟩
        | lost =>
            obtain rfl := Option.some.inj hstep
            exact ⟨_, rfl, hran.goto request _⟩
        | refused =>
            obtain rfl := Option.some.inj hstep
            exact ⟨_, rfl, hagree.goto request _⟩
      case h_2 => simp at hstep
  | respond request =>
      have hrequest : account request = whose := by
        simpa [Action.concerns] using hown
      simp only [Limits.step, ← hagree.phase request hrequest] at hstep ⊢
      split at hstep
      case h_1 remaining limit hphase =>
        obtain rfl := Option.some.inj hstep
        rw [← hagree.clock]
        exact ⟨_, rfl, hagree.goto request _⟩
      case h_2 => simp at hstep

/-- A step of another account is not seen. -/
theorem Agree.step_left {whose : Account} {left right next : State Request}
    {action : Action Request} (hother : action.concerns account whose = false)
    (hagree : Agree account whose left right)
    (hstep : Limits.step account left action = some next) :
    Agree account whose next right := by
  cases action with
  | elapse duration => simp [Action.concerns] at hother
  | arrive request =>
      have hrequest : account request ≠ whose := by
        simpa [Action.concerns] using hother
      simp only [Limits.step] at hstep
      split at hstep
      case h_1 =>
        obtain rfl := Option.some.inj hstep
        exact hagree.goto_left hrequest _
      case h_2 => simp at hstep
  | evaluate request reply =>
      have hrequest : account request ≠ whose := by
        simpa [Action.concerns] using hother
      simp only [Limits.step] at hstep
      split at hstep
      case h_1 window hphase =>
        have hran := hagree.runScript_left hrequest window
        cases reply with
        | answered | lost =>
            obtain rfl := Option.some.inj hstep
            exact hran.goto_left hrequest _
        | refused =>
            obtain rfl := Option.some.inj hstep
            exact hagree.goto_left hrequest _
      case h_2 => simp at hstep
  | respond request =>
      have hrequest : account request ≠ whose := by
        simpa [Action.concerns] using hother
      simp only [Limits.step] at hstep
      split at hstep
      case h_1 =>
        obtain rfl := Option.some.inj hstep
        exact hagree.goto_left hrequest _
      case h_2 => simp at hstep

end Others

/-! ## Every run -/

theorem counted_of_init [DecidableEq Request] {account : Request → Account}
    {state : State Request} (hinit : (system account).Init state)
    (whose : Account) (window : ℤ) : Counted account whose window state := by
  obtain ⟨hcounters, -, hlog⟩ := hinit
  refine ⟨?_, ?_, ?_⟩
  · rw [hcounters, hlog]
    rfl
  · rw [hlog]
    rfl
  · simp [hlog, executionsOf]

theorem answered_of_init [DecidableEq Request] {account : Request → Account}
    {state : State Request} (hinit : (system account).Init state) :
    Answered account state := by
  obtain ⟨-, hidle, hlog⟩ := hinit
  refine ⟨fun request => ?_, by simp [hlog], by simp [hlog]⟩
  rw [hidle request]
  trivial

/-- Two requests of one client and one of another, before any of them. -/
def untouched : State (Fin 3) where
  clock := 0
  counters _ := none
  phase _ := .idle
  log := []

def sampleAccount (request : Fin 3) : Account where
  limitClass := .mutation
  client := if request = 2 then Python.text "b" else Python.text "a"

def sampleActions : List (Action (Fin 3)) :=
  [.arrive 0, .arrive 2, .elapse 1, .evaluate 2 .answered,
    .evaluate 0 .answered, .respond 0, .elapse 58, .arrive 1,
    .evaluate 1 .answered, .respond 2, .respond 1]

end UTTG.Limits
