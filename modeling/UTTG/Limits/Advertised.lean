import UTTG.Limits.Quotas

/-!
# What a response advertises

`RateLimit-Remaining` is what the counter of one minute leaves, while
`RateLimit-Reset` is sixty seconds after the response.  The counter is gone when
its minute is over, so between the two the client has a new quota.
-/

namespace UTTG.Limits

open UTTG.Expiring UTTG.Transition

variable {Request : Type*}

/-- Of the executions after one, those for the account before a time. -/
def furtherOf (account : Request → Account) (whose : Account) (reset : ℤ)
    (after : List (Execution Request)) : List (Execution Request) :=
  after.filter fun execution =>
    account execution.request = whose ∧ execution.time < reset

/-- Of the further requests before the advertised reset as many pass as were
advertised, or all of them if they are fewer. -/
def RemainingKept (account : Request → Account) (rate : Rate)
    (execution : Execution Request) (after : List (Execution Request)) :
    Prop :=
  let further := furtherOf account (account execution.request) rate.reset after
  (further.countP Execution.granted : ℤ) =
    min (further.length : ℤ) rate.remaining

/-- The further requests before the advertised reset are in the minute of the
execution, or fit into the quota with those of the minute up to it. -/
def FurtherInMinute (account : Request → Account) (rate : Rate)
    (before : List (Execution Request)) (execution : Execution Request)
    (after : List (Execution Request)) : Prop :=
  let whose := account execution.request
  let further := furtherOf account whose rate.reset after
  (∀ later ∈ further, later.window = execution.window) ∨
    (executionsOf account before whose execution.window).length + 1 +
      further.length ≤ whose.quota

/-- The minutes of a response and of the further requests before the advertised
reset. -/
def MinuteOf (account : Request → Account) (rate : Rate)
    (execution : Execution Request) (after : List (Execution Request))
    (window : ℤ) : Prop :=
  window = execution.window ∨
    ∃ later ∈ furtherOf account (account execution.request) rate.reset after,
      later.window = window

/-! ## The log in order of time -/

/-- The executions are logged as time passes. -/
structure Ordered (state : State Request) : Prop where
  sorted : state.log.Pairwise fun earlier later => earlier.time ≤ later.time
  past : ∀ execution ∈ state.log, execution.time ≤ state.clock

theorem clock_le_of_step [DecidableEq Request] {account : Request → Account}
    {state next : State Request} {action : Action Request}
    (hstep : step account state action = some next) :
    state.clock ≤ next.clock := by
  cases action with
  | elapse duration =>
      simp only [step] at hstep
      split at hstep
      case isTrue hduration =>
        obtain rfl := Option.some.inj hstep
        exact le_add_of_nonneg_right hduration
      case isFalse => simp at hstep
  | arrive request =>
      simp only [step] at hstep
      split at hstep
      · obtain rfl := Option.some.inj hstep
        exact le_rfl
      · simp at hstep
  | evaluate request reply =>
      simp only [step] at hstep
      split at hstep
      · cases reply <;> obtain rfl := Option.some.inj hstep <;> exact le_rfl
      · simp at hstep
  | respond request =>
      simp only [step] at hstep
      split at hstep
      · obtain rfl := Option.some.inj hstep
        exact le_rfl
      · simp at hstep

theorem Ordered.step [DecidableEq Request] {account : Request → Account}
    {state next : State Request} {action : Action Request}
    (hordered : Ordered state)
    (hstep : Limits.step account state action = some next) :
    Ordered next := by
  have hclock := clock_le_of_step hstep
  rcases log_of_step hstep with
    ⟨hlog, -⟩ | ⟨request, reply, window, rfl, -, hlog, -⟩
  · refine ⟨hlog ▸ hordered.sorted, fun execution hmem => ?_⟩
    exact (hordered.past execution (hlog ▸ hmem)).trans hclock
  · simp only [State.runScript] at hlog
    refine ⟨?_, fun execution hmem => ?_⟩
    · rw [hlog, List.pairwise_append]
      refine ⟨hordered.sorted, List.pairwise_singleton _ _, ?_⟩
      intro earlier hearlier later hlater
      rw [List.mem_singleton.mp hlater]
      exact hordered.past earlier hearlier
    · rw [hlog] at hmem
      rcases List.mem_append.mp hmem with hold | hnew
      · exact (hordered.past execution hold).trans hclock
      · rw [List.mem_singleton.mp hnew]
        exact hclock

theorem ordered_of_init [DecidableEq Request] {account : Request → Account}
    {state : State Request} (hinit : (system account).Init state) :
    Ordered state := by
  obtain ⟨-, -, hlog⟩ := hinit
  exact ⟨by simp [hlog], by simp [hlog]⟩

theorem windowOf_mono {earlier later : ℚ} (hle : earlier ≤ later) :
    windowOf earlier ≤ windowOf later := by
  apply Int.floor_le_floor
  gcongr

/-! ## Counting -/

/-- A property of exactly the first elements. -/
theorem countP_of_first {Element : Type*} {passes : Element → Bool}
    {elements : List Element} {count : ℕ}
    (hpasses : ∀ (index : ℕ) (hindex : index < elements.length),
      passes elements[index] = decide (index < count)) :
    elements.countP passes = min elements.length count := by
  induction elements generalizing count with
  | nil => simp
  | cons element rest ih =>
      have hrest := @ih (count - 1) fun index hindex => by
        have hsucc := hpasses (index + 1) (by simpa using hindex)
        rw [List.getElem_cons_succ] at hsucc
        rw [hsucc]
        exact decide_eq_decide.mpr (by omega)
      have hfirst := hpasses 0 (by simp)
      rw [List.getElem_cons_zero] at hfirst
      rw [List.countP_cons, hrest, hfirst, List.length_cons]
      by_cases hcount : 0 < count
      · simp only [hcount, decide_true, if_true]
        omega
      · simp only [hcount, decide_false, Bool.false_eq_true, if_false]
        omega

/-- In a list in order of time the elements before an instant come first. -/
theorem filter_eq_takeWhile {log : List (Execution Request)}
    (hsorted : log.Pairwise fun earlier later => earlier.time ≤ later.time)
    (reset : ℚ) :
    log.filter (fun execution => execution.time < reset) =
      log.takeWhile fun execution => execution.time < reset := by
  induction log with
  | nil => rfl
  | cons execution rest ih =>
      rcases List.pairwise_cons.mp hsorted with ⟨hfirst, hrest⟩
      by_cases hbefore : execution.time < reset
      · rw [List.filter_cons_of_pos (by simpa using hbefore),
          List.takeWhile_cons_of_pos (by simpa using hbefore), ih hrest]
      · rw [List.filter_cons_of_neg (by simpa using hbefore),
          List.takeWhile_cons_of_neg (by simpa using hbefore),
          List.filter_eq_nil_iff]
        intro later hlater
        rw [decide_eq_true_eq]
        exact fun hlate => hbefore ((hfirst later hlater).trans_lt hlate)

section Responses

variable {account : Request → Account} {state : State Request}
  {before after : List (Execution Request)} {execution : Execution Request}

/-- The further requests in one minute pass as long as the executions up to the
response leave some of the quota. -/
theorem countP_further {whose : Account} {window : ℤ}
    (hcounted : Counted account whose window state)
    (hordered : Ordered state)
    (hlog : state.log = before ++ execution :: after) (reset : ℤ) :
    ((furtherOf account whose reset after).filter fun later =>
        later.window = window).countP Execution.granted =
      min ((furtherOf account whose reset after).filter fun later =>
          later.window = window).length
        (whose.quota - (executionsOf account (before ++ [execution]) whose
          window).length) := by
  have hafter : after.Pairwise fun earlier later =>
      earlier.time ≤ later.time := by
    have hsorted := hordered.sorted
    rw [hlog, List.pairwise_append] at hsorted
    exact (List.pairwise_cons.mp hsorted.2.1).2
  have hsplit : executionsOf account state.log whose window =
      executionsOf account (before ++ [execution]) whose window ++
        executionsOf account after whose window := by
    rw [hlog, executionsOf, executionsOf, executionsOf, ← List.filter_append]
    simp
  have hfurther : (furtherOf account whose reset after).filter
      (fun later => later.window = window) =
        (executionsOf account after whose window).takeWhile
          fun later => later.time < (reset : ℚ) := by
    have hown : (executionsOf account after whose window).Pairwise
        fun earlier later => earlier.time ≤ later.time :=
      hafter.sublist List.filter_sublist
    rw [← filter_eq_takeWhile hown, furtherOf, executionsOf,
      List.filter_filter, List.filter_filter]
    apply List.filter_congr
    intro later _
    simp only [← Bool.decide_and]
    exact decide_eq_decide.mpr (by tauto)
  rw [hfurther]
  apply countP_of_first
  intro index hindex
  have hprefix : (executionsOf account after whose window).takeWhile
      (fun later => decide (later.time < (reset : ℚ))) <+:
        executionsOf account after whose window :=
    List.takeWhile_prefix _
  have hbound := hindex.trans_le hprefix.length_le
  have hremaining := @Counted.remaining _ _ _ _ _ hcounted
  rw [hsplit] at hremaining
  have hlater := @hremaining ((executionsOf account
    (before ++ [execution]) whose window).length + index)
      (by rw [List.length_append]; omega)
  rw [List.getElem_append_right (by omega)] at hlater
  simp only [Nat.add_sub_cancel_left] at hlater
  rw [ hprefix.getElem, Execution.granted, hlater]
  apply decide_eq_decide.mpr
  split
  · omega
  · omega

theorem executionsOf_singleton_self (execution : Execution Request) :
    executionsOf account [execution] (account execution.request)
      execution.window = [execution] := by
  simp [executionsOf]

/-- An admitted response advertises what its minute leaves. -/
theorem remaining_of_admitted
    (hcounted : Counted account (account execution.request) execution.window
      state)
    (hanswered : Answered account state)
    (hlog : state.log = before ++ execution :: after) {rate : Rate}
    (hphase : state.phase execution.request = .ended (.admitted rate)) :
    (executionsOf account before (account execution.request)
        execution.window).length < (account execution.request).quota ∧
      rate.remaining = (account execution.request).quota - 1 -
        (executionsOf account before (account execution.request)
          execution.window).length := by
  have htold := hanswered.told execution.request
  rw [hphase] at htold
  obtain ⟨-, other, hother, hrequest, hgranted, hrate⟩ := htold
  have hmem : execution ∈ state.log := by
    rw [hlog]
    simp
  obtain rfl : other = execution :=
    List.inj_on_of_nodup_map hanswered.once hother hmem hrequest
  have hsplit : executionsOf account state.log (account other.request)
      other.window =
        executionsOf account before (account other.request) other.window ++
          other :: executionsOf account after (account other.request)
            other.window := by
    rw [hlog, executionsOf, executionsOf, executionsOf, List.filter_append]
    simp
  have hremaining := @Counted.remaining _ _ _ _ _ hcounted
  rw [hsplit] at hremaining
  have hown := @hremaining (executionsOf account before
    (account other.request) other.window).length (by simp)
  rw [List.getElem_append_right le_rfl] at hown
  simp only [Nat.sub_self, List.getElem_cons_zero] at hown
  rw [Execution.granted, decide_eq_true_eq, hown] at hgranted
  split at hgranted
  case isTrue hquota =>
    rw [← hrate, hown, if_pos hquota]
    exact ⟨hquota, rfl⟩
  case isFalse => omega

/-- A further request in another minute comes after all executions up to the
response, so that its minute has a quota of its own. -/
theorem executionsOf_eq_nil
    (hcounted : Counted account (account execution.request) execution.window
      state)
    (hordered : Ordered state)
    (hlog : state.log = before ++ execution :: after)
    {later : Execution Request} (hlater : later ∈ after)
    (hsame : account later.request = account execution.request)
    (hminute : Counted account (account execution.request) later.window state)
    (hwindow : later.window ≠ execution.window) :
    executionsOf account (before ++ [execution]) (account execution.request)
      later.window = [] := by
  have hsorted := hordered.sorted
  rw [hlog, List.pairwise_append] at hsorted
  have hexecution : windowOf execution.time = execution.window :=
    hcounted.placed execution (mem_executionsOf.mpr ⟨by simp [hlog], rfl, rfl⟩)
  have hplaced : windowOf later.time = later.window :=
    hminute.placed later
      (mem_executionsOf.mpr ⟨by simp [hlog, hlater], hsame, rfl⟩)
  have hge : execution.window ≤ later.window := by
    rw [← hexecution, ← hplaced]
    exact windowOf_mono ((List.pairwise_cons.mp hsorted.2.1).1 later hlater)
  rw [executionsOf, List.filter_eq_nil_iff]
  intro other hother
  rw [decide_eq_true_eq]
  rintro ⟨hwhose, hwithin⟩
  have hle : later.window ≤ execution.window := by
    rcases List.mem_append.mp hother with hbefore | hself
    · have hearlier : windowOf other.time = later.window :=
        hminute.placed other
          (mem_executionsOf.mpr ⟨by simp [hlog, hbefore], hwhose, hwithin⟩)
      rw [← hexecution, ← hearlier]
      exact windowOf_mono (hsorted.2.2 other hbefore execution
        List.mem_cons_self)
    · rw [← hwithin, List.mem_singleton.mp hself]
  omega

/-- Of the further requests outside the minute of the response all pass, or at
least as many as a quota. -/
theorem countP_outside {rate : Rate}
    (hcounted : ∀ window, MinuteOf account rate execution after window →
      Counted account (account execution.request) window state)
    (hordered : Ordered state)
    (hlog : state.log = before ++ execution :: after) :
    let further := furtherOf account (account execution.request) rate.reset
      after
    let outside := further.filter fun later =>
      !decide (later.window = execution.window)
    outside.countP Execution.granted = outside.length ∨
      (account execution.request).quota ≤
        outside.countP Execution.granted := by
  intro further outside
  by_cases hall : ∀ later ∈ outside, later.granted = true
  · exact .inl (List.countP_eq_length.mpr hall)
  · push Not at hall
    obtain ⟨late, hlate, hrefused⟩ := hall
    have hmem := (List.mem_filter.mp hlate).1
    have hwindow : late.window ≠ execution.window := by
      simpa using (List.mem_filter.mp hlate).2
    obtain ⟨hafter, hfurther⟩ := List.mem_filter.mp hmem
    have hminute := hcounted late.window (.inr ⟨late, hmem, rfl⟩)
    have hcount := countP_further hminute hordered hlog rate.reset
    rw [executionsOf_eq_nil (hcounted _ (.inl rfl)) hordered hlog hafter
      (of_decide_eq_true hfurther).1 hminute hwindow, List.length_nil,
      Nat.sub_zero] at hcount
    change (further.filter fun later => later.window = late.window).countP
        Execution.granted =
      min (further.filter fun later => later.window = late.window).length
        (account execution.request).quota at hcount
    -- Some request of that minute was refused, so the quota was used up.
    have hfewer : (further.filter fun later =>
        later.window = late.window).countP Execution.granted ≠
          (further.filter fun later => later.window = late.window).length := by
      intro hequal
      have hgranted := List.countP_eq_length.mp hequal late
        (List.mem_filter.mpr ⟨hmem, by simp⟩)
      exact hrefused hgranted
    have hsublist : (further.filter fun later =>
        later.window = late.window).countP Execution.granted ≤
          outside.countP Execution.granted := by
      have hsame : further.filter (fun later =>
          decide (later.window = late.window)) =
            outside.filter fun later =>
              decide (later.window = late.window) := by
        rw [List.filter_filter]
        apply List.filter_congr
        intro later _
        by_cases hlater : later.window = late.window
        · simp [hlater, hwindow]
        · simp [hlater]
      rw [hsame]
      exact List.filter_sublist.countP_le
    right
    omega

/-- A response keeps what it advertises exactly when the further requests before
its reset do not reach into another minute, or would fit into its own. -/
theorem remainingKept_iff {rate : Rate}
    (hcounted : ∀ window, MinuteOf account rate execution after window →
      Counted account (account execution.request) window state)
    (hordered : Ordered state) (hanswered : Answered account state)
    (hlog : state.log = before ++ execution :: after)
    (hphase : state.phase execution.request = .ended (.admitted rate)) :
    RemainingKept account rate execution after ↔
      FurtherInMinute account rate before execution after := by
  unfold RemainingKept FurtherInMinute
  obtain ⟨hquota, hremaining⟩ :=
    remaining_of_admitted (hcounted _ (.inl rfl)) hanswered hlog hphase
  have hwithin := countP_further (hcounted _ (.inl rfl)) hordered hlog
    rate.reset
  have hown : executionsOf account (before ++ [execution])
      (account execution.request) execution.window =
        executionsOf account before (account execution.request)
          execution.window ++ [execution] := by
    rw [executionsOf, List.filter_append]
    exact congrArg _ (executionsOf_singleton_self execution)
  rw [hown, List.length_append, List.length_singleton] at hwithin
  have houtside := countP_outside hcounted hordered hlog
  simp only at houtside ⊢
  generalize furtherOf account (account execution.request) rate.reset after =
    further at hwithin houtside ⊢
  have hcountSplit := List.countP_eq_countP_filter_add further
    Execution.granted fun later => decide (later.window = execution.window)
  have hlengthSplit := List.length_eq_length_filter_add (l := further)
    fun later => decide (later.window = execution.window)
  have hnone : (∀ later ∈ further, later.window = execution.window) ↔
      (further.filter fun later =>
        !decide (later.window = execution.window)).length = 0 := by
    rw [List.length_eq_zero_iff, List.filter_eq_nil_iff]
    simp
  have hbound := List.countP_le_length (p := Execution.granted)
    (l := further.filter fun later =>
      !decide (later.window = execution.window))
  rw [hnone, hremaining]
  omega

end Responses

/-! ## At the advertised reset -/

section Reset

variable [DecidableEq Request] {account : Request → Account}

/-- Requests and counters stay behind the clock. -/
structure Behind (account : Request → Account) (state : State Request) :
    Prop where
  minute : ∀ request window, state.phase request = .keyed window →
    window ≤ windowOf state.clock
  unused : ∀ (whose : Account) window, windowOf state.clock < window →
    state.counters (whose.key window) = none

theorem behind_of_init {state : State Request}
    (hinit : (system account).Init state) : Behind account state := by
  obtain ⟨hcounters, hidle, -⟩ := hinit
  refine ⟨fun request window hphase => ?_, fun _ _ _ => hcounters _⟩
  rw [hidle] at hphase
  simp at hphase

theorem Behind.goto {state : State Request} (hbehind : Behind account state)
    (request : Request) {phase : Phase}
    (hphase : ∀ window, phase = .keyed window →
      window ≤ windowOf state.clock) :
    Behind account (state.goto request phase) := by
  refine ⟨fun other window hother => ?_, hbehind.unused⟩
  by_cases hsame : other = request
  · subst hsame
    exact hphase window (by simpa [State.goto] using hother)
  · exact hbehind.minute other window
      (by simpa [State.goto, hsame] using hother)

omit [DecidableEq Request] in
theorem Behind.runScript {state : State Request}
    (hbehind : Behind account state) (request : Request) (whose : Account)
    {window : ℤ} (hwindow : window ≤ windowOf state.clock) :
    Behind account (state.runScript request whose window).2 := by
  refine ⟨hbehind.minute, fun other later hlater => ?_⟩
  have hkey : other.key later ≠ whose.key window := by
    intro heq
    have hsame := (key_injective heq).2
    change windowOf state.clock < later at hlater
    omega
  simpa [State.runScript, hkey] using hbehind.unused other later hlater

theorem Behind.step {state next : State Request} {action : Action Request}
    (hbehind : Behind account state)
    (hstep : Limits.step account state action = some next) :
    Behind account next := by
  cases action with
  | elapse duration =>
      have hclock := windowOf_mono (clock_le_of_step hstep)
      simp only [Limits.step] at hstep
      split at hstep
      case isTrue =>
        obtain rfl := Option.some.inj hstep
        exact ⟨fun request window hphase =>
          (hbehind.minute request window hphase).trans hclock,
          fun whose window hwindow =>
            hbehind.unused whose window (hclock.trans_lt hwindow)⟩
      case isFalse => simp at hstep
  | arrive request =>
      simp only [Limits.step] at hstep
      split at hstep
      case h_1 =>
        obtain rfl := Option.some.inj hstep
        refine hbehind.goto request fun window hphase => ?_
        rw [← Phase.keyed.inj hphase]
      case h_2 => simp at hstep
  | evaluate request reply =>
      simp only [Limits.step] at hstep
      split at hstep
      case h_1 window hphase =>
        have hran := hbehind.runScript request (account request)
          (hbehind.minute request window hphase)
        cases reply with
        | answered | lost =>
            obtain rfl := Option.some.inj hstep
            exact hran.goto request (by simp)
        | refused =>
            obtain rfl := Option.some.inj hstep
            exact hbehind.goto request (by simp)
      case h_2 => simp at hstep
  | respond request =>
      simp only [Limits.step] at hstep
      split at hstep
      case h_1 =>
        obtain rfl := Option.some.inj hstep
        exact hbehind.goto request (by simp)
      case h_2 => simp at hstep

/-- Nothing of the account: the time, or a request of another one. -/
def Action.elsewhere (account : Request → Account) (whose : Account) :
    Action Request → Prop
  | .elapse _ => True
  | .arrive request | .evaluate request _ | .respond request =>
      account request ≠ whose

/-- What the store and the requests of an account are, whatever the time is. -/
structure Undisturbed (account : Request → Account) (whose : Account)
    (state next : State Request) : Prop where
  counters : ∀ window,
    next.counters (whose.key window) = state.counters (whose.key window)
  phase : ∀ request, account request = whose →
    next.phase request = state.phase request

theorem undisturbed_of_step {whose : Account} {state next : State Request}
    {action : Action Request} (helsewhere : action.elsewhere account whose)
    (hstep : step account state action = some next) :
    Undisturbed account whose state next := by
  cases action with
  | elapse duration =>
      simp only [step] at hstep
      split at hstep
      · obtain rfl := Option.some.inj hstep
        exact ⟨fun _ => rfl, fun _ _ => rfl⟩
      · simp at hstep
  | arrive request | evaluate request reply | respond request =>
      have hother : account request ≠ whose := helsewhere
      have hagree := Agree.step_left (by simpa [Action.concerns] using hother)
        (Agree.refl whose state) hstep
      exact ⟨hagree.counters, hagree.phase⟩

/-- A wait without requests of the account. -/
theorem undisturbed_of_run {whose : Account} {state final : State Request}
    {actions : List (Action Request)}
    (helsewhere : ∀ action ∈ actions, action.elsewhere account whose)
    (hrun : (system account).run state actions = some final) :
    Undisturbed account whose state final := by
  induction actions generalizing state with
  | nil =>
      obtain rfl : state = final := by simpa [System.run] using hrun
      exact ⟨fun _ => rfl, fun _ _ => rfl⟩
  | cons action rest ih =>
      obtain ⟨next, hstep, hrest⟩ := Option.bind_eq_some_iff.mp hrun
      have hfirst := undisturbed_of_step
        (helsewhere action List.mem_cons_self) hstep
      have hlater := ih (fun other hother =>
        helsewhere other (List.mem_cons_of_mem action hother)) hrest
      exact ⟨fun window => (hlater.counters window).trans
          (hfirst.counters window),
        fun request hown => (hlater.phase request hown).trans
          (hfirst.phase request hown)⟩

/-- The advertised reset is in a minute after that of the response. -/
theorem windowOf_lt_reset (clock : ℚ) :
    windowOf clock <
      windowOf ((truncate clock + windowSeconds : ℤ) : ℚ) := by
  have hclock := ((windowOf_eq_iff clock _).mp rfl).1
  have hwhole : windowOf clock * windowSeconds ≤ ⌊clock⌋ := by
    rw [Int.le_floor]
    push_cast
    exact hclock
  have hcut : ⌊clock⌋ ≤ truncate clock := by
    unfold truncate
    split
    · exact le_rfl
    · exact Int.floor_le_ceil clock
  have hnext : windowOf clock + 1 ≤
      windowOf ((truncate clock + windowSeconds : ℤ) : ℚ) := by
    unfold windowOf
    rw [Int.le_floor, le_div_iff₀ (by norm_num [windowSeconds])]
    have hgoal : (windowOf clock + 1) * windowSeconds ≤
        truncate clock + windowSeconds := by
      rw [add_mul, one_mul]
      omega
    exact_mod_cast hgoal
  omega

theorem quota_pos (account : Account) : 0 < account.quota := by
  rw [Account.quota]
  cases account.limitClass <;> decide

/-- A request that arrives at the reset of a refused one, with nothing of the
account in between, is admitted. -/
def RepeatAdmitted (account : Request → Account) (whose : Account)
    (reset : ℤ) (refused : State Request) : Prop :=
  ∀ again waiting keyed counted later final, account again = whose →
    (∀ action ∈ waiting ++ (keyed ++ counted),
      action.elsewhere account whose) →
    (system account).run refused waiting = some later →
    later.clock = reset →
    (system account).run later (.arrive again :: (keyed ++
      .evaluate again .answered :: (counted ++ [.respond again]))) =
        some final →
    ∃ rate, final.phase again = .ended (.admitted rate)

omit [DecidableEq Request] in
theorem reset_of_refused {clock : ℚ} {remaining limit : ℤ} {rate : Rate}
    {error : HttpError}
    (houtcome : outcomeOf clock remaining limit = .refused rate error) :
    rate.reset = truncate clock + windowSeconds := by
  unfold outcomeOf at houtcome
  simp only at houtcome
  split at houtcome
  · rw [← (Outcome.refused.inj houtcome).1]
  · simp at houtcome

/-- The script on an absent counter. -/
theorem luaFixedWindow_none (clock : ℚ) (account : Account) :
    (luaFixedWindow clock account.quota windowSeconds none).1 =
      ((account.quota : ℤ) - 1, account.quota) := by
  have hquota : ¬account.quota < 1 := not_lt.mpr (quota_pos account)
  simp only [luaFixedWindow, FixedWindow.record_none, if_neg hquota]
  rfl

/-- A request that finds no counter for its minute is admitted. -/
theorem admitted_of_unused {whose : Account} {window : ℤ} {again : Request}
    {start final : State Request} {keyed counted : List (Action Request)}
    (hown : account again = whose)
    (hphase : start.phase again = .keyed window)
    (hunused : start.counters (whose.key window) = none)
    (hkeyed : ∀ action ∈ keyed, action.elsewhere account whose)
    (hcounted : ∀ action ∈ counted, action.elsewhere account whose)
    (hrun : (system account).run start (keyed ++
      .evaluate again .answered :: (counted ++ [.respond again])) =
        some final) :
    ∃ rate, final.phase again = .ended (.admitted rate) := by
  rw [System.run_append] at hrun
  obtain ⟨before, hbefore, hrun⟩ := Option.bind_eq_some_iff.mp hrun
  obtain ⟨evaluated, hevaluate, hrun⟩ := Option.bind_eq_some_iff.mp hrun
  rw [System.run_append] at hrun
  obtain ⟨last, hlast, hrespond⟩ := Option.bind_eq_some_iff.mp hrun
  rw [System.run_singleton] at hrespond
  have hfirst := undisturbed_of_run hkeyed hbefore
  have hsecond := undisturbed_of_run hcounted hlast
  have hcounter : before.counters ((account again).key window) = none := by
    rw [hown, hfirst.counters, hunused]
  have hevaluated : evaluated.phase again =
      .counted ((account again).quota - 1) (account again).quota := by
    simp only [system, step, hfirst.phase again hown, hphase, State.runScript,
      hcounter, luaFixedWindow_none, Option.some.injEq] at hevaluate
    rw [← hevaluate]
    simp [State.goto]
  have hquota := quota_pos (account again)
  have hadmitted : ¬((account again).quota : ℤ) - 1 < 0 := by omega
  simp only [system, step, hsecond.phase again hown, hevaluated,
    Option.some.injEq] at hrespond
  refine ⟨⟨(account again).quota, max (((account again).quota : ℤ) - 1) 0,
    truncate last.clock + windowSeconds⟩, ?_⟩
  rw [← hrespond]
  simp [State.goto, outcomeOf, hadmitted]

/-- A request that is refused passes at the reset that it is told. -/
theorem repeatAdmitted {state refused : State Request} {request : Request}
    (hbehind : Behind account state)
    (hstep : step account state (.respond request) = some refused)
    {rate : Rate} {error : HttpError}
    (hphase : refused.phase request = .ended (.refused rate error)) :
    RepeatAdmitted account (account request) rate.reset refused := by
  have hnext : Behind account refused := hbehind.step hstep
  have hreset : windowOf refused.clock < windowOf (rate.reset : ℚ) := by
    simp only [step] at hstep
    split at hstep
    case h_1 remaining limit hcounted =>
      obtain rfl := Option.some.inj hstep
      have houtcome : outcomeOf state.clock remaining limit =
          .refused rate error := by
        simpa [State.goto] using hphase
      rw [reset_of_refused houtcome]
      exact windowOf_lt_reset state.clock
    case h_2 => simp at hstep
  intro again waiting keyed counted later final hown helsewhere hwaiting
    hclock hrun
  have hwait := undisturbed_of_run (fun action haction =>
    helsewhere action (List.mem_append_left _ haction)) hwaiting
  obtain ⟨arrived, harrive, hrest⟩ := Option.bind_eq_some_iff.mp hrun
  simp only [system, step] at harrive
  split at harrive
  case h_1 =>
    obtain rfl := Option.some.inj harrive
    have harrived : (later.goto again (.keyed (windowOf later.clock))).phase
        again = .keyed (windowOf later.clock) := by
      simp [State.goto]
    have hunused : (later.goto again (.keyed (windowOf later.clock))).counters
        ((account request).key (windowOf later.clock)) = none := by
      rw [State.goto, hwait.counters, hclock]
      exact hnext.unused _ _ hreset
    have hkeyed : ∀ action ∈ keyed,
        action.elsewhere account (account request) := fun action haction =>
      helsewhere action (by simp [haction])
    have hcounted : ∀ action ∈ counted,
        action.elsewhere account (account request) := fun action haction =>
      helsewhere action (by simp [haction])
    exact admitted_of_unused hown harrived hunused hkeyed hcounted hrest
  case h_2 => simp at harrive

end Reset

/-! ## Every run -/

/-- Requests of one client, before any of them. -/
def quiet : State (Fin 32) where
  clock := 0
  counters _ := none
  phase _ := .idle
  log := []

def mutations (_ : Fin 32) : Account where
  limitClass := .mutation
  client := Python.text "a"

/-- Requests that follow one another. -/
def burst (requests : List (Fin 32)) : List (Action (Fin 32)) :=
  requests.flatMap fun request =>
    [.arrive request, .evaluate request .answered, .respond request]

/-- A request in the last second of a minute, and thirty in the next one. -/
def acrossMinutes : List (Action (Fin 32)) :=
  .elapse 59 :: (burst [0] ++ .elapse 1 ::
    burst ((List.finRange 32).drop 1 |>.take 30))

/-- A full minute, of which the last request is refused. -/
def fullMinute : List (Action (Fin 32)) :=
  burst ((List.finRange 32).take 30) ++
    [.arrive 30, .evaluate 30 .answered]

/-- A minute after a refusal. -/
def afterReset : List (Action (Fin 32)) :=
  [.arrive 31, .evaluate 31 .answered, .respond 31]

end UTTG.Limits
