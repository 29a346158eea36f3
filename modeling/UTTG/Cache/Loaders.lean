import UTTG.Cache.SingleFlight

/-!
# Loaders under the lock

`_READ_LUA` writes the lock with an expiry of 15 seconds, while the settings
admit compute timeouts of up to a minute.  A loader that runs longer than its
lock runs beside the loader of the next leader, so loaders exclude each other
exactly when the timeout is at most the expiry of the lock.
-/

namespace UTTG.Cache

open UTTG.Expiring UTTG.Transition

variable {Token Value Raw : Type*} [DecidableEq Token]

/-- The bounds of `cache_compute_timeout_seconds` in `Settings`. -/
def admitsComputeTimeout (timeout : ℚ) : Prop := 0 < timeout ∧ timeout ≤ 60

/-- The loader of the call runs.  Its time is counted from the instant at
which the lock was taken and is used up at the timeout. -/
def Running (timeout : ℚ) (state : State Token Value Raw) (token : Token) :
    Prop :=
  ∃ stale since background,
    state.call token = .computing stale since background ∧
      state.clock < since + timeout

/-- A step of calls of `cached` alone whose loaders end by their timeouts:
keys go by their expiry only, and time does not pass a timeout while the
loader is still there. -/
def InTime (timeout : ℚ) (state : State Token Value Raw)
    (action : Action Token Value) (_ : State Token Value Raw) : Prop :=
  match action with
  | .invalidate | .dropLock => False
  | .elapse duration => ∀ token stale since background,
      state.call token = .computing stale since background →
        state.clock + duration ≤ since + timeout
  | _ => True

/-! ## Entering the loader -/

omit [DecidableEq Token] in
/-- Without a value the reply says who computes it. -/
theorem readLua_missing {clock : ℚ} {ttl stale now : ℤ} {token : Token}
    {store : Store Token Raw}
    (hvalue : (readLua clock ttl stale now token store).1.value = none) :
    (readLua clock ttl stale now token store).1.state = .missLeader ∨
      (readLua clock ttl stale now token store).1.state = .missWait := by
  unfold readLua at hvalue ⊢
  split
  · next stored hget =>
      rw [hget] at hvalue
      simp only at hvalue
      split
      · next hfresh =>
          rw [if_pos hfresh] at hvalue
          simp at hvalue
      · next hold =>
          rw [if_neg hold] at hvalue
          split
          · next hstale =>
              rw [if_pos hstale] at hvalue
              simp at hvalue
          · rcases tryLock_cases clock token .missLeader .missWait store with
              ⟨-, hlock⟩ | hlock
            · exact .inl (by rw [hlock])
            · exact .inr (by rw [hlock])
  · rcases tryLock_cases clock token .missLeader .missWait store with
      ⟨-, hlock⟩ | hlock
    · exact .inl (by rw [hlock])
    · exact .inr (by rw [hlock])

/-- Only a reply that elects leads to the loader. -/
theorem computing_of_afterRead {config : Config} {codec : Codec Value Raw}
    {state : State Token Value Raw} {token : Token} {given stale : ℤ}
    {full background : Bool} {reply : ReadReply Raw} {since : ℚ}
    (hmissing : reply.value = none →
      reply.state = .missLeader ∨ reply.state = .missWait)
    (hcall : (state.afterRead config codec token given full reply).call token =
      .computing stale since background) :
    reply.state.elects = true ∧ since = state.clock := by
  unfold State.afterRead at hcall
  split at hcall
  · split at hcall
    · simp [State.raise, State.goto] at hcall
    · split at hcall
      · next hrevalidate =>
          split at hcall
          · simp [State.goto] at hcall
          · simp only [State.goto, Function.update_self,
              Call.computing.injEq] at hcall
            rw [hrevalidate]
            exact ⟨rfl, hcall.2.1.symm⟩
      · simp [State.goto] at hcall
  · next hvalue =>
      split at hcall
      · simp [State.goto] at hcall
      · next hleads =>
          simp only [State.goto, Function.update_self,
            Call.computing.injEq] at hcall
          refine ⟨?_, hcall.2.1.symm⟩
          rcases hmissing hvalue with hleader | hwait
          · rw [hleader]
            rfl
          · exact absurd hwait hleads

/-- The call is in its loader. -/
def Call.loading : Call Value Raw → Bool
  | .computing _ _ _ => true
  | _ => false

/-- A call is in its loader only after its `_READ_LUA`. -/
theorem loading_of_step {config : Config} {codec : Codec Value Raw}
    {state next : State Token Value Raw} {action : Action Token Value}
    {token : Token} (hcaller : action.caller = some token)
    (hread : ∀ full reply, action ≠ .read token full reply)
    (hstep : step config codec state action = some next) :
    (next.call token).loading = false := by
  have hleads := (moves_of_step hcaller hstep).2
  cases hcall : next.call token with
  | computing stale since background =>
      rw [hcall] at hleads
      cases action with
      | read caller full reply =>
          obtain rfl : caller = token := Option.some.inj hcaller
          exact absurd rfl (hread full reply)
      | _ => exact absurd hleads (by simp [Action.leadsTo])
  | _ => rfl

/-- A call enters the loader by the reply that gives it the lock. -/
theorem lock_of_entering {config : Config} {codec : Codec Value Raw}
    {state next : State Token Value Raw} {action : Action Token Value}
    {token : Token} {stale : ℤ} {since : ℚ} {background : Bool}
    (hcaller : action.caller = some token)
    (hstep : step config codec state action = some next)
    (hcall : next.call token = .computing stale since background) :
    next.clock = since ∧
      next.store.lock = Slot.set token (since + lockSeconds) := by
  have hloading : (next.call token).loading = true := by
    rw [hcall]
    rfl
  by_cases hread : ∃ full reply, action = .read token full reply
  · obtain ⟨full, reply, rfl⟩ := hread
    simp only [step] at hstep
    split at hstep
    case h_1 ttl given now hreading =>
      cases reply with
      | answered =>
          obtain rfl := Option.some.inj hstep
          have hlocal := (Proceeds.afterRead
            (state.runRead ttl given now token).2 config codec token given
            full (state.runRead ttl given now token).1).1
          obtain ⟨helects, hsince⟩ :=
            computing_of_afterRead readLua_missing hcall
          rw [hlocal.clock, hlocal.store, hsince]
          refine ⟨rfl, ?_⟩
          rcases readLua_cases state.clock ttl given now token
            state.store with ⟨-, -, hstore⟩ | ⟨hrefused, -⟩
          · simp only [State.runRead, hstore]
          · exact absurd (helects.symm.trans hrefused) (by simp)
      | lost | refused =>
          obtain rfl := Option.some.inj hstep
          simp at hcall
    case h_2 => simp at hstep
  · have hother : ∀ full reply, action ≠ .read token full reply :=
      fun full reply heq => hread ⟨full, reply, heq⟩
    rw [loading_of_step hcaller hother hstep] at hloading
    simp at hloading

/-! ## The lock of a running loader -/

/-- Until the lock expires it names the call whose loader it protects. -/
def Protected (state : State Token Value Raw) : Prop :=
  ∀ token stale since background,
    state.call token = .computing stale since background →
      state.clock < since + lockSeconds →
        state.store.lock = Slot.set token (since + lockSeconds)

theorem Protected.step {config : Config} {codec : Codec Value Raw}
    {timeout : ℚ} {state next : State Token Value Raw}
    {action : Action Token Value} (hprotected : Protected state)
    (hstep : Cache.step config codec state action = some next)
    (hintime : InTime timeout state action next) : Protected next := by
  intro token stale since background hcall hlive
  cases hcaller : action.caller with
  | none =>
      cases action with
      | elapse duration =>
          simp only [Cache.step] at hstep
          split at hstep
          case isTrue hduration =>
            obtain rfl := Option.some.inj hstep
            have hbefore : state.clock < since + lockSeconds :=
              (le_add_of_nonneg_right hduration).trans_lt hlive
            exact hprotected token stale since background hcall hbefore
          case isFalse => simp at hstep
      | dropData =>
          obtain rfl := Option.some.inj hstep
          exact hprotected token stale since background hcall hlive
      | dropLock => exact hintime.elim
      | invalidate => exact hintime.elim
      | _ => simp [Action.caller] at hcaller
  | some caller =>
      by_cases hsame : caller = token
      · subst hsame
        exact (lock_of_entering hcaller hstep hcall).2
      · have hothers : action.caller ≠ some token := by
          rw [hcaller]
          exact fun heq => hsame (Option.some.inj heq)
        have hbefore : state.call token =
            .computing stale since background :=
          (call_of_other hothers hstep).symm.trans hcall
        have hclock : next.clock = state.clock := by
          rcases caller_cases hcaller hstep with
            ⟨-, hlocal⟩ | ⟨base, hran, hlocal, -⟩
          · exact hlocal.clock
          · rw [hlocal.clock, hran.clock]
        rw [hclock] at hlive
        have hlock := hprotected token stale since background hbefore hlive
        have hheld : state.store.lock.get state.clock = some token := by
          rw [hlock, Slot.get_set, if_neg (not_le.mpr hlive)]
        rw [(lock_untouched hcaller hstep hsame hheld).2, hlock]

omit [DecidableEq Token] in
/-- Loaders whose time is within the expiry of the lock exclude each other. -/
theorem Protected.exclusive {timeout : ℚ} {state : State Token Value Raw}
    (hprotected : Protected state) (htimeout : timeout ≤ lockSeconds)
    {left right : Token} (hleft : Running timeout state left)
    (hright : Running timeout state right) : left = right := by
  have hlock : ∀ {token : Token}, Running timeout state token →
      state.store.lock.get state.clock = some token := by
    rintro token ⟨stale, since, background, hcall, hrunning⟩
    have hlive : state.clock < since + lockSeconds :=
      hrunning.trans_le (by gcongr)
    rw [hprotected token stale since background hcall hlive, Slot.get_set,
      if_neg (not_le.mpr hlive)]
  exact Option.some.inj ((hlock hleft).symm.trans (hlock hright))

theorem protected_of_reachable {config : Config} {codec : Codec Value Raw}
    {timeout : ℚ} {state : State Token Value Raw}
    (hreach : (system Token config codec).ReachableVia (InTime timeout)
      state) : Protected state := by
  refine System.ReachableVia.invariant Protected ?_ ?_ hreach
  · rintro state ⟨-, hidle, -⟩ token stale since background hcall -
    rw [hidle token] at hcall
    simp at hcall
  · intro state action next hprotected hstep hintime
    exact hprotected.step hstep hintime

/-- A second call is elected when the lock of the first one expires. -/
def overlapping (first second : Token) : List (Action Token Value) :=
  [.begin first 60 300 0, .read first false .answered, .elapse lockSeconds,
    .begin second 60 300 15, .read second false .answered]

/-- The first loader of that run is still there when the second one starts,
unless its time is used up. -/
theorem overlapping_reachable (config : Config) (codec : Codec Value Raw)
    {timeout : ℚ} (htimeout : lockSeconds < timeout) {first second : Token}
    (hne : first ≠ second) :
    ∃ state, (system Token config codec).ReachableVia (InTime timeout) state ∧
      Running timeout state first ∧ Running timeout state second := by
  have hpositive : (0 : ℚ) < lockSeconds := by norm_num [lockSeconds]
  have hlive : ¬lockSeconds ≤ (0 : ℚ) := not_le.mpr hpositive
  obtain ⟨state, hrun, hclock, hfirst, hsecond⟩ :
      ∃ state ∈ (system Token config codec).run blank
          (overlapping first second),
        state.clock = lockSeconds ∧
        state.call first = .computing 300 0 false ∧
        state.call second = .computing 300 lockSeconds false := by
    simp [overlapping, System.run, system, step, blank, State.runRead,
      readLua, tryLock, Slot.setNx, Slot.exist, Slot.set, Slot.get_some,
      State.afterRead, State.goto, hne, hne.symm, hpositive.le]
  have hsteps : (system Token config codec).Steps (InTime timeout) blank
      (overlapping first second) := by
    -- time passes once, and only the first call is in its loader then
    have hlate : ∀ token stale since background,
        Function.update (fun _ => Call.idle) first
            (Call.computing 300 0 false : Call Value Raw) token =
          .computing stale since background → lockSeconds ≤ since + timeout := by
      intro token stale since background hcall
      by_cases htoken : token = first
      · subst htoken
        rw [Function.update_self, Call.computing.injEq] at hcall
        rw [← hcall.2.1, zero_add]
        exact htimeout.le
      · simp [htoken] at hcall
    simp [overlapping, System.Steps, system, step, blank, State.runRead,
      readLua, tryLock, Slot.setNx, Slot.exist, Slot.set, State.afterRead,
      State.goto, hpositive.le, InTime]
    exact fun token stale since =>
      ⟨hlate token stale since false, hlate token stale since true⟩
  refine ⟨state, .run (.init (blank_init config codec)) hsteps hrun, ?_, ?_⟩
  · exact ⟨300, 0, false, hfirst, by rw [hclock, zero_add]; exact htimeout⟩
  · refine ⟨300, lockSeconds, false, hsecond, ?_⟩
    rw [hclock]
    exact lt_add_of_pos_right _ (hpositive.trans htimeout)

/-- No two loaders run at the same time, in any run, exactly when the compute
timeout is at most the expiry of the lock. -/
theorem loaders_exclusive_iff [Nontrivial Token] (config : Config)
    (codec : Codec Value Raw) (timeout : ℚ) :
    (∀ state, (system Token config codec).ReachableVia (InTime timeout)
        state → ∀ left right, Running timeout state left →
          Running timeout state right → left = right) ↔
      timeout ≤ lockSeconds := by
  constructor
  · intro hexclusive
    by_contra htimeout
    obtain ⟨first, second, hne⟩ := exists_pair_ne Token
    obtain ⟨state, hreach, hfirst, hsecond⟩ :=
      overlapping_reachable config codec (not_le.mp htimeout) hne
    exact hne (hexclusive state hreach first second hfirst hsecond)
  · intro htimeout state hreach left right hleft hright
    exact (protected_of_reachable hreach).exclusive htimeout hleft hright

/-- With the greatest timeout that the settings admit, two loaders run at the
same time. -/
theorem loaders_overlap :
    admitsComputeTimeout 60 ∧ ∃ state,
      (system (Fin 2) plainConfig plainCodec).ReachableVia (InTime 60) state ∧
        Running 60 state 0 ∧ Running 60 state 1 :=
  ⟨by norm_num [admitsComputeTimeout],
    overlapping_reachable plainConfig plainCodec (by norm_num [lockSeconds])
      (by decide)⟩

/-- The default timeout. -/
theorem default_loaders_exclusive_iff :
    (∀ state, (system (Fin 2) plainConfig plainCodec).ReachableVia (InTime 5)
        state → ∀ left right, Running 5 state left → Running 5 state right →
          left = right) ↔
      (5 : ℚ) ≤ lockSeconds :=
  loaders_exclusive_iff plainConfig plainCodec 5

end UTTG.Cache
