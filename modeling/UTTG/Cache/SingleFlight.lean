import UTTG.Cache.Layer

/-!
# One effective store per election

The scripts of the cache layer refine a lock that names its owner: a granted
`SET NX` is an election, an effective `_STORE_LUA` a commit, an effective
`_UNLOCK_LUA` a release and `invalidate` a reset.  A token is elected at most
once because its call runs `_READ_LUA` at most once.
-/

namespace UTTG.Cache

open UTTG.Expiring UTTG.Transition

variable {Token Value Raw : Type*} [DecidableEq Token]

/-- The lock view of a cache state. -/
def lockView (state : State Token Value Raw) : TokenLock.State Token :=
  ⟨state.store.lock.get state.clock, state.log⟩

/-- The call has not executed `_READ_LUA` yet. -/
def Call.unread : Call Value Raw → Bool
  | .idle => true
  | .reading _ _ _ => true
  | _ => false

/-- The call that takes a step; `none` for the environment. -/
def Action.caller : Action Token Value → Option Token
  | .begin token _ _ _ => some token
  | .read token _ _ => some token
  | .check token => some token
  | .poll token _ => some token
  | .compute token _ _ => some token
  | .fail token => some token
  | .store token _ => some token
  | .unlock token _ => some token
  | .crash token => some token
  | _ => none

/-! ## What a step can do -/

/-- The states that the script of one step of a call can lead to. -/
inductive Ran (state : State Token Value Raw) (token : Token) :
    State Token Value Raw → Prop
  | nothing : Ran state token state
  | load (value : Value) : Ran state token { state with
      loaded := Function.update state.loaded token (some value) }
  | read (ttl stale now : ℤ)
      (hcall : state.call token = .reading ttl stale now) :
      Ran state token (state.runRead ttl stale now token).2
  | store (stale now : ℤ) (value : Value) (raw : Raw) (background : Bool)
      (hcall : state.call token = .storing stale now value raw background) :
      Ran state token (state.runStore token raw now stale)
  | unlock (failure : Option Failure)
      (hcall : state.call token = .unlocking failure) :
      Ran state token (state.runUnlock token)

/-- `next` differs from `base` at most in the call and the answer of
`token`. -/
structure Local (base next : State Token Value Raw) (token : Token) :
    Prop where
  clock : next.clock = base.clock
  store : next.store = base.store
  log : next.log = base.log
  call : ∀ other, other ≠ token → next.call other = base.call other
  answer : ∀ other, other ≠ token → next.answer other = base.answer other

theorem Local.goto (state : State Token Value Raw) (token : Token)
    (call : Call Value Raw) : Local state (state.goto token call) token where
  clock := rfl
  store := rfl
  log := rfl
  call _ hother := Function.update_of_ne hother _ _
  answer _ _ := rfl

theorem Local.respond (state : State Token Value Raw) (token : Token)
    (answer : Answer Value) :
    Local state (state.respond token answer) token where
  clock := rfl
  store := rfl
  log := rfl
  call _ _ := rfl
  answer _ hother := Function.update_of_ne hother _ _

theorem Local.deliver (state : State Token Value Raw) (token : Token)
    (origin : Origin Token) (value : Value) (freshness : Freshness)
    (age : ℤ) :
    Local state (state.deliver token origin value freshness age) token where
  clock := rfl
  store := rfl
  log := rfl
  call _ _ := rfl
  answer _ hother := Function.update_of_ne hother _ _

omit [DecidableEq Token] in
theorem Local.trans {first second third : State Token Value Raw}
    {token : Token} (hfirst : Local first second token)
    (hsecond : Local second third token) : Local first third token where
  clock := hsecond.clock.trans hfirst.clock
  store := hsecond.store.trans hfirst.store
  log := hsecond.log.trans hfirst.log
  call other hother :=
    (hsecond.call other hother).trans (hfirst.call other hother)
  answer other hother :=
    (hsecond.answer other hother).trans (hfirst.answer other hother)

theorem Local.respond_goto (state : State Token Value Raw) (token : Token)
    (answer : Answer Value) (call : Call Value Raw) :
    Local state ((state.respond token answer).goto token call) token :=
  (Local.respond state token answer).trans (Local.goto _ token call)

/-- A step of a call outside the scripts: only its own call and answer
change, and the call has executed `_READ_LUA`. -/
def Proceeds (base next : State Token Value Raw) (token : Token) : Prop :=
  Local base next token ∧ (next.call token).unread = false

theorem Proceeds.goto (state : State Token Value Raw) (token : Token)
    {call : Call Value Raw} (hunread : call.unread = false) :
    Proceeds state (state.goto token call) token :=
  ⟨Local.goto state token call, by simpa [State.goto] using hunread⟩

theorem Proceeds.respond (state : State Token Value Raw) (token : Token)
    (answer : Answer Value) {call : Call Value Raw}
    (hunread : call.unread = false) :
    Proceeds state ((state.respond token answer).goto token call) token :=
  ⟨Local.respond_goto state token answer call,
    by simpa [State.goto] using hunread⟩

theorem Proceeds.deliver (state : State Token Value Raw) (token : Token)
    (origin : Origin Token) (value : Value) (freshness : Freshness)
    (age : ℤ) {call : Call Value Raw} (hunread : call.unread = false) :
    Proceeds state
      ((state.deliver token origin value freshness age).goto token call)
      token :=
  ⟨(Local.deliver state token origin value freshness age).trans
    (Local.goto _ token call), by simpa [State.goto] using hunread⟩

theorem Proceeds.raise (state : State Token Value Raw) (token : Token)
    (failure : Failure) : Proceeds state (state.raise token failure) token :=
  Proceeds.respond state token (.raised failure) rfl

theorem Proceeds.abort (state : State Token Value Raw) (token : Token)
    (failure : Failure) (background : Bool) :
    Proceeds state (state.abort token failure background) token :=
  Proceeds.goto state token rfl

theorem Proceeds.afterRead (state : State Token Value Raw) (config : Config)
    (codec : Codec Value Raw) (token : Token) (stale : ℤ) (full : Bool)
    (reply : ReadReply Raw) :
    Proceeds state (state.afterRead config codec token stale full reply)
      token := by
  unfold State.afterRead
  split
  · split
    · exact Proceeds.raise state token .undecodable
    · split
      · split
        · exact Proceeds.deliver state token _ _ _ _ rfl
        · exact Proceeds.deliver state token _ _ _ _ rfl
      · exact Proceeds.deliver state token _ _ _ _ rfl
  · split
    · exact Proceeds.goto state token rfl
    · exact Proceeds.goto state token rfl

theorem Proceeds.afterPoll (state : State Token Value Raw)
    (codec : Codec Value Raw) (token : Token) (deadline : ℚ)
    (stored : Option (Stored Raw)) :
    Proceeds state (state.afterPoll codec token deadline stored) token := by
  unfold State.afterPoll
  split
  · split
    · exact Proceeds.raise state token .undecodable
    · exact Proceeds.deliver state token _ _ _ _ rfl
  · exact Proceeds.goto state token rfl

theorem Proceeds.afterCompute (state : State Token Value Raw)
    (config : Config) (codec : Codec Value Raw) (token : Token) (stale : ℤ)
    (background : Bool) (value : Value) (now : ℤ) :
    Proceeds state
      (state.afterCompute config codec token stale background value now)
      token := by
  unfold State.afterCompute
  split
  · exact Proceeds.abort state token .unserialisable background
  · split
    · exact Proceeds.abort state token .tooLarge background
    · exact Proceeds.goto state token rfl

theorem Proceeds.afterStore (state : State Token Value Raw) (token : Token)
    (value : Value) (background : Bool) :
    Proceeds state (state.afterStore token value background) token := by
  unfold State.afterStore
  split
  · exact Proceeds.goto state token rfl
  · exact Proceeds.deliver state token _ _ _ _ rfl

theorem Proceeds.afterUnlock (state : State Token Value Raw) (token : Token)
    (failure : Option Failure) :
    Proceeds state (state.afterUnlock token failure) token := by
  cases failure with
  | none => exact Proceeds.goto state token rfl
  | some failure => exact Proceeds.raise state token failure

/-- A step of a call starts the call, or runs at most one script and then
proceeds with that call alone. -/
theorem caller_cases {config : Config} {codec : Codec Value Raw}
    {state next : State Token Value Raw} {action : Action Token Value}
    {token : Token} (hcaller : action.caller = some token)
    (hstep : step config codec state action = some next) :
    (state.call token = .idle ∧ Local state next token) ∨
      ∃ base, Ran state token base ∧ Proceeds base next token := by
  cases action with
  | elapse duration => simp [Action.caller] at hcaller
  | dropLock => simp [Action.caller] at hcaller
  | dropData => simp [Action.caller] at hcaller
  | invalidate => simp [Action.caller] at hcaller
  | begin caller ttl stale now =>
      obtain rfl : caller = token := Option.some.inj hcaller
      simp only [step] at hstep
      split at hstep
      case h_1 hcall =>
        left
        refine ⟨hcall, ?_⟩
        split at hstep
        · rw [← Option.some.inj hstep]
          exact Local.respond_goto state caller _ _
        · rw [← Option.some.inj hstep]
          exact Local.goto state caller _
      case h_2 => simp at hstep
  | read caller full reply =>
      obtain rfl : caller = token := Option.some.inj hcaller
      right
      simp only [step] at hstep
      split at hstep
      case h_1 ttl stale now hcall =>
        cases reply with
        | answered =>
            rw [← Option.some.inj hstep]
            exact ⟨_, .read ttl stale now hcall, Proceeds.afterRead ..⟩
        | lost =>
            rw [← Option.some.inj hstep]
            exact ⟨_, .read ttl stale now hcall, Proceeds.raise ..⟩
        | refused =>
            rw [← Option.some.inj hstep]
            exact ⟨state, .nothing, Proceeds.raise ..⟩
      case h_2 => simp at hstep
  | check caller =>
      obtain rfl : caller = token := Option.some.inj hcaller
      right
      refine ⟨state, .nothing, ?_⟩
      simp only [step] at hstep
      split at hstep
      case h_1 deadline hcall =>
        split at hstep
        · rw [← Option.some.inj hstep]
          exact Proceeds.goto state caller rfl
        · rw [← Option.some.inj hstep]
          exact Proceeds.raise ..
      case h_2 => simp at hstep
  | poll caller reply =>
      obtain rfl : caller = token := Option.some.inj hcaller
      right
      refine ⟨state, .nothing, ?_⟩
      simp only [step] at hstep
      split at hstep
      case h_1 deadline wake hcall =>
        split at hstep
        · cases reply with
          | answered =>
              rw [← Option.some.inj hstep]
              exact Proceeds.afterPoll ..
          | lost =>
              rw [← Option.some.inj hstep]
              exact Proceeds.raise ..
          | refused =>
              rw [← Option.some.inj hstep]
              exact Proceeds.raise ..
        · simp at hstep
      case h_2 => simp at hstep
  | compute caller value now =>
      obtain rfl : caller = token := Option.some.inj hcaller
      right
      simp only [step] at hstep
      split at hstep
      case h_1 stale since background hcall =>
        rw [← Option.some.inj hstep]
        exact ⟨_, .load value, Proceeds.afterCompute ..⟩
      case h_2 => simp at hstep
  | fail caller =>
      obtain rfl : caller = token := Option.some.inj hcaller
      right
      refine ⟨state, .nothing, ?_⟩
      simp only [step] at hstep
      split at hstep
      case h_1 stale since background hcall =>
        rw [← Option.some.inj hstep]
        exact Proceeds.abort ..
      case h_2 => simp at hstep
  | store caller reply =>
      obtain rfl : caller = token := Option.some.inj hcaller
      right
      simp only [step] at hstep
      split at hstep
      case h_1 stale now value raw background hcall =>
        cases reply with
        | answered =>
            rw [← Option.some.inj hstep]
            exact ⟨_, .store _ _ _ _ _ hcall, Proceeds.afterStore ..⟩
        | lost =>
            rw [← Option.some.inj hstep]
            exact ⟨_, .store _ _ _ _ _ hcall, Proceeds.abort ..⟩
        | refused =>
            rw [← Option.some.inj hstep]
            exact ⟨state, .nothing, Proceeds.abort ..⟩
      case h_2 => simp at hstep
  | unlock caller reply =>
      obtain rfl : caller = token := Option.some.inj hcaller
      right
      simp only [step] at hstep
      split at hstep
      case h_1 failure hcall =>
        cases reply with
        | answered =>
            rw [← Option.some.inj hstep]
            exact ⟨_, .unlock failure hcall, Proceeds.afterUnlock ..⟩
        | lost =>
            rw [← Option.some.inj hstep]
            exact ⟨_, .unlock failure hcall, Proceeds.afterUnlock ..⟩
        | refused =>
            rw [← Option.some.inj hstep]
            exact ⟨state, .nothing, Proceeds.afterUnlock ..⟩
      case h_2 => simp at hstep
  | crash caller =>
      obtain rfl : caller = token := Option.some.inj hcaller
      right
      rw [← Option.some.inj hstep]
      exact ⟨state, .nothing, Proceeds.goto state caller rfl⟩

/-- The call in which an action finds its caller. -/
def Action.startsFrom : Action Token Value → Call Value Raw → Bool
  | .begin _ _ _ _, .idle => true
  | .read _ _ _, .reading _ _ _ => true
  | .check _, .waiting _ => true
  | .poll _ _, .asleep _ _ => true
  | .compute _ _ _, .computing _ _ _ => true
  | .fail _, .computing _ _ _ => true
  | .store _ _, .storing _ _ _ _ _ => true
  | .unlock _ _, .unlocking _ => true
  | .crash _, _ => true
  | _, _ => false

/-- The calls to which an action can take its caller. -/
def Action.leadsTo : Action Token Value → Call Value Raw → Bool
  | .begin _ _ _ _, .reading _ _ _ => true
  | .read _ _ _, .waiting _ => true
  | .read _ _ _, .computing _ _ _ => true
  | .read _ _ _, .unlocking _ => true
  | .check _, .asleep _ _ => true
  | .poll _ _, .waiting _ => true
  | .compute _ _ _, .storing _ _ _ _ _ => true
  | .compute _ _ _, .unlocking _ => true
  | .fail _, .unlocking _ => true
  | .store _ _, .unlocking _ => true
  | _, .ended => true
  | _, _ => false

@[simp]
theorem goto_call_self (state : State Token Value Raw) (token : Token)
    (call : Call Value Raw) : (state.goto token call).call token = call :=
  Function.update_self ..

@[simp]
theorem raise_call_self (state : State Token Value Raw) (token : Token)
    (failure : Failure) : (state.raise token failure).call token = .ended :=
  goto_call_self ..

@[simp]
theorem abort_call_self (state : State Token Value Raw) (token : Token)
    (failure : Failure) (background : Bool) :
    (state.abort token failure background).call token =
      .unlocking (if background then none else some failure) :=
  goto_call_self ..

/-- From where to where a step takes its caller. -/
theorem moves_of_step {config : Config} {codec : Codec Value Raw}
    {state next : State Token Value Raw} {action : Action Token Value}
    {token : Token} (hcaller : action.caller = some token)
    (hstep : step config codec state action = some next) :
    action.startsFrom (state.call token) = true ∧
      action.leadsTo (next.call token) = true := by
  cases action with
  | elapse duration => simp [Action.caller] at hcaller
  | dropLock => simp [Action.caller] at hcaller
  | dropData => simp [Action.caller] at hcaller
  | invalidate => simp [Action.caller] at hcaller
  | begin caller ttl stale now =>
      obtain rfl : caller = token := Option.some.inj hcaller
      simp only [step] at hstep
      split at hstep
      case h_1 hcall =>
        refine ⟨by rw [hcall]; rfl, ?_⟩
        split at hstep
        · simp [← Option.some.inj hstep, Action.leadsTo]
        · simp [← Option.some.inj hstep, Action.leadsTo]
      case h_2 => simp at hstep
  | read caller full reply =>
      obtain rfl : caller = token := Option.some.inj hcaller
      simp only [step] at hstep
      split at hstep
      case h_1 ttl stale now hcall =>
        refine ⟨by rw [hcall]; rfl, ?_⟩
        cases reply with
        | answered =>
            rw [← Option.some.inj hstep]
            unfold State.afterRead
            split
            · split
              · simp [Action.leadsTo]
              · split
                · split
                  · simp [Action.leadsTo]
                  · simp [Action.leadsTo]
                · simp [Action.leadsTo]
            · split
              · simp [Action.leadsTo]
              · simp [Action.leadsTo]
        | lost | refused => simp [← Option.some.inj hstep, Action.leadsTo]
      case h_2 => simp at hstep
  | check caller =>
      obtain rfl : caller = token := Option.some.inj hcaller
      simp only [step] at hstep
      split at hstep
      case h_1 hcall =>
        refine ⟨by rw [hcall]; rfl, ?_⟩
        split at hstep
        · simp [← Option.some.inj hstep, Action.leadsTo]
        · simp [← Option.some.inj hstep, Action.leadsTo]
      case h_2 => simp at hstep
  | poll caller reply =>
      obtain rfl : caller = token := Option.some.inj hcaller
      simp only [step] at hstep
      split at hstep
      case h_1 hcall =>
        refine ⟨by rw [hcall]; rfl, ?_⟩
        split at hstep
        · cases reply with
          | answered =>
              rw [← Option.some.inj hstep]
              unfold State.afterPoll
              split
              · split
                · simp [Action.leadsTo]
                · simp [Action.leadsTo]
              · simp [Action.leadsTo]
          | lost | refused => simp [← Option.some.inj hstep, Action.leadsTo]
        · simp at hstep
      case h_2 => simp at hstep
  | compute caller value now =>
      obtain rfl : caller = token := Option.some.inj hcaller
      simp only [step] at hstep
      split at hstep
      case h_1 hcall =>
        refine ⟨by rw [hcall]; rfl, ?_⟩
        rw [← Option.some.inj hstep]
        unfold State.afterCompute
        split
        · simp [Action.leadsTo]
        · split
          · simp [Action.leadsTo]
          · simp [Action.leadsTo]
      case h_2 => simp at hstep
  | fail caller =>
      obtain rfl : caller = token := Option.some.inj hcaller
      simp only [step] at hstep
      split at hstep
      case h_1 hcall =>
        refine ⟨by rw [hcall]; rfl, ?_⟩
        simp [← Option.some.inj hstep, Action.leadsTo]
      case h_2 => simp at hstep
  | store caller reply =>
      obtain rfl : caller = token := Option.some.inj hcaller
      simp only [step] at hstep
      split at hstep
      case h_1 hcall =>
        refine ⟨by rw [hcall]; rfl, ?_⟩
        cases reply with
        | answered =>
            rw [← Option.some.inj hstep]
            unfold State.afterStore
            split
            · simp [Action.leadsTo]
            · simp [Action.leadsTo]
        | lost | refused => simp [← Option.some.inj hstep, Action.leadsTo]
      case h_2 => simp at hstep
  | unlock caller reply =>
      obtain rfl : caller = token := Option.some.inj hcaller
      simp only [step] at hstep
      split at hstep
      case h_1 failure hcall =>
        refine ⟨by rw [hcall]; rfl, ?_⟩
        cases reply with
        | answered | lost | refused =>
            rw [← Option.some.inj hstep]
            cases failure with
            | none => simp [State.afterUnlock, Action.leadsTo]
            | some failure => simp [State.afterUnlock, Action.leadsTo]
      case h_2 => simp at hstep
  | crash caller =>
      obtain rfl : caller = token := Option.some.inj hcaller
      simp [← Option.some.inj hstep, Action.startsFrom, Action.leadsTo]

/-! ## The scripts and the lock -/

omit [DecidableEq Token] in
theorem tryLock_cases (clock : ℚ) (token : Token)
    (granted refused : ReadState) (store : Store Token Raw) :
    (store.lock.get clock = none ∧
        tryLock clock token granted refused store = (granted, { store with
          lock := Slot.set token (clock + lockSeconds) })) ∨
      tryLock clock token granted refused store = (refused, store) := by
  rcases Slot.setNx_cases clock token (clock + lockSeconds) store.lock with
    ⟨habsent, hset⟩ | ⟨-, hset⟩
  · left
    refine ⟨(Slot.exist_eq_false_iff _ _).mp habsent, ?_⟩
    rw [tryLock, hset]
  · right
    rw [tryLock, hset]

omit [DecidableEq Token] in
/-- `_READ_LUA` takes the lock exactly when it reports an election, and then
the lock was free; it never writes the data key. -/
theorem readLua_cases (clock : ℚ) (ttl stale now : ℤ) (token : Token)
    (store : Store Token Raw) :
    ((readLua clock ttl stale now token store).1.state.elects = true ∧
        store.lock.get clock = none ∧
        (readLua clock ttl stale now token store).2 = { store with
          lock := Slot.set token (clock + lockSeconds) }) ∨
      ((readLua clock ttl stale now token store).1.state.elects = false ∧
        (readLua clock ttl stale now token store).2 = store) := by
  unfold readLua
  split
  · split
    · exact .inr ⟨rfl, rfl⟩
    · split
      · rcases tryLock_cases clock token .revalidate .stale store with
          ⟨hfree, hlock⟩ | hlock
        · exact .inl ⟨by rw [hlock]; rfl, hfree, by rw [hlock]⟩
        · exact .inr ⟨by rw [hlock]; rfl, by rw [hlock]⟩
      · rcases tryLock_cases clock token .missLeader .missWait store with
          ⟨hfree, hlock⟩ | hlock
        · exact .inl ⟨by rw [hlock]; rfl, hfree, by rw [hlock]⟩
        · exact .inr ⟨by rw [hlock]; rfl, by rw [hlock]⟩
  · rcases tryLock_cases clock token .missLeader .missWait store with
      ⟨hfree, hlock⟩ | hlock
    · exact .inl ⟨by rw [hlock]; rfl, hfree, by rw [hlock]⟩
    · exact .inr ⟨by rw [hlock]; rfl, by rw [hlock]⟩

omit [DecidableEq Token] in
theorem get_lock_of_granted (clock : ℚ) (token : Token) :
    Slot.get clock (Slot.set token (clock + lockSeconds)) = some token := by
  have hlive : ¬clock + lockSeconds ≤ clock := by
    norm_num [lockSeconds]
  rw [Slot.get_set, if_neg hlive]

omit [DecidableEq Token] in
/-- The state after `_READ_LUA`: unchanged, or the lock was free and names
the call that was elected. -/
theorem runRead_cases (state : State Token Value Raw) (ttl stale now : ℤ)
    (token : Token) :
    (state.store.lock.get state.clock = none ∧
        (state.runRead ttl stale now token).2 = { state with
          store := { state.store with
            lock := Slot.set token (state.clock + lockSeconds) }
          log := state.log ++ [.elected token] }) ∨
      (state.runRead ttl stale now token).2 = state := by
  rcases readLua_cases state.clock ttl stale now token state.store with
    ⟨helects, hfree, hstore⟩ | ⟨helects, hstore⟩
  · left
    refine ⟨hfree, ?_⟩
    simp only [State.runRead, helects, hstore, if_true]
  · right
    simp only [State.runRead, helects, hstore, Bool.false_eq_true, if_false]

/-- The state after `_STORE_LUA`: unchanged, or the call owned the lock. -/
theorem runStore_cases (state : State Token Value Raw) (token : Token)
    (raw : Raw) (now stale : ℤ) :
    (state.store.lock.get state.clock = some token ∧
        state.runStore token raw now stale = { state with
          store := ⟨Slot.del,
            Slot.set ⟨raw, now⟩ (state.clock + stale)⟩
          log := state.log ++ [.committed token]
          writer := some token }) ∨
      (state.store.lock.get state.clock ≠ some token ∧
        state.runStore token raw now stale = state) := by
  by_cases howned : state.store.lock.get state.clock = some token
  · left
    refine ⟨howned, ?_⟩
    simp only [State.runStore, storeLua, howned, if_true]
  · right
    refine ⟨howned, ?_⟩
    simp only [State.runStore, storeLua, howned, Bool.false_eq_true,
      if_false]

/-- The state after `_UNLOCK_LUA`: unchanged, or the call owned the lock. -/
theorem runUnlock_cases (state : State Token Value Raw) (token : Token) :
    (state.store.lock.get state.clock = some token ∧
        state.runUnlock token = { state with
          store := { state.store with lock := Slot.del }
          log := state.log ++ [.released token] }) ∨
      (state.store.lock.get state.clock ≠ some token ∧
        state.runUnlock token = state) := by
  by_cases howned : state.store.lock.get state.clock = some token
  · left
    refine ⟨howned, ?_⟩
    simp only [State.runUnlock, unlockLua, howned, if_true]
  · right
    refine ⟨howned, ?_⟩
    simp only [State.runUnlock, unlockLua, howned, Bool.false_eq_true,
      if_false]

omit [DecidableEq Token] in
theorem Local.lockView {base next : State Token Value Raw} {token : Token}
    (hlocal : Local base next token) : lockView next = lockView base := by
  simp only [Cache.lockView, hlocal.clock, hlocal.store, hlocal.log]

/-- Every script is a step of the owned lock, provided that a call that is
about to read was not elected before. -/
theorem Ran.refines {state base : State Token Value Raw} {token : Token}
    (hran : Ran state token base)
    (hfresh : (state.call token).unread = true →
      TokenLock.Event.elected token ∉ state.log) :
    TokenLock.Step (lockView state) (lockView base) := by
  cases hran with
  | nothing => exact .idle _
  | load value => exact .idle _
  | read ttl stale now hcall =>
      rcases runRead_cases state ttl stale now token with
        ⟨hfree, hnext⟩ | hnext
      · have hview : lockView (state.runRead ttl stale now token).2 =
            ⟨some token, state.log ++ [.elected token]⟩ := by
          rw [hnext]
          simp only [lockView, get_lock_of_granted]
        rw [hview]
        exact .elect (lockView state) token hfree
          (hfresh (by rw [hcall]; rfl))
      · rw [hnext]
        exact .idle _
  | store stale now value raw background hcall =>
      rcases runStore_cases state token raw now stale with
        ⟨howned, hnext⟩ | ⟨-, hnext⟩
      · rw [hnext]
        exact .commit (lockView state) token howned
      · rw [hnext]
        exact .idle _
  | unlock failure hcall =>
      rcases runUnlock_cases state token with ⟨howned, hnext⟩ | ⟨-, hnext⟩
      · rw [hnext]
        exact .release (lockView state) token howned
      · rw [hnext]
        exact .idle _

/-- Time, drops and `invalidate` are steps of the owned lock as well. -/
theorem environment_refines {config : Config} {codec : Codec Value Raw}
    {state next : State Token Value Raw} {action : Action Token Value}
    (hcaller : action.caller = none)
    (hstep : step config codec state action = some next) :
    TokenLock.Step (lockView state) (lockView next) ∧
      next.call = state.call ∧
      ∀ token, TokenLock.Event.elected token ∈ next.log →
        TokenLock.Event.elected token ∈ state.log := by
  cases action with
  | elapse duration =>
      simp only [step] at hstep
      split at hstep
      case isTrue hduration =>
        rw [← Option.some.inj hstep]
        refine ⟨?_, rfl, fun token hmem => hmem⟩
        have hlater : state.clock ≤ state.clock + duration :=
          le_add_of_nonneg_right hduration
        rcases Slot.get_later state.store.lock hlater with hlapsed | hsame
        · have hview : lockView
              { state with clock := state.clock + duration } =
              { lockView state with holder := none } := by
            simp only [lockView, hlapsed]
          rw [hview]
          exact .lapse _
        · have hview : lockView
              { state with clock := state.clock + duration } =
              lockView state := by
            simp only [lockView, hsame]
          rw [hview]
          exact .idle _
      case isFalse => simp at hstep
  | dropLock =>
      rw [← Option.some.inj hstep]
      exact ⟨.lapse (lockView state), rfl, fun token hmem => hmem⟩
  | dropData =>
      rw [← Option.some.inj hstep]
      exact ⟨.idle (lockView state), rfl, fun token hmem => hmem⟩
  | invalidate =>
      rw [← Option.some.inj hstep]
      refine ⟨.reset (lockView state), rfl, fun token hmem => ?_⟩
      simpa using hmem
  | _ => simp [Action.caller] at hcaller

/-- A script logs an election only for its own call. -/
theorem Ran.elected_mem {state base : State Token Value Raw}
    {token other : Token} (hran : Ran state token base)
    (hother : other ≠ token)
    (hmem : TokenLock.Event.elected other ∈ base.log) :
    TokenLock.Event.elected other ∈ state.log := by
  cases hran with
  | nothing => exact hmem
  | load value => exact hmem
  | read ttl stale now hcall =>
      rcases runRead_cases state ttl stale now token with ⟨-, hnext⟩ | hnext
      · rw [hnext] at hmem
        simpa [hother] using hmem
      · rwa [hnext] at hmem
  | store stale now value raw background hcall =>
      rcases runStore_cases state token raw now stale with
        ⟨-, hnext⟩ | ⟨-, hnext⟩
      · rw [hnext] at hmem
        simpa using hmem
      · rwa [hnext] at hmem
  | unlock failure hcall =>
      rcases runUnlock_cases state token with ⟨-, hnext⟩ | ⟨-, hnext⟩
      · rw [hnext] at hmem
        simpa using hmem
      · rwa [hnext] at hmem

theorem Ran.call {state base : State Token Value Raw} {token : Token}
    (hran : Ran state token base) : base.call = state.call := by
  cases hran with
  | nothing => rfl
  | load value => rfl
  | read ttl stale now hcall => rfl
  | store stale now value raw background hcall => rfl
  | unlock failure hcall => rfl

theorem Ran.clock {state base : State Token Value Raw} {token : Token}
    (hran : Ran state token base) : base.clock = state.clock := by
  cases hran with
  | nothing => rfl
  | load value => rfl
  | read ttl stale now hcall => rfl
  | store stale now value raw background hcall => rfl
  | unlock failure hcall => rfl

/-- A step leaves the calls of others where they are. -/
theorem call_of_other {config : Config} {codec : Codec Value Raw}
    {state next : State Token Value Raw} {action : Action Token Value}
    {token : Token} (hcaller : action.caller ≠ some token)
    (hstep : step config codec state action = some next) :
    next.call token = state.call token := by
  cases hactor : action.caller with
  | none => rw [(environment_refines hactor hstep).2.1]
  | some actor =>
      have hother : token ≠ actor := by
        rintro rfl
        exact hcaller hactor
      rcases caller_cases hactor hstep with
        ⟨-, hlocal⟩ | ⟨base, hran, hlocal, -⟩
      · exact hlocal.call token hother
      · rw [hlocal.call token hother, hran.call]

/-! ## The invariant -/

/-- The lock is owned as the log says, and calls that have not read yet were
not elected. -/
structure Tracked (state : State Token Value Raw) : Prop where
  owned : TokenLock.Owned (lockView state)
  fresh : ∀ token, (state.call token).unread = true →
    TokenLock.Event.elected token ∉ state.log

theorem Tracked.step {config : Config} {codec : Codec Value Raw}
    {state next : State Token Value Raw} {action : Action Token Value}
    (htracked : Tracked state)
    (hstep : Cache.step config codec state action = some next) :
    Tracked next := by
  cases hcaller : action.caller with
  | none =>
      obtain ⟨hlock, hcall, helected⟩ := environment_refines hcaller hstep
      refine ⟨htracked.owned.step hlock, fun token hunread hmem => ?_⟩
      rw [hcall] at hunread
      exact htracked.fresh token hunread (helected token hmem)
  | some token =>
      rcases caller_cases hcaller hstep with
        ⟨hidle, hlocal⟩ | ⟨base, hran, hlocal, hread⟩
      · refine ⟨hlocal.lockView ▸ htracked.owned, fun other hunread => ?_⟩
        rw [hlocal.log]
        by_cases hother : other = token
        · subst hother
          exact htracked.fresh other (by rw [hidle]; rfl)
        · rw [hlocal.call other hother] at hunread
          exact htracked.fresh other hunread
      · have hlock := hran.refines (htracked.fresh token)
        refine ⟨hlocal.lockView ▸ htracked.owned.step hlock,
          fun other hunread hmem => ?_⟩
        have hother : other ≠ token := by
          rintro rfl
          rw [hread] at hunread
          exact Bool.false_ne_true hunread
        rw [hlocal.call other hother, hran.call] at hunread
        rw [hlocal.log] at hmem
        exact htracked.fresh other hunread (hran.elected_mem hother hmem)

theorem tracked_of_reachable {config : Config} {codec : Codec Value Raw}
    {state : State Token Value Raw}
    (hreach : (system Token config codec).Reachable state) :
    Tracked state := by
  refine System.Reachable.invariant Tracked ?_ ?_ hreach
  · rintro state ⟨hlock, -, -, hlog, -⟩
    refine ⟨TokenLock.Owned.init ?_ hlog, fun token _ => ?_⟩
    · rw [lockView, hlock]
      rfl
    · rw [hlog]
      exact List.not_mem_nil
  · intro state action next htracked hstep
    exact htracked.step hstep

/-! ## What other calls can do to a lock -/

/-- A call does not touch a lock that another call holds. -/
theorem lock_untouched {config : Config} {codec : Codec Value Raw}
    {state next : State Token Value Raw} {action : Action Token Value}
    {token holder : Token} (hcaller : action.caller = some token)
    (hstep : step config codec state action = some next)
    (hother : token ≠ holder)
    (hheld : state.store.lock.get state.clock = some holder) :
    next.clock = state.clock ∧ next.store.lock = state.store.lock := by
  have hnot : state.store.lock.get state.clock ≠ some token := by
    rw [hheld]
    exact fun heq => hother (Option.some.inj heq).symm
  rcases caller_cases hcaller hstep with
    ⟨-, hlocal⟩ | ⟨base, hran, hlocal, -⟩
  · exact ⟨hlocal.clock, by rw [hlocal.store]⟩
  · rw [hlocal.clock, hlocal.store]
    cases hran with
    | nothing => exact ⟨rfl, rfl⟩
    | load value => exact ⟨rfl, rfl⟩
    | read ttl stale now hcall =>
        rcases runRead_cases state ttl stale now token with
          ⟨hfree, -⟩ | hnext
        · rw [hheld] at hfree
          simp at hfree
        · rw [hnext]
          exact ⟨rfl, rfl⟩
    | store stale now value raw background hcall =>
        rcases runStore_cases state token raw now stale with
          ⟨howned, -⟩ | ⟨-, hnext⟩
        · exact absurd howned hnot
        · rw [hnext]
          exact ⟨rfl, rfl⟩
    | unlock failure hcall =>
        rcases runUnlock_cases state token with ⟨howned, -⟩ | ⟨-, hnext⟩
        · exact absurd howned hnot
        · rw [hnext]
          exact ⟨rfl, rfl⟩

/-- A call leaves the lock of another call in place. -/
theorem lock_kept {config : Config} {codec : Codec Value Raw}
    {state next : State Token Value Raw} {action : Action Token Value}
    {token holder : Token} (hcaller : action.caller = some token)
    (hstep : step config codec state action = some next)
    (hother : token ≠ holder)
    (hheld : state.store.lock.get state.clock = some holder) :
    next.store.lock.get next.clock = some holder := by
  obtain ⟨hclock, hlock⟩ := lock_untouched hcaller hstep hother hheld
  rw [hclock, hlock, hheld]

/-- A call writes the data key only by an effective `_STORE_LUA`, which the
log records. -/
theorem data_written {config : Config} {codec : Codec Value Raw}
    {state next : State Token Value Raw} {action : Action Token Value}
    {token : Token} (hcaller : action.caller = some token)
    (hstep : step config codec state action = some next)
    (hdata : next.store.data ≠ state.store.data) :
    next.log = state.log ++ [.committed token] := by
  rcases caller_cases hcaller hstep with
    ⟨-, hlocal⟩ | ⟨base, hran, hlocal, -⟩
  · rw [hlocal.store] at hdata
    exact absurd rfl hdata
  · rw [hlocal.store] at hdata
    rw [hlocal.log]
    cases hran with
    | nothing => exact absurd rfl hdata
    | load value => exact absurd rfl hdata
    | read ttl stale now hcall =>
        rcases runRead_cases state ttl stale now token with
          ⟨-, hnext⟩ | hnext
        · rw [hnext] at hdata
          exact absurd rfl hdata
        · rw [hnext] at hdata
          exact absurd rfl hdata
    | store stale now value raw background hcall =>
        rcases runStore_cases state token raw now stale with
          ⟨-, hnext⟩ | ⟨-, hnext⟩
        · rw [hnext]
        · rw [hnext] at hdata
          exact absurd rfl hdata
    | unlock failure hcall =>
        rcases runUnlock_cases state token with ⟨-, hnext⟩ | ⟨-, hnext⟩
        · rw [hnext] at hdata
          exact absurd rfl hdata
        · rw [hnext] at hdata
          exact absurd rfl hdata

/-- In every reachable state: tenures of the lock that end in an effective
`_STORE_LUA` are disjoint and in the order of the elections, every effective
store ends such a tenure, a store after `invalidate` belongs to a later
election, and no call removes the lock of another one.  The log is tied to
the two keys by what a call does to them in one step. -/
theorem effective_stores_ordered {config : Config}
    {codec : Codec Value Raw} {state : State Token Value Raw}
    (hreach : (system Token config codec).Reachable state) :
    (∀ left right leftFirst leftLast rightFirst rightLast,
      TokenLock.Tenure state.log left leftFirst leftLast →
      TokenLock.Tenure state.log right rightFirst rightLast →
        (left ≠ right → leftLast < rightFirst ∨ rightLast < leftFirst) ∧
        (leftFirst < rightFirst ↔ leftLast < rightLast)) ∧
    (∀ (token : Token) (last : ℕ),
      state.log[last]? = some (.committed token) →
        ∃ first, TokenLock.Tenure state.log token first last) ∧
    (∀ index token first last, state.log[index]? = some .reset →
      TokenLock.Tenure state.log token first last →
        index < last → index < first) ∧
    (∀ token, state.store.lock.get state.clock = some token →
      state.log.getLast? = some (.elected token)) ∧
    (∀ action token next, action.caller = some token →
      step config codec state action = some next →
        (∀ holder, token ≠ holder →
          state.store.lock.get state.clock = some holder →
            next.store.lock.get next.clock = some holder) ∧
        (next.store.data ≠ state.store.data →
          next.log = state.log ++ [.committed token])) := by
  have howned : TokenLock.Owned (lockView state) :=
    (tracked_of_reachable hreach).owned
  refine ⟨?_, ?_, ?_, ?_, ?_⟩
  · intro left right leftFirst leftLast rightFirst rightLast hleft hright
    refine ⟨fun hne => howned.tenures_disjoint hne hleft hright, ?_⟩
    exact howned.commits_in_order hleft hright
  · intro token last hcommit
    exact howned.exists_tenure hcommit
  · intro index token first last hreset htenure hlt
    exact howned.elected_after (by simp) hreset hlt htenure
  · intro token hheld
    obtain ⟨last, hlast, helected⟩ := howned.held token hheld
    have hindex : state.log.length - 1 = last := by
      rw [show state.log.length = last + 1 from hlast.symm]
      simp
    rw [List.getLast?_eq_getElem?, hindex]
    exact helected
  · intro action token next hcaller hstep
    refine ⟨fun holder hother hheld => ?_, data_written hcaller hstep⟩
    exact lock_kept hcaller hstep hother hheld

/-- Values that are their own serialisation. -/
def plainCodec : Codec ℤ ℤ where
  dumps := some
  size value := value.natAbs
  loads := some

def plainConfig : Config := ⟨10, 1000⟩

/-- No call has started and neither key is set. -/
def emptyCache : State (Fin 2) ℤ ℤ where
  clock := 0
  store := ⟨none, none⟩
  call _ := .idle
  answer _ := none
  log := []
  loaded _ := none
  writer := none
  origin _ := none

/-- The first leader outlives its lock; the second call is elected, and its
value is stored before the first leader tries to store. -/
def slowLeaderActions : List (Action (Fin 2) ℤ) :=
  [.begin 0 60 300 100, .read 0 false .answered, .elapse 16,
    .begin 1 60 300 116, .read 1 false .answered, .compute 1 7 117,
    .store 1 .answered, .compute 0 5 117, .store 0 .answered]

theorem slow_leader_ordered :
    ∃ state ∈ (system (Fin 2) plainConfig plainCodec).run emptyCache
        slowLeaderActions,
      state.store.data = Slot.set ⟨7, 117⟩ 316 ∧
      (∀ left right leftFirst leftLast rightFirst rightLast,
        TokenLock.Tenure state.log left leftFirst leftLast →
        TokenLock.Tenure state.log right rightFirst rightLast →
          (left ≠ right → leftLast < rightFirst ∨ rightLast < leftFirst) ∧
          (leftFirst < rightFirst ↔ leftLast < rightLast)) := by
  obtain ⟨state, hrun, hdata⟩ :
      ∃ state ∈ (system (Fin 2) plainConfig plainCodec).run emptyCache
          slowLeaderActions, state.store.data = Slot.set ⟨7, 117⟩ 316 := by
    decide +kernel
  have hinit : (system (Fin 2) plainConfig plainCodec).Init emptyCache :=
    ⟨rfl, fun _ => rfl, fun _ => rfl, rfl, fun _ => rfl, rfl, fun _ => rfl⟩
  exact ⟨state, hrun, hdata,
    (effective_stores_ordered (System.reachable_of_run hinit hrun)).1⟩

end UTTG.Cache
