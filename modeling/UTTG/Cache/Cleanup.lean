import UTTG.Cache.Loaders

/-!
# What a finished call leaves behind

`_compute_and_store` and the refusal of `_schedule_refresh` end by a script
that removes the lock only where it still names the call.  Whatever other calls
do in between, a call whose own scripts are answered leaves no lock of its own,
takes no lock of another one away, and writes the data key only where it gets
as far as `_STORE_LUA`.
-/

namespace UTTG.Cache

open UTTG.Expiring UTTG.Transition

variable {Token Value Raw : Type*} [DecidableEq Token]

/-- The call is in `_compute_and_store`, or in the refusal of
`_schedule_refresh`. -/
def Call.works : Call Value Raw → Bool
  | .computing _ _ _ => true
  | .storing _ _ _ _ _ => true
  | .unlocking _ => true
  | _ => false

/-- The call is about to execute `_STORE_LUA`. -/
def Call.stores : Call Value Raw → Bool
  | .storing _ _ _ _ _ => true
  | _ => false

/-- The call is not cancelled, and its own scripts are answered.  Other calls
and the environment do as they like. -/
def Undisturbed (token : Token) : Action Token Value → Prop
  | .store caller reply => caller = token → reply = .answered
  | .unlock caller reply => caller = token → reply = .answered
  | .crash caller => caller ≠ token
  | _ => True

/-- The loader of the call raises or runs into its timeout, or returns a value
that cannot be serialised or is too large. -/
def Action.Fails (config : Config) (codec : Codec Value Raw) (token : Token) :
    Action Token Value → Prop
  | .fail caller => caller = token
  | .compute caller value _ => caller = token ∧
      ∀ raw, codec.dumps value = some raw →
        config.cacheMaxValueBytes < codec.size raw
  | _ => False

omit [DecidableEq Token] in
theorem Action.Fails.caller {config : Config} {codec : Codec Value Raw}
    {token : Token} {action : Action Token Value}
    (hfails : action.Fails config codec token) :
    action.caller = some token := by
  cases action with
  | fail caller => exact congrArg some hfails
  | compute caller value now => exact congrArg some hfails.1
  | _ => exact hfails.elim

/-! ## The lock -/

/-- A step of another call, or of the environment, does not bring the lock of
a call back. -/
theorem holder_of_other {config : Config} {codec : Codec Value Raw}
    {state next : State Token Value Raw} {action : Action Token Value}
    {token : Token} (htracked : Tracked state)
    (hcaller : action.caller ≠ some token)
    (hstep : step config codec state action = some next)
    (hfree : state.store.lock.get state.clock ≠ some token) :
    next.store.lock.get next.clock ≠ some token := by
  cases hactor : action.caller with
  | none =>
      obtain ⟨hlock, -, helected⟩ := environment_refines hactor hstep
      exact hlock.holder_ne hfree (helected token)
  | some actor =>
      have hother : token ≠ actor := by
        rintro rfl
        exact hcaller hactor
      rcases caller_cases hactor hstep with
        ⟨-, hlocal⟩ | ⟨base, hran, hlocal, -⟩
      · rw [hlocal.clock, hlocal.store]
        exact hfree
      · rw [hlocal.clock, hlocal.store]
        exact (hran.refines (htracked.fresh actor)).holder_ne hfree
          (hran.elected_mem hother)

/-- The scripts that end a call leave no lock of that call. -/
theorem holder_of_runStore (state : State Token Value Raw) (token : Token)
    (raw : Raw) (now stale : ℤ) :
    (state.runStore token raw now stale).store.lock.get state.clock ≠
      some token := by
  rcases runStore_cases state token raw now stale with
    ⟨-, hnext⟩ | ⟨hfree, hnext⟩
  · rw [hnext]
    simp [Slot.get_del]
  · rw [hnext]
    exact hfree

theorem holder_of_runUnlock (state : State Token Value Raw) (token : Token) :
    (state.runUnlock token).store.lock.get state.clock ≠ some token := by
  rcases runUnlock_cases state token with ⟨-, hnext⟩ | ⟨hfree, hnext⟩
  · rw [hnext]
    simp [Slot.get_del]
  · rw [hnext]
    exact hfree

/-- The call is at work, or it has ended and left no lock. -/
def CleanedUp (token : Token) (state : State Token Value Raw) : Prop :=
  (state.call token).works = true ∨
    (state.call token = .ended ∧
      state.store.lock.get state.clock ≠ some token)

/-- A value that is not too large is stored next, any other one is dropped. -/
theorem call_afterCompute (state : State Token Value Raw) (config : Config)
    (codec : Codec Value Raw) (token : Token) (stale : ℤ) (background : Bool)
    (value : Value) (now : ℤ) :
    ((∀ raw, codec.dumps value = some raw →
          config.cacheMaxValueBytes < codec.size raw) ∧
        ∃ failure, (state.afterCompute config codec token stale background
          value now).call token = .unlocking failure) ∨
      ∃ raw, codec.dumps value = some raw ∧
        codec.size raw ≤ config.cacheMaxValueBytes ∧
        (state.afterCompute config codec token stale background value
          now).call token = .storing stale now value raw background := by
  rw [State.afterCompute]
  cases hdumps : codec.dumps value with
  | none => exact .inl ⟨by simp, _, abort_call_self ..⟩
  | some raw =>
      by_cases hsize : config.cacheMaxValueBytes < codec.size raw
      · left
        simp only [if_pos hsize]
        refine ⟨fun other hother => ?_, _, abort_call_self ..⟩
        rw [← Option.some.inj hother]
        exact hsize
      · right
        simp only [if_neg hsize]
        exact ⟨raw, rfl, not_lt.mp hsize, goto_call_self ..⟩

theorem call_afterStore (state : State Token Value Raw) (token : Token)
    (value : Value) (background : Bool) :
    (state.afterStore token value background).call token = .ended := by
  cases background with
  | false => exact goto_call_self ..
  | true => exact goto_call_self ..

theorem call_afterUnlock (state : State Token Value Raw) (token : Token)
    (failure : Option Failure) :
    (state.afterUnlock token failure).call token = .ended := by
  cases failure with
  | none => exact goto_call_self ..
  | some failure => exact raise_call_self ..

/-- A step of the call itself goes on or ends it, and then its lock is
gone. -/
theorem CleanedUp.of_works {config : Config} {codec : Codec Value Raw}
    {state next : State Token Value Raw} {action : Action Token Value}
    {token : Token} (hcaller : action.caller = some token)
    (hworks : (state.call token).works = true)
    (hundisturbed : Undisturbed token action)
    (hstep : step config codec state action = some next) :
    CleanedUp token next := by
  have hstarts := (moves_of_step hcaller hstep).1
  cases action with
  | compute caller value now =>
      obtain rfl : caller = token := Option.some.inj hcaller
      left
      simp only [step] at hstep
      split at hstep
      case h_1 stale since background hcall =>
        obtain rfl := Option.some.inj hstep
        rcases call_afterCompute _ config codec caller stale background value
          now with ⟨-, failure, hnext⟩ | ⟨raw, -, -, hnext⟩
        · rw [hnext]
          rfl
        · rw [hnext]
          rfl
      case h_2 => simp at hstep
  | fail caller =>
      obtain rfl : caller = token := Option.some.inj hcaller
      left
      simp only [step] at hstep
      split at hstep
      case h_1 stale since background hcall =>
        rw [← Option.some.inj hstep, abort_call_self]
        rfl
      case h_2 => simp at hstep
  | store caller reply =>
      obtain rfl : caller = token := Option.some.inj hcaller
      obtain rfl : reply = .answered := hundisturbed rfl
      right
      simp only [step] at hstep
      split at hstep
      case h_1 stale now value raw background hcall =>
        obtain rfl := Option.some.inj hstep
        have hlocal := (Proceeds.afterStore (state.runStore caller raw now
          stale) caller value background).1
        refine ⟨call_afterStore .., ?_⟩
        rw [hlocal.clock, hlocal.store]
        exact holder_of_runStore state caller raw now stale
      case h_2 => simp at hstep
  | unlock caller reply =>
      obtain rfl : caller = token := Option.some.inj hcaller
      obtain rfl : reply = .answered := hundisturbed rfl
      right
      simp only [step] at hstep
      split at hstep
      case h_1 failure hcall =>
        obtain rfl := Option.some.inj hstep
        have hlocal := (Proceeds.afterUnlock (state.runUnlock caller) caller
          failure).1
        refine ⟨call_afterUnlock .., ?_⟩
        rw [hlocal.clock, hlocal.store]
        exact holder_of_runUnlock state caller
      case h_2 => simp at hstep
  | crash caller => exact absurd (Option.some.inj hcaller) hundisturbed
  | begin | read | check | poll =>
      -- a call at work is past these
      cases hcall : state.call token with
      | computing | storing | unlocking =>
          rw [hcall] at hstarts
          exact absurd hstarts (by simp [Action.startsFrom])
      | _ =>
          rw [hcall] at hworks
          exact absurd hworks (by simp [Call.works])
  | _ => simp [Action.caller] at hcaller

/-- An ended call takes no step but to be cancelled. -/
theorem not_caller_of_ended {config : Config} {codec : Codec Value Raw}
    {state next : State Token Value Raw} {action : Action Token Value}
    {token : Token} (hended : state.call token = .ended)
    (hundisturbed : Undisturbed token action)
    (hstep : step config codec state action = some next) :
    action.caller ≠ some token := by
  intro hcaller
  have hstarts := (moves_of_step hcaller hstep).1
  rw [hended] at hstarts
  cases action with
  | crash caller => exact hundisturbed (Option.some.inj hcaller)
  | _ => simp [Action.startsFrom] at hstarts

theorem CleanedUp.step {config : Config} {codec : Codec Value Raw}
    {state next : State Token Value Raw} {action : Action Token Value}
    {token : Token} (htracked : Tracked state)
    (hclean : CleanedUp token state)
    (hundisturbed : Undisturbed token action)
    (hstep : Cache.step config codec state action = some next) :
    CleanedUp token next := by
  by_cases hcaller : action.caller = some token
  · rcases hclean with hworks | ⟨hended, -⟩
    · exact CleanedUp.of_works hcaller hworks hundisturbed hstep
    · exact absurd hcaller (not_caller_of_ended hended hundisturbed hstep)
  · have hcall := call_of_other hcaller hstep
    rcases hclean with hworks | ⟨hended, hfree⟩
    · left
      rw [hcall]
      exact hworks
    · right
      rw [hcall]
      exact ⟨hended, holder_of_other htracked hcaller hstep hfree⟩

/-! ## The data key -/

/-- A call that does not stand before `_STORE_LUA` leaves the data key as it
is. -/
theorem data_kept {config : Config} {codec : Codec Value Raw}
    {state next : State Token Value Raw} {action : Action Token Value}
    {token : Token} (hcaller : action.caller = some token)
    (hstores : (state.call token).stores = false)
    (hstep : step config codec state action = some next) :
    next.store.data = state.store.data := by
  rcases caller_cases hcaller hstep with
    ⟨-, hlocal⟩ | ⟨base, hran, hlocal, -⟩
  · rw [hlocal.store]
  · rw [hlocal.store]
    cases hran with
    | nothing => rfl
    | load value => rfl
    | read ttl stale now hcall =>
        rcases runRead_cases state ttl stale now token with
          ⟨-, hnext⟩ | hnext
        · rw [hnext]
        · rw [hnext]
    | store stale now value raw background hcall =>
        rw [hcall] at hstores
        simp [Call.stores] at hstores
    | unlock failure hcall =>
        rcases runUnlock_cases state token with ⟨-, hnext⟩ | ⟨-, hnext⟩
        · rw [hnext]
        · rw [hnext]

/-- The step is not one of this call, or it leaves the data key as it is. -/
def KeepsData (token : Token) (state : State Token Value Raw)
    (action : Action Token Value) (next : State Token Value Raw) : Prop :=
  action.caller = some token → next.store.data = state.store.data

/-- The step is not one of this call, or it leaves the lock of any other call
as it is. -/
def KeepsLocks (token : Token) (state : State Token Value Raw)
    (action : Action Token Value) (next : State Token Value Raw) : Prop :=
  action.caller = some token → ∀ holder, token ≠ holder →
    state.store.lock.get state.clock = some holder →
      next.clock = state.clock ∧ next.store.lock = state.store.lock

/-- The call gave up: it is about to remove its lock, or it has ended. -/
def Call.gaveUp : Call Value Raw → Bool
  | .unlocking _ => true
  | .ended => true
  | _ => false

theorem gaveUp_of_step {config : Config} {codec : Codec Value Raw}
    {state next : State Token Value Raw} {action : Action Token Value}
    {token : Token} (hgave : (state.call token).gaveUp = true)
    (hstep : step config codec state action = some next) :
    (next.call token).gaveUp = true := by
  by_cases hcaller : action.caller = some token
  · obtain ⟨hstarts, hleads⟩ := moves_of_step hcaller hstep
    cases hcall : state.call token with
    | unlocking | ended =>
        rw [hcall] at hstarts
        cases action with
        | unlock | crash =>
            cases hnext : next.call token with
            | unlocking | ended => rfl
            | _ =>
                rw [hnext] at hleads
                simp [Action.leadsTo] at hleads
        | _ => simp [Action.startsFrom] at hstarts
    | _ =>
        rw [hcall] at hgave
        simp [Call.gaveUp] at hgave
  · rw [call_of_other hcaller hstep]
    exact hgave

theorem Call.not_stores_of_gaveUp {call : Call Value Raw}
    (hgave : call.gaveUp = true) : call.stores = false := by
  cases call with
  | unlocking | ended => rfl
  | _ => simp [Call.gaveUp] at hgave

/-- A call that gave up does not write the data key any more. -/
theorem keepsData_of_gaveUp {config : Config} {codec : Codec Value Raw}
    {start : State Token Value Raw} {actions : List (Action Token Value)}
    {token : Token} (hgave : (start.call token).gaveUp = true) :
    (system Token config codec).Steps (KeepsData token) start actions := by
  have hsteps : (system Token config codec).Steps (fun _ _ _ => True) start
      actions :=
    System.steps_true start actions
  apply System.Steps.of_invariant
    (fun state => (state.call token).gaveUp = true) _ _ hgave hsteps
  · intro state action next hstate hstep _
    exact gaveUp_of_step hstate hstep
  · intro state action next hstate hstep _ hcaller
    exact data_kept hcaller (Call.not_stores_of_gaveUp hstate) hstep

/-- The call has left its loader, or never had one. -/
def Call.past (call : Call Value Raw) : Prop :=
  call.unread = false ∧ call.loading = false

theorem past_of_step {config : Config} {codec : Codec Value Raw}
    {state next : State Token Value Raw} {action : Action Token Value}
    {token : Token} (hpast : (state.call token).past)
    (hstep : step config codec state action = some next) :
    (next.call token).past := by
  by_cases hcaller : action.caller = some token
  · constructor
    · rcases caller_cases hcaller hstep with
        ⟨hidle, -⟩ | ⟨base, -, -, hunread⟩
      · rw [hidle] at hpast
        exact absurd hpast.1 (by simp [Call.unread])
      · exact hunread
    · apply loading_of_step hcaller _ hstep
      rintro full reply rfl
      have hstarts := (moves_of_step hcaller hstep).1
      cases hcall : state.call token with
      | reading =>
          rw [hcall] at hpast
          exact absurd hpast.1 (by simp [Call.unread])
      | _ =>
          rw [hcall] at hstarts
          simp [Action.startsFrom] at hstarts
  · rw [call_of_other hcaller hstep]
    exact hpast

/-- Loaders fail only where they run. -/
theorem loading_of_fails {config : Config} {codec : Codec Value Raw}
    {state next : State Token Value Raw} {action : Action Token Value}
    {token : Token} (hfails : action.Fails config codec token)
    (hstep : step config codec state action = some next) :
    (state.call token).loading = true := by
  have hstarts := (moves_of_step hfails.caller hstep).1
  cases action with
  | fail | compute =>
      cases hcall : state.call token with
      | computing => rfl
      | _ =>
          rw [hcall] at hstarts
          simp [Action.startsFrom] at hstarts
  | _ => exact hfails.elim

theorem not_fails_of_past {config : Config} {codec : Codec Value Raw}
    {start final : State Token Value Raw}
    {actions : List (Action Token Value)} {token : Token}
    (hpast : (start.call token).past)
    (hrun : (system Token config codec).run start actions = some final) :
    ∀ action ∈ actions, ¬action.Fails config codec token := by
  induction actions generalizing start with
  | nil => simp
  | cons action rest ih =>
      obtain ⟨next, hstep, hrest⟩ := Option.bind_eq_some_iff.mp hrun
      intro other hmem
      rcases List.mem_cons.mp hmem with rfl | hmem
      · intro hfails
        have hloading := loading_of_fails hfails hstep
        rw [hpast.2] at hloading
        exact Bool.false_ne_true hloading
      · exact ih (past_of_step hpast hstep) hrest other hmem

/-- A failure of the loader takes the call to `_UNLOCK_LUA`. -/
theorem gaveUp_of_fails {config : Config} {codec : Codec Value Raw}
    {state next : State Token Value Raw} {action : Action Token Value}
    {token : Token} (hfails : action.Fails config codec token)
    (hstep : step config codec state action = some next) :
    (next.call token).gaveUp = true := by
  cases action with
  | fail caller =>
      obtain rfl : caller = token := hfails
      simp only [step] at hstep
      split at hstep
      case h_1 stale since background hcall =>
        rw [← Option.some.inj hstep, abort_call_self]
        rfl
      case h_2 => simp at hstep
  | compute caller value now =>
      obtain ⟨rfl, hsize⟩ := hfails
      simp only [step] at hstep
      split at hstep
      case h_1 stale since background hcall =>
        obtain rfl := Option.some.inj hstep
        rcases call_afterCompute _ config codec caller stale background value
          now with ⟨-, failure, hnext⟩ | ⟨raw, hdumps, hfits, -⟩
        · rw [hnext]
          rfl
        · exact absurd hfits (not_le.mpr (hsize raw hdumps))
      case h_2 => simp at hstep
  | _ => exact hfails.elim

/-- A step of a call in its loader takes it out of the loader. -/
theorem past_of_loading {config : Config} {codec : Codec Value Raw}
    {state next : State Token Value Raw} {action : Action Token Value}
    {token : Token} (hcaller : action.caller = some token)
    (hloading : (state.call token).loading = true)
    (hstep : step config codec state action = some next) :
    (next.call token).past := by
  have hstarts := (moves_of_step hcaller hstep).1
  cases hcall : state.call token with
  | computing stale since background =>
      rw [hcall] at hstarts
      constructor
      · rcases caller_cases hcaller hstep with
          ⟨hidle, -⟩ | ⟨base, -, -, hunread⟩
        · rw [hidle] at hcall
          simp at hcall
        · exact hunread
      · apply loading_of_step hcaller _ hstep
        rintro full reply rfl
        simp [Action.startsFrom] at hstarts
  | _ =>
      rw [hcall] at hloading
      simp [Call.loading] at hloading

omit [DecidableEq Token] in
theorem Call.not_stores_of_loading {call : Call Value Raw}
    (hloading : call.loading = true) : call.stores = false := by
  cases call with
  | computing => rfl
  | _ => simp [Call.loading] at hloading

/-- A call whose loader fails does not write the data key: nothing does before
the failure, and afterwards the call gave up. -/
theorem keepsData_of_fails {config : Config} {codec : Codec Value Raw}
    {start final : State Token Value Raw}
    {actions : List (Action Token Value)} {token : Token}
    (hloading : (start.call token).loading = true)
    (hrun : (system Token config codec).run start actions = some final)
    (hfails : ∃ action ∈ actions, action.Fails config codec token) :
    (system Token config codec).Steps (KeepsData token) start actions := by
  induction actions generalizing start with
  | nil => trivial
  | cons action rest ih =>
      obtain ⟨next, hstep, hrest⟩ := Option.bind_eq_some_iff.mp hrun
      intro other hother
      obtain rfl : next = other := Option.some.inj (hstep.symm.trans hother)
      by_cases hcaller : action.caller = some token
      · refine ⟨fun _ => data_kept hcaller
          (Call.not_stores_of_loading hloading) hstep, ?_⟩
        by_cases hfailed : action.Fails config codec token
        · exact keepsData_of_gaveUp (gaveUp_of_fails hfailed hstep)
        · obtain ⟨failing, hmem, hfailing⟩ := hfails
          have hpast := past_of_loading hcaller hloading hstep
          rcases List.mem_cons.mp hmem with rfl | hmem
          · exact absurd hfailing hfailed
          · exact absurd hfailing (not_fails_of_past hpast hrest failing hmem)
      · refine ⟨fun hsame => absurd hsame hcaller, ?_⟩
        have hnext : (next.call token).loading = true := by
          rw [call_of_other hcaller hstep]
          exact hloading
        have hlater : ∃ failing ∈ rest, failing.Fails config codec token := by
          obtain ⟨failing, hmem, hfailing⟩ := hfails
          rcases List.mem_cons.mp hmem with rfl | hmem
          · exact absurd hfailing.caller hcaller
          · exact ⟨failing, hmem, hfailing⟩
        exact ih hnext hrest hlater

/-- A call at work either runs its loader or is past it. -/
theorem Call.past_or_loading {call : Call Value Raw}
    (hworks : call.works = true) : call.past ∨ call.loading = true := by
  cases call with
  | computing => exact .inr rfl
  | storing | unlocking => exact .inl ⟨rfl, rfl⟩
  | _ => simp [Call.works] at hworks

/-- Where neither the call nor anyone else changes the data key, it is what it
was. -/
theorem data_of_steps {config : Config} {codec : Codec Value Raw}
    {start final : State Token Value Raw}
    {actions : List (Action Token Value)} {token : Token}
    (hown : (system Token config codec).Steps (KeepsData token) start actions)
    (hothers : (system Token config codec).Steps (fun state action next =>
      action.caller ≠ some token → next.store.data = state.store.data) start
        actions)
    (hrun : (system Token config codec).run start actions = some final) :
    final.store.data = start.store.data := by
  induction actions generalizing start with
  | nil =>
      obtain rfl : start = final := by simpa [System.run] using hrun
      rfl
  | cons action rest ih =>
      obtain ⟨next, hstep, hrest⟩ := Option.bind_eq_some_iff.mp hrun
      obtain ⟨hkeeps, howns⟩ := hown next hstep
      obtain ⟨hkept, hleft⟩ := hothers next hstep
      have hsame : next.store.data = start.store.data := by
        by_cases hcaller : action.caller = some token
        · exact hkeeps hcaller
        · exact hkept hcaller
      rw [ih howns hleft hrest, hsame]

/-! ## The end of a call -/

theorem CleanedUp.run {config : Config} {codec : Codec Value Raw}
    {start final : State Token Value Raw}
    {actions : List (Action Token Value)} {token : Token}
    (htracked : Tracked start) (hclean : CleanedUp token start)
    (hundisturbed : ∀ action ∈ actions, Undisturbed token action)
    (hrun : (system Token config codec).run start actions = some final) :
    CleanedUp token final := by
  induction actions generalizing start with
  | nil =>
      obtain rfl : start = final := by simpa [System.run] using hrun
      exact hclean
  | cons action rest ih =>
      obtain ⟨next, hstep, hrest⟩ := Option.bind_eq_some_iff.mp hrun
      obtain ⟨hfirst, htail⟩ := List.forall_mem_cons.mp hundisturbed
      exact ih (htracked.step hstep) (hclean.step htracked hfirst hstep)
        htail hrest

/-- Take a call at work and any run in which it is not cancelled, its own
scripts are answered, and it ends.  The lock does not name it then; it left the
lock of every other call as it was; where its loader failed it left the data
key as it was, so the data is still there unless others change it; and a token
commits at most once, after its election. -/
theorem call_cleans_up {config : Config} {codec : Codec Value Raw}
    {start final : State Token Value Raw}
    {actions : List (Action Token Value)} {token : Token}
    (hreach : (system Token config codec).Reachable start)
    (hworks : (start.call token).works = true)
    (hundisturbed : ∀ action ∈ actions, Undisturbed token action)
    (hrun : (system Token config codec).run start actions = some final)
    (hended : final.call token = .ended) :
    final.store.lock.get final.clock ≠ some token ∧
      (system Token config codec).Steps (KeepsLocks token) start actions ∧
      ((∃ action ∈ actions, action.Fails config codec token) →
        (system Token config codec).Steps (KeepsData token) start actions ∧
          ((system Token config codec).Steps (fun state action next =>
              action.caller ≠ some token →
                next.store.data = state.store.data) start actions →
            final.store.data = start.store.data)) ∧
      ∀ holder last, final.log[last]? = some (.committed holder) →
        (∃ first, TokenLock.Tenure final.log holder first last) ∧
          ∀ other, final.log[other]? = some (.committed holder) →
            other = last := by
  have hsteps : (system Token config codec).Steps (fun _ _ _ => True) start
      actions :=
    System.steps_true start actions
  have hfinal : (system Token config codec).Reachable final :=
    hreach.run hsteps hrun
  refine ⟨?_, ?_, ?_, ?_⟩
  · rcases CleanedUp.run (tracked_of_reachable hreach) (.inl hworks)
      hundisturbed hrun with hstill | ⟨-, hfree⟩
    · rw [hended] at hstill
      exact absurd hstill (by simp [Call.works])
    · exact hfree
  · apply System.Steps.of_invariant (fun _ => True) _ _ trivial hsteps
    · intro state action next _ _ _
      trivial
    · intro state action next _ hstep _ hcaller holder hother hheld
      exact lock_untouched hcaller hstep hother hheld
  · intro hfails
    have hkeeps : (system Token config codec).Steps (KeepsData token) start
        actions := by
      rcases Call.past_or_loading hworks with hpast | hloading
      · obtain ⟨action, hmem, hfailing⟩ := hfails
        exact absurd hfailing (not_fails_of_past hpast hrun action hmem)
      · exact keepsData_of_fails hloading hrun hfails
    exact ⟨hkeeps, fun hothers => data_of_steps hkeeps hothers hrun⟩
  · intro holder last hcommit
    have howned := (tracked_of_reachable hfinal).owned
    refine ⟨howned.exists_tenure hcommit, fun other hother => ?_⟩
    exact howned.commit_once hother hcommit

/-- A first call has stored a value; later the value is stale. -/
def untilRevalidation : List (Action (Fin 2) ℤ) :=
  [.begin 0 60 300 100, .read 0 false .answered, .compute 0 7 100,
    .store 0 .answered, .elapse 100, .begin 1 60 300 200,
    .read 1 false .answered]

/-- The refresh of the second call fails. -/
def failingRefresh : List (Action (Fin 2) ℤ) :=
  [.fail 1, .unlock 1 .answered]

theorem failing_refresh_cleans_up :
    ∃ start ∈ (system (Fin 2) plainConfig plainCodec).run emptyCache
        untilRevalidation,
      ∃ final ∈ (system (Fin 2) plainConfig plainCodec).run start
          failingRefresh,
        final.store.data = Slot.set ⟨7, 100⟩ 300 ∧
        final.store.lock.get final.clock ≠ some 1 ∧
        (system (Fin 2) plainConfig plainCodec).Steps (KeepsLocks 1) start
          failingRefresh := by
  obtain ⟨start, hstart, hworks, final, hrun, hended, hdata⟩ :
      ∃ start ∈ (system (Fin 2) plainConfig plainCodec).run emptyCache
          untilRevalidation,
        (start.call 1).works = true ∧
        ∃ final ∈ (system (Fin 2) plainConfig plainCodec).run start
            failingRefresh,
          final.call 1 = .ended ∧
          final.store.data = Slot.set ⟨7, 100⟩ 300 := by
    decide +kernel
  have hinit : (system (Fin 2) plainConfig plainCodec).Init emptyCache :=
    ⟨rfl, fun _ => rfl, fun _ => rfl, rfl, fun _ => rfl, rfl, fun _ => rfl⟩
  have hundisturbed : ∀ action ∈ failingRefresh, Undisturbed 1 action := by
    simp [failingRefresh, Undisturbed]
  obtain ⟨hfree, hlocks, -⟩ := call_cleans_up
    (System.reachable_of_run hinit hstart) hworks hundisturbed hrun hended
  exact ⟨start, hstart, final, hrun, hdata, hfree, hlocks⟩

end UTTG.Cache
