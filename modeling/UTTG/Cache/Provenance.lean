import UTTG.Cache.SingleFlight

/-!
# Where an answer comes from

What a call returns is what its own loader returned, or what `loads` reads in
the text that `dumps` wrote for the value of another call's loader.
-/

namespace UTTG.Cache

open UTTG.Expiring UTTG.Transition

variable {Token Value Raw : Type*} [DecidableEq Token]

/-- `raw` is what `_compute_and_store` stores for `value`. -/
def Stores (config : Config) (codec : Codec Value Raw) (value : Value)
    (raw : Raw) : Prop :=
  codec.dumps value = some raw ∧ codec.size raw ≤ config.cacheMaxValueBytes

/-- `data` is read from the text that is stored for `value`. -/
def Served (config : Config) (codec : Codec Value Raw) (value data : Value) :
    Prop :=
  ∃ raw, Stores config codec value raw ∧ codec.loads raw = some data

/-- The loader of the call has not returned. -/
def Call.unloaded : Call Value Raw → Bool
  | .idle | .reading _ _ _ | .waiting _ | .asleep _ _ | .computing _ _ _ =>
      true
  | .storing _ _ _ _ _ | .unlocking _ | .ended => false

/-- What a call may be doing, given what its loader has returned. -/
def Call.Fits (config : Config) (codec : Codec Value Raw)
    (loaded : Option Value) : Call Value Raw → Prop
  | .storing _ _ value raw _ =>
      loaded = some value ∧ Stores config codec value raw
  | call => call.unloaded = true → loaded = none

/-- The writer of a text is a call whose loader returned its value. -/
def Wrote (config : Config) (codec : Codec Value Raw)
    (state : State Token Value Raw) (writer : Token) (raw : Raw) : Prop :=
  ∃ value, state.loaded writer = some value ∧ Stores config codec value raw

/-- An answer with data comes from where its origin says. -/
def Accounted (config : Config) (codec : Codec Value Raw)
    (state : State Token Value Raw) (data : Value) (token : Token) :
    Origin Token → Prop
  | .loader => state.loaded token = some data
  | .store none => True
  | .store (some writer) =>
      ∃ value, state.loaded writer = some value ∧
        Served config codec value data

structure Traced (config : Config) (codec : Codec Value Raw)
    (state : State Token Value Raw) : Prop where
  stored : ∀ entry ∈ state.store.data, ∀ writer ∈ state.writer,
    Wrote config codec state writer entry.value.value
  calls : ∀ token,
    (state.call token).Fits config codec (state.loaded token)
  answers : ∀ token data freshness age,
    state.answer token = some (.returned data freshness age) →
      ∃ origin, state.origin token = some origin ∧
        Accounted config codec state data token origin

variable {config : Config} {codec : Codec Value Raw}
variable {state : State Token Value Raw}

omit [DecidableEq Token] in
/-- A call that is not storing fits once its loader has returned. -/
theorem Call.fits_of_loaded {loaded : Option Value} {call : Call Value Raw}
    (hloaded : call.unloaded = false)
    (hstoring : ∀ stale now value raw background,
      call ≠ .storing stale now value raw background) :
    call.Fits config codec loaded := by
  cases call with
  | storing stale now value raw background =>
      exact absurd rfl (hstoring stale now value raw background)
  | _ =>
      intro hunloaded
      rw [hloaded] at hunloaded
      exact absurd hunloaded Bool.false_ne_true

theorem Traced.goto (htraced : Traced config codec state) {token : Token}
    {call : Call Value Raw}
    (hfits : call.Fits config codec (state.loaded token)) :
    Traced config codec (state.goto token call) := by
  refine ⟨htraced.stored, fun other => ?_, htraced.answers⟩
  by_cases hother : other = token
  · subst hother
    simpa [State.goto] using hfits
  · simpa [State.goto, hother] using htraced.calls other

theorem Traced.raise (htraced : Traced config codec state) (token : Token)
    (failure : Failure) : Traced config codec (state.raise token failure) := by
  have hresponded :
      Traced config codec (state.respond token (.raised failure)) := by
    refine ⟨htraced.stored, htraced.calls, ?_⟩
    intro other data freshness age hanswer
    by_cases hother : other = token
    · subst hother
      simp [State.respond] at hanswer
    · exact htraced.answers other data freshness age
        (by simpa [State.respond, hother] using hanswer)
  exact hresponded.goto (Call.fits_of_loaded rfl (by simp))

theorem Traced.deliver (htraced : Traced config codec state) {token : Token}
    {origin : Origin Token} {value : Value}
    (haccounted : Accounted config codec state value token origin)
    (freshness : Freshness) (age : ℤ) :
    Traced config codec (state.deliver token origin value freshness age) := by
  refine ⟨htraced.stored, htraced.calls, ?_⟩
  intro other data freshness' age' hanswer
  by_cases hother : other = token
  · subst hother
    obtain ⟨rfl, -, -⟩ : value = data ∧ freshness = freshness' ∧
        age = age' := by
      simpa [State.deliver, State.respond] using hanswer
    exact ⟨origin, by simp [State.deliver], haccounted⟩
  · obtain ⟨source, hsource, hkept⟩ :=
      htraced.answers other data freshness' age'
        (by simpa [State.deliver, State.respond, hother] using hanswer)
    exact ⟨source, by simpa [State.deliver, hother] using hsource, hkept⟩

theorem Traced.abort (htraced : Traced config codec state) (token : Token)
    (failure : Failure) (background : Bool) :
    Traced config codec (state.abort token failure background) :=
  htraced.goto (Call.fits_of_loaded rfl (by simp))

/-! ## The scripts -/

omit [DecidableEq Token] in
theorem Traced.runRead (htraced : Traced config codec state) (ttl stale now : ℤ)
    (token : Token) :
    Traced config codec (state.runRead ttl stale now token).2 := by
  rcases runRead_cases state ttl stale now token with ⟨-, hnext⟩ | hnext
  · rw [hnext]
    exact ⟨htraced.stored, htraced.calls, htraced.answers⟩
  · rw [hnext]
    exact htraced

theorem Traced.runUnlock (htraced : Traced config codec state) (token : Token) :
    Traced config codec (state.runUnlock token) := by
  rcases runUnlock_cases state token with ⟨-, hnext⟩ | ⟨-, hnext⟩
  · rw [hnext]
    exact ⟨htraced.stored, htraced.calls, htraced.answers⟩
  · rw [hnext]
    exact htraced

theorem Traced.runStore (htraced : Traced config codec state) {token : Token}
    {stale now : ℤ} {value : Value} {raw : Raw} {background : Bool}
    (hcall : state.call token = .storing stale now value raw background) :
    Traced config codec (state.runStore token raw now stale) := by
  have hfits := htraced.calls token
  rw [hcall] at hfits
  rcases runStore_cases state token raw now stale with ⟨-, hnext⟩ | ⟨-, hnext⟩
  · rw [hnext]
    refine ⟨?_, htraced.calls, htraced.answers⟩
    intro entry hentry writer hwriter
    obtain rfl : token = writer := by simpa using hwriter
    obtain rfl : entry = ⟨⟨raw, now⟩, some (state.clock + stale)⟩ := by
      simpa [Slot.set, eq_comm] using hentry
    exact ⟨value, hfits⟩
  · rw [hnext]
    exact htraced

omit [DecidableEq Token] in
/-- `_READ_LUA` replies with the stored text or with none. -/
theorem value_of_readLua {clock : ℚ} {ttl stale now : ℤ} {token : Token}
    {store : Store Token Raw} {raw : Raw}
    (hvalue : (readLua clock ttl stale now token store).1.value = some raw) :
    ∃ entry ∈ store.data, entry.value.value = raw := by
  unfold readLua at hvalue
  split at hvalue
  · next stored hget =>
      obtain ⟨entry, hentry, hstored⟩ := Slot.exists_entry_of_get hget
      refine ⟨entry, hentry, ?_⟩
      rw [hstored]
      split at hvalue
      · exact Option.some.inj hvalue
      · split at hvalue
        · exact Option.some.inj hvalue
        · simp at hvalue
  · simp at hvalue

omit [DecidableEq Token] in
/-- The text is still in the data key after the read script. -/
theorem value_of_runRead {ttl stale now : ℤ} {token : Token} {raw : Raw}
    (hvalue : (state.runRead ttl stale now token).1.value = some raw) :
    ∃ entry ∈ (state.runRead ttl stale now token).2.store.data,
      entry.value.value = raw := by
  obtain ⟨entry, hentry, hstored⟩ := value_of_readLua hvalue
  refine ⟨entry, ?_, hstored⟩
  rcases runRead_cases state ttl stale now token with ⟨-, hnext⟩ | hnext
  · rw [hnext]
    exact hentry
  · rw [hnext]
    exact hentry

omit [DecidableEq Token] in
/-- Data read from the text of the data key is served by its writer. -/
theorem Traced.accounted_of_loads (htraced : Traced config codec state)
    {entry : Entry (Stored Raw) ℚ} (hentry : entry ∈ state.store.data)
    {data : Value} (hloads : codec.loads entry.value.value = some data)
    (token : Token) :
    Accounted config codec state data token (.store state.writer) := by
  cases hwriter : state.writer with
  | none => trivial
  | some writer =>
      obtain ⟨value, hloaded, hstores⟩ :=
        htraced.stored entry hentry writer hwriter
      exact ⟨value, hloaded, _, hstores, hloads⟩

theorem Traced.afterRead (htraced : Traced config codec state)
    {token : Token} (hfresh : state.loaded token = none) (stale : ℤ)
    (full : Bool) {reply : ReadReply Raw}
    (hvalue : ∀ raw ∈ reply.value,
      ∃ entry ∈ state.store.data, entry.value.value = raw) :
    Traced config codec
      (state.afterRead config codec token stale full reply) := by
  unfold State.afterRead
  split
  · next raw hraw =>
      split
      · exact htraced.raise token .undecodable
      · next value hloads =>
          obtain ⟨entry, hentry, rfl⟩ := hvalue raw hraw
          have hdelivered := htraced.deliver
            (htraced.accounted_of_loads hentry hloads token)
            reply.state.freshness reply.age
          split
          · split
            · exact hdelivered.goto (Call.fits_of_loaded rfl (by simp))
            · exact hdelivered.goto fun _ => hfresh
          · exact hdelivered.goto (Call.fits_of_loaded rfl (by simp))
  · split
    · exact htraced.goto fun _ => hfresh
    · exact htraced.goto fun _ => hfresh

theorem Traced.afterPoll (htraced : Traced config codec state) {token : Token}
    (hfresh : state.loaded token = none) (deadline : ℚ) :
    Traced config codec (state.afterPoll codec token deadline
      (state.store.data.get state.clock)) := by
  unfold State.afterPoll
  split
  · next stored hget =>
      split
      · exact htraced.raise token .undecodable
      · next value hloads =>
          obtain ⟨entry, hentry, rfl⟩ := Slot.exists_entry_of_get hget
          exact (htraced.deliver
            (htraced.accounted_of_loads hentry hloads token) .fresh 0).goto
            (Call.fits_of_loaded rfl (by simp))
  · exact htraced.goto fun _ => hfresh

theorem Traced.afterStore (htraced : Traced config codec state) {token : Token}
    {value : Value} (hloaded : state.loaded token = some value)
    (background : Bool) :
    Traced config codec (state.afterStore token value background) := by
  unfold State.afterStore
  split
  · exact htraced.goto (Call.fits_of_loaded rfl (by simp))
  · have haccounted : Accounted config codec state value token .loader := hloaded
    exact (htraced.deliver haccounted .fresh 0).goto
      (Call.fits_of_loaded rfl (by simp))

theorem Traced.afterUnlock (htraced : Traced config codec state) (token : Token)
    (failure : Option Failure) :
    Traced config codec (state.afterUnlock token failure) := by
  cases failure with
  | none => exact htraced.goto (Call.fits_of_loaded rfl (by simp))
  | some failure => exact htraced.raise token failure

/-- A loader that returns is the first one of its call, so nothing that was
loaded before is forgotten. -/
theorem Traced.afterCompute (htraced : Traced config codec state)
    {token : Token} (hfresh : state.loaded token = none) (stale : ℤ)
    (background : Bool) (value : Value) (now : ℤ) :
    Traced config codec ({ state with
      loaded := Function.update state.loaded token (some value) }.afterCompute
        config codec token stale background value now) := by
  have hkept : ∀ other old, state.loaded other = some old →
      Function.update state.loaded token (some value) other = some old := by
    intro other old hold
    have hother : other ≠ token := by
      rintro rfl
      rw [hfresh] at hold
      simp at hold
    rw [Function.update_of_ne hother]
    exact hold
  have hgoto : ∀ call : Call Value Raw, call.Fits config codec (some value) →
      Traced config codec ({ state with
        loaded := Function.update state.loaded token (some value) }.goto
          token call) := by
    intro call hfits
    refine ⟨?_, fun other => ?_, ?_⟩
    · intro entry hentry writer hwriter
      obtain ⟨old, hold, hstores⟩ :=
        htraced.stored entry hentry writer hwriter
      exact ⟨old, hkept writer old hold, hstores⟩
    · by_cases hother : other = token
      · subst hother
        simpa [State.goto] using hfits
      · simpa [State.goto, hother] using htraced.calls other
    · intro other data freshness age hanswer
      obtain ⟨origin, horigin, haccounted⟩ :=
        htraced.answers other data freshness age hanswer
      refine ⟨origin, horigin, ?_⟩
      cases origin with
      | loader => exact hkept other data haccounted
      | store holder =>
          cases holder with
          | none => trivial
          | some writer =>
              obtain ⟨old, hold, hserved⟩ := haccounted
              exact ⟨old, hkept writer old hold, hserved⟩
  unfold State.afterCompute
  split
  · exact hgoto _ (Call.fits_of_loaded rfl (by simp))
  · next raw hdumps =>
      split
      · exact hgoto _ (Call.fits_of_loaded rfl (by simp))
      · next hsize => exact hgoto _ ⟨rfl, hdumps, not_lt.mp hsize⟩

/-! ## Runs -/

omit [DecidableEq Token] in
/-- Before its loader returns a call may take any step that does not store. -/
theorem Traced.fresh (htraced : Traced config codec state) {token : Token}
    {call : Call Value Raw} (hcall : state.call token = call)
    (hunloaded : call.unloaded = true) : state.loaded token = none := by
  have hfits := htraced.calls token
  rw [hcall] at hfits
  cases call with
  | storing stale now value raw background => simp [Call.unloaded] at hunloaded
  | _ => exact hfits hunloaded

theorem Traced.step (htraced : Traced config codec state)
    {next : State Token Value Raw} {action : Action Token Value}
    (hstep : Cache.step config codec state action = some next) :
    Traced config codec next := by
  cases action with
  | elapse duration =>
      simp only [Cache.step, Option.ite_none_right_eq_some,
        Option.some.injEq] at hstep
      obtain ⟨-, rfl⟩ := hstep
      exact ⟨htraced.stored, htraced.calls, htraced.answers⟩
  | dropLock =>
      obtain rfl := Option.some.inj hstep
      exact ⟨htraced.stored, htraced.calls, htraced.answers⟩
  | dropData =>
      obtain rfl := Option.some.inj hstep
      exact ⟨by simp [Slot.del], htraced.calls, htraced.answers⟩
  | invalidate =>
      obtain rfl := Option.some.inj hstep
      exact ⟨by simp [Slot.del], htraced.calls, htraced.answers⟩
  | begin token ttl stale now =>
      simp only [Cache.step] at hstep
      split at hstep
      case h_1 hcall =>
        have hfresh := htraced.fresh hcall rfl
        split at hstep
        · obtain rfl := Option.some.inj hstep
          exact htraced.raise token .badDurations
        · obtain rfl := Option.some.inj hstep
          exact htraced.goto fun _ => hfresh
      case h_2 => simp at hstep
  | read token full reply =>
      simp only [Cache.step] at hstep
      split at hstep
      case h_1 ttl stale now hcall =>
        have hfresh := htraced.fresh hcall rfl
        have hread := htraced.runRead ttl stale now token
        cases reply with
        | answered =>
            obtain rfl := Option.some.inj hstep
            exact hread.afterRead hfresh stale full fun raw hraw =>
              value_of_runRead hraw
        | lost =>
            obtain rfl := Option.some.inj hstep
            exact hread.raise token .unavailable
        | refused =>
            obtain rfl := Option.some.inj hstep
            exact htraced.raise token .unavailable
      case h_2 => simp at hstep
  | check token =>
      simp only [Cache.step] at hstep
      split at hstep
      case h_1 deadline hcall =>
        have hfresh := htraced.fresh hcall rfl
        split at hstep
        · obtain rfl := Option.some.inj hstep
          exact htraced.goto fun _ => hfresh
        · obtain rfl := Option.some.inj hstep
          exact htraced.raise token .busy
      case h_2 => simp at hstep
  | poll token reply =>
      simp only [Cache.step] at hstep
      split at hstep
      case h_1 deadline wake hcall =>
        have hfresh := htraced.fresh hcall rfl
        split at hstep
        · cases reply with
          | answered =>
              obtain rfl := Option.some.inj hstep
              exact htraced.afterPoll hfresh deadline
          | lost =>
              obtain rfl := Option.some.inj hstep
              exact htraced.raise token .unavailable
          | refused =>
              obtain rfl := Option.some.inj hstep
              exact htraced.raise token .unavailable
        · simp at hstep
      case h_2 => simp at hstep
  | compute token value now =>
      simp only [Cache.step] at hstep
      split at hstep
      case h_1 stale since background hcall =>
        obtain rfl := Option.some.inj hstep
        exact htraced.afterCompute (htraced.fresh hcall rfl) stale
          background value now
      case h_2 => simp at hstep
  | fail token =>
      simp only [Cache.step] at hstep
      split at hstep
      case h_1 stale since background hcall =>
        obtain rfl := Option.some.inj hstep
        exact htraced.abort token .loader background
      case h_2 => simp at hstep
  | store token reply =>
      simp only [Cache.step] at hstep
      split at hstep
      case h_1 stale now value raw background hcall =>
        have hloaded : state.loaded token = some value := by
          have hfits := htraced.calls token
          rw [hcall] at hfits
          exact hfits.1
        have hstored := htraced.runStore hcall
        cases reply with
        | answered =>
            obtain rfl := Option.some.inj hstep
            exact hstored.afterStore hloaded background
        | lost =>
            obtain rfl := Option.some.inj hstep
            exact hstored.abort token .unavailable background
        | refused =>
            obtain rfl := Option.some.inj hstep
            exact htraced.abort token .unavailable background
      case h_2 => simp at hstep
  | unlock token reply =>
      simp only [Cache.step] at hstep
      split at hstep
      case h_1 failure hcall =>
        cases reply with
        | answered =>
            obtain rfl := Option.some.inj hstep
            exact (htraced.runUnlock token).afterUnlock token failure
        | lost =>
            obtain rfl := Option.some.inj hstep
            exact (htraced.runUnlock token).afterUnlock token _
        | refused =>
            obtain rfl := Option.some.inj hstep
            exact htraced.afterUnlock token _
      case h_2 => simp at hstep
  | crash token =>
      obtain rfl := Option.some.inj hstep
      exact htraced.goto (Call.fits_of_loaded rfl (by simp))

theorem traced_of_reachable
    (hreach : (system Token config codec).Reachable state) :
    Traced config codec state := by
  refine System.Reachable.invariant (Traced config codec) ?_ ?_ hreach
  · rintro start ⟨-, hidle, hanswer, -, hloaded, hwriter, -⟩
    refine ⟨by simp [hwriter], fun token => ?_, by simp [hanswer]⟩
    rw [hidle token]
    exact fun _ => hloaded token
  · intro before action after htraced hstep
    exact htraced.step hstep

end UTTG.Cache
