import UTTG.Cache.Provenance

/-!
# What "fresh" means

A call of `cached` answers "fresh" with its own loader's value, with an entry
that its read script found young enough, or with whatever its waiting loop
finds in the data key.  Ages come from clock readings of different processes,
while entries expire by the clock of the store.
-/

namespace UTTG.Cache

open UTTG.Expiring UTTG.Transition

variable {Token Value Raw : Type*} [DecidableEq Token]

/-- The number of `_STORE_LUA` runs that took effect. -/
def stores (log : List (TokenLock.Event Token)) : ℕ :=
  log.countP fun event => match event with
    | .committed _ => true
    | _ => false

/-- Of one call: its clock reading, and the effective stores before its read
script. -/
structure Reading where
  now : ℤ
  stores : ℕ

/-- What a step adds to the readings. -/
def notice (state : State Token Value Raw) (action : Action Token Value)
    (readings : Token → Reading) : Token → Reading :=
  match action with
  | .begin token _ _ now =>
      Function.update readings token { readings token with now := now }
  | .read token _ _ =>
      Function.update readings token
        { readings token with stores := stores state.log }
  | _ => readings

/-- The cache with the readings of its calls. -/
def observed (Token : Type*) [DecidableEq Token] {Value Raw : Type*}
    (config : Config) (codec : Codec Value Raw) :
    System (State Token Value Raw × (Token → Reading))
      (Action Token Value) :=
  (system Token config codec).observe (fun _ => ⟨0, 0⟩) notice

/-- A call that answers "fresh" in this step answers with its own loader's
value, with a value stored since its read script, or with one stamped at most
`ttl` before its clock reading; and the age is not negative. -/
def FreshAsTold (codec : Codec Value Raw) (ttl : ℤ)
    (before : State Token Value Raw × (Token → Reading))
    (_ : Action Token Value)
    (after : State Token Value Raw × (Token → Reading)) : Prop :=
  ∀ token value age,
    after.1.answer token = some (.returned value .fresh age) →
    after.1.answer token ≠ before.1.answer token →
      0 ≤ age ∧
        (after.1.loaded token = some value ∧
            after.1.origin token = some .loader ∨
          ∃ stored, before.1.store.data.get before.1.clock = some stored ∧
            codec.loads stored.value = some value ∧
            ((after.2 token).stores < stores before.1.log ∨
              (after.2 token).now - stored.storedAt ≤ ttl))

/-- All calls have the same durations. -/
def SameDurations (ttl stale : ℤ) : Action Token Value → Prop
  | .begin _ given limit _ => given = ttl ∧ limit = stale
  | _ => True

/-- The arguments of `_READ_LUA`: `ttl`, `stale` and `now`. -/
def Call.given : Call Value Raw → Option (ℤ × ℤ × ℤ)
  | .reading ttl stale now => some (ttl, stale, now)
  | _ => none

/-- A read script that finds an entry finds it stamped not after the clock
reading of its call, and at most `stale` before it unless the lock is free. -/
def ReadsInOrder (state : State Token Value Raw) :
    Action Token Value → Prop
  | .read token _ _ =>
      ∀ given ∈ (state.call token).given,
        ∀ stored ∈ state.store.data.get state.clock,
          stored.storedAt ≤ given.2.2 ∧
            (given.2.2 - stored.storedAt ≤ given.2.1 ∨
              state.store.lock.get state.clock = none)
  | _ => True

instance (ttl stale : ℤ) (action : Action Token Value) :
    Decidable (SameDurations ttl stale action) :=
  match action with
  | .begin _ _ _ _ => inferInstanceAs (Decidable (_ ∧ _))
  | .elapse _ | .dropLock | .dropData | .invalidate | .read _ _ _ | .check _
  | .poll _ _ | .compute _ _ _ | .fail _ | .store _ _ | .unlock _ _
  | .crash _ => isTrue trivial

instance (state : State Token Value Raw) (action : Action Token Value) :
    Decidable (ReadsInOrder state action) :=
  match action with
  | .read token _ _ => inferInstanceAs (Decidable
      (∀ given ∈ (state.call token).given, ∀ stored ∈ state.store.data.get
        state.clock, stored.storedAt ≤ given.2.2 ∧ (_ ∨ _)))
  | .elapse _ | .dropLock | .dropData | .invalidate | .begin _ _ _ _
  | .check _ | .poll _ _ | .compute _ _ _ | .fail _ | .store _ _
  | .unlock _ _ | .crash _ => isTrue trivial

/-! ## How a call comes to answer -/

@[simp]
theorem deliver_answer (state : State Token Value Raw) (token : Token)
    (origin : Origin Token) (value : Value) (freshness : Freshness)
    (age : ℤ) (other : Token) :
    (state.deliver token origin value freshness age).answer other =
      if other = token then some (.returned value freshness age)
      else state.answer other := by
  simp [State.deliver, State.respond, Function.update_apply]

@[simp]
theorem raise_answer (state : State Token Value Raw) (token : Token)
    (failure : Failure) (other : Token) :
    (state.raise token failure).answer other =
      if other = token then some (.raised failure)
      else state.answer other := by
  simp [State.raise, State.goto, State.respond, Function.update_apply]

@[simp]
theorem goto_answer (state : State Token Value Raw) (token : Token)
    (call : Call Value Raw) : (state.goto token call).answer = state.answer :=
  rfl

/-- How a step can make a call answer "fresh". -/
inductive Delivers (codec : Codec Value Raw) (state : State Token Value Raw)
    (token : Token) (value : Value) (age : ℤ) : Action Token Value → Prop
  | read (full : Bool) {ttl stale now : ℤ} {stored : Stored Raw}
      (hcall : state.call token = .reading ttl stale now)
      (hget : state.store.data.get state.clock = some stored)
      (hloads : codec.loads stored.value = some value)
      (hage : now - stored.storedAt = age) (hfresh : age ≤ ttl) :
      Delivers codec state token value age (.read token full .answered)
  | poll {deadline wake : ℚ} {stored : Stored Raw}
      (hcall : state.call token = .asleep deadline wake)
      (hget : state.store.data.get state.clock = some stored)
      (hloads : codec.loads stored.value = some value) (hage : 0 = age) :
      Delivers codec state token value age (.poll token .answered)
  | load {stale now : ℤ} {raw : Raw}
      (hcall : state.call token = .storing stale now value raw false)
      (hage : 0 = age) :
      Delivers codec state token value age (.store token .answered)

/-- How a step can make a call answer with data. -/
inductive Answers (codec : Codec Value Raw) (state : State Token Value Raw)
    (token : Token) (value : Value) (freshness : Freshness) (age : ℤ) :
    Action Token Value → Prop
  | read (full : Bool) {ttl stale now : ℤ} {stored : Stored Raw}
      (hcall : state.call token = .reading ttl stale now)
      (hget : state.store.data.get state.clock = some stored)
      (hloads : codec.loads stored.value = some value)
      (hage : now - stored.storedAt = age)
      (hfreshness : (if age ≤ ttl then .fresh else .stale) = freshness) :
      Answers codec state token value freshness age (.read token full .answered)
  | poll {deadline wake : ℚ} {stored : Stored Raw}
      (hcall : state.call token = .asleep deadline wake)
      (hget : state.store.data.get state.clock = some stored)
      (hloads : codec.loads stored.value = some value)
      (hage : 0 = age) (hfreshness : .fresh = freshness) :
      Answers codec state token value freshness age (.poll token .answered)
  | load {stale now : ℤ} {raw : Raw}
      (hcall : state.call token = .storing stale now value raw false)
      (hage : 0 = age) (hfreshness : .fresh = freshness) :
      Answers codec state token value freshness age (.store token .answered)

omit [DecidableEq Token] in
/-- What the read script replies when it finds a value. -/
theorem readLua_found {clock : ℚ} {ttl stale now : ℤ} {token : Token}
    {store : Store Token Raw} {raw : Raw}
    (hvalue : (readLua clock ttl stale now token store).1.value = some raw) :
    ∃ stored, store.data.get clock = some stored ∧ stored.value = raw ∧
      now - stored.storedAt = (readLua clock ttl stale now token store).1.age ∧
      (if now - stored.storedAt ≤ ttl then Freshness.fresh else .stale) =
        (readLua clock ttl stale now token store).1.state.freshness := by
  unfold readLua at hvalue ⊢
  split
  · next stored hget =>
      rw [hget] at hvalue
      simp only at hvalue
      by_cases hage : now - stored.storedAt ≤ ttl
      · rw [if_pos hage] at hvalue ⊢
        exact ⟨stored, hget, Option.some.inj hvalue, rfl, if_pos hage⟩
      · rw [if_neg hage] at hvalue ⊢
        by_cases hstale : now - stored.storedAt ≤ stale
        · rw [if_pos hstale] at hvalue ⊢
          refine ⟨stored, hget, Option.some.inj hvalue, rfl, ?_⟩
          rw [if_neg hage]
          rcases tryLock_cases clock token .revalidate .stale store with
            ⟨-, hlock⟩ | hlock
          · rw [hlock]
            rfl
          · rw [hlock]
            rfl
        · rw [if_neg hstale] at hvalue
          simp at hvalue
  · next hget =>
      rw [hget] at hvalue
      simp at hvalue

theorem answers_afterRead {config : Config} {codec : Codec Value Raw}
    {state : State Token Value Raw} {token other : Token}
    {ttl stale now : ℤ} {full : Bool} {value : Value} {freshness : Freshness}
    {age : ℤ} (hcall : state.call token = .reading ttl stale now)
    (hanswer : ((state.runRead ttl stale now token).2.afterRead config codec
      token stale full (state.runRead ttl stale now token).1).answer other =
        some (.returned value freshness age))
    (hnew : state.answer other ≠ some (.returned value freshness age)) :
    Answers codec state other value freshness age
      (.read token full .answered) := by
  have hsame : (state.runRead ttl stale now token).2.answer = state.answer :=
    rfl
  unfold State.afterRead at hanswer
  split at hanswer
  · next raw hraw =>
      split at hanswer
      · rw [raise_answer, hsame] at hanswer
        split at hanswer
        · simp at hanswer
        · exact absurd hanswer hnew
      · next found hloads =>
          have hdelivered : ((state.runRead ttl stale now token).2.deliver
              token (.store (state.runRead ttl stale now token).2.writer)
              found (state.runRead ttl stale now token).1.state.freshness
              (state.runRead ttl stale now token).1.age).answer other =
                some (.returned value freshness age) := by
            rw [← hanswer]
            split
            · split
              · rfl
              · rfl
            · rfl
          rw [deliver_answer, hsame] at hdelivered
          split at hdelivered
          · next hother =>
              subst hother
              rw [Option.some.injEq, Answer.returned.injEq] at hdelivered
              obtain ⟨rfl, hreplied, hreply⟩ := hdelivered
              obtain ⟨stored, hget, rfl, hage, hfreshness⟩ := readLua_found hraw
              obtain rfl : now - stored.storedAt = age := hage.trans hreply
              exact .read full hcall hget hloads rfl (hfreshness.trans hreplied)
          · exact absurd hdelivered hnew
  · split at hanswer
    · rw [goto_answer, hsame] at hanswer
      exact absurd hanswer hnew
    · rw [goto_answer, hsame] at hanswer
      exact absurd hanswer hnew

theorem answers_afterPoll {codec : Codec Value Raw}
    {state : State Token Value Raw} {token other : Token}
    {deadline wake : ℚ} {value : Value} {freshness : Freshness} {age : ℤ}
    (hcall : state.call token = .asleep deadline wake)
    (hanswer : (state.afterPoll codec token deadline
      (state.store.data.get state.clock)).answer other =
        some (.returned value freshness age))
    (hnew : state.answer other ≠ some (.returned value freshness age)) :
    Answers codec state other value freshness age (.poll token .answered) := by
  unfold State.afterPoll at hanswer
  split at hanswer
  · next stored hget =>
      split at hanswer
      · rw [raise_answer] at hanswer
        split at hanswer
        · simp at hanswer
        · exact absurd hanswer hnew
      · next found hloads =>
          rw [goto_answer, deliver_answer] at hanswer
          split at hanswer
          · next hother =>
              subst hother
              rw [Option.some.injEq, Answer.returned.injEq] at hanswer
              obtain ⟨rfl, hfreshness, hage⟩ := hanswer
              exact .poll hcall hget hloads hage hfreshness
          · exact absurd hanswer hnew
  · exact absurd hanswer hnew

theorem answers_afterStore {codec : Codec Value Raw}
    {state stored : State Token Value Raw} {token other : Token}
    {stale now : ℤ} {loaded value : Value} {raw : Raw} {background : Bool}
    {freshness : Freshness} {age : ℤ}
    (hcall : state.call token = .storing stale now loaded raw background)
    (hanswer : (stored.afterStore token loaded background).answer other =
      some (.returned value freshness age))
    (hnew : stored.answer other ≠ some (.returned value freshness age)) :
    Answers codec state other value freshness age (.store token .answered) := by
  unfold State.afterStore at hanswer
  split at hanswer
  · exact absurd hanswer hnew
  · next hleader =>
      rw [goto_answer, deliver_answer] at hanswer
      split at hanswer
      · next hother =>
          subst hother
          rw [Option.some.injEq, Answer.returned.injEq] at hanswer
          obtain ⟨rfl, hfreshness, hage⟩ := hanswer
          rw [Bool.not_eq_true] at hleader
          exact .load (hleader ▸ hcall) hage hfreshness
      · exact absurd hanswer hnew

theorem raise_not_returned {state : State Token Value Raw} {token other : Token}
    {failure : Failure} {value : Value} {freshness : Freshness} {age : ℤ}
    (hanswer : (state.raise token failure).answer other =
      some (.returned value freshness age)) :
    state.answer other = some (.returned value freshness age) := by
  rw [raise_answer] at hanswer
  split at hanswer
  · simp at hanswer
  · exact hanswer

/-- A call answers with data by its read script, in its waiting loop or with its
own value. -/
theorem answers_of_step {config : Config} {codec : Codec Value Raw}
    {state next : State Token Value Raw} {action : Action Token Value}
    (hstep : step config codec state action = some next) {token : Token}
    {value : Value} {freshness : Freshness} {age : ℤ}
    (hanswer : next.answer token = some (.returned value freshness age))
    (hnew : state.answer token ≠ some (.returned value freshness age)) :
    Answers codec state token value freshness age action := by
  cases action with
  | elapse duration =>
      simp only [step] at hstep
      split at hstep
      · obtain rfl := Option.some.inj hstep
        exact absurd hanswer hnew
      · simp at hstep
  | dropLock | dropData | invalidate | crash caller =>
      obtain rfl := Option.some.inj hstep
      exact absurd hanswer hnew
  | begin caller ttl stale now =>
      simp only [step] at hstep
      split at hstep
      case h_1 =>
        split at hstep
        · obtain rfl := Option.some.inj hstep
          exact absurd (raise_not_returned hanswer) hnew
        · obtain rfl := Option.some.inj hstep
          exact absurd hanswer hnew
      case h_2 => simp at hstep
  | read caller full reply =>
      simp only [step] at hstep
      split at hstep
      case h_1 ttl stale now hcall =>
        cases reply with
        | answered =>
            obtain rfl := Option.some.inj hstep
            exact answers_afterRead hcall hanswer hnew
        | lost | refused =>
            obtain rfl := Option.some.inj hstep
            exact absurd (raise_not_returned hanswer) hnew
      case h_2 => simp at hstep
  | check caller =>
      simp only [step] at hstep
      split at hstep
      case h_1 =>
        split at hstep
        · obtain rfl := Option.some.inj hstep
          exact absurd hanswer hnew
        · obtain rfl := Option.some.inj hstep
          exact absurd (raise_not_returned hanswer) hnew
      case h_2 => simp at hstep
  | poll caller reply =>
      simp only [step] at hstep
      split at hstep
      case h_1 deadline wake hcall =>
        split at hstep
        · cases reply with
          | answered =>
              obtain rfl := Option.some.inj hstep
              exact answers_afterPoll hcall hanswer hnew
          | lost | refused =>
              obtain rfl := Option.some.inj hstep
              exact absurd (raise_not_returned hanswer) hnew
        · simp at hstep
      case h_2 => simp at hstep
  | compute caller loaded now =>
      simp only [step] at hstep
      split at hstep
      case h_1 =>
        obtain rfl := Option.some.inj hstep
        unfold State.afterCompute at hanswer
        split at hanswer
        · exact absurd hanswer hnew
        · split at hanswer
          · exact absurd hanswer hnew
          · exact absurd hanswer hnew
      case h_2 => simp at hstep
  | fail caller =>
      simp only [step] at hstep
      split at hstep
      case h_1 =>
        obtain rfl := Option.some.inj hstep
        exact absurd hanswer hnew
      case h_2 => simp at hstep
  | store caller reply =>
      simp only [step] at hstep
      split at hstep
      case h_1 stale now loaded raw background hcall =>
        cases reply with
        | answered =>
            obtain rfl := Option.some.inj hstep
            exact answers_afterStore hcall hanswer hnew
        | lost | refused =>
            obtain rfl := Option.some.inj hstep
            exact absurd hanswer hnew
      case h_2 => simp at hstep
  | unlock caller reply =>
      simp only [step] at hstep
      split at hstep
      case h_1 failure hcall =>
        cases reply with
        | answered | lost | refused =>
            obtain rfl := Option.some.inj hstep
            cases failure with
            | none => exact absurd hanswer hnew
            | some failure => exact absurd (raise_not_returned hanswer) hnew
      case h_2 => simp at hstep

/-- A call answers "fresh" by its read script, in its waiting loop or with its
own value. -/
theorem delivers_of_step {config : Config} {codec : Codec Value Raw}
    {state next : State Token Value Raw} {action : Action Token Value}
    (hstep : step config codec state action = some next) {token : Token}
    {value : Value} {age : ℤ}
    (hanswer : next.answer token = some (.returned value .fresh age))
    (hnew : state.answer token ≠ some (.returned value .fresh age)) :
    Delivers codec state token value age action := by
  cases answers_of_step hstep hanswer hnew with
  | @read full ttl stale now stored hcall hget hloads hage hfreshness =>
      have hfresh : age ≤ ttl := by
        by_contra hold
        rw [if_neg hold] at hfreshness
        cases hfreshness
      exact .read full hcall hget hloads hage hfresh
  | poll hcall hget hloads hage => exact .poll hcall hget hloads hage
  | load hcall hage => exact .load hcall hage

/-! ## Waiting calls -/

/-- The call is in its waiting loop. -/
def Call.waits : Call Value Raw → Bool
  | .waiting _ | .asleep _ _ => true
  | _ => false

omit [DecidableEq Token] in
/-- A call is sent to wait by a missing entry, or by one that is too old
while somebody holds the lock. -/
theorem readLua_waits {clock : ℚ} {ttl stale now : ℤ} {token : Token}
    {store : Store Token Raw}
    (hstate : (readLua clock ttl stale now token store).1.state = .missWait) :
    store.data.get clock = none ∨ ∃ stored,
      store.data.get clock = some stored ∧ stale < now - stored.storedAt ∧
        store.lock.get clock ≠ none := by
  unfold readLua at hstate
  split at hstate
  · next stored hget =>
      right
      split at hstate
      · simp at hstate
      · split at hstate
        · rcases tryLock_cases clock token .revalidate .stale store with
            ⟨-, hlock⟩ | hlock
          · rw [hlock] at hstate
            simp at hstate
          · rw [hlock] at hstate
            simp at hstate
        · next hstale =>
            refine ⟨stored, hget, not_le.mp hstale, fun hfree => ?_⟩
            have hexist : store.lock.exist clock = false :=
              (Slot.exist_eq_false_iff _ _).mpr hfree
            simp [tryLock, Slot.setNx, hexist] at hstate
  · next hget => exact .inl hget

/-- A call starts to wait by its read script. -/
theorem missWait_of_read {config : Config} {codec : Codec Value Raw}
    {state next : State Token Value Raw} {token : Token} {full : Bool}
    {reply : Reply}
    (hstep : step config codec state (.read token full reply) = some next)
    (hwaits : (next.call token).waits = true) :
    ∃ ttl stale now, state.call token = .reading ttl stale now ∧
      (readLua state.clock ttl stale now token state.store).1.state =
        .missWait := by
  simp only [step] at hstep
  split at hstep
  case h_1 ttl stale now hcall =>
    refine ⟨ttl, stale, now, hcall, ?_⟩
    cases reply with
    | answered =>
        obtain rfl := Option.some.inj hstep
        unfold State.afterRead at hwaits
        split at hwaits
        · split at hwaits
          · simp [Call.waits] at hwaits
          · split at hwaits
            · split at hwaits
              · simp [Call.waits] at hwaits
              · simp [Call.waits] at hwaits
            · simp [Call.waits] at hwaits
        · split at hwaits
          · next hwait => exact hwait
          · simp [Call.waits] at hwaits
    | lost | refused =>
        obtain rfl := Option.some.inj hstep
        simp [Call.waits] at hwaits
  case h_2 => simp at hstep

/-- The data key goes, stays, or is written by a store that takes effect. -/
theorem data_of_step {config : Config} {codec : Codec Value Raw}
    {state next : State Token Value Raw} {action : Action Token Value}
    (hstep : step config codec state action = some next) :
    stores state.log < stores next.log ∨
      stores next.log = stores state.log ∧
        (next.store.data.get next.clock = none ∨
          next.store.data.get next.clock =
            state.store.data.get state.clock) := by
  cases hcaller : action.caller with
  | none =>
      right
      cases action with
      | elapse duration =>
          simp only [step] at hstep
          split at hstep
          case isTrue hduration =>
            obtain rfl := Option.some.inj hstep
            exact ⟨rfl, Slot.get_later state.store.data
              (le_add_of_nonneg_right hduration)⟩
          case isFalse => simp at hstep
      | dropLock =>
          obtain rfl := Option.some.inj hstep
          exact ⟨rfl, .inr rfl⟩
      | dropData =>
          obtain rfl := Option.some.inj hstep
          exact ⟨rfl, .inl rfl⟩
      | invalidate =>
          obtain rfl := Option.some.inj hstep
          exact ⟨by simp [stores], .inl rfl⟩
      | _ => simp [Action.caller] at hcaller
  | some token =>
      rcases caller_cases hcaller hstep with
        ⟨-, hlocal⟩ | ⟨base, hran, hlocal, -⟩
      · right
        rw [hlocal.log, hlocal.store, hlocal.clock]
        exact ⟨rfl, .inr rfl⟩
      · rw [hlocal.log, hlocal.store, hlocal.clock]
        cases hran with
        | nothing => exact .inr ⟨rfl, .inr rfl⟩
        | load value => exact .inr ⟨rfl, .inr rfl⟩
        | read ttl stale now hcall =>
            right
            rcases runRead_cases state ttl stale now token with
              ⟨-, hnext⟩ | hnext
            · rw [hnext]
              exact ⟨by simp [stores], .inr rfl⟩
            · rw [hnext]
              exact ⟨rfl, .inr rfl⟩
        | store stale now value raw background hcall =>
            rcases runStore_cases state token raw now stale with
              ⟨-, hnext⟩ | ⟨-, hnext⟩
            · left
              rw [hnext]
              simp [stores]
            · right
              rw [hnext]
              exact ⟨rfl, .inr rfl⟩
        | unlock failure hcall =>
            right
            rcases runUnlock_cases state token with ⟨-, hnext⟩ | ⟨-, hnext⟩
            · rw [hnext]
              exact ⟨by simp [stores], .inr rfl⟩
            · rw [hnext]
              exact ⟨rfl, .inr rfl⟩

/-- The readings are those of the calls, and a waiting call finds nothing
that was there when it read. -/
structure Awaited (ttl stale : ℤ)
    (pair : State Token Value Raw × (Token → Reading)) : Prop where
  reads : ∀ token given limit now,
    pair.1.call token = .reading given limit now →
      given = ttl ∧ limit = stale ∧ (pair.2 token).now = now
  waits : ∀ token, (pair.1.call token).waits = true →
    (pair.2 token).stores ≤ stores pair.1.log ∧
      (pair.1.store.data.get pair.1.clock = none ∨
        (pair.2 token).stores < stores pair.1.log)

theorem Awaited.init {config : Config} {codec : Codec Value Raw}
    {ttl stale : ℤ} {pair : State Token Value Raw × (Token → Reading)}
    (hinit : (observed Token config codec).Init pair) :
    Awaited ttl stale pair := by
  obtain ⟨⟨-, hidle, -⟩, -⟩ := hinit
  constructor
  · intro token given limit now hcall
    rw [hidle token] at hcall
    simp at hcall
  · intro token hwaits
    rw [hidle token] at hwaits
    simp [Call.waits] at hwaits

/-- Only a call itself changes what is known of it. -/
theorem notice_of_other {state : State Token Value Raw}
    {action : Action Token Value} {token : Token}
    (hcaller : action.caller ≠ some token) (readings : Token → Reading) :
    notice state action readings token = readings token := by
  cases action with
  | begin caller ttl stale now =>
      have hother : token ≠ caller := fun heq => hcaller (heq ▸ rfl)
      simp [notice, hother]
  | read caller full reply =>
      have hother : token ≠ caller := fun heq => hcaller (heq ▸ rfl)
      simp [notice, hother]
  | _ => rfl

/-- What is known of a waiting call stays true when the store changes. -/
theorem waits_of_step {config : Config} {codec : Codec Value Raw}
    {state next : State Token Value Raw} {action : Action Token Value}
    (hstep : step config codec state action = some next) {before : ℕ}
    (hknown : before ≤ stores state.log ∧
      (state.store.data.get state.clock = none ∨ before < stores state.log)) :
    before ≤ stores next.log ∧
      (next.store.data.get next.clock = none ∨ before < stores next.log) := by
  obtain ⟨hle, hcases⟩ := hknown
  rcases data_of_step hstep with hmore | ⟨hsame, hdata⟩
  · have hlt := hle.trans_lt hmore
    exact ⟨hlt.le, .inr hlt⟩
  · rw [hsame]
    refine ⟨hle, ?_⟩
    rcases hcases with hnone | hlt
    · rcases hdata with hgone | hkept
      · exact .inl hgone
      · exact .inl (hkept.trans hnone)
    · exact .inr hlt

/-- A call that is about to read was begun with the durations of all calls, and
its clock reading is known. -/
def ReadsKnown (ttl stale : ℤ)
    (pair : State Token Value Raw × (Token → Reading)) : Prop :=
  ∀ token given limit now, pair.1.call token = .reading given limit now →
    given = ttl ∧ limit = stale ∧ (pair.2 token).now = now

theorem ReadsKnown.step {config : Config} {codec : Codec Value Raw}
    {ttl stale : ℤ} {state next : State Token Value Raw}
    {readings : Token → Reading} {action : Action Token Value}
    (hreads : ReadsKnown ttl stale (state, readings))
    (hstep : Cache.step config codec state action = some next)
    (hsame : SameDurations ttl stale action) :
    ReadsKnown ttl stale (next, notice state action readings) := by
  intro token given limit now hcall
  by_cases hcaller : action.caller = some token
  · have hleads := (moves_of_step hcaller hstep).2
    rw [show next.call token = _ from hcall] at hleads
    cases action with
    | begin caller asked bound reading =>
        obtain rfl : caller = token := Option.some.inj hcaller
        obtain ⟨rfl, rfl⟩ := hsame
        simp only [Cache.step] at hstep
        split at hstep
        case h_1 =>
          split at hstep
          · obtain rfl := Option.some.inj hstep
            simp at hcall
          · obtain rfl := Option.some.inj hstep
            obtain ⟨rfl, rfl, rfl⟩ :
                asked = given ∧ bound = limit ∧ reading = now := by
              simpa using hcall
            exact ⟨rfl, rfl, by simp [notice]⟩
        case h_2 => simp at hstep
    | _ => exact absurd hleads (by simp [Action.leadsTo])
  · simp only [notice_of_other hcaller]
    exact hreads token given limit now
      ((call_of_other hcaller hstep).symm.trans hcall)

theorem Awaited.step {config : Config} {codec : Codec Value Raw}
    {ttl stale : ℤ} {state next : State Token Value Raw}
    {readings : Token → Reading} {action : Action Token Value}
    (hawaited : Awaited ttl stale (state, readings))
    (hstep : Cache.step config codec state action = some next)
    (hsame : SameDurations ttl stale action)
    (horder : ReadsInOrder state action) :
    Awaited ttl stale (next, notice state action readings) := by
  have hreads : ReadsKnown ttl stale (state, readings) := hawaited.reads
  refine ⟨hreads.step hstep hsame, ?_⟩
  intro token hwaits
  apply waits_of_step hstep
  by_cases hcaller : action.caller = some token
  · obtain ⟨hstarts, hleads⟩ := moves_of_step hcaller hstep
    cases action with
    | read caller full reply =>
        obtain rfl : caller = token := Option.some.inj hcaller
        obtain ⟨given, limit, now, hcall, hmiss⟩ :=
          missWait_of_read hstep hwaits
        have hgiven : (given, limit, now) ∈ (state.call caller).given := by
          rw [hcall]
          rfl
        have hnone : state.store.data.get state.clock = none := by
          rcases readLua_waits hmiss with
            hnone | ⟨stored, hget, hold, hlocked⟩
          · exact hnone
          · rcases (horder _ hgiven stored hget).2 with
              hyoung | hfree
            · exact absurd hyoung (not_le.mpr hold)
            · exact absurd hfree hlocked
        exact ⟨by simp [notice], .inl hnone⟩
    | check caller | poll caller reply =>
        have hbefore : (state.call token).waits = true := by
          cases hcall : state.call token with
          | waiting deadline => rfl
          | asleep deadline wake => rfl
          | _ =>
              rw [hcall] at hstarts
              exact absurd hstarts (by simp [Action.startsFrom])
        exact hawaited.waits token hbefore
    | _ =>
        -- no other step ends in the waiting loop
        cases hcall : next.call token with
        | waiting deadline | asleep deadline wake =>
            rw [hcall] at hleads
            exact absurd hleads (by simp [Action.leadsTo])
        | _ =>
            rw [show (next, _).1.call token = _ from hcall] at hwaits
            simp [Call.waits] at hwaits
  · simp only [notice_of_other hcaller]
    have hbefore : (state.call token).waits = true := by
      rw [← call_of_other hcaller hstep]
      exact hwaits
    exact hawaited.waits token hbefore

/-! ## Every run -/

/-- A call that answers "fresh" does so as told, provided the entry it reads
is not stamped later than its clock reading. -/
theorem Delivers.fresh_as_told {config : Config} {codec : Codec Value Raw}
    {ttl stale : ℤ} {state next : State Token Value Raw}
    {readings : Token → Reading} {action : Action Token Value} {token : Token}
    {value : Value} {age : ℤ}
    (hdelivers : Delivers codec state token value age action)
    (hawaited : Awaited ttl stale (state, readings))
    (htraced : Traced config codec state)
    (hstep : Cache.step config codec state action = some next)
    (horder : ReadsInOrder state action) :
    0 ≤ age ∧
      (next.loaded token = some value ∧ next.origin token = some .loader ∨
        ∃ stored, state.store.data.get state.clock = some stored ∧
          codec.loads stored.value = some value ∧
          ((notice state action readings token).stores < stores state.log ∨
            (notice state action readings token).now - stored.storedAt ≤
              ttl)) := by
  cases hdelivers with
  | @read full given limit now stored hcall hget hloads hage hfresh =>
      obtain ⟨rfl, -, hnow⟩ := hawaited.reads token given limit now hcall
      have hgiven : (given, limit, now) ∈ (state.call token).given := by
        rw [hcall]
        rfl
      have hstamp : stored.storedAt ≤ now := (horder _ hgiven stored hget).1
      have hsame : (notice state (.read token full .answered) readings
          token).now = now := by
        simpa [notice] using hnow
      refine ⟨by omega, .inr ⟨stored, hget, hloads, .inr ?_⟩⟩
      rw [hsame, hage]
      exact hfresh
  | @poll deadline wake stored hcall hget hloads hage =>
      have hwaits : (state.call token).waits = true := by
        rw [hcall]
        rfl
      rcases (hawaited.waits token hwaits).2 with hnone | hlater
      · exact absurd (hget.symm.trans hnone) (by simp)
      · exact ⟨hage.le, .inr ⟨stored, hget, hloads, .inl hlater⟩⟩
  | @load limit now raw hcall hage =>
      have hfits := htraced.calls token
      rw [hcall] at hfits
      refine ⟨hage.le, .inl ?_⟩
      simp only [Cache.step, hcall] at hstep
      obtain rfl := Option.some.inj hstep
      have hloaded : (state.runStore token raw now limit).loaded =
          state.loaded := rfl
      exact ⟨(congrFun hloaded token).trans hfits.1, by
        simp [State.afterStore, State.deliver, State.goto]⟩

/-- In every run in which the entries that read scripts find are stamped in
order and are not too old for the script, "fresh" means what it says. -/
theorem fresh_answers {config : Config} {codec : Codec Value Raw}
    (ttl stale : ℤ) {start : State Token Value Raw × (Token → Reading)}
    (hinit : (observed Token config codec).Init start)
    {actions : List (Action Token Value)}
    (hsteps : (observed Token config codec).Steps
      (fun before action _ => SameDurations ttl stale action ∧
        ReadsInOrder before.1 action) start actions) :
    (observed Token config codec).Steps (FreshAsTold codec ttl) start
      actions := by
  refine System.Steps.of_invariant
    (fun pair => Awaited ttl stale pair ∧
      (system Token config codec).Reachable pair.1) ?_ ?_
    ⟨.init hinit, .init hinit.1⟩ hsteps
  · rintro ⟨state, readings⟩ action ⟨next, later⟩ ⟨hawaited, hreach⟩ hstep
      ⟨hsame, horder⟩
    obtain ⟨hnext, rfl⟩ := System.step_observe hstep
    exact ⟨hawaited.step hnext hsame horder, .step hreach hnext trivial⟩
  · rintro ⟨state, readings⟩ action ⟨next, later⟩ ⟨hawaited, hreach⟩ hstep
      ⟨-, horder⟩ token value age hanswer hnew
    obtain ⟨hnext, rfl⟩ := System.step_observe hstep
    rw [hanswer] at hnew
    exact (delivers_of_step hnext hanswer hnew.symm).fresh_as_told hawaited
      (traced_of_reachable hreach) hnext horder

/-- The cache and the readings before any call. -/
def unread : State (Fin 3) ℤ ℤ × (Fin 3 → Reading) :=
  (blank, fun _ => ⟨0, 0⟩)

theorem unread_init :
    (observed (Fin 3) plainConfig plainCodec).Init unread :=
  ⟨blank_init plainConfig plainCodec, rfl⟩

/-- The second call reads its clock, and the first one stores an entry three
seconds later, before the read script of the second call. -/
def delayedRead : List (Action (Fin 3) ℤ) :=
  [.begin 0 60 300 100, .read 0 false .answered, .begin 1 60 300 100,
    .elapse 3, .compute 0 5 103, .store 0 .answered]

/-- The first call stores its entry three seconds after stamping it.  It is
still there 302 seconds after the stamp, too old for the read scripts; the
second call is elected to replace it and the third one waits. -/
def expiredEntry : List (Action (Fin 3) ℤ) :=
  [.begin 0 60 300 100, .read 0 false .answered, .compute 0 5 100, .elapse 3,
    .store 0 .answered, .elapse 299, .begin 1 60 300 402,
    .read 1 false .answered, .begin 2 60 300 402, .read 2 false .answered,
    .check 2, .elapse (1 / 40)]

/-- All clocks agree in these runs.  The first one ends in a fresh answer of
age -3, the second one in a fresh answer that was stored 302 seconds before
the clock reading of its call, and before the call began. -/
theorem fresh_mislabelled :
    (∀ action ∈ delayedRead ++ expiredEntry, SameDurations 60 300 action) ∧
      ¬(observed (Fin 3) plainConfig plainCodec).Steps
        (FreshAsTold plainCodec 60) unread
        (delayedRead ++ [.read 1 false .answered]) ∧
      ¬(observed (Fin 3) plainConfig plainCodec).Steps
        (FreshAsTold plainCodec 60) unread
        (expiredEntry ++ [.poll 2 .answered]) := by
  refine ⟨by simp [delayedRead, expiredEntry, SameDurations], ?_, ?_⟩
  · intro hsteps
    obtain ⟨before, hrun, after, hstep, hanswer, hnew⟩ :
        ∃ before ∈ (observed (Fin 3) plainConfig plainCodec).run unread
            delayedRead,
          ∃ after ∈ (observed (Fin 3) plainConfig plainCodec).step before
              (.read 1 false .answered),
            after.1.answer 1 = some (.returned 5 .fresh (-3)) ∧
              after.1.answer 1 ≠ before.1.answer 1 := by
      decide +kernel
    have hage := (hsteps.of_run hrun hstep 1 5 (-3) hanswer hnew).1
    exact absurd hage (by decide)
  · intro hsteps
    obtain ⟨before, hrun, after, hstep, hanswer, hnew, horigin, hcount, hnow,
        hget⟩ :
        ∃ before ∈ (observed (Fin 3) plainConfig plainCodec).run unread
            expiredEntry,
          ∃ after ∈ (observed (Fin 3) plainConfig plainCodec).step before
              (.poll 2 .answered),
            after.1.answer 2 = some (.returned 5 .fresh 0) ∧
              after.1.answer 2 ≠ before.1.answer 2 ∧
              after.1.origin 2 ≠ some .loader ∧
              (after.2 2).stores = stores before.1.log ∧
              (after.2 2).now = 402 ∧
              before.1.store.data.get before.1.clock = some ⟨5, 100⟩ := by
      decide +kernel
    rcases (hsteps.of_run hrun hstep 2 5 0 hanswer hnew).2 with
      ⟨-, hloader⟩ | ⟨stored, hstored, -, hlater | hyoung⟩
    · exact horigin hloader
    · exact absurd hlater (by omega)
    · obtain rfl : (⟨5, 100⟩ : Stored ℤ) = stored :=
        Option.some.inj (hget.symm.trans hstored)
      rw [hnow] at hyoung
      exact absurd hyoung (by decide)

/-- The second call begins after the store of the first one. -/
def orderlyRead : List (Action (Fin 3) ℤ) :=
  [.begin 0 60 300 100, .read 0 false .answered, .elapse 3, .compute 0 5 103,
    .store 0 .answered, .begin 1 60 300 103, .read 1 false .answered]

theorem orderly_fresh_answers :
    (observed (Fin 3) plainConfig plainCodec).Steps
      (FreshAsTold plainCodec 60) unread orderlyRead :=
  fresh_answers 60 300 unread_init (by decide +kernel)

end UTTG.Cache
