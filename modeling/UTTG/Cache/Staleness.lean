import UTTG.Cache.Freshness
import UTTG.Cache.Loaders

/-!
# How old an answer is

The loaders of the endpoints read a database that goes on meanwhile.  A stored
text is written by a call that still holds its lock, so at most 15 seconds after
its election, and lapses `stale` seconds later.  So what a call answers is what
some loader read from the database not longer ago than that, or what its own
loader read.
-/

namespace UTTG.Cache

open UTTG.Expiring UTTG.Transition

/-! ## A cache before a database -/

section Model

variable (Token Value Raw Record : Type)

/-- What a loader found: its one statement sees one state of the database. -/
structure Query (Record : Type) where
  time : ℚ
  snapshot : Record

/-- The calls of one cache entry, and the database that their loaders read.  The
times of the answers are only observed. -/
structure Front where
  cache : State Token Value Raw
  database : Record
  queries : Token → Option (Query Record)
  answeredAt : Token → Option ℚ

inductive FrontAction (DatabaseAction : Type) where
  | database (action : DatabaseAction)
  /-- The loader of a call executes its statement. -/
  | query (token : Token)
  | cache (action : Action Token Value)

end Model

section Step

variable {Token Value Raw Record DatabaseAction : Type} [DecidableEq Token]
  [DecidableEq Value]

/-- A loader returns what it has made of the answer to its statement. -/
def Front.loaded (loads : Token → Record → Value → Prop)
    (front : Front Token Value Raw Record) : Action Token Value → Prop
  | .compute token value _ =>
      ∃ query ∈ front.queries token, loads token query.snapshot value
  | _ => True

instance decidableLoaded (loads : Token → Record → Value → Prop)
    [∀ token snapshot value, Decidable (loads token snapshot value)]
    (front : Front Token Value Raw Record) (action : Action Token Value) :
    Decidable (front.loaded loads action) :=
  match action with
  | .compute token value _ =>
      match hquery : front.queries token with
      | none => isFalse (by simp [Front.loaded, hquery])
      | some query =>
          if hloads : loads token query.snapshot value then
            isTrue ⟨query, hquery, hloads⟩
          else isFalse (by simpa [Front.loaded, hquery] using hloads)
  | .elapse _ | .dropLock | .dropData | .invalidate | .begin _ _ _ _
  | .read _ _ _ | .check _ | .poll _ _ | .fail _ | .store _ _ | .unlock _ _
  | .crash _ => isTrue trivial

/-- A step of the database, of a loader or of the cache. -/
def frontStep (config : Config) (codec : Codec Value Raw)
    (database : System Record DatabaseAction) (loads : Token → Record → Value → Prop)
    [∀ token snapshot value, Decidable (loads token snapshot value)]
    (front : Front Token Value Raw Record) :
    FrontAction Token Value DatabaseAction →
      Option (Front Token Value Raw Record)
  | .database action =>
      (database.step front.database action).map fun next =>
        { front with database := next }
  | .query token =>
      if (front.cache.call token).loading ∧ (front.queries token).isNone then
        some { front with
          queries := Function.update front.queries token
            (some ⟨front.cache.clock, front.database⟩) }
      else none
  | .cache action =>
      if front.loaded loads action then
        (step config codec front.cache action).map fun next =>
          { front with
            cache := next
            answeredAt := fun token =>
              if next.answer token = front.cache.answer token then
                front.answeredAt token
              else some next.clock }
      else none

/-- A cache entry without data before a database. -/
def frontSystem (config : Config) (codec : Codec Value Raw)
    (database : System Record DatabaseAction) (loads : Token → Record → Value → Prop)
    [∀ token snapshot value, Decidable (loads token snapshot value)] :
    System (Front Token Value Raw Record)
      (FrontAction Token Value DatabaseAction) where
  Init front := (system Token config codec).Init front.cache ∧
    front.cache.store.data = none ∧ database.Init front.database ∧
    (∀ token, front.queries token = none) ∧
    ∀ token, front.answeredAt token = none
  step := frontStep config codec database loads

/-- All calls of the entry have the same durations. -/
def OneEndpoint (ttl stale : ℤ) (_ : Front Token Value Raw Record) :
    FrontAction Token Value DatabaseAction →
      Front Token Value Raw Record → Prop
  | .cache action, _ => SameDurations ttl stale action
  | _, _ => True

instance decidableOneEndpoint (ttl stale : ℤ)
    (front : Front Token Value Raw Record)
    (action : FrontAction Token Value DatabaseAction)
    (next : Front Token Value Raw Record) :
    Decidable (OneEndpoint ttl stale front action next) :=
  match action with
  | .cache action => inferInstanceAs (Decidable (SameDurations ttl stale action))
  | .database _ | .query _ => isTrue trivial

end Step

/-! ## What a step does to the two keys -/

section Keys

variable {Token Value Raw : Type} [DecidableEq Token] {config : Config}
  {codec : Codec Value Raw} {state next : State Token Value Raw}
  {action : Action Token Value}

/-- Time and the two keys after a step: time goes on, keys are deleted, a call
is elected, or a call that owns the lock stores its text. -/
inductive Touches (state : State Token Value Raw) :
    ℚ → Store Token Raw → Prop
  | elapse {duration : ℚ} (hduration : 0 ≤ duration) :
      Touches state (state.clock + duration) state.store
  | delete {store : Store Token Raw}
      (hlock : store.lock = state.store.lock ∨ store.lock = none)
      (hdata : store.data = state.store.data ∨ store.data = none) :
      Touches state state.clock store
  | elect {token : Token} (hunread : (state.call token).unread = true) :
      Touches state state.clock { state.store with
        lock := Slot.set token (state.clock + lockSeconds) }
  | commit {token : Token} {stale now : ℤ} {value : Value} {raw : Raw}
      {background : Bool}
      (hcall : state.call token = .storing stale now value raw background)
      (howned : state.store.lock.get state.clock = some token) :
      Touches state state.clock
        ⟨Slot.del, Slot.set ⟨raw, now⟩ (state.clock + stale)⟩

omit [DecidableEq Token] in
theorem Touches.same (state : State Token Value Raw) :
    Touches state state.clock state.store :=
  .delete (.inl rfl) (.inl rfl)

theorem Ran.touches {token : Token} (hran : Ran state token next) :
    Touches state next.clock next.store := by
  rw [hran.clock]
  cases hran with
  | nothing => exact .same state
  | load value => exact .same state
  | read ttl stale now hcall =>
      rcases runRead_cases state ttl stale now token with ⟨-, hnext⟩ | hnext
      · rw [hnext]
        exact .elect (by rw [hcall]; rfl)
      · rw [hnext]
        exact .same state
  | store stale now value raw background hcall =>
      rcases runStore_cases state token raw now stale with
        ⟨howned, hnext⟩ | ⟨-, hnext⟩
      · rw [hnext]
        exact .commit hcall howned
      · rw [hnext]
        exact .same state
  | unlock failure hcall =>
      rcases runUnlock_cases state token with ⟨-, hnext⟩ | ⟨-, hnext⟩
      · rw [hnext]
        exact .delete (.inr rfl) (.inl rfl)
      · rw [hnext]
        exact .same state

theorem touches_of_step
    (hstep : step config codec state action = some next) :
    Touches state next.clock next.store := by
  cases hcaller : action.caller with
  | none =>
      cases action with
      | elapse duration =>
          simp only [step] at hstep
          split at hstep
          · next hduration =>
              obtain rfl := Option.some.inj hstep
              exact .elapse hduration
          · simp at hstep
      | dropLock =>
          obtain rfl := Option.some.inj hstep
          exact .delete (.inr rfl) (.inl rfl)
      | dropData =>
          obtain rfl := Option.some.inj hstep
          exact .delete (.inl rfl) (.inr rfl)
      | invalidate =>
          obtain rfl := Option.some.inj hstep
          exact .delete (.inr rfl) (.inr rfl)
      | _ => simp [Action.caller] at hcaller
  | some token =>
      rcases caller_cases hcaller hstep with
        ⟨-, hlocal⟩ | ⟨base, hran, hlocal, -⟩
      · rw [hlocal.clock, hlocal.store]
        exact .same state
      · rw [hlocal.clock, hlocal.store]
        exact hran.touches

omit [DecidableEq Token] in
theorem Touches.clock_le {clock : ℚ} {store : Store Token Raw}
    (htouches : Touches state clock store) : state.clock ≤ clock := by
  cases htouches with
  | elapse hduration => exact le_add_of_nonneg_right hduration
  | delete | elect | commit => exact le_rfl

/-- The `stale` that a call was given, as long as it may store. -/
def Call.limit : Call Value Raw → Option ℤ
  | .reading _ stale _ => some stale
  | .computing stale _ _ => some stale
  | .storing stale _ _ _ _ => some stale
  | _ => none

/-- What a call stores, with the duration and the text. -/
def Call.text : Call Value Raw → Option (Value × Raw)
  | .storing _ _ value raw _ => some (value, raw)
  | _ => none

/-- A call keeps its duration, and gets its text from its loader. -/
structure Hands (config : Config) (codec : Codec Value Raw)
    (action : Action Token Value) (token : Token)
    (before after : Call Value Raw) : Prop where
  limit : ∀ stale, after.limit = some stale →
    before.limit = some stale ∨ ∃ ttl now, action = .begin token ttl stale now
  text : ∀ value raw, after.text = some (value, raw) →
    (∃ now, action = .compute token value now) ∧
      Stores config codec value raw

omit [DecidableEq Token] in
theorem Hands.idle {token : Token} {before after : Call Value Raw}
    (hlimit : after.limit = none) (htext : after.text = none) :
    Hands config codec action token before after :=
  ⟨by simp [hlimit], by simp [htext]⟩

/-- What a step does to the call that takes it. -/
theorem hands_of_step {token : Token} (hcaller : action.caller = some token)
    (hstep : step config codec state action = some next) :
    Hands config codec action token (state.call token) (next.call token) := by
  obtain ⟨hstarts, hleads⟩ := moves_of_step hcaller hstep
  cases action with
  | elapse | dropLock | dropData | invalidate =>
      simp [Action.caller] at hcaller
  | begin caller ttl stale now =>
      obtain rfl := Option.some.inj hcaller
      simp only [step] at hstep
      split at hstep
      · split at hstep
        · obtain rfl := Option.some.inj hstep
          rw [raise_call_self]
          exact .idle rfl rfl
        · obtain rfl := Option.some.inj hstep
          rw [goto_call_self]
          refine ⟨fun limit hlimit => ?_, by simp [Call.text]⟩
          obtain rfl := Option.some.inj hlimit
          exact .inr ⟨ttl, now, rfl⟩
      · simp at hstep
  | read caller full reply =>
      obtain rfl := Option.some.inj hcaller
      cases hafter : next.call caller with
      | computing stale since background =>
          simp only [step] at hstep
          split at hstep
          case h_1 ttl given now hcall =>
            cases reply with
            | answered =>
                obtain rfl := Option.some.inj hstep
                have hgiven : given = stale := by
                  unfold State.afterRead at hafter
                  split at hafter
                  · split at hafter
                    · simp at hafter
                    · split at hafter
                      · split at hafter
                        · simp at hafter
                        · rw [goto_call_self] at hafter
                          exact (Call.computing.inj hafter).1
                      · simp at hafter
                  · split at hafter
                    · simp at hafter
                    · rw [goto_call_self] at hafter
                      exact (Call.computing.inj hafter).1
                rw [hcall, hgiven]
                refine ⟨fun limit hlimit => .inl hlimit, by simp [Call.text]⟩
            | lost | refused =>
                obtain rfl := Option.some.inj hstep
                simp at hafter
          case h_2 => simp at hstep
      | idle | reading | asleep | storing =>
          rw [hafter] at hleads
          simp [Action.leadsTo] at hleads
      | waiting | unlocking | ended => exact .idle rfl rfl
  | compute caller value now =>
      obtain rfl := Option.some.inj hcaller
      simp only [step] at hstep
      split at hstep
      case h_1 stale since background hcall =>
        obtain rfl := Option.some.inj hstep
        unfold State.afterCompute
        split
        · rw [abort_call_self]
          exact .idle rfl rfl
        · next raw hdumps =>
            split
            · rw [abort_call_self]
              exact .idle rfl rfl
            · next hsize =>
                rw [goto_call_self, hcall]
                refine ⟨fun limit hlimit => .inl hlimit, ?_⟩
                intro stored text htext
                obtain ⟨rfl, rfl⟩ := Prod.mk.inj (Option.some.inj htext)
                exact ⟨⟨now, rfl⟩, hdumps, not_lt.mp hsize⟩
      case h_2 => simp at hstep
  | check | poll | fail | store | unlock | crash =>
      cases hafter : next.call token with
      | idle | reading | computing | storing =>
          rw [hafter] at hleads
          simp [Action.leadsTo] at hleads
      | waiting | asleep | unlocking | ended => exact .idle rfl rfl

end Keys

/-! ## What an answer goes back to -/

section Account

variable {Token Value Raw Record DatabaseAction : Type} {config : Config}
  {codec : Codec Value Raw} {source : System Record DatabaseAction}
  {loads : Token → Record → Value → Prop} {ttl stale : ℤ}
  {front : Front Token Value Raw Record}

/-- The loader of a call made this value of what it found. -/
def Loaded (loads : Token → Record → Value → Prop)
    (front : Front Token Value Raw Record) (token : Token)
    (query : Query Record) (value : Value) : Prop :=
  front.queries token = some query ∧ loads token query.snapshot value

/-- The answer of a call at some time: from its own loader, or from a text whose
loader read the database less than `stale` and the time of the lock before. -/
def Recent (config : Config) (codec : Codec Value Raw)
    (loads : Token → Record → Value → Prop) (stale : ℤ)
    (front : Front Token Value Raw Record) (token : Token) (data : Value)
    (time : ℚ) : Prop :=
  (∃ query, Loaded loads front token query data ∧ query.time ≤ time) ∨
    ∃ writer query value, Loaded loads front writer query value ∧
      Served config codec value data ∧ query.time ≤ time ∧
      time < query.time + lockSeconds + stale

/-- What holds of the cache and the statements of its loaders. -/
structure Backed (config : Config) (codec : Codec Value Raw)
    (source : System Record DatabaseAction) (loads : Token → Record → Value → Prop)
    (stale : ℤ) (front : Front Token Value Raw Record) : Prop where
  database : source.Reachable front.database
  queries : ∀ token query, front.queries token = some query →
    query.time ≤ front.cache.clock ∧ source.Reachable query.snapshot ∧
      (front.cache.call token).unread = false
  limit : ∀ token limit, (front.cache.call token).limit = some limit →
    limit = stale
  text : ∀ token value raw,
    (front.cache.call token).text = some (value, raw) →
      Stores config codec value raw ∧
        ∃ query, Loaded loads front token query value
  /-- A call whose loader has read holds its lock for a short time only. -/
  lock : ∀ entry ∈ front.cache.store.lock, ∃ deadline,
    entry.deadline = some deadline ∧
      deadline ≤ front.cache.clock + lockSeconds ∧
      ∀ query ∈ front.queries entry.value, deadline ≤ query.time + lockSeconds
  data : ∀ entry ∈ front.cache.store.data, ∃ writer query value deadline,
    Loaded loads front writer query value ∧
      Stores config codec value entry.value.value ∧
      entry.deadline = some deadline ∧
      deadline < query.time + lockSeconds + stale

/-- The times of the answers. -/
def Dated (config : Config) (codec : Codec Value Raw)
    (loads : Token → Record → Value → Prop) (stale : ℤ)
    (front : Front Token Value Raw Record) : Prop :=
  ∀ token data freshness age,
    front.cache.answer token = some (.returned data freshness age) →
      ∃ time, front.answeredAt token = some time ∧
        Recent config codec loads stale front token data time

/-- The database goes on. -/
theorem Backed.advance (hbacked : Backed config codec source loads stale front)
    {action : DatabaseAction} {later : Record}
    (hstep : source.step front.database action = some later) :
    Backed config codec source loads stale
      { front with database := later } where
  database := .step hbacked.database hstep trivial
  queries := hbacked.queries
  limit := hbacked.limit
  text := hbacked.text
  lock := hbacked.lock
  data := hbacked.data

/-- What the lock says after a step of the cache. -/
theorem Backed.lock_touches
    (hbacked : Backed config codec source loads stale front)
    {clock : ℚ} {store : Store Token Raw}
    (htouches : Touches front.cache clock store) :
    ∀ entry ∈ store.lock, ∃ deadline, entry.deadline = some deadline ∧
      deadline ≤ clock + lockSeconds ∧
      ∀ query ∈ front.queries entry.value,
        deadline ≤ query.time + lockSeconds := by
  have hclock := htouches.clock_le
  have hkept : ∀ entry ∈ front.cache.store.lock, ∃ deadline,
      entry.deadline = some deadline ∧ deadline ≤ clock + lockSeconds ∧
        ∀ query ∈ front.queries entry.value,
          deadline ≤ query.time + lockSeconds := by
    intro entry hentry
    obtain ⟨deadline, hdeadline, hbound, hqueries⟩ := hbacked.lock entry hentry
    exact ⟨deadline, hdeadline, hbound.trans (by gcongr), hqueries⟩
  intro entry hentry
  cases htouches with
  | elapse hduration => exact hkept entry hentry
  | delete hlock hdata =>
      rcases hlock with hsame | hnone
      · rw [hsame] at hentry
        exact hkept entry hentry
      · rw [hnone] at hentry
        simp at hentry
  | @elect token hunread =>
      obtain rfl := Option.some.inj hentry
      refine ⟨_, rfl, le_rfl, fun query hquery => ?_⟩
      rw [(hbacked.queries token query hquery).2.2] at hunread
      exact Bool.noConfusion hunread
  | commit hcall howned => simp [Slot.del] at hentry

/-- What the data key says after a step of the cache. -/
theorem Backed.data_touches
    (hbacked : Backed config codec source loads stale front)
    {clock : ℚ} {store : Store Token Raw}
    (htouches : Touches front.cache clock store) :
    ∀ entry ∈ store.data, ∃ writer query value deadline,
      Loaded loads front writer query value ∧
        Stores config codec value entry.value.value ∧
        entry.deadline = some deadline ∧
        deadline < query.time + lockSeconds + stale := by
  intro entry hentry
  cases htouches with
  | elapse hduration => exact hbacked.data entry hentry
  | delete hlock hdata =>
      rcases hdata with hsame | hnone
      · rw [hsame] at hentry
        exact hbacked.data entry hentry
      · rw [hnone] at hentry
        simp at hentry
  | elect hunread => exact hbacked.data entry hentry
  | @commit token limit now value raw background hcall howned =>
      obtain rfl := Option.some.inj hentry
      obtain ⟨hstores, query, hloaded⟩ :=
        hbacked.text token value raw (by rw [hcall]; rfl)
      have hlimit : limit = stale :=
        hbacked.limit token limit (by rw [hcall]; rfl)
      obtain ⟨held, hheld, hname⟩ := Slot.exists_entry_of_get howned
      obtain ⟨deadline, hdeadline, -, hqueries⟩ := hbacked.lock held hheld
      have hlive : front.cache.clock < deadline := by
        by_contra hlapsed
        obtain ⟨name, _⟩ := held
        subst hdeadline
        rw [hheld, Slot.get_some, if_pos (not_lt.mp hlapsed)] at howned
        simp at howned
      have hbound : deadline ≤ query.time + lockSeconds :=
        hqueries query (by rw [hname]; exact hloaded.1)
      refine ⟨token, query, value, _, hloaded, hstores, rfl, ?_⟩
      rw [hlimit]
      exact add_lt_add_of_lt_of_le (hlive.trans_le hbound) le_rfl

variable [DecidableEq Token]

/-- A further statement leaves the earlier ones as they are. -/
theorem Loaded.query {token other : Token} {query : Query Record}
    {value : Value} (hloaded : Loaded loads front other query value)
    (hfresh : front.queries token = none) (found : Query Record) :
    Loaded loads { front with
      queries := Function.update front.queries token (some found) } other query
        value := by
  have hother : other ≠ token := by
    rintro rfl
    exact Option.some_ne_none _ (hloaded.1.symm.trans hfresh)
  exact ⟨(Function.update_of_ne hother ..).trans hloaded.1, hloaded.2⟩

/-- The loader of a call executes its statement. -/
theorem Backed.query (hbacked : Backed config codec source loads stale front)
    {token : Token} (hloading : (front.cache.call token).loading = true)
    (hfresh : front.queries token = none) :
    Backed config codec source loads stale { front with
      queries := Function.update front.queries token
        (some ⟨front.cache.clock, front.database⟩) } where
  database := hbacked.database
  queries other query hquery := by
    change Function.update front.queries token _ other = some query at hquery
    rw [Function.update_apply] at hquery
    split at hquery
    · next hsame =>
        obtain rfl := Option.some.inj hquery
        refine ⟨le_rfl, hbacked.database, ?_⟩
        rw [hsame]
        change (front.cache.call token).unread = false
        cases hcall : front.cache.call token with
        | computing => rfl
        | _ => simp [hcall, Call.loading] at hloading
    · exact hbacked.queries other query hquery
  limit := hbacked.limit
  text other value raw htext := by
    obtain ⟨hstores, query, hloaded⟩ := hbacked.text other value raw htext
    exact ⟨hstores, query, hloaded.query hfresh _⟩
  lock entry hentry := by
    obtain ⟨deadline, hdeadline, hbound, hqueries⟩ := hbacked.lock entry hentry
    refine ⟨deadline, hdeadline, hbound, fun query hquery => ?_⟩
    change Function.update front.queries token _ entry.value = some query
      at hquery
    rw [Function.update_apply] at hquery
    split at hquery
    · obtain rfl := Option.some.inj hquery
      exact hbound
    · exact hqueries query hquery
  data entry hentry := by
    obtain ⟨writer, query, value, deadline, hloaded, hrest⟩ :=
      hbacked.data entry hentry
    exact ⟨writer, query, value, deadline, hloaded.query hfresh _, hrest⟩

/-- A call does not take time. -/
theorem clock_of_caller {state next : State Token Value Raw}
    {action : Action Token Value} {token : Token}
    (hcaller : action.caller = some token)
    (hstep : step config codec state action = some next) :
    next.clock = state.clock := by
  rcases caller_cases hcaller hstep with
    ⟨-, hlocal⟩ | ⟨base, hran, hlocal, -⟩
  · exact hlocal.clock
  · rw [hlocal.clock, hran.clock]

/-- A call that has executed its read script has done so for good. -/
theorem unread_of_step {state next : State Token Value Raw}
    {action : Action Token Value} {token : Token}
    (hread : (state.call token).unread = false)
    (hstep : step config codec state action = some next) :
    (next.call token).unread = false := by
  by_cases hcaller : action.caller = some token
  · rcases caller_cases hcaller hstep with ⟨hidle, -⟩ | ⟨base, -, -, hunread⟩
    · rw [hidle] at hread
      exact Bool.noConfusion hread
    · exact hunread
  · rw [call_of_other hcaller hstep]
    exact hread

/-- A step of the cache keeps what is known of the loaders. -/
theorem Backed.cache (hbacked : Backed config codec source loads stale front)
    {action : Action Token Value} {next : State Token Value Raw}
    (hloaded : front.loaded loads action)
    (hstep : step config codec front.cache action = some next)
    (hsame : SameDurations ttl stale action)
    (answeredAt : Token → Option ℚ) :
    Backed config codec source loads stale
      { front with cache := next, answeredAt := answeredAt } where
  database := hbacked.database
  queries token query hquery := by
    obtain ⟨htime, hreach, hread⟩ := hbacked.queries token query hquery
    exact ⟨htime.trans (touches_of_step hstep).clock_le, hreach,
      unread_of_step hread hstep⟩
  limit token limit hlimit := by
    change (next.call token).limit = some limit at hlimit
    by_cases hcaller : action.caller = some token
    · rcases (hands_of_step hcaller hstep).limit limit hlimit with
        hold | ⟨given, now, rfl⟩
      · exact hbacked.limit token limit hold
      · exact hsame.2
    · rw [call_of_other hcaller hstep] at hlimit
      exact hbacked.limit token limit hlimit
  text token value raw htext := by
    change (next.call token).text = some (value, raw) at htext
    by_cases hcaller : action.caller = some token
    · obtain ⟨⟨now, rfl⟩, hstores⟩ :=
        (hands_of_step hcaller hstep).text value raw htext
      obtain ⟨query, hquery, hvalue⟩ := hloaded
      exact ⟨hstores, query, hquery, hvalue⟩
    · rw [call_of_other hcaller hstep] at htext
      exact hbacked.text token value raw htext
  lock := hbacked.lock_touches (touches_of_step hstep)
  data := hbacked.data_touches (touches_of_step hstep)

omit [DecidableEq Token] in
/-- What the data key holds may be answered as long as it is there. -/
theorem Backed.recent (hbacked : Backed config codec source loads stale front)
    {stored : Stored Raw} {data : Value}
    (hget : front.cache.store.data.get front.cache.clock = some stored)
    (hloads : codec.loads stored.value = some data) (token : Token) :
    Recent config codec loads stale front token data front.cache.clock := by
  obtain ⟨entry, hentry, rfl⟩ := Slot.exists_entry_of_get hget
  obtain ⟨writer, query, value, deadline, hloaded, hstores, hdeadline, hbound⟩ :=
    hbacked.data entry hentry
  have hlive : front.cache.clock < deadline := by
    by_contra hlapsed
    obtain ⟨text, _⟩ := entry
    subst hdeadline
    rw [hentry, Slot.get_some, if_pos (not_lt.mp hlapsed)] at hget
    simp at hget
  exact .inr ⟨writer, query, value, hloaded, ⟨_, hstores, hloads⟩,
    (hbacked.queries writer query hloaded.1).1, hlive.trans hbound⟩

/-- A further statement leaves the answers as they are. -/
theorem Dated.query (hdated : Dated config codec loads stale front)
    {token : Token} (hfresh : front.queries token = none)
    (found : Query Record) :
    Dated config codec loads stale { front with
      queries := Function.update front.queries token (some found) } := by
  intro other data freshness age hanswer
  obtain ⟨time, htime, hrecent⟩ := hdated other data freshness age hanswer
  refine ⟨time, htime, ?_⟩
  rcases hrecent with ⟨query, hloaded, hbefore⟩ |
    ⟨writer, query, value, hloaded, hserved, hbefore, hafter⟩
  · exact .inl ⟨query, hloaded.query hfresh found, hbefore⟩
  · exact .inr ⟨writer, query, value, hloaded.query hfresh found, hserved,
      hbefore, hafter⟩

variable [DecidableEq Value]

/-- A step of the cache dates its new answer. -/
theorem Dated.cache (hdated : Dated config codec loads stale front)
    (hbacked : Backed config codec source loads stale front)
    {action : Action Token Value} {next : State Token Value Raw}
    (hstep : step config codec front.cache action = some next) :
    Dated config codec loads stale { front with
      cache := next
      answeredAt := fun token =>
        if next.answer token = front.cache.answer token then
          front.answeredAt token
        else some next.clock } := by
  intro token data freshness age hanswer
  change next.answer token = some (.returned data freshness age) at hanswer
  change ∃ time, (if next.answer token = front.cache.answer token then
    front.answeredAt token else some next.clock) = some time ∧ _
  split
  · next hsame =>
      exact hdated token data freshness age (hsame ▸ hanswer)
  · next hnew =>
      have hfresh : front.cache.answer token ≠
          some (.returned data freshness age) :=
        fun hold => hnew (hanswer.trans hold.symm)
      refine ⟨next.clock, rfl, ?_⟩
      cases answers_of_step hstep hanswer hfresh with
      | read full hcall hget hloads =>
          rw [clock_of_caller rfl hstep]
          exact hbacked.recent hget hloads token
      | poll hcall hget hloads =>
          rw [clock_of_caller rfl hstep]
          exact hbacked.recent hget hloads token
      | load hcall =>
          obtain ⟨-, query, hloaded⟩ :=
            hbacked.text token data _ (by rw [hcall]; rfl)
          rw [clock_of_caller rfl hstep]
          exact .inl ⟨query, hloaded,
            (hbacked.queries token query hloaded.1).1⟩

variable [∀ token snapshot value, Decidable (loads token snapshot value)]

theorem backed_dated
    (hreach : (frontSystem config codec source loads).ReachableVia
      (OneEndpoint ttl stale) front) :
    Backed config codec source loads stale front ∧
      Dated config codec loads stale front := by
  apply System.ReachableVia.invariant (fun front =>
    Backed config codec source loads stale front ∧
      Dated config codec loads stale front) _ _ hreach
  · rintro start ⟨⟨hlock, hidle, hanswer, -⟩, hdata, hsource, hqueries, -⟩
    refine ⟨⟨.init hsource, ?_, ?_, ?_, ?_, ?_⟩, ?_⟩
    · simp [hqueries]
    · simp [hidle, Call.limit]
    · simp [hidle, Call.text]
    · simp [hlock]
    · simp [hdata]
    · intro token data freshness age hreturned
      simp [hanswer] at hreturned
  · rintro before action after ⟨hbacked, hdated⟩ hstep hsame
    cases action with
    | database action =>
        obtain ⟨later, hlater, rfl⟩ := Option.map_eq_some_iff.mp hstep
        exact ⟨hbacked.advance hlater, hdated⟩
    | query token =>
        obtain ⟨⟨hloading, hnone⟩, hafter⟩ :=
          Option.ite_none_right_eq_some.mp hstep
        obtain rfl := Option.some.inj hafter
        have hfresh := Option.isNone_iff_eq_none.mp hnone
        exact ⟨hbacked.query hloading hfresh, hdated.query hfresh _⟩
    | cache action =>
        obtain ⟨hloaded, hafter⟩ := Option.ite_none_right_eq_some.mp hstep
        obtain ⟨later, hlater, rfl⟩ := Option.map_eq_some_iff.mp hafter
        exact ⟨hbacked.cache hloaded hlater hsame _,
          hdated.cache hbacked hlater⟩

/-- A loader that has executed its statement found the database as it was
then. -/
theorem query_of_run {start : Front Token Value Raw Record}
    {actions : List (FrontAction Token Value DatabaseAction)}
    (hnone : ∀ token, start.queries token = none)
    (hrun : (frontSystem config codec source loads).run start actions =
      some front) (token : Token) (query : Query Record)
    (hquery : front.queries token = some query) :
    (frontSystem config codec source loads).Visits
      (fun state => query = ⟨state.cache.clock, state.database⟩) start
      actions := by
  revert token query
  apply System.run_induction (fun actions front => ∀ token query,
    front.queries token = some query →
      (frontSystem config codec source loads).Visits
        (fun state => query = ⟨state.cache.clock, state.database⟩) start
        actions) _ _ hrun
  · intro token query hquery
    rw [hnone token] at hquery
    cases hquery
  · intro actions action before after hvisits hbefore hstep token query hquery
    cases action with
    | database action =>
        obtain ⟨later, -, rfl⟩ := Option.map_eq_some_iff.mp hstep
        exact (hvisits token query hquery).append _
    | cache action =>
        obtain ⟨-, hafter⟩ := Option.ite_none_right_eq_some.mp hstep
        obtain ⟨later, -, rfl⟩ := Option.map_eq_some_iff.mp hafter
        exact (hvisits token query hquery).append _
    | query caller =>
        obtain ⟨-, hafter⟩ := Option.ite_none_right_eq_some.mp hstep
        obtain rfl := Option.some.inj hafter
        change Function.update before.queries caller _ token = _ at hquery
        rw [Function.update_apply] at hquery
        split at hquery
        · exact (System.visits_of_run hbefore
            (Option.some.inj hquery).symm).append _
        · exact (hvisits token query hquery).append _

/-- In every run in which the calls of an entry have the same durations, what a
call answers is what its own loader found in the database, or what is read from
the text of another loader, which executed its statement at most 15 seconds and
`stale` before.  Whatever a loader found is the database of the run at the time
of its statement. -/
theorem answers_recent {start : Front Token Value Raw Record}
    (hinit : (frontSystem config codec source loads).Init start)
    {actions : List (FrontAction Token Value DatabaseAction)}
    (hsteps : (frontSystem config codec source loads).Steps
      (OneEndpoint ttl stale) start actions)
    (hrun : (frontSystem config codec source loads).run start actions =
      some front) :
    (∀ token data freshness age,
      front.cache.answer token = some (.returned data freshness age) →
        ∃ time, front.answeredAt token = some time ∧
          Recent config codec loads stale front token data time) ∧
    ∀ token query, front.queries token = some query →
      query.time ≤ front.cache.clock ∧ source.Reachable query.snapshot ∧
        (frontSystem config codec source loads).Visits
          (fun state => query = ⟨state.cache.clock, state.database⟩) start
          actions := by
  obtain ⟨hbacked, hdated⟩ := backed_dated (.run (.init hinit) hsteps hrun)
  refine ⟨hdated, fun token query hquery => ?_⟩
  obtain ⟨htime, hsnapshot, -⟩ := hbacked.queries token query hquery
  exact ⟨htime, hsnapshot, query_of_run hinit.2.2.2.1 hrun token query hquery⟩

end Account

/-- A database that counts. -/
def counting : System ℕ Unit where
  Init number := number = 0
  step number _ := some (number + 1)

/-- Loaders that read the number. -/
def ReadsNumber (_ : Fin 2) (number : ℕ) (value : ℤ) : Prop := value = number

instance decidableReadsNumber (token : Fin 2) (number : ℕ) (value : ℤ) :
    Decidable (ReadsNumber token number value) :=
  inferInstanceAs (Decidable (value = number))

def emptyFront : Front (Fin 2) ℤ ℤ ℕ where
  cache := blank
  database := 0
  queries _ := none
  answeredAt _ := none

/-- The loader of the first call reads `0`, and its text is stored just before
its lock expires.  The second call finds it just before it lapses. -/
def slowLoader : List (FrontAction (Fin 2) ℤ Unit) :=
  [.cache (.begin 0 900 7200 0), .cache (.read 0 false .answered), .query 0,
    .database (), .cache (.compute 0 0 0), .cache (.elapse 14),
    .cache (.store 0 .answered), .cache (.elapse 7199),
    .cache (.begin 1 900 7200 7200), .cache (.read 1 false .answered)]

theorem slow_loader_recent :
    ∃ front ∈ (frontSystem plainConfig plainCodec counting ReadsNumber).run
        emptyFront slowLoader,
      front.database = 1 ∧ front.answeredAt 1 = some 7213 ∧
        front.cache.answer 1 = some (.returned 0 .stale 7200) ∧
        Recent plainConfig plainCodec ReadsNumber 7200 front 1 0 7213 := by
  obtain ⟨front, hrun, hdatabase, htime, hanswer⟩ :
      ∃ front ∈ (frontSystem plainConfig plainCodec counting ReadsNumber).run
          emptyFront slowLoader,
        front.database = 1 ∧ front.answeredAt 1 = some 7213 ∧
          front.cache.answer 1 = some (.returned 0 .stale 7200) := by
    decide +kernel
  have hinit : (frontSystem plainConfig plainCodec counting ReadsNumber).Init
      emptyFront :=
    ⟨blank_init plainConfig plainCodec, rfl, rfl, fun _ => rfl, fun _ => rfl⟩
  have hsteps : (frontSystem plainConfig plainCodec counting
      ReadsNumber).Steps (OneEndpoint 900 7200) emptyFront slowLoader := by
    decide +kernel
  obtain ⟨time, hanswered, hrecent⟩ :=
    (answers_recent hinit hsteps hrun).1 1 0 .stale 7200 hanswer
  obtain rfl := Option.some.inj (htime.symm.trans hanswered)
  exact ⟨front, hrun, hdatabase, htime, hanswer, hrecent⟩

end UTTG.Cache
