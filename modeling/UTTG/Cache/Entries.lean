import UTTG.Cache.Staleness

/-!
# The entries of the cache together

The calls of all keys share the time and the database that their loaders read.
Seen from one key, a run is a run of its entry before the database.  So what a
call answers some time after a state of the run goes back to a statement that was
executed after that state, and shows a state of the database since then.
-/

namespace UTTG.Cache

open UTTG.Expiring UTTG.Transition

section Model

variable (Key Token Value Raw Record : Type)

/-- The entries of all keys with their calls, and the database. -/
structure Caches where
  clock : ℚ
  database : Record
  entries : Key → State Token Value Raw
  queries : Key → Token → Option (Query Record)
  answeredAt : Key → Token → Option ℚ

inductive CachesAction (DatabaseAction : Type) where
  | elapse (duration : ℚ)
  | database (action : DatabaseAction)
  /-- The loader of a call executes its statement. -/
  | query (token : Token)
  /-- A step of a call, or something that happens to the two keys. -/
  | cache (key : Key) (action : Action Token Value)

end Model

section Step

variable {Key Token Value Raw Record DatabaseAction : Type}

/-- The entry of a key before the database. -/
def Caches.front (caches : Caches Key Token Value Raw Record) (key : Key) :
    Front Token Value Raw Record :=
  ⟨caches.entries key, caches.database, caches.queries key,
    caches.answeredAt key⟩

/-- Time passes for all entries together. -/
def Caches.pass (caches : Caches Key Token Value Raw Record) (duration : ℚ) :
    Caches Key Token Value Raw Record :=
  { caches with
    clock := caches.clock + duration
    entries := fun key => { caches.entries key with
      clock := (caches.entries key).clock + duration } }

variable [DecidableEq Key]

/-- Another state of one entry. -/
def Caches.setFront (caches : Caches Key Token Value Raw Record) (key : Key)
    (front : Front Token Value Raw Record) :
    Caches Key Token Value Raw Record :=
  { caches with
    entries := Function.update caches.entries key front.cache
    queries := Function.update caches.queries key front.queries
    answeredAt := Function.update caches.answeredAt key front.answeredAt }

/-- A call uses the entry of its key. -/
def Action.uses (keyOf : Token → Key) (key : Key) :
    Action Token Value → Bool
  | .elapse _ => false
  | action => action.caller.all fun token => keyOf token = key

variable [DecidableEq Token] [DecidableEq Value]

/-- A step of the database, of a loader or of one entry, or the passage of
time. -/
def cachesStep (keyOf : Token → Key) (config : Config) (codec : Codec Value Raw)
    (source : System Record DatabaseAction)
    (loads : Token → Record → Value → Prop)
    [∀ token snapshot value, Decidable (loads token snapshot value)]
    (caches : Caches Key Token Value Raw Record) :
    CachesAction Key Token Value DatabaseAction →
      Option (Caches Key Token Value Raw Record)
  | .elapse duration =>
      if 0 ≤ duration then some (caches.pass duration) else none
  | .database action =>
      (source.step caches.database action).map fun next =>
        { caches with database := next }
  | .query token =>
      (frontStep config codec source loads (caches.front (keyOf token))
        (.query token)).map (caches.setFront (keyOf token))
  | .cache key action =>
      if action.uses keyOf key then
        (frontStep config codec source loads (caches.front key)
          (.cache action)).map (caches.setFront key)
      else none

/-- Entries without data before a database. -/
def cachesSystem (keyOf : Token → Key) (config : Config)
    (codec : Codec Value Raw) (source : System Record DatabaseAction)
    (loads : Token → Record → Value → Prop)
    [∀ token snapshot value, Decidable (loads token snapshot value)] :
    System (Caches Key Token Value Raw Record)
      (CachesAction Key Token Value DatabaseAction) where
  Init caches :=
    (∀ key, (frontSystem config codec source loads).Init (caches.front key)) ∧
      source.Init caches.database ∧
      ∀ key, (caches.entries key).clock = caches.clock
  step := cachesStep keyOf config codec source loads

/-- All calls have the same durations. -/
def SameEndpoint (ttl stale : ℤ) (_ : Caches Key Token Value Raw Record) :
    CachesAction Key Token Value DatabaseAction →
      Caches Key Token Value Raw Record → Prop
  | .cache _ action, _ => SameDurations ttl stale action
  | _, _ => True

instance decidableSameEndpoint (ttl stale : ℤ)
    (caches : Caches Key Token Value Raw Record)
    (action : CachesAction Key Token Value DatabaseAction)
    (next : Caches Key Token Value Raw Record) :
    Decidable (SameEndpoint ttl stale caches action next) :=
  match action with
  | .cache _ action =>
      inferInstanceAs (Decidable (SameDurations ttl stale action))
  | .elapse _ | .database _ | .query _ => isTrue trivial

end Step

/-! ## One entry of a run -/

section Entry

variable {Key Token Value Raw Record DatabaseAction : Type} [DecidableEq Key]
  {caches next : Caches Key Token Value Raw Record} {key : Key}

theorem front_setFront {front : Front Token Value Raw Record}
    (hdatabase : front.database = caches.database) :
    (caches.setFront key front).front key = front := by
  obtain ⟨cache, database, queries, answeredAt⟩ := front
  obtain rfl : database = caches.database := hdatabase
  simp [Caches.front, Caches.setFront]

theorem front_setFront_of_ne {other : Key} (hother : other ≠ key)
    (front : Front Token Value Raw Record) :
    (caches.setFront key front).front other = caches.front other := by
  simp [Caches.front, Caches.setFront, hother]

variable [DecidableEq Token] {keyOf : Token → Key} {config : Config}
  {codec : Codec Value Raw} {source : System Record DatabaseAction}
  {loads : Token → Record → Value → Prop} {ttl stale : ℤ}

theorem clock_of_uses {state later : State Token Value Raw}
    {action : Action Token Value} (huses : action.uses keyOf key = true)
    (hstep : step config codec state action = some later) :
    later.clock = state.clock := by
  cases hcaller : action.caller with
  | some token => exact clock_of_caller hcaller hstep
  | none =>
      cases action with
      | elapse => exact Bool.noConfusion huses
      | dropLock | dropData | invalidate =>
          obtain rfl := Option.some.inj hstep
          rfl
      | _ => simp [Action.caller] at hcaller

variable [DecidableEq Value]
  [∀ token snapshot value, Decidable (loads token snapshot value)]

/-- The steps of the calls leave the database as it is. -/
theorem database_of_frontStep {front later : Front Token Value Raw Record}
    {action : FrontAction Token Value DatabaseAction}
    (hown : ∀ own, action ≠ .database own)
    (hstep : frontStep config codec source loads front action = some later) :
    later.database = front.database := by
  cases action with
  | database own => exact absurd rfl (hown own)
  | query token =>
      obtain ⟨-, hafter⟩ := Option.ite_none_right_eq_some.mp hstep
      obtain rfl := Option.some.inj hafter
      rfl
  | cache action =>
      obtain ⟨-, hafter⟩ := Option.ite_none_right_eq_some.mp hstep
      obtain ⟨next, -, rfl⟩ := Option.map_eq_some_iff.mp hafter
      rfl

omit [DecidableEq Key] in
/-- The passage of time, seen from one entry. -/
theorem frontStep_pass {duration : ℚ} (hduration : 0 ≤ duration) (key : Key) :
    frontStep config codec source loads (caches.front key)
      (.cache (.elapse duration)) = some ((caches.pass duration).front key) := by
  simp [frontStep, Front.loaded, step, hduration, Caches.front, Caches.pass]

/-- Seen from one entry, a step is a step of its front or none. -/
theorem front_of_step {action : CachesAction Key Token Value DatabaseAction}
    (hstep : cachesStep keyOf config codec source loads caches action =
      some next) (hsame : SameEndpoint ttl stale caches action next)
    (key : Key) :
    next.front key = caches.front key ∨ ∃ own,
      frontStep config codec source loads (caches.front key) own =
        some (next.front key) ∧
      OneEndpoint ttl stale (caches.front key) own (next.front key) := by
  cases action with
  | elapse duration =>
      obtain ⟨hduration, hafter⟩ := Option.ite_none_right_eq_some.mp hstep
      obtain rfl := Option.some.inj hafter
      exact .inr ⟨.cache (.elapse duration), frontStep_pass hduration key,
        trivial⟩
  | database action =>
      obtain ⟨later, hlater, rfl⟩ := Option.map_eq_some_iff.mp hstep
      refine .inr ⟨.database action, ?_, trivial⟩
      change (source.step caches.database action).map _ = _
      rw [hlater]
      rfl
  | query token =>
      obtain ⟨later, hlater, rfl⟩ := Option.map_eq_some_iff.mp hstep
      have hdatabase := database_of_frontStep (by simp) hlater
      by_cases hkey : key = keyOf token
      · subst hkey
        rw [front_setFront hdatabase]
        exact .inr ⟨.query token, hlater, trivial⟩
      · exact .inl (front_setFront_of_ne hkey later)
  | cache other action =>
      obtain ⟨-, hafter⟩ := Option.ite_none_right_eq_some.mp hstep
      obtain ⟨later, hlater, rfl⟩ := Option.map_eq_some_iff.mp hafter
      have hdatabase := database_of_frontStep (by simp) hlater
      by_cases hkey : key = other
      · subst hkey
        rw [front_setFront hdatabase]
        exact .inr ⟨.cache action, hlater, hsame⟩
      · exact .inl (front_setFront_of_ne hkey later)

/-- Seen from one entry, a run is a run of its front. -/
theorem front_reachable
    (hreach : (cachesSystem keyOf config codec source loads).ReachableVia
      (SameEndpoint ttl stale) caches) (key : Key) :
    (frontSystem config codec source loads).ReachableVia
      (OneEndpoint ttl stale) (caches.front key) := by
  induction hreach with
  | init hinit => exact .init (hinit.1 key)
  | step _ hstep hsame ih =>
      rcases front_of_step hstep hsame key with hidle | ⟨own, hown, hallowed⟩
      · rw [hidle]
        exact ih
      · exact .step ih hown hallowed

/-- All entries have the time of the system. -/
theorem clock_of_reachable
    (hreach : (cachesSystem keyOf config codec source loads).Reachable caches)
    (key : Key) : (caches.entries key).clock = caches.clock := by
  apply System.Reachable.invariant
    (fun caches => ∀ key, (caches.entries key).clock = caches.clock) _ _ hreach
  · exact fun caches hinit => hinit.2.2
  · intro caches action next hclock hstep key
    cases action with
    | elapse duration =>
        obtain ⟨-, hafter⟩ := Option.ite_none_right_eq_some.mp hstep
        obtain rfl := Option.some.inj hafter
        exact congrArg (· + duration) (hclock key)
    | database action =>
        obtain ⟨later, -, rfl⟩ := Option.map_eq_some_iff.mp hstep
        exact hclock key
    | query token =>
        obtain ⟨later, hlater, rfl⟩ := Option.map_eq_some_iff.mp hstep
        obtain ⟨-, hafter⟩ := Option.ite_none_right_eq_some.mp hlater
        obtain rfl := Option.some.inj hafter
        change (Function.update caches.entries _ _ key).clock = caches.clock
        rw [Function.update_apply]
        split
        · exact hclock _
        · exact hclock key
    | cache other action =>
        obtain ⟨huses, hafter⟩ := Option.ite_none_right_eq_some.mp hstep
        obtain ⟨later, hlater, rfl⟩ := Option.map_eq_some_iff.mp hafter
        obtain ⟨-, hfront⟩ := Option.ite_none_right_eq_some.mp hlater
        obtain ⟨state, hstate, rfl⟩ := Option.map_eq_some_iff.mp hfront
        change (Function.update caches.entries _ _ key).clock = caches.clock
        rw [Function.update_apply]
        split
        · exact (clock_of_uses huses hstate).trans (hclock other)
        · exact hclock key

end Entry

/-! ## What the loaders found since a state of the run -/

section Later

/-- From one state to a later one the database keeps something. -/
structure Keeping {Record DatabaseAction : Type}
    (source : System Record DatabaseAction) (Keeps : Record → Record → Prop) :
    Prop where
  refl (record : Record) : Keeps record record
  trans {first second third : Record} :
    Keeps first second → Keeps second third → Keeps first third
  step {record later : Record} {action : DatabaseAction} :
    source.step record action = some later → Keeps record later

variable {Key Token Value Raw Record DatabaseAction : Type} [DecidableEq Key]
  [DecidableEq Token] [DecidableEq Value] {keyOf : Token → Key}
  {config : Config} {codec : Codec Value Raw}
  {source : System Record DatabaseAction}
  {loads : Token → Record → Value → Prop}
  [∀ token snapshot value, Decidable (loads token snapshot value)]
  {ttl stale : ℤ} {Keeps : Record → Record → Prop}
  {before after caches next : Caches Key Token Value Raw Record}

/-- Only a step of the database changes it. -/
theorem database_of_step {action : CachesAction Key Token Value DatabaseAction}
    (hstep : cachesStep keyOf config codec source loads caches action =
      some next) :
    next.database = caches.database ∨
      ∃ own, source.step caches.database own = some next.database := by
  cases action with
  | elapse duration =>
      obtain ⟨-, hafter⟩ := Option.ite_none_right_eq_some.mp hstep
      obtain rfl := Option.some.inj hafter
      exact .inl rfl
  | database action =>
      obtain ⟨later, hlater, rfl⟩ := Option.map_eq_some_iff.mp hstep
      exact .inr ⟨action, hlater⟩
  | query caller =>
      obtain ⟨later, -, rfl⟩ := Option.map_eq_some_iff.mp hstep
      exact .inl rfl
  | cache other action =>
      obtain ⟨-, hafter⟩ := Option.ite_none_right_eq_some.mp hstep
      obtain ⟨later, -, rfl⟩ := Option.map_eq_some_iff.mp hafter
      exact .inl rfl

theorem database_kept (hkeeping : Keeping source Keeps)
    {actions : List (CachesAction Key Token Value DatabaseAction)}
    (hrun : (cachesSystem keyOf config codec source loads).run before actions =
      some after) : Keeps before.database after.database := by
  apply System.run_induction (fun _ after =>
    Keeps before.database after.database) (hkeeping.refl _) _ hrun
  intro _ action middle next hmiddle _ hstep
  rcases database_of_step hstep with hsame | ⟨own, hown⟩
  · rw [hsame]
    exact hmiddle
  · exact hkeeping.trans hmiddle (hkeeping.step hown)

/-- A statement that a step executes finds the database of that state. -/
theorem found_of_step {action : CachesAction Key Token Value DatabaseAction}
    (hstep : cachesStep keyOf config codec source loads caches action =
      some next) {key : Key} {token : Token} {query : Query Record}
    (hquery : next.queries key token = some query) :
    caches.queries key token = some query ∨
      keyOf token = key ∧ query.snapshot = caches.database := by
  cases action with
  | elapse duration =>
      obtain ⟨-, hafter⟩ := Option.ite_none_right_eq_some.mp hstep
      obtain rfl := Option.some.inj hafter
      exact .inl hquery
  | database action =>
      obtain ⟨later, hlater, rfl⟩ := Option.map_eq_some_iff.mp hstep
      exact .inl hquery
  | query caller =>
      obtain ⟨later, hlater, rfl⟩ := Option.map_eq_some_iff.mp hstep
      obtain ⟨-, hafter⟩ := Option.ite_none_right_eq_some.mp hlater
      obtain rfl := Option.some.inj hafter
      change Function.update caches.queries _ _ key token = some query at hquery
      rw [Function.update_apply] at hquery
      split at hquery
      · next hkey =>
          subst hkey
          change Function.update (caches.queries _) _ _ token = _ at hquery
          rw [Function.update_apply] at hquery
          split at hquery
          · next hcaller =>
              obtain rfl := Option.some.inj hquery
              exact .inr ⟨congrArg keyOf hcaller, rfl⟩
          · exact .inl hquery
      · exact .inl hquery
  | cache other action =>
      obtain ⟨-, hafter⟩ := Option.ite_none_right_eq_some.mp hstep
      obtain ⟨later, hlater, rfl⟩ := Option.map_eq_some_iff.mp hafter
      obtain ⟨-, hfront⟩ := Option.ite_none_right_eq_some.mp hlater
      obtain ⟨state, -, rfl⟩ := Option.map_eq_some_iff.mp hfront
      refine .inl ?_
      change Function.update caches.queries _ _ key token = some query at hquery
      rw [Function.update_apply] at hquery
      split at hquery
      · next hkey =>
          subst hkey
          exact hquery
      · exact hquery

/-- A loader executes its statement for the entry of its key. -/
theorem key_of_query
    (hreach : (cachesSystem keyOf config codec source loads).Reachable caches)
    (key : Key) (token : Token) (query : Query Record)
    (hquery : caches.queries key token = some query) : keyOf token = key := by
  revert key token query
  apply System.Reachable.invariant (fun caches => ∀ key token query,
    caches.queries key token = some query → keyOf token = key) _ _ hreach
  · intro caches hinit key token query hquery
    have hnone : caches.queries key token = none := (hinit.1 key).2.2.2.1 token
    rw [hnone] at hquery
    cases hquery
  · intro caches action next hkeys hstep key token query hquery
    rcases found_of_step hstep hquery with hold | ⟨hkey, -⟩
    · exact hkeys key token query hold
    · exact hkey

/-- A statement that was not executed before finds a database of the run. -/
theorem found_later
    {actions : List (CachesAction Key Token Value DatabaseAction)}
    (hrun : (cachesSystem keyOf config codec source loads).run before actions =
      some after) (key : Key) (token : Token) (query : Query Record)
    (hquery : after.queries key token = some query) :
    before.queries key token = some query ∨
      (cachesSystem keyOf config codec source loads).Visits
        (fun caches => caches.database = query.snapshot) before actions := by
  revert key token query
  apply System.run_induction (fun actions after => ∀ key token query,
    after.queries key token = some query →
      before.queries key token = some query ∨
        (cachesSystem keyOf config codec source loads).Visits
          (fun caches => caches.database = query.snapshot) before actions)
    _ _ hrun
  · exact fun _ _ _ hquery => .inl hquery
  · intro actions action middle next hmiddle hbefore hstep key token query
      hquery
    rcases found_of_step hstep hquery with hold | ⟨-, hnow⟩
    · exact (hmiddle key token query hold).imp_right fun hvisits =>
        hvisits.append _
    · exact .inr ((System.visits_of_run hbefore hnow.symm).append _)

/-- A call that is sent after a state of the run, and answered when the lock and
the entries of that time are over, answers from a statement executed since. -/
theorem answer_later
    (hreach : (cachesSystem keyOf config codec source loads).ReachableVia
      (SameEndpoint ttl stale) before)
    {actions : List (CachesAction Key Token Value DatabaseAction)}
    (hsteps : (cachesSystem keyOf config codec source loads).Steps
      (SameEndpoint ttl stale) before actions)
    (hrun : (cachesSystem keyOf config codec source loads).run before actions =
      some after) {key : Key} {token : Token} {data : Value}
    {freshness : Freshness} {age : ℤ} {time : ℚ}
    (hsent : (before.entries key).call token = .idle)
    (hanswer : (after.entries key).answer token =
      some (.returned data freshness age))
    (htime : after.answeredAt key token = some time)
    (hlate : before.clock + lockSeconds + stale ≤ time) :
    ∃ writer query value,
      Loaded loads (after.front key) writer query value ∧
        keyOf writer = key ∧
        (data = value ∨ Served config codec value data) ∧
        (cachesSystem keyOf config codec source loads).Visits
          (fun caches => caches.database = query.snapshot) before actions := by
  have hfinal := hreach.run hsteps hrun
  obtain ⟨hearlier, -⟩ := backed_dated (front_reachable hreach key)
  obtain ⟨-, hdated⟩ := backed_dated (front_reachable hfinal key)
  obtain ⟨told, htold, hrecent⟩ := hdated token data freshness age hanswer
  obtain rfl : time = told := Option.some.inj (htime.symm.trans htold)
  rcases hrecent with ⟨query, hloaded, -⟩ |
    ⟨writer, query, value, hloaded, hserved, -, hbound⟩
  · refine ⟨token, query, data, hloaded,
      key_of_query hfinal.reachable key _ _ hloaded.1, .inl rfl, ?_⟩
    refine (found_later hrun key _ _ hloaded.1).resolve_left fun hold => ?_
    have hread := (hearlier.queries token query hold).2.2
    rw [show (before.front key).cache.call token = _ from hsent] at hread
    exact Bool.noConfusion hread
  · refine ⟨writer, query, value, hloaded,
      key_of_query hfinal.reachable key _ _ hloaded.1, .inr hserved, ?_⟩
    refine (found_later hrun key _ _ hloaded.1).resolve_left fun hold => ?_
    have hpast : query.time ≤ before.clock := by
      rw [← clock_of_reachable hreach.reachable key]
      exact (hearlier.queries writer query hold).1
    have : time < before.clock + lockSeconds + stale :=
      hbound.trans_le (by gcongr)
    exact absurd hlate (not_le.mpr this)

end Later

end UTTG.Cache
