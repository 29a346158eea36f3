import UTTG.Providers.Circuit

/-!
# Concurrent calls of a provider

Calls of `get_bytes` for one provider interleave at their awaits: the commands
to the store, the semaphore of their transport, the HTTP requests and the
sleeps between attempts.  A call tests the circuit once, before all of these.
-/

namespace UTTG.Transport

open UTTG.Circuit UTTG.Expiring UTTG.Transition

/-- How one `_read` ends. -/
inductive Read where
  | payload
  /-- `ConnectError` or `ConnectTimeout`. -/
  | unreachable
  /-- `ProxyError`. -/
  | proxyFailed
  /-- Another timeout, a network or protocol error, or a status from 500. -/
  | retried
  /-- Status 429, or another one from 400. -/
  | refused
  /-- Any other exception, such as an oversized response. -/
  | escaped
  deriving DecidableEq

/-- How a call of `get_bytes` ends. -/
inductive Ending where
  | payload
  | circuitOpen
  /-- The exception of the third attempt. -/
  | unavailable
  /-- `ProviderQuotaError` or `ProviderRequestError`. -/
  | rejected
  | escaped
  /-- The process died, or the task was cancelled. -/
  | crashed
  deriving DecidableEq

/-- Where a call stands.  The phases of `_record_failure` carry the exception
that goes on after it. -/
inductive Phase where
  | idle
  /-- The circuit test let it pass; it waits for the semaphore. -/
  | admitted
  /-- About to send the request of an attempt through a client. -/
  | ready (attempt client : ℕ)
  | requesting (attempt client : ℕ)
  | sleeping (attempt : ℕ) (wake : ℚ)
  /-- Before the `DEL` of `_clear_failures`. -/
  | clearing
  /-- Before the `INCR` of `_record_failure`. -/
  | counting (ending : Ending)
  | expiring (ending : Ending) (failures : ℕ)
  /-- Before the `SET` of the open key. -/
  | opening (ending : Ending)
  | ended (ending : Ending)
  deriving DecidableEq

/-- What a call does next. -/
inductive Event where
  | test (reply : Reply)
  | acquire
  | start
  | read (outcome : Read)
  | wake
  | clear (reply : Reply)
  | count (reply : Reply)
  | expire (reply : Reply)
  | openCircuit (reply : Reply)
  | crash
  deriving DecidableEq

/-- The branch for exceptions after which the loop goes on. -/
def retry (clock : ℚ) (attempt : ℕ) : Phase :=
  if attempt = 2 then .counting .unavailable
  else .sleeping attempt (clock + 1 / 2 * 2 ^ attempt)

/-- What follows a `_read`; `last` is the index of the last client. -/
def afterRead (last : ℕ) (clock : ℚ) (attempt client : ℕ) : Read → Phase
  | .payload => .clearing
  | .unreachable =>
      if client < last then .ready attempt (client + 1)
      else retry clock attempt
  | .proxyFailed =>
      if client < last then .ready attempt (client + 1) else .ended .escaped
  | .retried => retry clock attempt
  | .refused => .counting .rejected
  | .escaped => .ended .escaped

/-- The last test of `_record_failure`. -/
def afterExpire (ending : Ending) (failures : ℕ) : Phase :=
  if circuitFailureThreshold ≤ failures then .opening ending
  else .ended ending

/-- What follows the `INCR`. -/
def afterCount (ending : Ending) (failures : ℕ) : Phase :=
  if failures = 1 then .expiring ending failures
  else afterExpire ending failures

/-- One await of a call: its next phase and the keys after it. -/
def move (last : ℕ) (clock : ℚ) (keys : Keys) :
    Phase → Event → Option (Phase × Keys)
  | .idle, .test reply =>
      some (if reply = .answered ∧ circuitIsOpen clock keys = true then
        .ended .circuitOpen else .admitted, keys)
  | .admitted, .acquire => some (.ready 0 0, keys)
  | .ready attempt client, .start => some (.requesting attempt client, keys)
  | .requesting attempt client, .read outcome =>
      some (afterRead last clock attempt client outcome, keys)
  | .sleeping attempt wake, .wake =>
      if wake ≤ clock then some (.ready (attempt + 1) 0, keys) else none
  | .clearing, .clear reply =>
      some (.ended .payload,
        if reply = .refused then keys else clearFailures keys)
  | .counting ending, .count reply =>
      let (failures, counter) := keys.failures.incr clock
      some (if reply = .answered then afterCount ending failures
          else .ended ending,
        if reply = .refused then keys else { keys with failures := counter })
  | .expiring ending failures, .expire reply =>
      let counter := keys.failures.expire clock
        (clock + circuitFailureWindowSeconds)
      some (if reply = .answered then afterExpire ending failures
          else .ended ending,
        if reply = .refused then keys else { keys with failures := counter })
  | .opening ending, .openCircuit reply =>
      some (.ended ending,
        if reply = .refused then keys
        else { keys with
          circuitOpen := Slot.set () (clock + circuitOpenSeconds) })
  | .ended _, .crash => none
  | _, .crash => some (.ended .crashed, keys)
  | _, _ => none

/-- Inside `async with self._semaphore`. -/
def Phase.holds : Phase → Bool
  | .idle | .admitted | .ended _ => false
  | .ready _ _ | .requesting _ _ | .sleeping _ _ | .clearing | .counting _
  | .expiring _ _ | .opening _ => true

/-- Inside `_record_failure`. -/
def Phase.recording : Phase → Bool
  | .counting _ | .expiring _ _ | .opening _ => true
  | .idle | .admitted | .ready _ _ | .requesting _ _ | .sleeping _ _
  | .clearing | .ended _ => false

/-- The transports: which of them a call uses, how many calls each one lets
pass, and whether it has a client for `settings.http_proxy`. -/
structure Setup (Call Instance : Type*) where
  transport : Call → Instance
  concurrency : Instance → ℕ
  proxied : Instance → Bool

/-- The index of the last client of a call. -/
def Setup.lastClient {Call Instance : Type*} (setup : Setup Call Instance)
    (call : Call) : ℕ :=
  if setup.proxied (setup.transport call) then 1 else 0

structure State (Call Instance : Type*) where
  clock : ℚ
  keys : Keys
  permits : Instance → ℕ
  phase : Call → Phase

inductive Action (Call : Type*) where
  | elapse (duration : ℚ)
  | move (call : Call) (event : Event)

variable {Call Instance : Type*} [DecidableEq Call] [DecidableEq Instance]

/-- The permits after a call went from one phase to another; none when it
enters while there is no permit. -/
def regulate (permits : ℕ) (before after : Phase) : Option ℕ :=
  match before.holds, after.holds with
  | false, true => if 0 < permits then some (permits - 1) else none
  | true, false => some (permits + 1)
  | _, _ => some permits

def step (setup : Setup Call Instance) (state : State Call Instance) :
    Action Call → Option (State Call Instance)
  | .elapse duration =>
      if 0 ≤ duration then some { state with clock := state.clock + duration }
      else none
  | .move call event =>
      let transport := setup.transport call
      (move (setup.lastClient call) state.clock state.keys (state.phase call)
        event).bind fun (phase, keys) =>
          (regulate (state.permits transport) (state.phase call) phase).map
            fun permits => {
              clock := state.clock
              keys := keys
              permits := Function.update state.permits transport permits
              phase := Function.update state.phase call phase }

/-- Calls that have not begun, without keys in the store. -/
def system (setup : Setup Call Instance) :
    System (State Call Instance) (Action Call) where
  Init state := state.keys = ⟨none, none⟩ ∧
    state.permits = setup.concurrency ∧ ∀ call, state.phase call = .idle
  step := step setup

/-! ## What a step does -/

section Steps

variable {setup : Setup Call Instance} {state next : State Call Instance}

theorem step_elapse {duration : ℚ}
    (hstep : step setup state (.elapse duration) = some next) :
    0 ≤ duration ∧ next = { state with clock := state.clock + duration } := by
  simp only [step, Option.ite_none_right_eq_some, Option.some.injEq] at hstep
  exact ⟨hstep.1, hstep.2.symm⟩

theorem step_move {call : Call} {event : Event}
    (hstep : step setup state (.move call event) = some next) :
    ∃ phase, move (setup.lastClient call) state.clock state.keys
        (state.phase call) event = some (phase, next.keys) ∧
      next.clock = state.clock ∧
      next.phase = Function.update state.phase call phase := by
  obtain ⟨⟨phase, keys⟩, hmove, hstep⟩ := Option.bind_eq_some_iff.mp hstep
  obtain ⟨permits, -, rfl⟩ := Option.map_eq_some_iff.mp hstep
  exact ⟨phase, hmove, rfl, rfl⟩

/-- A step changes the phase of its own call only. -/
theorem phase_of_other {call other : Call} {event : Event}
    (hstep : step setup state (.move call event) = some next)
    (hother : other ≠ call) : next.phase other = state.phase other := by
  obtain ⟨phase, -, -, hphase⟩ := step_move hstep
  rw [hphase, Function.update_of_ne hother]

theorem clock_le {action : Action Call}
    (hstep : step setup state action = some next) :
    state.clock ≤ next.clock := by
  cases action with
  | elapse duration =>
      obtain ⟨hduration, rfl⟩ := step_elapse hstep
      exact le_add_of_nonneg_right hduration
  | move call event =>
      obtain ⟨phase, -, hclock, -⟩ := step_move hstep
      exact hclock.ge

end Steps

/-! ## One call -/

/-- The call may still send a request. -/
def Phase.maySend (last : ℕ) : Phase → Bool
  | .admitted | .ready _ _ | .sleeping _ _ => true
  | .requesting attempt client =>
      decide (attempt ≠ 2) || decide (client < last)
  | .idle | .clearing | .counting _ | .expiring _ _ | .opening _ | .ended _ =>
      false

theorem maySend_retry {last attempt client : ℕ} {clock : ℚ}
    (hsend : (retry clock attempt).maySend last = true) :
    (Phase.requesting attempt client).maySend last = true := by
  unfold retry at hsend
  split at hsend
  · simp [Phase.maySend] at hsend
  · next hattempt => simp [Phase.maySend, hattempt]

theorem maySend_afterRead {last attempt client : ℕ} {clock : ℚ}
    {outcome : Read}
    (hsend : (afterRead last clock attempt client outcome).maySend last =
      true) : (Phase.requesting attempt client).maySend last = true := by
  cases outcome with
  | payload | refused | escaped => simp [afterRead, Phase.maySend] at hsend
  | retried => exact maySend_retry hsend
  | unreachable | proxyFailed =>
      simp only [afterRead] at hsend
      split at hsend
      · next hclient => simp [Phase.maySend, hclient]
      · first
          | exact maySend_retry hsend
          | simp [Phase.maySend] at hsend

theorem maySend_afterExpire (last : ℕ) (ending : Ending) (failures : ℕ) :
    (afterExpire ending failures).maySend last = false := by
  unfold afterExpire
  split <;> rfl

theorem maySend_afterCount (last : ℕ) (ending : Ending) (failures : ℕ) :
    (afterCount ending failures).maySend last = false := by
  unfold afterCount
  split
  · rfl
  · exact maySend_afterExpire last ending failures

/-- Only the test lets a call send requests; later it can only stop to. -/
theorem maySend_of_move {last : ℕ} {clock : ℚ} {keys after : Keys}
    {phase next : Phase} {event : Event}
    (hmove : move last clock keys phase event = some (next, after))
    (hsend : next.maySend last = true) :
    phase.maySend last = true ∨
      ∃ reply, event = .test reply ∧
        (reply = .answered → circuitIsOpen clock keys = false) := by
  unfold move at hmove
  split at hmove
  case h_1 reply =>
    right
    refine ⟨reply, rfl, fun hanswered => ?_⟩
    by_contra hopen
    rw [Bool.not_eq_false] at hopen
    rw [if_pos ⟨hanswered, hopen⟩] at hmove
    obtain ⟨rfl, rfl⟩ := Prod.mk.inj (Option.some.inj hmove)
    simp [Phase.maySend] at hsend
  case h_2 => exact .inl rfl
  case h_3 => exact .inl rfl
  case h_4 =>
    obtain ⟨rfl, rfl⟩ := Prod.mk.inj (Option.some.inj hmove)
    exact .inl (maySend_afterRead hsend)
  case h_5 => exact .inl rfl
  case h_7 ending reply =>
    obtain ⟨rfl, rfl⟩ := Prod.mk.inj (Option.some.inj hmove)
    split at hsend
    · rw [maySend_afterCount] at hsend
      exact absurd hsend Bool.false_ne_true
    · simp [Phase.maySend] at hsend
  case h_8 ending failures reply =>
    obtain ⟨rfl, rfl⟩ := Prod.mk.inj (Option.some.inj hmove)
    split at hsend
    · rw [maySend_afterExpire] at hsend
      exact absurd hsend Bool.false_ne_true
    · simp [Phase.maySend] at hsend
  case h_6 | h_9 | h_11 =>
    obtain ⟨rfl, rfl⟩ := Prod.mk.inj (Option.some.inj hmove)
    simp [Phase.maySend] at hsend
  case h_10 | h_12 => simp at hmove

/-! ## The two keys -/

/-- A move, by what it does to the two keys. -/
inductive Effect (clock : ℚ) (keys : Keys) :
    Phase → Event → Phase → Keys → Prop
  | elsewhere {phase next : Phase} {event : Event} {after : Keys}
      (hbefore : phase.recording = false)
      (hafter : next.recording = true → ∃ ending, next = .counting ending)
      (hkeys : after = keys ∨ after = clearFailures keys) :
      Effect clock keys phase event next after
  | crashed {phase : Phase} (hbefore : phase.recording = true) :
      Effect clock keys phase .crash (.ended .crashed) keys
  | counted (ending : Ending) (reply : Reply) :
      Effect clock keys (.counting ending) (.count reply)
        (if reply = .answered then
          afterCount ending (keys.failures.incr clock).1 else .ended ending)
        (if reply = .refused then keys
          else { keys with failures := (keys.failures.incr clock).2 })
  | expired (ending : Ending) (failures : ℕ) (reply : Reply) :
      Effect clock keys (.expiring ending failures) (.expire reply)
        (if reply = .answered then afterExpire ending failures
          else .ended ending)
        (if reply = .refused then keys
          else { keys with
            failures := keys.failures.expire clock
              (clock + circuitFailureWindowSeconds) })
  | opened (ending : Ending) (reply : Reply) :
      Effect clock keys (.opening ending) (.openCircuit reply) (.ended ending)
        (if reply = .refused then keys
          else { keys with
            circuitOpen := Slot.set () (clock + circuitOpenSeconds) })

theorem recording_afterRead {last attempt client : ℕ} {clock : ℚ}
    {outcome : Read}
    (hrecording : (afterRead last clock attempt client outcome).recording =
      true) :
    ∃ ending, afterRead last clock attempt client outcome =
      .counting ending := by
  have hretry (hrecording : (retry clock attempt).recording = true) :
      ∃ ending, retry clock attempt = .counting ending := by
    unfold retry at hrecording ⊢
    split at hrecording
    · exact ⟨_, by rw [if_pos ‹_›]⟩
    · simp [Phase.recording] at hrecording
  cases outcome with
  | payload | escaped => simp [afterRead, Phase.recording] at hrecording
  | refused => exact ⟨_, rfl⟩
  | retried => exact hretry hrecording
  | unreachable | proxyFailed =>
      simp only [afterRead] at hrecording ⊢
      split at hrecording
      · simp [Phase.recording] at hrecording
      · first
          | rw [if_neg ‹_›]; exact hretry hrecording
          | simp [Phase.recording] at hrecording

theorem effect_of_move {last : ℕ} {clock : ℚ} {keys after : Keys}
    {phase next : Phase} {event : Event}
    (hmove : move last clock keys phase event = some (next, after)) :
    Effect clock keys phase event next after := by
  unfold move at hmove
  split at hmove
  case h_1 reply =>
    obtain ⟨rfl, rfl⟩ := Prod.mk.inj (Option.some.inj hmove)
    refine .elsewhere rfl (fun hrecording => ?_) (.inl rfl)
    split at hrecording <;> simp [Phase.recording] at hrecording
  case h_2 | h_3 =>
    obtain ⟨rfl, rfl⟩ := Prod.mk.inj (Option.some.inj hmove)
    exact .elsewhere rfl (by simp [Phase.recording]) (.inl rfl)
  case h_4 =>
    obtain ⟨rfl, rfl⟩ := Prod.mk.inj (Option.some.inj hmove)
    exact .elsewhere rfl recording_afterRead (.inl rfl)
  case h_5 =>
    simp only [Option.ite_none_right_eq_some, Option.some.injEq,
      Prod.mk.injEq] at hmove
    obtain ⟨-, rfl, rfl⟩ := hmove
    exact .elsewhere rfl (by simp [Phase.recording]) (.inl rfl)
  case h_6 reply =>
    obtain ⟨rfl, rfl⟩ := Prod.mk.inj (Option.some.inj hmove)
    refine .elsewhere rfl (by simp [Phase.recording]) ?_
    split
    · exact .inl rfl
    · exact .inr rfl
  case h_7 ending reply =>
    obtain ⟨rfl, rfl⟩ := Prod.mk.inj (Option.some.inj hmove)
    exact .counted ending reply
  case h_8 ending failures reply =>
    obtain ⟨rfl, rfl⟩ := Prod.mk.inj (Option.some.inj hmove)
    exact .expired ending failures reply
  case h_9 ending reply =>
    obtain ⟨rfl, rfl⟩ := Prod.mk.inj (Option.some.inj hmove)
    exact .opened ending reply
  case h_11 =>
    obtain ⟨rfl, rfl⟩ := Prod.mk.inj (Option.some.inj hmove)
    cases hrecording : phase.recording with
    | true => exact .crashed hrecording
    | false =>
        exact .elsewhere hrecording (by simp [Phase.recording]) (.inl rfl)
  case h_10 | h_12 => simp at hmove

/-- Only the `SET` of `_record_failure` changes the open key. -/
theorem circuitOpen_of_move {last : ℕ} {clock : ℚ} {keys after : Keys}
    {phase next : Phase} {event : Event}
    (hmove : move last clock keys phase event = some (next, after)) :
    after.circuitOpen = keys.circuitOpen ∨
      ∃ reply, event = .openCircuit reply ∧ reply ≠ .refused := by
  cases effect_of_move hmove with
  | elsewhere hbefore hafter hkeys =>
      left
      rcases hkeys with rfl | rfl
      · rfl
      · rfl
  | crashed hbefore => exact .inl rfl
  | counted ending reply | expired ending failures reply =>
      left
      split
      · rfl
      · rfl
  | opened ending reply =>
      by_cases hrefused : reply = .refused
      · left
        rw [if_pos hrefused]
      · exact .inr ⟨reply, rfl, hrefused⟩

/-- The `SET` of the open key is the last command of a call. -/
theorem ended_of_openCircuit {last : ℕ} {clock : ℚ} {keys after : Keys}
    {phase next : Phase} {reply : Reply}
    (hmove : move last clock keys phase (.openCircuit reply) =
      some (next, after)) :
    ∃ ending, phase = .opening ending ∧ next = .ended ending := by
  cases phase with
  | opening ending =>
      obtain ⟨rfl, -⟩ := Prod.mk.inj (Option.some.inj hmove)
      exact ⟨ending, rfl, rfl⟩
  | _ => simp [move] at hmove

/-! ## Requests while the circuit is open -/

section Requests

variable {setup : Setup Call Instance} {state next : State Call Instance}
  {action : Action Call}

/-- A request is sent while the open key is not set. -/
def SendsWhileClosed (state : State Call Instance) : Action Call → Prop
  | .move _ .start => circuitIsOpen state.clock state.keys = false
  | _ => True

/-- The test of the circuit is answered, unless the circuit is closed; and the
open key is set while no other call may still send a request. -/
def OpensAlone (setup : Setup Call Instance) (state : State Call Instance) :
    Action Call → Prop
  | .move _ (.test reply) =>
      reply = .answered ∨ circuitIsOpen state.clock state.keys = false
  | .move call (.openCircuit reply) => reply = .refused ∨
      ∀ other, other ≠ call →
        (state.phase other).maySend (setup.lastClient other) = false
  | _ => True

instance (state : State Call Instance) :
    (action : Action Call) → Decidable (SendsWhileClosed state action)
  | .move _ .start => inferInstanceAs (Decidable (_ = false))
  | .elapse _ | .move _ (.test _) | .move _ .acquire | .move _ (.read _)
  | .move _ .wake | .move _ (.clear _) | .move _ (.count _)
  | .move _ (.expire _) | .move _ (.openCircuit _) | .move _ .crash =>
      inferInstanceAs (Decidable True)

instance [Fintype Call] (state : State Call Instance) :
    (action : Action Call) → Decidable (OpensAlone setup state action)
  | .move _ (.test _) => inferInstanceAs (Decidable (_ = _ ∨ _ = false))
  | .move call (.openCircuit _) =>
      inferInstanceAs (Decidable (_ = _ ∨ ∀ other, other ≠ call → _ = false))
  | .elapse _ | .move _ .acquire | .move _ .start | .move _ (.read _)
  | .move _ .wake | .move _ (.clear _) | .move _ (.count _)
  | .move _ (.expire _) | .move _ .crash => inferInstanceAs (Decidable True)

/-- Calls that may send requests find the circuit closed. -/
def Unopened (setup : Setup Call Instance) (state : State Call Instance) :
    Prop :=
  ∀ call, (state.phase call).maySend (setup.lastClient call) = true →
    circuitIsOpen state.clock state.keys = false

/-- A key that nobody sets stays closed. -/
theorem circuitIsOpen_later {now later : ℚ} {keys after : Keys}
    (hle : now ≤ later) (hsame : after.circuitOpen = keys.circuitOpen)
    (hclosed : circuitIsOpen now keys = false) :
    circuitIsOpen later after = false := by
  rw [circuitIsOpen, Slot.exist_eq_false_iff] at hclosed ⊢
  rw [hsame]
  exact Slot.get_none_of_le hle hclosed

theorem Unopened.step (hunopened : Unopened setup state)
    (hstep : Transport.step setup state action = some next)
    (halone : OpensAlone setup state action) : Unopened setup next := by
  intro call hsend
  have hle := clock_le hstep
  cases action with
  | elapse duration =>
      obtain ⟨-, rfl⟩ := step_elapse hstep
      exact circuitIsOpen_later hle rfl (hunopened call hsend)
  | move mover event =>
      obtain ⟨phase, hmove, -, hphase⟩ := step_move hstep
      -- the circuit was closed for the call before the step
      have hclosed : circuitIsOpen state.clock state.keys = false := by
        by_cases hmover : call = mover
        · subst hmover
          rw [hphase, Function.update_self] at hsend
          rcases maySend_of_move hmove hsend with
            hbefore | ⟨reply, rfl, htested⟩
          · exact hunopened call hbefore
          · exact halone.elim htested id
        · rw [phase_of_other hstep hmover] at hsend
          exact hunopened call hsend
      rcases circuitOpen_of_move hmove with hsame | ⟨reply, rfl, hset⟩
      · exact circuitIsOpen_later hle hsame hclosed
      · -- nobody but the mover may be about to send, and it has finished
        have hothers := halone.resolve_left hset
        by_cases hmover : call = mover
        · subst hmover
          obtain ⟨ending, -, rfl⟩ := ended_of_openCircuit hmove
          rw [hphase, Function.update_self] at hsend
          simp [Phase.maySend] at hsend
        · rw [phase_of_other hstep hmover, hothers call hmover] at hsend
          exact absurd hsend Bool.false_ne_true

theorem unopened_of_init (hinit : (system setup).Init state) :
    Unopened setup state := by
  intro call hsend
  rw [hinit.2.2 call] at hsend
  simp [Phase.maySend] at hsend

theorem Unopened.sends (hunopened : Unopened setup state)
    (hstep : Transport.step setup state action = some next) :
    SendsWhileClosed state action := by
  cases action with
  | elapse duration => trivial
  | move call event =>
      cases event with
      | start =>
          obtain ⟨phase, hmove, -, -⟩ := step_move hstep
          refine hunopened call ?_
          cases hphase : state.phase call with
          | ready attempt client => rfl
          | _ =>
              rw [hphase] at hmove
              simp [move] at hmove
      | _ => trivial

/-- In every run in which the circuit is opened only while no other call may
still send a request, no request is sent while the circuit is open. -/
theorem requests_sent_closed (setup : Setup Call Instance)
    {start : State Call Instance} (hinit : (system setup).Init start)
    {actions : List (Action Call)}
    (hsteps : (system setup).Steps
      (fun before action _ => OpensAlone setup before action) start actions) :
    (system setup).Steps (fun before action _ => SendsWhileClosed before action)
      start actions :=
  System.Steps.of_invariant (Unopened setup)
    (fun _ _ _ hunopened hstep halone => hunopened.step hstep halone)
    (fun _ _ _ hunopened hstep _ => hunopened.sends hstep)
    (unopened_of_init hinit) hsteps

end Requests

/-! ## Two transports at work -/

/-- Two transports of concurrency one without a proxy; the first has four
calls, the second two. -/
def pairOfTransports : Setup (Fin 6) (Fin 2) where
  transport call := if call < 4 then 0 else 1
  concurrency _ := 1
  proxied _ := false

def beforeCalls : State (Fin 6) (Fin 2) :=
  ⟨0, ⟨none, none⟩, fun _ => 1, fun _ => .idle⟩

theorem beforeCalls_init : (system pairOfTransports).Init beforeCalls :=
  ⟨rfl, rfl, fun _ => rfl⟩

/-- The circuit lets the call pass. -/
def pass (call : Fin 6) : List (Action (Fin 6)) :=
  [.move call (.test .answered)]

/-- The call gets a permit, is refused with status 429 and counts it. -/
def refuse (call : Fin 6) : List (Action (Fin 6)) :=
  [.move call .acquire, .move call .start, .move call (.read .refused),
    .move call (.count .answered)]

/-- Four refused calls, one after another. -/
def fourRefused : List (Action (Fin 6)) :=
  pass 0 ++ refuse 0 ++ [.move 0 (.expire .answered)] ++ pass 1 ++ refuse 1 ++
    pass 2 ++ refuse 2 ++ pass 3 ++ refuse 3

/-- Two calls pass the test together.  The fifth failure opens the circuit,
and then the waiting call gets the semaphore and sends its request. -/
theorem waiting_call_sends :
    ¬(system pairOfTransports).Steps
      (fun before action _ => SendsWhileClosed before action) beforeCalls
      (fourRefused ++ pass 4 ++ pass 5 ++ refuse 4 ++
        [.move 4 (.openCircuit .answered), .move 5 .acquire,
          .move 5 .start]) := by
  decide +kernel

/-- A fifth call that passes the test alone. -/
theorem lone_call_sends_closed :
    (system pairOfTransports).Steps
      (fun before action _ => SendsWhileClosed before action) beforeCalls
      (fourRefused ++ pass 4 ++ refuse 4 ++
        [.move 4 (.openCircuit .answered), .move 5 (.test .answered)]) :=
  requests_sent_closed pairOfTransports beforeCalls_init (by decide +kernel)

end UTTG.Transport
