import UTTG.Core.Transition
import UTTG.Core.Expiring

/-!
# Guarded ingestion jobs

`_run_guarded` runs one job in every scheduler replica and lets a key of the
lock store decide which replica may run it.  The model has any number of
replicas, one key and one clock.  Every await of the loop is a separate
action, so runs of different replicas interleave in every order; the job, the
health write and the event publication may take any time.  The store answers
every command, so the exception handlers of `_acquire_slot` and `_hold_slot`
do not occur.
-/

namespace UTTG.Guarded

open UTTG.Expiring UTTG.Transition

/-- `_FIRST_RETRY_SECONDS`. -/
def firstRetrySeconds : ℕ := 60

/-- `_RUNNING_LEASE_SECONDS`. -/
def runningLeaseSeconds : ℚ := 900

/-- A value that `random.uniform(0.8, 1.2)` can return. -/
def Jitter := {factor : ℚ // 4 / 5 ≤ factor ∧ factor ≤ 6 / 5}

/-- `_retry_delay`, with the random factor as an argument and an exact product.
Its callers count the failure that just happened, so failures start at 1. -/
def retryDelay (consecutiveFailures intervalSeconds : ℕ) (jitter : Jitter) :
    ℚ :=
  min ((firstRetrySeconds * 2 ^ min (consecutiveFailures - 1) 10 : ℕ) : ℚ)
    intervalSeconds * jitter.val

/-- Python's `int` on a number: truncation towards zero. -/
def pyInt (number : ℚ) : ℤ :=
  if 0 ≤ number then ⌊number⌋ else ⌈number⌉

/-- The expiry that `_hold_slot` asks for: `max(int(seconds), 1)`. -/
def holdSeconds (seconds : ℚ) : ℤ := max (pyInt seconds) 1

/-- The lock key.  Its value is always `"1"`, so only presence matters. -/
abbrev LockKey := Slot Unit ℚ

/-- The `SET NX EX` of `_acquire_slot`. -/
def acquireSlot (now : ℚ) (slot : LockKey) : Bool × LockKey :=
  slot.setNx now () (now + runningLeaseSeconds)

/-- `TTL`: `-2` for an absent key, else the remaining seconds, rounded. -/
def ttl (now : ℚ) (slot : LockKey) : ℤ :=
  match slot with
  | none => -2
  | some entry =>
      if Slot.lapsed now entry then -2
      else match entry.deadline with
        | none => -1
        | some deadline => ⌊deadline - now + 1 / 2⌋

/-- The unconditional `SET EX` of `_hold_slot`. -/
def holdSlot (now seconds : ℚ) : LockKey :=
  Slot.set () (now + holdSeconds seconds)

/-- Where a replica stands in the loop of `_run_guarded`.  `since` is the
instant at which it acquired the slot. -/
inductive Phase where
  /-- The process does not run the loop. -/
  | stopped
  /-- At the top of the loop, before `SET NX`. -/
  | acquiring (consecutiveFailures : ℕ)
  /-- `SET NX` was refused and `TTL` comes next. -/
  | waiting (consecutiveFailures : ℕ)
  /-- In one of the three `asyncio.sleep` calls. -/
  | sleeping (consecutiveFailures : ℕ) (wake : ℚ)
  /-- Inside `job()`. -/
  | running (consecutiveFailures : ℕ) (since : ℚ)
  /-- The job raised; health write and event come before `_hold_slot`. -/
  | failed (consecutiveFailures : ℕ) (since delay : ℚ)
  /-- The job returned; `_hold_slot` comes next. -/
  | succeeded (since : ℚ)
  /-- The slot is held for the interval; the health write comes next. -/
  | recording
  deriving DecidableEq

/-- The acquisition time of a replica between `_acquire_slot` and the
`_hold_slot` that ends its run. -/
def Phase.since : Phase → Option ℚ
  | .running _ since => some since
  | .failed _ since _ => some since
  | .succeeded since => some since
  | _ => none

/-- How a run ended. -/
inductive Ending where
  | success
  | failure (delay : ℚ)
  deriving DecidableEq

/-- The argument with which the run calls `_hold_slot`. -/
def Ending.seconds (intervalSeconds : ℕ) : Ending → ℚ
  | .success => intervalSeconds
  | .failure delay => delay

/-- A completed `_hold_slot`. -/
structure Held (Replica : Type*) where
  replica : Replica
  time : ℚ
  ending : Ending

/-- The lock store, the replicas and the history of completed holds.  The
history is only observed: no step reads it. -/
structure State (Replica : Type*) where
  clock : ℚ
  slot : LockKey
  phase : Replica → Phase
  held : List (Held Replica)

/-- One await of one replica, or the passage of time. -/
inductive Action (Replica : Type*) where
  | elapse (duration : ℚ)
  | start (replica : Replica)
  | acquire (replica : Replica)
  | askTtl (replica : Replica)
  | wake (replica : Replica)
  | jobReturns (replica : Replica)
  | jobRaises (replica : Replica) (jitter : Jitter)
  | hold (replica : Replica)
  | record (replica : Replica)
  | crash (replica : Replica)

variable {Replica : Type*} [DecidableEq Replica]

/-- Move one replica to another phase. -/
def State.goto (state : State Replica) (replica : Replica) (phase : Phase) :
    State Replica :=
  { state with phase := Function.update state.phase replica phase }

/-- The `_hold_slot` of a run that ends as `ending`. -/
def State.holdFor (state : State Replica) (intervalSeconds : ℕ)
    (replica : Replica) (ending : Ending) (phase : Phase) : State Replica :=
  { state with
    slot := holdSlot state.clock (ending.seconds intervalSeconds)
    phase := Function.update state.phase replica phase
    held := ⟨replica, state.clock, ending⟩ :: state.held }

/-- One step of `_run_guarded` in one replica. -/
def step (intervalSeconds : ℕ) (state : State Replica) :
    Action Replica → Option (State Replica)
  | .elapse duration =>
      if 0 ≤ duration then some { state with clock := state.clock + duration }
      else none
  | .start replica =>
      match state.phase replica with
      | .stopped => some (state.goto replica (.acquiring 0))
      | _ => none
  | .acquire replica =>
      match state.phase replica with
      | .acquiring failures =>
          match acquireSlot state.clock state.slot with
          | (true, slot) =>
              some { state.goto replica (.running failures state.clock) with
                slot := slot }
          | (false, _) => some (state.goto replica (.waiting failures))
      | _ => none
  | .askTtl replica =>
      match state.phase replica with
      | .waiting failures =>
          some (state.goto replica (.sleeping failures
            (state.clock + max (ttl state.clock state.slot) 5)))
      | _ => none
  | .wake replica =>
      match state.phase replica with
      | .sleeping failures wake =>
          if wake ≤ state.clock then
            some (state.goto replica (.acquiring failures))
          else none
      | _ => none
  | .jobReturns replica =>
      match state.phase replica with
      | .running _ since => some (state.goto replica (.succeeded since))
      | _ => none
  | .jobRaises replica jitter =>
      match state.phase replica with
      | .running failures since =>
          some (state.goto replica (.failed (failures + 1) since
            (retryDelay (failures + 1) intervalSeconds jitter)))
      | _ => none
  | .hold replica =>
      match state.phase replica with
      | .failed failures _ delay =>
          some (state.holdFor intervalSeconds replica (.failure delay)
            (.sleeping failures (state.clock + delay)))
      | .succeeded _ =>
          some (state.holdFor intervalSeconds replica .success .recording)
      | _ => none
  | .record replica =>
      match state.phase replica with
      | .recording =>
          some (state.goto replica
            (.sleeping 0 (state.clock + intervalSeconds)))
      | _ => none
  | .crash replica => some (state.goto replica .stopped)

/-- Any number of replicas that have not started yet, over any content of the
lock key. -/
def system (Replica : Type*) [DecidableEq Replica] (intervalSeconds : ℕ) :
    System (State Replica) (Action Replica) where
  Init state := (∀ replica, state.phase replica = .stopped) ∧ state.held = []
  step := step intervalSeconds

end UTTG.Guarded
