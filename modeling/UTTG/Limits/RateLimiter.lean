import UTTG.Core.FixedWindow
import UTTG.Core.Separated
import UTTG.Core.Transition
import UTTG.Python.Text

/-!
# The rate limiter

`RateLimiter.__call__` reads the clock, runs `_LUA_FIXED_WINDOW` on the counter
of its client, class and minute, and reads the clock again for the time it
advertises.  Requests of any number of processes interleave at these points
over one store, whose clock is the one that they read.
-/

namespace UTTG.Limits

open Python UTTG.Expiring UTTG.Transition

/-- The keys of `_QUOTAS`. -/
inductive LimitClass where
  | publicLight
  | publicStandard
  | publicExpensive
  | mutation
  deriving DecidableEq

def LimitClass.name : LimitClass → Text
  | .publicLight => text "public_light"
  | .publicStandard => text "public_standard"
  | .publicExpensive => text "public_expensive"
  | .mutation => text "mutation"

/-- `_QUOTAS`. -/
def quotas : LimitClass → ℕ
  | .publicLight => 600
  | .publicStandard => 240
  | .publicExpensive => 60
  | .mutation => 30

def windowSeconds : ℕ := 60

/-- `int(time.time() // window_seconds)`. -/
def windowOf (clock : ℚ) : ℤ := ⌊clock / windowSeconds⌋

/-- `int` of a float, which cuts off. -/
def truncate (clock : ℚ) : ℤ := if 0 ≤ clock then ⌊clock⌋ else ⌈clock⌉

/-- Whom a request is counted for: `self.limit_class` and `client["id"]`. -/
structure Account where
  limitClass : LimitClass
  client : Text
  deriving DecidableEq

def Account.quota (account : Account) : ℕ := quotas account.limitClass

/-- `f"rl:{self.limit_class}:{client['id']}:{window}"`. -/
def Account.key (account : Account) (window : ℤ) : Text :=
  text "rl:" ++ account.limitClass.name ++ text ":" ++ account.client ++
    text ":" ++ signed window

/-- `_LUA_FIXED_WINDOW`. -/
def luaFixedWindow (clock : ℚ) (limit ttl : ℕ) (slot : Slot ℕ ℚ) :
    (ℤ × ℕ) × Slot ℕ ℚ :=
  let (count, counted) := FixedWindow.record (ttl : ℚ) clock slot
  (if limit < count then (-1, limit) else (limit - count, limit), counted)

/-- `request.state.rl_limit`, `rl_remaining` and `rl_reset`. -/
structure Rate where
  limit : ℤ
  remaining : ℤ
  reset : ℤ
  deriving DecidableEq

/-- `HTTPException`. -/
structure HttpError where
  statusCode : ℕ
  detail : Text
  headers : List (Text × Text)
  deriving DecidableEq

/-- How the dependency ends. -/
inductive Outcome where
  | admitted (rate : Rate)
  | refused (rate : Rate) (error : HttpError)
  | unavailable (error : HttpError)
  deriving DecidableEq

/-- Where a request stands: it has made its key, or its script has replied. -/
inductive Phase where
  | idle
  | keyed (window : ℤ)
  | counted (remaining : ℤ) (limit : ℕ)
  | ended (outcome : Outcome)
  deriving DecidableEq

/-- An execution of the script for a request. -/
structure Execution (Request : Type*) where
  request : Request
  window : ℤ
  time : ℚ
  remaining : ℤ
  deriving DecidableEq

/-- The clock, the counters, the requests and, as an observed history, the
executions of the script. -/
structure State (Request : Type*) where
  clock : ℚ
  counters : Text → Slot ℕ ℚ
  phase : Request → Phase
  log : List (Execution Request)

inductive Action (Request : Type*) where
  | elapse (duration : ℚ)
  | arrive (request : Request)
  | evaluate (request : Request) (reply : Reply)
  | respond (request : Request)
  deriving DecidableEq

/-- The 503 of the `except` branch. -/
def unavailableError : HttpError where
  statusCode := 503
  detail := text "Rate limiter unavailable"
  headers := []

/-- The 429. -/
def exceededError (limit resetAt : ℤ) : HttpError where
  statusCode := 429
  detail := text "Rate limit exceeded"
  headers := [
    (text "Retry-After", signed windowSeconds),
    (text "RateLimit-Limit", signed limit),
    (text "RateLimit-Remaining", text "0"),
    (text "RateLimit-Reset", signed resetAt)]

/-- What follows the reply of the script. -/
def outcomeOf (clock : ℚ) (remaining limit : ℤ) : Outcome :=
  let resetAt := truncate clock + windowSeconds
  let rate := ⟨limit, max remaining 0, resetAt⟩
  if remaining < 0 then .refused rate (exceededError limit resetAt)
  else .admitted rate

variable {Request : Type*} [DecidableEq Request]

def State.goto (state : State Request) (request : Request) (phase : Phase) :
    State Request :=
  { state with phase := Function.update state.phase request phase }

omit [DecidableEq Request] in
/-- Execute the script for a request of an account. -/
def State.runScript (state : State Request) (request : Request)
    (account : Account) (window : ℤ) : (ℤ × ℕ) × State Request :=
  let (result, counter) := luaFixedWindow state.clock account.quota
    windowSeconds (state.counters (account.key window))
  (result, { state with
    counters := Function.update state.counters (account.key window) counter
    log := state.log ++ [⟨request, window, state.clock, result.1⟩] })

/-- One step of one request, or of the clock. -/
def step (account : Request → Account) (state : State Request) :
    Action Request → Option (State Request)
  | .elapse duration =>
      if 0 ≤ duration then some { state with clock := state.clock + duration }
      else none
  | .arrive request =>
      match state.phase request with
      | .idle => some (state.goto request (.keyed (windowOf state.clock)))
      | _ => none
  | .evaluate request reply =>
      match state.phase request with
      | .keyed window =>
          let (result, next) := state.runScript request (account request) window
          match reply with
          | .answered =>
              some (next.goto request (.counted result.1 result.2))
          | .lost =>
              some (next.goto request (.ended (.unavailable unavailableError)))
          | .refused =>
              some (state.goto request (.ended (.unavailable unavailableError)))
      | _ => none
  | .respond request =>
      match state.phase request with
      | .counted remaining limit =>
          some (state.goto request
            (.ended (outcomeOf state.clock remaining limit)))
      | _ => none

/-- Requests that have not arrived, over a store without counters. -/
def system (account : Request → Account) :
    System (State Request) (Action Request) where
  Init state := (∀ key, state.counters key = none) ∧
    (∀ request, state.phase request = .idle) ∧ state.log = []
  step := step account

/-! ## Keys -/

theorem colon_not_mem_name (limitClass : LimitClass) :
    point 0x3A ∉ limitClass.name := by
  cases limitClass <;> decide

theorem name_injective : Function.Injective LimitClass.name := by
  intro left right heq
  cases left <;> cases right <;> first | rfl | exact absurd heq (by decide)

theorem colon_not_mem_signed (value : ℤ) : point 0x3A ∉ signed value :=
  notMem_signed rfl (by decide) value

/-- The three parts of a key can be told apart, whatever the client is called:
the class ends at the first colon and the minute starts after the last one. -/
theorem key_injective {left right : Account} {leftWindow rightWindow : ℤ}
    (heq : left.key leftWindow = right.key rightWindow) :
    left = right ∧ leftWindow = rightWindow := by
  obtain ⟨leftClass, leftClient⟩ := left
  obtain ⟨rightClass, rightClient⟩ := right
  have hcolon : text ":" = [point 0x3A] := rfl
  simp only [Account.key, hcolon, List.append_assoc, List.cons_append,
    List.nil_append, List.append_cancel_left_eq] at heq
  obtain ⟨hclass, hrest⟩ := Separated.append_cons_inj (colon_not_mem_name _)
    (colon_not_mem_name _) heq
  have hreversed := congrArg List.reverse hrest
  simp only [List.reverse_append, List.reverse_cons, List.append_assoc,
    List.cons_append, List.nil_append] at hreversed
  obtain ⟨hwindow, hclient⟩ := Separated.append_cons_inj
    (by simpa using colon_not_mem_signed leftWindow)
    (by simpa using colon_not_mem_signed rightWindow) hreversed
  rw [name_injective hclass, List.reverse_injective hclient]
  exact ⟨rfl, signed_injective (List.reverse_injective hwindow)⟩

end UTTG.Limits
