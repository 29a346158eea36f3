import UTTG.Core.Expiring
import UTTG.Core.SlidingWindow
import UTTG.Core.Transition
import UTTG.Python.Text

/-!
# The Space-Track client

Calls of `get_gp`, `get_satcat` and `get_decay` on any number of clients over
one store.  A call reads the cooldown of its dataset, counts its requests in the
counters of the minute and the hour, logs its client in if need be, sends its
query, and writes the cooldown after a reply.  Between two commands anything may
happen elsewhere.
-/

namespace UTTG.SpaceTrack

open Python UTTG.Expiring UTTG.Transition

/-! ## Keys -/

/-- The two windows of `_guard_global`. -/
inductive Span where
  | minute
  | hour
  deriving DecidableEq

namespace Span

def name : Span → Text
  | minute => text "min"
  | hour => text "hr"

/-- The divisor of `time.time()`, in seconds. -/
def length : Span → ℕ
  | minute => 60
  | hour => 3600

/-- The expiry of the counter. -/
def expiry : Span → ℕ
  | minute => 120
  | hour => 7200

/-- The count above which the guard raises. -/
def limit : Span → ℕ
  | minute => 29
  | hour => 299

/-- `int(time.time() // length)`. -/
def windowOf (span : Span) (clock : ℚ) : ℤ := ⌊clock / span.length⌋

end Span

/-- What a call asks for. -/
inductive Dataset where
  | gp (noradId : ℤ)
  | satcat
  | decay
  deriving DecidableEq

namespace Dataset

/-- `ex`. -/
def cooldown : Dataset → ℕ
  | gp _ => 3600
  | satcat => 86400
  | decay => 604800

/-- The end of `lock`. -/
def lock : Dataset → Text
  | gp noradId => text "gp:" ++ signed noradId
  | satcat => text "satcat:daily"
  | decay => text "decay:weekly"

/-- The message of a call that finds the cooldown. -/
def cooldownActive : Dataset → Text
  | gp noradId =>
      text "GP cooldown active for NORAD " ++ signed noradId ++ text " (1/hr)"
  | satcat => text "SATCAT cooldown active (1/day)"
  | decay => text "Decay cooldown active (1/week)"

end Dataset

/-- A key of the store. -/
inductive Key where
  | window (span : Span) (index : ℤ)
  | cooldown (dataset : Dataset)
  deriving DecidableEq

def Key.name : Key → Text
  | window span index =>
      text "upstream:spacetrack:global:" ++ span.name ++ text ":" ++
        signed index
  | cooldown dataset => text "upstream:spacetrack:" ++ dataset.lock

/-! ## Calls -/

/-- A number drawn from a counter.  A counter is told apart by its window and by
how often a counter had been created for this window. -/
structure Draw where
  window : ℤ
  opening : ℕ
  count : ℕ
  deriving DecidableEq

def Draw.counter (draw : Draw) : ℤ × ℕ := (draw.window, draw.opening)

/-- What a request drew, `min_cnt` and `hr_cnt`. -/
structure Draws where
  minute : Draw
  hour : Draw
  deriving DecidableEq

def Draws.of (draws : Draws) : Span → Draw
  | .minute => draws.minute
  | .hour => draws.hour

/-- The request that a call is about to send. -/
inductive Target where
  | login
  | query
  deriving DecidableEq

/-- A request that has been sent: the dataset of a query, or none for a
login. -/
structure Sent where
  query : Option Dataset
  time : ℚ
  draws : Draws
  deriving DecidableEq

/-- How a call ends. -/
inductive Outcome where
  | returned
  /-- It raises an error of its own. -/
  | raised (message : Text)
  /-- It raises an error of the store or of the HTTP client, or is cancelled. -/
  | failed
  deriving DecidableEq

/-- Where a call stands. -/
inductive Phase where
  | idle
  /-- The cooldown is not set. -/
  | unlocked
  | loggedIn
  /-- `min_key` is made. -/
  | dated (target : Target) (minute : ℤ)
  /-- `hr_key` is made. -/
  | keyed (target : Target) (minute hour : ℤ)
  /-- The counter of the minute has been created. -/
  | minuteCreated (target : Target) (minute : Draw) (hour : ℤ)
  | minuteCounted (target : Target) (minute : Draw) (hour : ℤ)
  /-- The counter of the hour has been created. -/
  | hourCreated (target : Target) (draws : Draws)
  /-- The guard has not raised. -/
  | cleared (target : Target) (draws : Draws)
  | sent (target : Target) (request : Sent)
  /-- The query has been answered. -/
  | received (request : Sent)
  | ended (outcome : Outcome)
  deriving DecidableEq

/-- The clock, the store, the clients and the calls.  Observed besides are how
often the counters were created, the queries that a cooldown was written for,
those of them that it was when a call read the cooldown, and the requests
sent. -/
structure State (Client Call : Type*) where
  clock : ℚ
  store : Text → Slot ℕ ℚ
  authenticated : Client → Bool
  phase : Call → Phase
  opened : Key → ℕ
  recorded : List Sent
  seen : Call → List Sent
  sends : List Sent

inductive Action (Call : Type*) where
  | elapse (duration : ℚ)
  | check (call : Call) (reply : Reply)
  | readMinute (call : Call)
  | readHour (call : Call)
  | incr (call : Call) (reply : Reply)
  | expire (call : Call) (reply : Reply)
  | send (call : Call)
  | respond (call : Call) (accepted : Bool)
  | record (call : Call) (reply : Reply)
  | raise (call : Call)
  deriving DecidableEq

/-- What the calls are: whose, and for what; and whether credentials are
configured. -/
structure Setting (Client Call : Type*) where
  client : Call → Client
  dataset : Call → Dataset
  configured : Bool

namespace State

variable {Client Call : Type*}

def slot (state : State Client Call) (key : Key) : Slot ℕ ℚ :=
  state.store key.name

def write (state : State Client Call) (key : Key) (slot : Slot ℕ ℚ) :
    State Client Call :=
  { state with store := Function.update state.store key.name slot }

variable [DecidableEq Call]

def goto (state : State Client Call) (call : Call) (phase : Phase) :
    State Client Call :=
  { state with phase := Function.update state.phase call phase }

/-- A command: it is executed unless it is refused, and the call goes on only
with an answer. -/
def command (state : State Client Call) (call : Call) (reply : Reply)
    (executed : State Client Call) (next : Phase) : State Client Call :=
  match reply with
  | .answered => executed.goto call next
  | .lost => executed.goto call (.ended .failed)
  | .refused => state.goto call (.ended .failed)

/-- `INCR` on the counter of a window, and what it draws. -/
def count (state : State Client Call) (span : Span) (window : ℤ) :
    Draw × State Client Call :=
  let key := Key.window span window
  let (count, counted) := (state.slot key).incr state.clock
  let opened :=
    if count = 1 then
      Function.update state.opened key (state.opened key + 1)
    else state.opened
  (⟨window, opened key, count⟩,
    { state.write key counted with opened := opened })

/-- `EXPIRE` on the counter of a window. -/
def expireWindow (state : State Client Call) (span : Span) (window : ℤ) :
    State Client Call :=
  let key := Key.window span window
  state.write key
    ((state.slot key).expire state.clock (state.clock + span.expiry))

end State

/-- The end of `_guard_global`. -/
def settle (target : Target) (draws : Draws) : Phase :=
  if Span.minute.limit < draws.minute.count ∨
      Span.hour.limit < draws.hour.count then
    .ended (.raised
      (text "Space-Track upstream budget exhausted (30/min, 300/hr)"))
  else .cleared target draws

section Steps

variable {Client Call : Type*}

/-- The request that a call sends. -/
def requestOf (setting : Setting Client Call) (state : State Client Call)
    (call : Call) (target : Target) (draws : Draws) : Sent :=
  ⟨if target = .query then some (setting.dataset call) else none, state.clock,
    draws⟩

variable [DecidableEq Client] [DecidableEq Call]

/-- One step of one call, or of the clock. -/
def step (setting : Setting Client Call) (state : State Client Call) :
    Action Call → Option (State Client Call)
  | .elapse duration =>
      if 0 ≤ duration then some { state with clock := state.clock + duration }
      else none
  | .check call reply =>
      match state.phase call with
      | .idle =>
          let dataset := setting.dataset call
          match (state.slot (.cooldown dataset)).get state.clock with
          | none =>
              some (state.command call reply
                { state with
                  seen := Function.update state.seen call state.recorded }
                .unlocked)
          | some _ =>
              some (state.command call reply state
                (.ended (.raised dataset.cooldownActive)))
      | _ => none
  | .readMinute call =>
      let minute := Span.minute.windowOf state.clock
      match state.phase call with
      | .unlocked =>
          if state.authenticated (setting.client call) then
            some (state.goto call (.dated .query minute))
          else if setting.configured then
            some (state.goto call (.dated .login minute))
          else some (state.goto call (.ended (.raised
            (text ("UTTG_SPACE_TRACK_IDENTITY / " ++
              "UTTG_SPACE_TRACK_PASSWORD not set")))))
      | .loggedIn => some (state.goto call (.dated .query minute))
      | _ => none
  | .readHour call =>
      match state.phase call with
      | .dated target minute =>
          some (state.goto call
            (.keyed target minute (Span.hour.windowOf state.clock)))
      | _ => none
  | .incr call reply =>
      match state.phase call with
      | .keyed target minute hour =>
          let (draw, counted) := state.count .minute minute
          some (state.command call reply counted
            (if draw.count = 1 then .minuteCreated target draw hour
              else .minuteCounted target draw hour))
      | .minuteCounted target minute hour =>
          let (draw, counted) := state.count .hour hour
          some (state.command call reply counted
            (if draw.count = 1 then .hourCreated target ⟨minute, draw⟩
              else settle target ⟨minute, draw⟩))
      | _ => none
  | .expire call reply =>
      match state.phase call with
      | .minuteCreated target minute hour =>
          some (state.command call reply
            (state.expireWindow .minute minute.window)
            (.minuteCounted target minute hour))
      | .hourCreated target draws =>
          some (state.command call reply
            (state.expireWindow .hour draws.hour.window)
            (settle target draws))
      | _ => none
  | .send call =>
      match state.phase call with
      | .cleared target draws =>
          let request := requestOf setting state call target draws
          some ({ state with sends := state.sends ++ [request] }.goto call
            (.sent target request))
      | _ => none
  | .respond call accepted =>
      match state.phase call with
      | .sent target request =>
          if accepted then
            match target with
            | .login =>
                some ({ state with
                  authenticated := Function.update state.authenticated
                    (setting.client call) true }.goto call .loggedIn)
            | .query => some (state.goto call (.received request))
          else some (state.goto call (.ended .failed))
      | _ => none
  | .record call reply =>
      match state.phase call with
      | .received request =>
          let dataset := setting.dataset call
          some (state.command call reply
            { state.write (.cooldown dataset)
                (Slot.set 1 (state.clock + dataset.cooldown)) with
              recorded := state.recorded ++ [request] }
            (.ended .returned))
      | _ => none
  | .raise call =>
      match state.phase call with
      | .idle | .ended _ => none
      | _ => some (state.goto call (.ended .failed))

/-- Clients that have not logged in and calls that have not begun, over any
store. -/
def system (setting : Setting Client Call) :
    System (State Client Call) (Action Call) where
  Init state := (∀ client, state.authenticated client = false) ∧
    (∀ call, state.phase call = .idle) ∧ (∀ key, state.opened key = 0) ∧
    state.recorded = [] ∧ state.sends = []
  step := step setting

end Steps

/-! ## Keys are told apart -/

theorem lock_injective : Function.Injective Dataset.lock := by
  have hgp : text "gp:" = [point 0x67, point 0x70, point 0x3A] := rfl
  have hgpSatcat : ∀ noradId, Dataset.lock (.gp noradId) ≠
      Dataset.lock .satcat := by
    intro noradId heq
    rw [Dataset.lock, hgp] at heq
    exact absurd (List.cons.inj heq).1 (by decide)
  have hgpDecay : ∀ noradId, Dataset.lock (.gp noradId) ≠
      Dataset.lock .decay := by
    intro noradId heq
    rw [Dataset.lock, hgp] at heq
    exact absurd (List.cons.inj heq).1 (by decide)
  have hlast : Dataset.lock .satcat ≠ Dataset.lock .decay := by decide
  intro left right heq
  cases left with
  | gp leftId =>
      cases right with
      | gp rightId =>
          rw [signed_injective (List.append_cancel_left heq)]
      | satcat => exact absurd heq (hgpSatcat leftId)
      | decay => exact absurd heq (hgpDecay leftId)
  | satcat =>
      cases right with
      | gp rightId => exact absurd heq.symm (hgpSatcat rightId)
      | satcat => rfl
      | decay => exact absurd heq hlast
  | decay =>
      cases right with
      | gp rightId => exact absurd heq.symm (hgpDecay rightId)
      | satcat => exact absurd heq.symm hlast
      | decay => rfl

theorem window_name_injective {left right : Span} {leftIndex rightIndex : ℤ}
    (heq : (Key.window left leftIndex).name =
      (Key.window right rightIndex).name) :
    left = right ∧ leftIndex = rightIndex := by
  simp only [Key.name, List.append_assoc, List.append_cancel_left_eq] at heq
  cases left with
  | minute =>
      cases right with
      | minute =>
          rw [List.append_cancel_left_eq, List.append_cancel_left_eq] at heq
          exact ⟨rfl, signed_injective heq⟩
      | hour => exact absurd (List.cons.inj heq).1 (by decide)
  | hour =>
      cases right with
      | minute => exact absurd (List.cons.inj heq).1 (by decide)
      | hour =>
          rw [List.append_cancel_left_eq, List.append_cancel_left_eq] at heq
          exact ⟨rfl, signed_injective heq⟩

theorem window_name_ne_cooldown (span : Span) (index : ℤ) (dataset : Dataset) :
    (Key.window span index).name ≠ (Key.cooldown dataset).name := by
  have hglobal : text "upstream:spacetrack:global:" =
      text "upstream:spacetrack:" ++ text "global:" := by decide
  intro heq
  simp only [Key.name, hglobal, List.append_assoc,
    List.append_cancel_left_eq] at heq
  cases dataset with
  | gp noradId =>
      exact absurd (List.cons.inj (List.cons.inj heq).2).1 (by decide)
  | satcat => exact absurd (List.cons.inj heq).1 (by decide)
  | decay => exact absurd (List.cons.inj heq).1 (by decide)

/-- No two counters or cooldowns share a key. -/
theorem name_injective : Function.Injective Key.name := by
  intro left right heq
  cases left with
  | window span index =>
      cases right with
      | window other otherIndex =>
          obtain ⟨rfl, rfl⟩ := window_name_injective heq
          rfl
      | cooldown dataset =>
          exact absurd heq (window_name_ne_cooldown span index dataset)
  | cooldown dataset =>
      cases right with
      | window span index =>
          exact absurd heq.symm (window_name_ne_cooldown span index dataset)
      | cooldown other =>
          rw [lock_injective (List.append_cancel_left heq)]

section Fields

variable {Client Call : Type*} {state : State Client Call}

theorem slot_write (key : Key) (slot : Slot ℕ ℚ) (other : Key) :
    (state.write key slot).slot other =
      if other = key then slot else state.slot other := by
  by_cases hsame : other = key
  · rw [if_pos hsame, hsame]
    exact Function.update_self _ _ _
  · rw [if_neg hsame]
    exact Function.update_of_ne (fun heq => hsame (name_injective heq)) _ _

/-! ## What drawing does -/

theorem count_cases (state : State Client Call) (span : Span) (window : ℤ) :
    let key := Key.window span window
    let drawn := state.count span window
    (drawn.2.slot key).get state.clock = some drawn.1.count ∧
      ((drawn.1.count = 1 ∧
          drawn.2.opened key = state.opened key + 1) ∨
        ∃ value, (state.slot key).get state.clock = some value ∧
          drawn.1.count = value + 1 ∧
            drawn.2.opened key = state.opened key) := by
  intro key drawn
  have hslot : drawn.2.slot key = ((state.slot key).incr state.clock).2 := by
    change (state.write key ((state.slot key).incr state.clock).2).slot key = _
    rw [slot_write, if_pos rfl]
  refine ⟨by rw [hslot]; exact Slot.get_incr state.clock (state.slot key), ?_⟩
  change (((state.slot key).incr state.clock).1 = 1 ∧
      (if ((state.slot key).incr state.clock).1 = 1 then
        Function.update state.opened key (state.opened key + 1)
      else state.opened) key = state.opened key + 1) ∨
    ∃ value, (state.slot key).get state.clock = some value ∧
      ((state.slot key).incr state.clock).1 = value + 1 ∧
        (if ((state.slot key).incr state.clock).1 = 1 then
          Function.update state.opened key (state.opened key + 1)
        else state.opened) key = state.opened key
  by_cases hone : ((state.slot key).incr state.clock).1 = 1
  · left
    rw [if_pos hone, Function.update_self]
    exact ⟨hone, rfl⟩
  · right
    rcases Slot.incr_cases state.clock (state.slot key) with
      ⟨-, hincr⟩ | ⟨value, deadline, -, hget, hincr⟩
    · rw [hincr] at hone
      exact absurd rfl hone
    · refine ⟨value, hget, by rw [hincr], ?_⟩
      rw [if_neg hone]

/-- Drawing leaves the counters of other windows alone. -/
theorem count_other (state : State Client Call) {span : Span} {window : ℤ}
    {key : Key} (hkey : key ≠ .window span window) :
    (state.count span window).2.slot key = state.slot key ∧
      (state.count span window).2.opened key = state.opened key := by
  constructor
  · change (state.write (.window span window) _).slot key = _
    rw [slot_write, if_neg hkey]
  · simp only [State.count]
    split
    · exact Function.update_of_ne hkey _ _
    · rfl

/-! ## What a call does to itself -/

variable [DecidableEq Call]

theorem phase_goto (call : Call) (phase : Phase) (other : Call) :
    (state.goto call phase).phase other =
      if other = call then phase else state.phase other :=
  Function.update_apply _ _ _ _

theorem command_cases (state : State Client Call) (call : Call) (reply : Reply)
    (executed : State Client Call) (next : Phase) :
    state.command call reply executed next = executed.goto call next ∨
      state.command call reply executed next =
        executed.goto call (.ended .failed) ∨
      state.command call reply executed next =
        state.goto call (.ended .failed) := by
  cases reply with
  | answered => exact .inl rfl
  | lost => exact .inr (.inl rfl)
  | refused => exact .inr (.inr rfl)

/-- What the guard lets through is within both limits. -/
theorem settle_cases (target : Target) (draws : Draws) :
    (∃ outcome, settle target draws = .ended outcome) ∨
      settle target draws = .cleared target draws ∧
        ∀ span, (draws.of span).count ≤ span.limit := by
  unfold settle
  split
  case isTrue => exact .inl ⟨_, rfl⟩
  case isFalse hwithin =>
    rw [not_or, not_lt, not_lt] at hwithin
    refine .inr ⟨rfl, fun span => ?_⟩
    cases span with
    | minute => exact hwithin.1
    | hour => exact hwithin.2

end Fields

/-! ## Moves without a command -/

/-- The call has found no cooldown and has not ended. -/
def Phase.checked : Phase → Bool
  | .idle | .ended _ => false
  | _ => true

/-- The call has drawn no number for its next request and has no query
underway. -/
def Phase.plain : Phase → Bool
  | .unlocked | .loggedIn | .dated _ _ | .keyed _ _ _ | .ended _ => true
  | _ => false

/-- Reading the clock and raising change nothing but where the call stands. -/
theorem moves_of_step {Client Call : Type*} [DecidableEq Client]
    [DecidableEq Call] {setting : Setting Client Call}
    {state next : State Client Call} {action : Action Call} (call : Call)
    (hstep : step setting state action = some next)
    (haction : action = .readMinute call ∨ action = .readHour call ∨
      action = .raise call) :
    (state.phase call).checked = true ∧
      ∃ phase : Phase, phase.plain = true ∧ next = state.goto call phase := by
  rcases haction with rfl | rfl | rfl
  · simp only [step] at hstep
    split at hstep
    case h_1 hphase =>
      refine ⟨by rw [hphase]; rfl, ?_⟩
      split at hstep
      · exact ⟨_, rfl, (Option.some.inj hstep).symm⟩
      · split at hstep
        · exact ⟨_, rfl, (Option.some.inj hstep).symm⟩
        · exact ⟨_, rfl, (Option.some.inj hstep).symm⟩
    case h_2 hphase =>
      exact ⟨by rw [hphase]; rfl, _, rfl, (Option.some.inj hstep).symm⟩
    case h_3 => cases hstep
  · simp only [step] at hstep
    split at hstep
    case h_1 hphase =>
      exact ⟨by rw [hphase]; rfl, _, rfl, (Option.some.inj hstep).symm⟩
    case h_2 => cases hstep
  · simp only [step] at hstep
    split at hstep
    case h_1 => cases hstep
    case h_2 => cases hstep
    case h_3 hidle hended =>
      refine ⟨?_, _, rfl, (Option.some.inj hstep).symm⟩
      cases hphase : state.phase call with
      | idle => exact absurd hphase hidle
      | ended outcome => exact absurd hphase (hended outcome)
      | _ => rfl

end UTTG.SpaceTrack
