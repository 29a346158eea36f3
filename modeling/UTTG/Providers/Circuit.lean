import UTTG.Core.FixedWindow
import UTTG.Core.Transition

/-!
# The provider circuit breaker

`ProviderTransport.get_bytes` counts failed calls in a store key that expires
`_CIRCUIT_FAILURE_WINDOW_SECONDS` after the failure that created it, and sets
a second key when the count reaches the threshold.  A run is a sequence of
calls of one provider at any times; the store answers every command and the
commands of one `_record_failure` execute at one instant.  The documented
rule, five failures in five minutes, speaks about the last five minutes,
whereas the counter only knows its own window.
-/

namespace UTTG.Circuit

open UTTG.Expiring UTTG.Transition

/-- `_CIRCUIT_FAILURE_THRESHOLD`. -/
def circuitFailureThreshold : ℕ := 5

/-- `_CIRCUIT_FAILURE_WINDOW_SECONDS`. -/
def circuitFailureWindowSeconds : ℚ := 300

/-- `_CIRCUIT_OPEN_SECONDS`. -/
def circuitOpenSeconds : ℚ := 600

/-- The two keys of a provider: `failures` and `circuit-open`. -/
structure Keys where
  failures : Slot ℕ ℚ
  circuitOpen : Slot Unit ℚ
  deriving DecidableEq

/-- `_record_failure`.  The flag tells whether the open key was set. -/
def recordFailure (now : ℚ) (keys : Keys) : Bool × Keys :=
  let (failures, counter) :=
    FixedWindow.record circuitFailureWindowSeconds now keys.failures
  if circuitFailureThreshold ≤ failures then
    (true, ⟨counter, Slot.set () (now + circuitOpenSeconds)⟩)
  else (false, { keys with failures := counter })

/-- `_clear_failures`. -/
def clearFailures (keys : Keys) : Keys :=
  { keys with failures := Slot.del }

/-- `_circuit_is_open`. -/
def circuitIsOpen (now : ℚ) (keys : Keys) : Bool :=
  keys.circuitOpen.exist now

/-- What one `_read_with_fallback` does, by the handler it meets. -/
inductive Reading where
  | payload
  /-- A timeout, a network or protocol error, or an unavailable provider. -/
  | retried
  /-- An exhausted quota or a rejected request. -/
  | refused
  /-- Any other exception, such as an oversized response. -/
  | escaped
  deriving DecidableEq

/-- How the retry loop of `get_bytes` ends: the failures are cleared, a
failure is recorded, or neither. -/
inductive Verdict where
  | cleared
  | recorded
  | neither
  deriving DecidableEq

/-- The loop over the three attempts. -/
def attempts (reading : ℕ → Reading) : Verdict :=
  go 0 2
where
  /-- Attempt number `attempt`, with `left` more attempts allowed. -/
  go (attempt left : ℕ) : Verdict :=
    match reading attempt, left with
    | .payload, _ => .cleared
    | .refused, _ => .recorded
    | .escaped, _ => .neither
    | .retried, 0 => .recorded
    | .retried, left + 1 => go (attempt + 1) left

/-- One call of `get_bytes`: when it tests the circuit, what its attempts
meet, and when it records or clears. -/
structure Call where
  start : ℚ
  reading : ℕ → Reading
  finish : ℚ

/-- The keys, the time of the last command and, as an observed history, the
instants of the failures recorded since the last successful call, newest
first. -/
structure State where
  clock : ℚ
  keys : Keys
  unforgiven : List ℚ

/-- The verdict of a call, or `none` when the circuit stops it. -/
def verdict (state : State) (call : Call) : Option Verdict :=
  if circuitIsOpen call.start state.keys then none
  else some (attempts call.reading)

/-- One call after another. -/
def step (state : State) (call : Call) : Option State :=
  if state.clock ≤ call.start ∧ call.start ≤ call.finish then
    match verdict state call with
    | some .cleared =>
        some ⟨call.finish, clearFailures state.keys, []⟩
    | some .recorded =>
        some ⟨call.finish, (recordFailure call.finish state.keys).2,
          call.finish :: state.unforgiven⟩
    | some .neither => some { state with clock := call.finish }
    | none => some { state with clock := call.finish }
  else none

/-- Calls of one provider, starting without keys. -/
def system : System State Call where
  Init state := state.keys = ⟨none, none⟩ ∧ state.unforgiven = []
  step := step

/-! ## The documented rule -/

/-- The failures of the last five minutes, this one included, with no
successful call in between. -/
def recentFailures (state : State) (call : Call) : ℕ :=
  (call.finish :: state.unforgiven).countP fun time =>
    call.finish < time + circuitFailureWindowSeconds

/-- Those among them that lie in the counting window of this failure: it
starts at the first failure that comes a full window length after the start
of the previous one, or after a success. -/
def windowFailures (state : State) (call : Call) : ℕ :=
  (FixedWindow.current circuitFailureWindowSeconds
    (call.finish :: state.unforgiven)).length

/-- After a failure that finds the circuit closed, the circuit is open
exactly when this failure has set the open key. -/
theorem circuitIsOpen_recordFailure {now : ℚ} {keys : Keys}
    (hclosed : circuitIsOpen now keys = false) :
    circuitIsOpen now (recordFailure now keys).2 =
      (recordFailure now keys).1 := by
  simp only [recordFailure]
  split
  case isTrue =>
    exact (Slot.exist_some_iff now () _).mpr
      (lt_add_of_pos_right now (by norm_num [circuitOpenSeconds]))
  case isFalse => exact hclosed

/-- The counter counts the current window of the failures that no success has
cleared, and these are in order. -/
structure Counted (state : State) : Prop where
  counter : state.keys.failures =
    FixedWindow.counter circuitFailureWindowSeconds state.unforgiven
  ordered : state.unforgiven.Pairwise (· ≥ ·)
  past : ∀ time ∈ state.unforgiven, time ≤ state.clock

theorem recordFailure_eq {state : State} (hcounted : Counted state)
    (now : ℚ) :
    (recordFailure now state.keys).2.failures =
        FixedWindow.counter circuitFailureWindowSeconds
          (now :: state.unforgiven) ∧
      ((recordFailure now state.keys).1 = true ↔
        circuitFailureThreshold ≤
          (FixedWindow.current circuitFailureWindowSeconds
            (now :: state.unforgiven)).length) := by
  simp only [recordFailure, hcounted.counter, FixedWindow.record_counter]
  split
  case isTrue hreached => exact ⟨rfl, iff_of_true rfl hreached⟩
  case isFalse hbelow => exact ⟨rfl, iff_of_false (by simp) hbelow⟩

/-- A call that gets past the circuit still finds it closed at its end. -/
theorem closed_of_verdict {state : State} {call : Call} {result : Verdict}
    (hverdict : verdict state call = some result)
    (hle : call.start ≤ call.finish) :
    circuitIsOpen call.finish state.keys = false := by
  simp only [verdict] at hverdict
  split at hverdict
  case isTrue => simp at hverdict
  case isFalse hclosed =>
    simp only [circuitIsOpen, Bool.not_eq_true,
      Slot.exist_eq_false_iff] at hclosed ⊢
    exact Slot.get_none_of_le hle hclosed

theorem Counted.ordered_cons {state : State} (hcounted : Counted state)
    {now : ℚ} (hclock : state.clock ≤ now) :
    (now :: state.unforgiven).Pairwise (· ≥ ·) :=
  List.pairwise_cons.mpr
    ⟨fun time hmem => (hcounted.past time hmem).trans hclock,
      hcounted.ordered⟩

/-- What a call does, by its verdict. -/
theorem step_cases {state next : State} {call : Call}
    (hstep : step state call = some next) :
    (state.clock ≤ call.start ∧ call.start ≤ call.finish) ∧
      next.clock = call.finish ∧
      ((verdict state call = some .cleared ∧
          next.keys = clearFailures state.keys ∧ next.unforgiven = []) ∨
        (verdict state call = some .recorded ∧
          next.keys = (recordFailure call.finish state.keys).2 ∧
          next.unforgiven = call.finish :: state.unforgiven) ∨
        (verdict state call ≠ some .cleared ∧
          verdict state call ≠ some .recorded ∧
          next.keys = state.keys ∧ next.unforgiven = state.unforgiven)) := by
  simp only [step] at hstep
  split at hstep
  case isFalse => simp at hstep
  case isTrue htimes =>
    refine ⟨htimes, ?_⟩
    split at hstep
    case h_1 hverdict =>
      obtain rfl := Option.some.inj hstep
      exact ⟨rfl, .inl ⟨hverdict, rfl, rfl⟩⟩
    case h_2 hverdict =>
      obtain rfl := Option.some.inj hstep
      exact ⟨rfl, .inr (.inl ⟨hverdict, rfl, rfl⟩)⟩
    case h_3 hverdict | h_4 hverdict =>
      obtain rfl := Option.some.inj hstep
      exact ⟨rfl, .inr (.inr ⟨by simp [hverdict], by simp [hverdict],
        rfl, rfl⟩)⟩

theorem Counted.step {state next : State} {call : Call}
    (hcounted : Counted state) (hstep : step state call = some next) :
    Counted next := by
  obtain ⟨htimes, hnow, hcleared | hrecorded | hneither⟩ := step_cases hstep
  all_goals have hclock := htimes.1.trans htimes.2
  · obtain ⟨-, hkeys, hnone⟩ := hcleared
    refine ⟨?_, by simp [hnone], by simp [hnone]⟩
    simp [hkeys, hnone, clearFailures, FixedWindow.counter,
      FixedWindow.current, Slot.del]
  · obtain ⟨-, hkeys, hmore⟩ := hrecorded
    refine ⟨?_, ?_, ?_⟩
    · rw [hkeys, hmore]
      exact (recordFailure_eq hcounted call.finish).1
    · rw [hmore]
      exact hcounted.ordered_cons hclock
    · rw [hmore, hnow]
      intro time hmem
      rcases List.mem_cons.mp hmem with rfl | hmem
      · exact le_rfl
      · exact (hcounted.past time hmem).trans hclock
  · obtain ⟨-, -, hkeys, hsame⟩ := hneither
    refine ⟨by rw [hkeys, hsame, hcounted.counter],
      by rw [hsame]; exact hcounted.ordered, ?_⟩
    rw [hsame, hnow]
    exact fun time hmem => (hcounted.past time hmem).trans hclock

theorem Counted.init {start : State} (hinit : system.Init start) :
    Counted start := by
  obtain ⟨hkeys, hnone⟩ := hinit
  refine ⟨?_, by simp [hnone], by simp [hnone]⟩
  simp [hkeys, hnone, FixedWindow.counter, FixedWindow.current]

/-- A recorded failure opens the circuit when five failures, this one
included, are recent. -/
def OpensAsDocumented (state : State) (call : Call) (next : State) : Prop :=
  verdict state call = some .recorded →
    (circuitIsOpen call.finish next.keys = true ↔
      circuitFailureThreshold ≤ recentFailures state call)

/-- Five recent failures, if there are so many, include five failures of the
current counting window. -/
def FitsWindow (state : State) (call : Call) : Prop :=
  verdict state call = some .recorded →
    circuitFailureThreshold ≤ recentFailures state call →
      circuitFailureThreshold ≤ windowFailures state call

instance (state next : State) (call : Call) :
    Decidable (OpensAsDocumented state call next) :=
  inferInstanceAs (Decidable (_ → (_ ↔ _)))

instance (state : State) (call : Call) : Decidable (FitsWindow state call) :=
  inferInstanceAs (Decidable (_ → _ → _))

/-- What one recorded failure does depends on the counting window only. -/
theorem Counted.opens_iff {state next : State} {call : Call}
    (hcounted : Counted state)
    (hstep : system.step state call = some next) :
    OpensAsDocumented state call next ↔ FitsWindow state call := by
  refine forall_congr' fun hrecorded => ?_
  obtain ⟨htimes, -, hcases⟩ := step_cases hstep
  have hkeys : next.keys = (recordFailure call.finish state.keys).2 := by
    rcases hcases with ⟨hother, -⟩ | ⟨-, hkeys, -⟩ | ⟨-, hother, -⟩
    · simp [hrecorded] at hother
    · exact hkeys
    · exact absurd hrecorded hother
  have hopen : circuitIsOpen call.finish next.keys = true ↔
      circuitFailureThreshold ≤ windowFailures state call := by
    rw [hkeys, circuitIsOpen_recordFailure (closed_of_verdict hrecorded
      htimes.2)]
    exact (recordFailure_eq hcounted call.finish).2
  have hle : windowFailures state call ≤ recentFailures state call :=
    FixedWindow.length_current_le circuitFailureWindowSeconds
      (fun time => lt_add_of_pos_right time
        (by norm_num [circuitFailureWindowSeconds]))
      (hcounted.ordered_cons (htimes.1.trans htimes.2))
  rw [hopen]
  exact ⟨fun hiff => hiff.mpr, fun himp => ⟨fun hin => hin.trans hle, himp⟩⟩

/-- Throughout a sequence of calls the circuit opens as documented exactly
when five recent failures are always five failures of one counting window. -/
theorem circuit_opens_iff (start : State) (calls : List Call)
    (hinit : system.Init start) :
    system.Steps OpensAsDocumented start calls ↔
      system.Steps (fun state call _ => FitsWindow state call) start calls := by
  refine System.steps_iff_of_invariant Counted ?_ ?_ (.init hinit)
  · intro state call next hcounted hstep _
    exact hcounted.step hstep
  · intro state call next hcounted hstep
    exact hcounted.opens_iff hstep

/-- A call that is refused at once, at one instant. -/
def refusedAt (time : ℚ) : Call := ⟨time, fun _ => .refused, time⟩

def quiet : State := ⟨0, ⟨none, none⟩, []⟩

theorem quiet_init : system.Init quiet := ⟨rfl, rfl⟩

/-- Failures around the end of the window that the first of them starts. -/
def straddlingCalls : List Call :=
  [refusedAt 0, refusedAt 290, refusedAt 295, refusedAt 301, refusedAt 302,
    refusedAt 303]

/-- Five failures within thirteen seconds leave the circuit closed. -/
theorem straddling_failures_keep_closed :
    ¬system.Steps OpensAsDocumented quiet straddlingCalls ∧
      ∃ state ∈ system.run quiet straddlingCalls,
        circuitIsOpen 303 state.keys = false := by
  decide +kernel

/-- Five failures within one window open it. -/
theorem clustered_failures_open :
    system.Steps OpensAsDocumented quiet
        [refusedAt 10, refusedAt 20, refusedAt 30, refusedAt 40,
          refusedAt 50] ↔
      system.Steps (fun state call _ => FitsWindow state call) quiet
        [refusedAt 10, refusedAt 20, refusedAt 30, refusedAt 40,
          refusedAt 50] :=
  circuit_opens_iff quiet _ quiet_init

end UTTG.Circuit
