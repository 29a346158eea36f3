import UTTG.Analytics.Aggregate
import UTTG.Core.Transition

/-!
# The queue of request metrics

Finished requests put their metrics into a bounded queue, `_writer` takes them
out in batches, and `stop_analytics_writer` waits for the queue and cancels the
writer.  The three interleave at the awaits of the writer and of the stop.  The
deadline of a batch and the timeout of the drain may pass at any time.
-/

namespace UTTG.Analytics

open Python Transition

/-- The settings of the queue, within the bounds of their fields. -/
structure QueueSettings where
  analyticsQueueSize : ℕ
  analyticsBatchSize : ℕ
  queueSize_bounds : 100 ≤ analyticsQueueSize ∧ analyticsQueueSize ≤ 200000
  batchSize_bounds : 10 ≤ analyticsBatchSize ∧ analyticsBatchSize ≤ 5000

/-! ## The metric of a request -/

/-- A message that the application sends. -/
inductive Sent where
  | start (status : ℕ)
  | body (length : ℕ)
  | other
  deriving DecidableEq

/-- What `RequestAnalyticsMiddleware` knows when the application is done. -/
structure Served (F : Type) where
  /-- The path of the matched route. -/
  routePath : Option Text
  path : Option Text
  method : Option Text
  sent : List Sent
  timestamp : Instant
  durationMs : F
  cacheState : Option Text

section Model

variable {Request F : Type}

/-- `status_code` after these messages. -/
def statusOf (sent : List Sent) : ℕ :=
  sent.foldl (fun status message =>
    match message with
    | .start next => next
    | _ => status) 500

/-- `response_bytes` after these messages. -/
def bytesOf (sent : List Sent) : ℕ :=
  sent.foldl (fun total message =>
    match message with
    | .body length => total + length
    | _ => total) 0

/-- The metric that `RequestAnalyticsMiddleware` puts into the queue. -/
def metricOf (served : Served F) : Metric F where
  timestamp := served.timestamp
  route := (served.routePath.getD (served.path.getD (text "unknown"))).take 255
  method := (served.method.getD (text "UNKNOWN")).take 8
  statusCode := statusOf served.sent
  durationMs := served.durationMs
  responseBytes := bytesOf served.sent
  cacheState := served.cacheState

/-- A metric with the request that made it: metrics of two requests may be
equal. -/
structure Item (Request F : Type) where
  request : Request
  metric : Metric F

/-! ## State -/

/-- Where `_writer` is. -/
inductive WriterPhase (Request F : Type) where
  /-- At `first = await queue.get()`. -/
  | waiting
  /-- In the loop that fills the batch. -/
  | collecting (first : Item Request F) (rest : List (Item Request F))
  /-- In the `try` block. -/
  | writing (first : Item Request F) (rest : List (Item Request F))
  /-- Cancelled, with the batch that it was filling. -/
  | cancelled (batch : List (Item Request F))
  /-- `task_done()` was called too many times. -/
  | raised

/-- Where `stop_analytics_writer` is. -/
inductive StopPhase where
  | running
  /-- In `queue.join()`; `joined` once the unfinished count has been zero. -/
  | draining (joined : Bool)
  /-- After `_writer_task.cancel()`. -/
  | cancelling
  | returned
  deriving DecidableEq

/-- The queue with its unfinished count, the writer and the stop.  The other
fields are only observed: the requests that are finished, the metrics that
`put_nowait` accepted, and the batches whose write was attempted, each oldest
first. -/
structure QueueState (Request F : Type) where
  queue : List (Item Request F)
  unfinishedTasks : ℕ
  writer : WriterPhase Request F
  stop : StopPhase
  finished : Request → Bool
  accepted : List (Item Request F)
  attempted : List (List (Item Request F))

/-- The batch in the hands of the writer. -/
def WriterPhase.batch : WriterPhase Request F → List (Item Request F)
  | .collecting first rest => first :: rest
  | .writing first rest => first :: rest
  | .cancelled batch => batch
  | .waiting | .raised => []

/-- The cancellation has reached the writer. -/
def WriterPhase.isCancelled : WriterPhase Request F → Bool
  | .cancelled _ => true
  | _ => false

/-- How the `try` block of `_writer` ends. -/
inductive WriteOutcome where
  | committed
  | failed
  deriving DecidableEq

inductive QueueAction (Request F : Type) where
  /-- A request is done. -/
  | finish (request : Request) (served : Served F)
  /-- `first = await queue.get()` returns. -/
  | take
  /-- The writer gets one more item. -/
  | collect
  /-- The batch is full or its deadline passes. -/
  | flush
  | write (outcome : WriteOutcome)
  /-- The cancellation reaches the writer. -/
  | cancel
  | stop
  /-- `queue.join()` returns. -/
  | join
  | drainTimeout
  /-- The writer task is done. -/
  | finishStop

namespace QueueState

variable (state : QueueState Request F)

/-- `put_nowait`, or the warning that the metric is dropped. -/
def putNowait (settings : QueueSettings) (item : Item Request F) :
    QueueState Request F :=
  if settings.analyticsQueueSize ≤ state.queue.length then state
  else { state with
    queue := state.queue ++ [item]
    unfinishedTasks := state.unfinishedTasks + 1
    accepted := state.accepted ++ [item] }

/-- The end of the `try` block: `task_done()` for each metric of the batch, which
raises when there are more of them than unfinished tasks.  `join` goes on when
the count gets to zero. -/
def tasksDone (batch : List (Item Request F))
    (next : WriterPhase Request F) : QueueState Request F :=
  { state with
    unfinishedTasks := state.unfinishedTasks - batch.length
    writer := if state.unfinishedTasks < batch.length then .raised else next
    attempted := state.attempted ++ [batch]
    stop := match state.stop with
      | .draining joined => .draining
          (joined || state.unfinishedTasks - batch.length = 0)
      | other => other }

end QueueState

variable [DecidableEq Request]

/-- One step of a request, of the writer or of the stop. -/
def queueStep (settings : QueueSettings) (state : QueueState Request F) :
    QueueAction Request F → Option (QueueState Request F)
  | .finish request served =>
      if state.finished request then none
      else
        some ({ state with
          finished := Function.update state.finished request true }.putNowait
            settings ⟨request, metricOf served⟩)
  | .take =>
      match state.writer, state.queue with
      | .waiting, item :: queue =>
          some { state with queue := queue, writer := .collecting item [] }
      | _, _ => none
  | .collect =>
      match state.writer, state.queue with
      | .collecting first rest, item :: queue =>
          if (first :: rest).length < settings.analyticsBatchSize then
            some { state with
              queue := queue
              writer := .collecting first (rest ++ [item]) }
          else none
      | _, _ => none
  | .flush =>
      match state.writer with
      | .collecting first rest =>
          some { state with writer := .writing first rest }
      | _ => none
  | .write _ =>
      -- a write that fails is logged, and its batch is done all the same
      match state.writer with
      | .writing first rest =>
          some (state.tasksDone (first :: rest) .waiting)
      | _ => none
  | .cancel =>
      if state.stop = .cancelling then
        match state.writer with
        | .waiting => some { state with writer := .cancelled [] }
        | .collecting first rest =>
            -- outside the `try` block: neither written nor marked as done
            some { state with writer := .cancelled (first :: rest) }
        | .writing first rest =>
            some (state.tasksDone (first :: rest) (.cancelled []))
        | _ => none
      else none
  | .stop =>
      if state.stop = .running then
        some { state with stop := .draining (state.unfinishedTasks = 0) }
      else none
  | .join =>
      if state.stop = .draining true then
        some { state with stop := .cancelling }
      else none
  | .drainTimeout =>
      match state.stop with
      | .draining _ => some { state with stop := .cancelling }
      | _ => none
  | .finishStop =>
      match state.stop, state.writer with
      | .cancelling, .cancelled _ => some { state with stop := .returned }
      | _, _ => none

variable (Request F) in
/-- One API process, whose start-up has created the queue and the writer. -/
def queueSystem (settings : QueueSettings) :
    System (QueueState Request F) (QueueAction Request F) where
  Init state := state.queue = [] ∧ state.unfinishedTasks = 0 ∧
    state.writer = .waiting ∧ state.stop = .running ∧
    (∀ request, state.finished request = false) ∧ state.accepted = [] ∧
    state.attempted = []
  step := queueStep settings

end Model

/-! ## What a step can do -/

section Effects

variable {Request F : Type}

/-- The writer stands at `next` instead: it was not cancelled before, is
cancelled only on demand, and has not raised. -/
structure Turns (state : QueueState Request F)
    (next : WriterPhase Request F) : Prop where
  before : state.writer.isCancelled = false
  cancelled : next.isCancelled = true → state.stop = .cancelling
  not_raised : next ≠ .raised

/-- A finished request, the writer with one more metric, the writer after its
`try` block, the writer elsewhere, or the stop. -/
inductive Effect [DecidableEq Request] (settings : QueueSettings)
    (state : QueueState Request F) :
    QueueAction Request F → QueueState Request F → Prop
  | finish (request : Request) (served : Served F)
      (hfresh : state.finished request = false) :
      Effect settings state (.finish request served)
        ({ state with
          finished := Function.update state.finished request true }.putNowait
            settings ⟨request, metricOf served⟩)
  | fill {action : QueueAction Request F} (item : Item Request F)
      (queue : List (Item Request F)) (writer : WriterPhase Request F)
      (hqueue : state.queue = item :: queue)
      (hbatch : writer.batch = state.writer.batch ++ [item])
      (hroom : state.writer.batch.length < settings.analyticsBatchSize)
      (hturns : Turns state writer) :
      Effect settings state action
        { state with queue := queue, writer := writer }
  | done {action : QueueAction Request F} (writer : WriterPhase Request F)
      (hbatch : writer.batch = []) (hturns : Turns state writer) :
      Effect settings state action (state.tasksDone state.writer.batch writer)
  | turn {action : QueueAction Request F} (writer : WriterPhase Request F)
      (hbatch : writer.batch = state.writer.batch)
      (hturns : Turns state writer) :
      Effect settings state action { state with writer := writer }
  | stop (hstop : state.stop = .running) :
      Effect settings state .stop
        { state with stop := .draining (state.unfinishedTasks = 0) }
  | join (hstop : state.stop = .draining true) :
      Effect settings state .join { state with stop := .cancelling }
  | drainTimeout (joined : Bool) (hstop : state.stop = .draining joined) :
      Effect settings state .drainTimeout { state with stop := .cancelling }
  | finishStop (hstop : state.stop = .cancelling)
      (hwriter : state.writer.isCancelled = true) :
      Effect settings state .finishStop { state with stop := .returned }

variable [DecidableEq Request]

theorem effect_of_step {settings : QueueSettings}
    {state next : QueueState Request F} {action : QueueAction Request F}
    (hstep : queueStep settings state action = some next) :
    Effect settings state action next := by
  cases action with
  | finish request served =>
      simp only [queueStep] at hstep
      split at hstep
      · simp at hstep
      · next hfresh =>
          rw [← Option.some.inj hstep]
          exact .finish request served (Bool.eq_false_iff.mpr hfresh)
  | take =>
      simp only [queueStep] at hstep
      split at hstep
      · next item queue hwriter hqueue =>
          have hroom : 0 < settings.analyticsBatchSize :=
            lt_of_lt_of_le (by decide) settings.batchSize_bounds.1
          rw [← Option.some.inj hstep]
          exact .fill item queue _ hqueue (by rw [hwriter]; rfl)
            (by rw [hwriter]; exact hroom) ⟨by rw [hwriter]; rfl, nofun, nofun⟩
      · simp at hstep
  | collect =>
      simp only [queueStep] at hstep
      split at hstep
      · next first rest item queue hwriter hqueue =>
          split at hstep
          · next hroom =>
              rw [← Option.some.inj hstep]
              exact .fill item queue _ hqueue (by rw [hwriter]; rfl)
                (by rw [hwriter]; exact hroom)
                ⟨by rw [hwriter]; rfl, nofun, nofun⟩
          · simp at hstep
      · simp at hstep
  | flush =>
      simp only [queueStep] at hstep
      split at hstep
      · next first rest hwriter =>
          rw [← Option.some.inj hstep]
          exact .turn _ (by rw [hwriter]; rfl)
            ⟨by rw [hwriter]; rfl, nofun, nofun⟩
      · simp at hstep
  | write outcome =>
      simp only [queueStep] at hstep
      split at hstep
      · next first rest hwriter =>
          have hdone : Effect settings state (.write outcome)
              (state.tasksDone state.writer.batch .waiting) :=
            .done _ rfl ⟨by rw [hwriter]; rfl, nofun, nofun⟩
          rw [hwriter] at hdone
          rw [← Option.some.inj hstep]
          exact hdone
      · simp at hstep
  | cancel =>
      simp only [queueStep] at hstep
      split at hstep
      · next hstop =>
        split at hstep
        · next hwriter =>
            rw [← Option.some.inj hstep]
            exact .turn _ (by rw [hwriter]; rfl)
              ⟨by rw [hwriter]; rfl, fun _ => hstop, nofun⟩
        · next first rest hwriter =>
            rw [← Option.some.inj hstep]
            exact .turn _ (by rw [hwriter]; rfl)
              ⟨by rw [hwriter]; rfl, fun _ => hstop, nofun⟩
        · next first rest hwriter =>
            have hdone : Effect settings state .cancel
                (state.tasksDone state.writer.batch (.cancelled [])) :=
              .done _ rfl ⟨by rw [hwriter]; rfl, fun _ => hstop, nofun⟩
            rw [hwriter] at hdone
            rw [← Option.some.inj hstep]
            exact hdone
        · simp at hstep
      · simp at hstep
  | stop =>
      simp only [queueStep] at hstep
      split at hstep
      · next hstop =>
          rw [← Option.some.inj hstep]
          exact .stop hstop
      · simp at hstep
  | join =>
      simp only [queueStep] at hstep
      split at hstep
      · next hstop =>
          rw [← Option.some.inj hstep]
          exact .join hstop
      · simp at hstep
  | drainTimeout =>
      simp only [queueStep] at hstep
      split at hstep
      · next joined hstop =>
          rw [← Option.some.inj hstep]
          exact .drainTimeout joined hstop
      · simp at hstep
  | finishStop =>
      simp only [queueStep] at hstep
      split at hstep
      · next batch hstop hwriter =>
          rw [← Option.some.inj hstep]
          exact .finishStop hstop (by rw [hwriter]; rfl)
      · simp at hstep

end Effects

/-! ## The account -/

section Account

variable {Request F : Type}

/-- Every accepted metric has one place, oldest first in the attempted batches,
then in the batch of the writer, then in the queue. -/
structure Kept (settings : QueueSettings) (state : QueueState Request F) :
    Prop where
  places : state.accepted =
    state.attempted.flatten ++ state.writer.batch ++ state.queue
  unfinished : state.unfinishedTasks =
    state.queue.length + state.writer.batch.length
  batch_le : state.writer.batch.length ≤ settings.analyticsBatchSize
  attempted_le : ∀ batch ∈ state.attempted,
    batch.length ≤ settings.analyticsBatchSize
  distinct : (state.accepted.map Item.request).Nodup
  finished : ∀ item ∈ state.accepted, state.finished item.request = true
  not_raised : state.writer ≠ .raised

/-- Marking the batch as done never raises, and moves it to the attempted
ones. -/
theorem Kept.tasksDone {settings : QueueSettings}
    {state : QueueState Request F} (hkept : Kept settings state)
    {next : WriterPhase Request F} (hbatch : next.batch = [])
    (hnext : next ≠ .raised) :
    Kept settings (state.tasksDone state.writer.batch next) := by
  have henough : ¬state.unfinishedTasks < state.writer.batch.length := by
    rw [hkept.unfinished]
    omega
  have hwriter : (state.tasksDone state.writer.batch next).writer = next :=
    if_neg henough
  refine ⟨?_, ?_, ?_, ?_, hkept.distinct, hkept.finished, ?_⟩
  · rw [hwriter, hbatch]
    simpa [QueueState.tasksDone] using hkept.places
  · have hunfinished := hkept.unfinished
    rw [hwriter, hbatch]
    simp only [QueueState.tasksDone, List.length_nil]
    omega
  · rw [hwriter, hbatch]
    exact Nat.zero_le _
  · intro batch hmem
    rcases List.mem_append.mp hmem with hmem | hmem
    · exact hkept.attempted_le batch hmem
    · rw [List.mem_singleton.mp hmem]
      exact hkept.batch_le
  · rw [hwriter]
    exact hnext

/-- Moving the writer with its batch, or the stop, moves no metric. -/
theorem Kept.moved {settings : QueueSettings} {state : QueueState Request F}
    (hkept : Kept settings state) {writer : WriterPhase Request F}
    (stop : StopPhase) (hbatch : writer.batch = state.writer.batch)
    (hwriter : writer ≠ .raised) :
    Kept settings { state with writer := writer, stop := stop } where
  places := by rw [hkept.places, ← hbatch]
  unfinished := by rw [hkept.unfinished, ← hbatch]
  batch_le := by rw [hbatch]; exact hkept.batch_le
  attempted_le := hkept.attempted_le
  distinct := hkept.distinct
  finished := hkept.finished
  not_raised := hwriter

variable [DecidableEq Request]

theorem Kept.init {settings : QueueSettings} {state : QueueState Request F}
    (hinit : (queueSystem Request F settings).Init state) :
    Kept settings state := by
  obtain ⟨hqueue, hunfinished, hwriter, -, -, haccepted, hattempted⟩ := hinit
  constructor
  · rw [haccepted, hattempted, hwriter, hqueue]
    rfl
  · rw [hunfinished, hqueue, hwriter]
    rfl
  · rw [hwriter]
    exact Nat.zero_le _
  · rw [hattempted]
    simp
  · rw [haccepted]
    exact List.nodup_nil
  · rw [haccepted]
    simp
  · rw [hwriter]
    simp

/-- A finished request adds its metric to the end of the queue, or drops it. -/
theorem Kept.finish {settings : QueueSettings} {state : QueueState Request F}
    (hkept : Kept settings state) {request : Request}
    (hfresh : state.finished request = false) (served : Served F) :
    Kept settings ({ state with
      finished := Function.update state.finished request true }.putNowait
        settings ⟨request, metricOf served⟩) := by
  have hlater : ∀ item ∈ state.accepted,
      Function.update state.finished request true item.request = true := by
    intro item hmem
    by_cases hsame : item.request = request
    · rw [hsame, Function.update_self]
    · rw [Function.update_of_ne hsame]
      exact hkept.finished item hmem
  have hnew : request ∉ state.accepted.map Item.request := by
    intro hmem
    obtain ⟨item, hitem, rfl⟩ := List.mem_map.mp hmem
    rw [hkept.finished item hitem] at hfresh
    exact Bool.noConfusion hfresh
  rw [QueueState.putNowait]
  split
  · exact ⟨hkept.places, hkept.unfinished, hkept.batch_le,
      hkept.attempted_le, hkept.distinct, hlater, hkept.not_raised⟩
  · refine ⟨?_, ?_, hkept.batch_le, hkept.attempted_le, ?_, ?_,
      hkept.not_raised⟩
    · simp only [hkept.places, List.append_assoc]
    · simp only [hkept.unfinished, List.length_append, List.length_singleton]
      omega
    · rw [List.map_append, List.nodup_append]
      refine ⟨hkept.distinct, by simp, ?_⟩
      intro old hold new hmem
      obtain rfl : new = request := by simpa using hmem
      rintro rfl
      exact hnew hold
    · intro item hmem
      rcases List.mem_append.mp hmem with hmem | hmem
      · exact hlater item hmem
      · rw [List.mem_singleton.mp hmem]
        exact Function.update_self ..

omit [DecidableEq Request] in
/-- The writer takes the oldest metric of the queue. -/
theorem Kept.fill {settings : QueueSettings} {state : QueueState Request F}
    (hkept : Kept settings state) {item : Item Request F}
    {queue : List (Item Request F)} {writer : WriterPhase Request F}
    (hqueue : state.queue = item :: queue)
    (hbatch : writer.batch = state.writer.batch ++ [item])
    (hroom : state.writer.batch.length < settings.analyticsBatchSize)
    (hwriter : writer ≠ .raised) :
    Kept settings { state with queue := queue, writer := writer } where
  places := by
    rw [hkept.places, hqueue, hbatch]
    simp
  unfinished := by
    rw [hkept.unfinished, hqueue, hbatch, List.length_append, List.length_cons,
      List.length_singleton, Nat.add_right_comm]
    rfl
  batch_le := by
    rw [hbatch, List.length_append, List.length_singleton]
    exact hroom
  attempted_le := hkept.attempted_le
  distinct := hkept.distinct
  finished := hkept.finished
  not_raised := hwriter

theorem Kept.step {settings : QueueSettings}
    {state next : QueueState Request F} {action : QueueAction Request F}
    (hkept : Kept settings state)
    (hstep : queueStep settings state action = some next) :
    Kept settings next := by
  cases effect_of_step hstep with
  | finish request served hfresh => exact hkept.finish hfresh served
  | fill item queue writer hqueue hbatch hroom hturns =>
      exact hkept.fill hqueue hbatch hroom hturns.not_raised
  | done writer hbatch hturns =>
      exact hkept.tasksDone hbatch hturns.not_raised
  | turn writer hbatch hturns =>
      exact hkept.moved state.stop hbatch hturns.not_raised
  | stop | join | drainTimeout | finishStop =>
      exact hkept.moved _ rfl hkept.not_raised

theorem kept_of_reachable {settings : QueueSettings}
    {state : QueueState Request F}
    (hreach : (queueSystem Request F settings).Reachable state) :
    Kept settings state :=
  System.Reachable.invariant (Kept settings) (fun _ => Kept.init)
    (fun _ _ _ hkept hstep => hkept.step hstep) hreach

/-! ## A drain that is not cut short -/

/-- Nothing is enqueued once the stop has begun, and the drain does not time
out. -/
def Drains (state : QueueState Request F) (action : QueueAction Request F)
    (next : QueueState Request F) : Prop :=
  action ≠ .drainTimeout ∧
    (state.stop ≠ .running → next.accepted = state.accepted)

/-- Once the unfinished count has been zero during the stop it stays zero, and
only then is the writer cancelled. -/
structure Drained (state : QueueState Request F) : Prop where
  joined : state.stop = .draining true → state.unfinishedTasks = 0
  cancelling : state.stop = .cancelling ∨ state.stop = .returned →
    state.unfinishedTasks = 0
  returned : state.stop = .returned → state.writer.isCancelled = true
  cancelled : state.writer.isCancelled = true →
    state.stop = .cancelling ∨ state.stop = .returned

omit [DecidableEq Request] in
theorem Drained.of_running {state : QueueState Request F}
    (hrunning : state.stop = .running)
    (hwriter : state.writer.isCancelled = false) : Drained state := by
  constructor
  · simp [hrunning]
  · simp [hrunning]
  · simp [hrunning]
  · simp [hwriter]

omit [DecidableEq Request] in
/-- A step of the writer that takes nothing off the count. -/
theorem Drained.turn {state : QueueState Request F}
    (hdrained : Drained state) {writer : WriterPhase Request F}
    (hturns : Turns state writer) (queue : List (Item Request F)) :
    Drained { state with queue := queue, writer := writer } where
  joined := hdrained.joined
  cancelling := hdrained.cancelling
  returned hreturned := by
    have hbefore := hturns.before
    rw [hdrained.returned hreturned] at hbefore
    exact Bool.noConfusion hbefore
  cancelled hcancelled := .inl (hturns.cancelled hcancelled)

omit [DecidableEq Request] in
theorem Drained.tasksDone {state : QueueState Request F}
    (hdrained : Drained state) {writer : WriterPhase Request F}
    (hturns : Turns state writer) (batch : List (Item Request F)) :
    Drained (state.tasksDone batch writer) := by
  have hzero : state.unfinishedTasks = 0 →
      (state.tasksDone batch writer).unfinishedTasks = 0 := by
    intro hnone
    simp [QueueState.tasksDone, hnone]
  have hlate : (state.tasksDone batch writer).writer.isCancelled = true →
      state.stop = .cancelling := by
    rw [QueueState.tasksDone]
    split
    · simp [WriterPhase.isCancelled]
    · exact hturns.cancelled
  cases hstop : state.stop with
  | running =>
      apply Drained.of_running
      · simp [QueueState.tasksDone, hstop]
      · rw [Bool.eq_false_iff]
        intro hnext
        simpa [hstop] using hlate hnext
  | draining joined =>
      constructor
      · cases joined with
        | true =>
            intro _
            exact hzero (hdrained.joined hstop)
        | false =>
            intro hjoined
            simpa [QueueState.tasksDone, hstop] using hjoined
      · simp [QueueState.tasksDone, hstop]
      · simp [QueueState.tasksDone, hstop]
      · intro hnext
        simpa [hstop] using hlate hnext
  | cancelling =>
      constructor
      · simp [QueueState.tasksDone, hstop]
      · intro _
        exact hzero (hdrained.cancelling (.inl hstop))
      · simp [QueueState.tasksDone, hstop]
      · simp [QueueState.tasksDone, hstop]
  | returned =>
      have hbefore := hturns.before
      rw [hdrained.returned hstop] at hbefore
      exact Bool.noConfusion hbefore

/-- A finished request before the stop; later ones are dropped. -/
theorem Drained.finish {settings : QueueSettings}
    {state : QueueState Request F} (hdrained : Drained state)
    {request : Request} {item : Item Request F}
    (hdrains : state.stop ≠ .running → ({ state with
      finished := Function.update state.finished request true }.putNowait
        settings item).accepted = state.accepted) :
    Drained ({ state with
      finished := Function.update state.finished request true }.putNowait
        settings item) := by
  by_cases hrunning : state.stop = .running
  · have hwriter : state.writer.isCancelled = false := by
      rw [Bool.eq_false_iff]
      intro hcancelled
      simpa [hrunning] using hdrained.cancelled hcancelled
    rw [QueueState.putNowait]
    split
    · exact Drained.of_running hrunning hwriter
    · exact Drained.of_running hrunning hwriter
  · have hsame := hdrains hrunning
    rw [QueueState.putNowait] at hsame ⊢
    split
    · exact ⟨hdrained.joined, hdrained.cancelling, hdrained.returned,
        hdrained.cancelled⟩
    · next hroom =>
        rw [if_neg hroom] at hsame
        simp at hsame

theorem Drained.step {settings : QueueSettings}
    {state next : QueueState Request F} {action : QueueAction Request F}
    (hdrained : Drained state)
    (hstep : queueStep settings state action = some next)
    (hdrains : Drains state action next) : Drained next := by
  cases effect_of_step hstep with
  | finish request served hfresh => exact hdrained.finish hdrains.2
  | fill item queue writer hqueue hbatch hroom hturns =>
      exact hdrained.turn hturns queue
  | done writer hbatch hturns => exact hdrained.tasksDone hturns _
  | turn writer hbatch hturns => exact hdrained.turn hturns state.queue
  | stop hstop =>
      constructor
      · simp
      · simp
      · simp
      · intro hcancelled
        simpa [hstop] using hdrained.cancelled hcancelled
  | join hstop =>
      constructor
      · simp
      · intro _
        exact hdrained.joined hstop
      · simp
      · intro _
        exact .inl rfl
  | drainTimeout => exact absurd rfl hdrains.1
  | finishStop hstop hwriter =>
      constructor
      · simp
      · intro _
        exact hdrained.cancelling (.inl hstop)
      · intro _
        exact hwriter
      · intro _
        exact .inr rfl

theorem drained_of_reachable {settings : QueueSettings}
    {state : QueueState Request F}
    (hreach : (queueSystem Request F settings).ReachableVia Drains state) :
    Drained state := by
  apply System.ReachableVia.invariant Drained _ _ hreach
  · rintro start ⟨-, -, hwriter, hrunning, -⟩
    exact Drained.of_running hrunning (by rw [hwriter]; rfl)
  · intro before action after hdrained hstep hdrains
    exact hdrained.step hstep hdrains

/-! ## The places of a metric -/

/-- The places of a metric in one state. -/
inductive Place where
  | queue
  | batch
  | attempted (index : ℕ)
  deriving DecidableEq

/-- The metric is in this place. -/
def InPlace (state : QueueState Request F) (item : Item Request F) :
    Place → Prop
  | .queue => item ∈ state.queue
  | .batch => item ∈ state.writer.batch
  | .attempted index => ∃ batch ∈ state.attempted[index]?, item ∈ batch

/-- In disjoint lists an item has one index. -/
theorem index_unique {Thing : Type} {lists : List (List Thing)}
    (hdisjoint : lists.Pairwise List.Disjoint) {left right : ℕ} {thing : Thing}
    (hleft : ∃ list ∈ lists[left]?, thing ∈ list)
    (hright : ∃ list ∈ lists[right]?, thing ∈ list) : left = right := by
  obtain ⟨first, hfirst, hmem⟩ := hleft
  obtain ⟨second, hsecond, hmem'⟩ := hright
  obtain ⟨hlt, rfl⟩ := List.getElem?_eq_some_iff.mp hfirst
  obtain ⟨hlt', rfl⟩ := List.getElem?_eq_some_iff.mp hsecond
  have hpairs := List.pairwise_iff_getElem.mp hdisjoint
  rcases lt_trichotomy left right with hless | heq | hless
  · exact absurd hmem' (hpairs left right hlt hlt' hless hmem)
  · exact heq
  · exact absurd hmem (hpairs right left hlt' hlt hless hmem')

omit [DecidableEq Request] in
/-- An accepted metric is in exactly one place. -/
theorem Kept.place {settings : QueueSettings} {state : QueueState Request F}
    (hkept : Kept settings state) {item : Item Request F}
    (hmem : item ∈ state.accepted) : ∃! place, InPlace state item place := by
  have hnodup : (state.attempted.flatten ++ state.writer.batch ++
      state.queue).Nodup := by
    rw [← hkept.places]
    exact hkept.distinct.of_map
  obtain ⟨htaken, -, hqueue⟩ := List.nodup_append.mp hnodup
  obtain ⟨hattempted, -, hbatch⟩ := List.nodup_append.mp htaken
  have hflatten : ∀ index, InPlace state item (.attempted index) →
      item ∈ state.attempted.flatten := by
    rintro index ⟨batch, hget, hitem⟩
    exact List.mem_flatten.mpr ⟨batch, List.mem_of_getElem? hget, hitem⟩
  have hnot_both : item ∈ state.attempted.flatten →
      item ∉ state.writer.batch :=
    fun hleft hright => hbatch item hleft item hright rfl
  have hnot_queue : item ∈ state.attempted.flatten ++ state.writer.batch →
      item ∉ state.queue :=
    fun hleft hright => hqueue item hleft item hright rfl
  rw [hkept.places] at hmem
  rcases List.mem_append.mp hmem with htook | hqueued
  · rcases List.mem_append.mp htook with hwritten | hheld
    · obtain ⟨batch, hin, hitem⟩ := List.mem_flatten.mp hwritten
      obtain ⟨index, hindex⟩ := List.getElem?_of_mem hin
      refine ⟨.attempted index, ⟨batch, hindex, hitem⟩, ?_⟩
      intro other hother
      cases other with
      | queue => exact absurd hother (hnot_queue htook)
      | batch => exact absurd hother (hnot_both hwritten)
      | attempted other =>
          rw [index_unique (List.nodup_flatten.mp hattempted).2 hother
            ⟨batch, hindex, hitem⟩]
    · refine ⟨.batch, hheld, ?_⟩
      intro other hother
      cases other with
      | queue => exact absurd hother (hnot_queue htook)
      | batch => rfl
      | attempted other =>
          exact absurd hheld (hnot_both (hflatten other hother))
  · refine ⟨.queue, hqueued, ?_⟩
    intro other hother
    cases other with
    | queue => rfl
    | batch =>
        exact absurd hqueued (hnot_queue (List.mem_append_right _ hother))
    | attempted other =>
        exact absurd hqueued
          (hnot_queue (List.mem_append_left _ (hflatten other hother)))

omit [DecidableEq Request] in
/-- What is in a place was accepted. -/
theorem Kept.accepted {settings : QueueSettings}
    {state : QueueState Request F} (hkept : Kept settings state)
    {item : Item Request F} {place : Place}
    (hplace : InPlace state item place) : item ∈ state.accepted := by
  rw [hkept.places]
  cases place with
  | queue => exact List.mem_append_right _ hplace
  | batch => exact List.mem_append_left _ (List.mem_append_right _ hplace)
  | attempted index =>
      obtain ⟨batch, hget, hitem⟩ := hplace
      apply List.mem_append_left
      apply List.mem_append_left
      exact List.mem_flatten.mpr ⟨batch, List.mem_of_getElem? hget, hitem⟩

omit [DecidableEq Request] in
/-- With nothing unfinished every accepted metric was in an attempted write. -/
theorem Kept.attempted_of_zero {settings : QueueSettings}
    {state : QueueState Request F} (hkept : Kept settings state)
    (hzero : state.unfinishedTasks = 0) :
    state.writer.batch = [] ∧
      ∀ item ∈ state.accepted, ∃ batch ∈ state.attempted, item ∈ batch := by
  have hunfinished := hkept.unfinished
  rw [hzero] at hunfinished
  have hqueue : state.queue = [] := List.eq_nil_of_length_eq_zero (by omega)
  have hbatch : state.writer.batch = [] :=
    List.eq_nil_of_length_eq_zero (by omega)
  refine ⟨hbatch, fun item hmem => ?_⟩
  rw [hkept.places, hqueue, hbatch, List.append_nil, List.append_nil] at hmem
  exact List.mem_flatten.mp hmem

/-- In every reachable state an accepted metric is in exactly one of the queue,
the batch of the writer and the batches whose write was attempted, of which it
is in one, and nothing else is in these; the unfinished count is that of the
first two; no batch is too large, and marking one as done never raises.  The
batch of a writer that was cancelled while it filled it counts as its batch.
Where nothing is enqueued after the stop has begun and its drain does not time
out, a cancelled writer holds nothing, and when the stop returns every accepted
metric has been in an attempted write. -/
theorem metrics_accounted {settings : QueueSettings}
    {state : QueueState Request F}
    (hreach : (queueSystem Request F settings).Reachable state) :
    (∀ item ∈ state.accepted, ∃! place, InPlace state item place) ∧
      (∀ item place, InPlace state item place → item ∈ state.accepted) ∧
      state.unfinishedTasks =
        state.queue.length + state.writer.batch.length ∧
      state.writer.batch.length ≤ settings.analyticsBatchSize ∧
      (∀ batch ∈ state.attempted,
        batch.length ≤ settings.analyticsBatchSize) ∧
      state.writer ≠ .raised ∧
      ((queueSystem Request F settings).ReachableVia Drains state →
        (state.writer.isCancelled = true → state.writer.batch = []) ∧
        (state.stop = .returned →
          ∀ item ∈ state.accepted, ∃ batch ∈ state.attempted,
            item ∈ batch)) := by
  have hkept := kept_of_reachable hreach
  refine ⟨fun item hmem => hkept.place hmem, fun item place => hkept.accepted,
    hkept.unfinished, hkept.batch_le, hkept.attempted_le, hkept.not_raised,
    fun hvia => ?_⟩
  have hdrained := drained_of_reachable hvia
  constructor
  · intro hcancelled
    have hzero := hdrained.cancelling (hdrained.cancelled hcancelled)
    exact (hkept.attempted_of_zero hzero).1
  · intro hreturned
    have hzero := hdrained.cancelling (.inr hreturned)
    exact (hkept.attempted_of_zero hzero).2

/-- The default settings. -/
def defaultQueue : QueueSettings := ⟨20000, 500, by decide, by decide⟩

/-- A process that has just started. -/
def started : QueueState (Fin 2) ℕ :=
  ⟨[], 0, .waiting, .running, fun _ => false, [], []⟩

/-- A request that was answered within a millisecond. -/
def quickRequest : Served ℕ :=
  ⟨some (text "/v1/tle"), some (text "/v1/tle"), some (text "GET"),
    [.start 200, .body 2], 60000000, 1, some (text "fresh")⟩

/-- The second request ends after the first metric was taken; the write
fails, and the stop drains the queue. -/
def drainedRun : List (QueueAction (Fin 2) ℕ) :=
  [.finish 0 quickRequest, .take, .finish 1 quickRequest, .stop, .collect,
    .flush, .write .failed, .join, .cancel, .finishStop]

theorem drained_run_accounted :
    ∃ state ∈ (queueSystem (Fin 2) ℕ defaultQueue).run started drainedRun,
      state.accepted.map Item.request = [0, 1] ∧
      ∀ item ∈ state.accepted, ∃ batch ∈ state.attempted, item ∈ batch := by
  obtain ⟨state, hrun, hreturned, haccepted⟩ :
      ∃ state ∈ (queueSystem (Fin 2) ℕ defaultQueue).run started drainedRun,
        state.stop = .returned ∧
        state.accepted.map Item.request = [0, 1] := by
    decide +kernel
  have hinit : (queueSystem (Fin 2) ℕ defaultQueue).Init started :=
    ⟨rfl, rfl, rfl, rfl, fun _ => rfl, rfl, rfl⟩
  have hsteps : (queueSystem (Fin 2) ℕ defaultQueue).Steps Drains started
      drainedRun := by
    simp [drainedRun, System.Steps, queueSystem, queueStep, started, Drains,
      QueueState.putNowait, QueueState.tasksDone, defaultQueue]
  exact ⟨state, hrun, haccepted,
    ((metrics_accounted (System.reachable_of_run hinit hrun)).2.2.2.2.2.2
      (.run (.init hinit) hsteps hrun)).2 hreturned⟩

end Account

end UTTG.Analytics
