import UTTG.Core.Transition

/-!
# A hook that polls

`usePolling` requests a path, waits, and requests it again, until its component
unmounts.  When the browser comes back online it drops the timer that it
remembers and requests at once.  What follows the settling of a promise runs
before the next event, so a step is one event: a timer of the hook expires, a
request makes progress, the browser comes online, or the component unmounts.
-/

namespace UTTG.Web.Polling

open UTTG.Transition

def maxBackoffMs : ℕ := 5 * 60 * 1000

/-- What `fetchApi` throws. -/
inductive FetchError where
  | abortError
  | apiError (status : ℕ)
  /-- The network failed, or the body is not JSON. -/
  | other
  deriving DecidableEq

section Hook

variable (Body : Type)

/-- What the component passes, and which bodies are truthy. -/
structure Parameters where
  intervalMs : ℕ
  truthy : Body → Bool

/-- A body with the time it was fetched and the time that took. -/
structure Entry where
  body : Body
  fetchedAt : ℕ
  latencyMs : ℕ

/-- What `fetchWithFallback` returns. -/
structure FetchResult where
  entry : Entry Body
  live : Bool
  error : Option FetchError

inductive Status where
  | loading
  | live
  | cached
  | error

/-- The value of the hook. -/
structure View where
  status : Status
  entry : Option (Entry Body)
  live : Bool
  error : Option FetchError

/-- What a request is waiting for. -/
inductive Awaited where
  | response
  | body
  deriving DecidableEq

/-- A run of the hook that waits in `fetchApi`, and whether the signal of its
request is aborted. -/
structure Call where
  id : ℕ
  awaited : Awaited
  aborted : Bool
  deriving DecidableEq

/-- A timer of the hook that has not expired. -/
structure Timer where
  handle : ℕ
  delayMs : ℕ
  deriving DecidableEq

/-- What the hook has done. -/
inductive Effect where
  | request
  | timer
  | unmount
  deriving DecidableEq

/-- A hook with its requests and timers, the variable `timer`, and the entry of
its path in the local storage.  As an observed history it has what it has done,
the last first. -/
structure Hook where
  mounted : Bool
  failures : ℕ
  view : View Body
  stored : Option (Entry Body)
  calls : List Call
  timers : List Timer
  timer : Option ℕ
  nextCall : ℕ
  nextHandle : ℕ
  done : List Effect

inductive Event where
  | online
  | unmount
  /-- A timer of the hook expires. -/
  | expire (handle : ℕ)
  /-- The timer in `fetchApi` expires. -/
  | timeout (call : ℕ)
  /-- The response begins. -/
  | respond (call : ℕ) (status : ℕ)
  /-- The body of the response is read. -/
  | read (call : ℕ) (entry : Entry Body)
  /-- The request fails without being aborted. -/
  | fail (call : ℕ)
  /-- The request ends because its signal is aborted. -/
  | abort (call : ℕ)
  /-- Something else writes to the local storage, or undoes a write. -/
  | store (entry : Option (Entry Body))

end Hook

variable {Body : Type}

/-- `fetchWithFallback`, from what `fetchApi` comes to. -/
def fetchWithFallback (fetched : Except FetchError (Entry Body))
    (signalAborted : Bool) (stored : Option (Entry Body)) :
    Except FetchError (FetchResult Body) :=
  match fetched with
  | .ok entry => .ok ⟨entry, true, none⟩
  | .error error =>
      if error = .abortError && signalAborted then .error error
      else
        match stored with
        | some entry => .ok ⟨entry, false, some error⟩
        | none => .error error

/-- The delay until the next request. -/
def delayMs (intervalMs failures : ℕ) : ℕ :=
  let backoff :=
    if failures ≠ 0 then min intervalMs (5000 * 2 ^ (failures - 1))
    else intervalMs
  min backoff maxBackoffMs

namespace Hook

/-- `run`, up to the point where it waits for a response. -/
def start (hook : Hook Body) : Hook Body :=
  { hook with
    calls := ⟨hook.nextCall, .response, false⟩ :: hook.calls
    nextCall := hook.nextCall + 1
    done := .request :: hook.done }

/-- `timer = setTimeout(run, …)`. -/
def setTimer (intervalMs : ℕ) (hook : Hook Body) : Hook Body :=
  { hook with
    timers := ⟨hook.nextHandle, delayMs intervalMs hook.failures⟩ :: hook.timers
    timer := some hook.nextHandle
    nextHandle := hook.nextHandle + 1
    done := .timer :: hook.done }

/-- `clearTimeout(timer)`. -/
def clearTimer (hook : Hook Body) : Hook Body :=
  { hook with
    timers := hook.timers.filter fun timer => some timer.handle ≠ hook.timer }

/-- What `run` does with a result. -/
def receive (result : FetchResult Body) (hook : Hook Body) : Hook Body :=
  { hook with
    failures := if result.live then 0 else hook.failures + 1
    view :=
      { status := if result.live then .live else .cached
        entry := some result.entry
        live := result.live
        error := none } }

/-- What `run` does with an error, unless the component has unmounted. -/
def miss (truthy : Body → Bool) (error : FetchError) (hook : Hook Body) :
    Hook Body :=
  { hook with
    failures := hook.failures + 1
    view :=
      { hook.view with
        status :=
          if hook.view.entry.any (truthy ·.body) then .cached else .error
        live := false
        error := some error } }

/-- The request of a call is over. -/
def endCall (id : ℕ) (hook : Hook Body) : Hook Body :=
  { hook with calls := hook.calls.filter (·.id ≠ id) }

/-- The rest of `run`, from what `fetchApi` comes to.  The signal of the hook is
aborted once its component has unmounted. -/
def settle (parameters : Parameters Body) (id : ℕ)
    (fetched : Except FetchError (Entry Body)) (hook : Hook Body) : Hook Body :=
  let hook := hook.endCall id
  match fetchWithFallback fetched (!hook.mounted) hook.stored with
  | .ok result => (hook.receive result).setTimer parameters.intervalMs
  | .error error =>
      if hook.mounted then
        (hook.miss parameters.truthy error).setTimer parameters.intervalMs
      else hook

/-- `onOnline`, which is removed when the component unmounts. -/
def onOnline (hook : Hook Body) : Hook Body :=
  if hook.mounted then hook.clearTimer.start else hook

/-- What the effect returns. -/
def cleanUp (hook : Hook Body) : Hook Body :=
  { hook.clearTimer with
    mounted := false
    calls := hook.calls.map fun call => { call with aborted := true }
    done := .unmount :: hook.done }

/-- The request of a call. -/
def call (hook : Hook Body) (id : ℕ) : Option Call :=
  hook.calls.find? (·.id = id)

/-- `setCall` replaces a call. -/
def setCall (hook : Hook Body) (updated : Call) : Hook Body :=
  { hook with
    calls := hook.calls.map fun call =>
      if call.id = updated.id then updated else call }

end Hook

/-- The events of one mounted hook. -/
def step (parameters : Parameters Body) (hook : Hook Body) : Event Body → Option (Hook Body)
  | .online => some hook.onOnline
  | .unmount => if hook.mounted then some hook.cleanUp else none
  | .expire handle =>
      if hook.timers.any (·.handle = handle) then
        some (Hook.start
          { hook with timers := hook.timers.filter (·.handle ≠ handle) })
      else none
  | .timeout id => do
      let call ← hook.call id
      some (hook.setCall { call with aborted := true })
  | .respond id status => do
      let call ← hook.call id
      if call.awaited = .response && !call.aborted then
        if 200 ≤ status && status < 300 then
          some (hook.setCall { call with awaited := .body })
        else some (hook.settle parameters id (.error (.apiError status)))
      else none
  | .read id entry => do
      let call ← hook.call id
      if call.awaited = .body && !call.aborted then
        some (Hook.settle parameters id (.ok entry)
          { hook with stored := some entry })
      else none
  | .fail id => do
      let call ← hook.call id
      if call.aborted then none
      else some (hook.settle parameters id (.error .other))
  | .abort id => do
      let call ← hook.call id
      if call.aborted then
        some (hook.settle parameters id (.error .abortError))
      else none
  | .store entry => some { hook with stored := entry }

/-- The effect runs with what earlier ones left of the failures and the value. -/
def mount (failures : ℕ) (view : View Body) (stored : Option (Entry Body)) :
    Hook Body :=
  Hook.start
    { mounted := true
      failures := failures
      view := view
      stored := stored
      calls := []
      timers := []
      timer := none
      nextCall := 0
      nextHandle := 0
      done := [] }

/-- A hook that is mounted with a path. -/
def polling (parameters : Parameters Body) :
    System (Hook Body) (Event Body) where
  Init hook := ∃ failures view stored, hook = mount failures view stored
  step := step parameters

/-! ## What is asked of the hook -/

/-- One timer or one request at most, and nothing is done after the component
has unmounted. -/
structure OneChain (hook : Hook Body) : Prop where
  single : hook.timers.length + hook.calls.length ≤ 1
  quiet : ∀ later earlier, hook.done = later ++ .unmount :: earlier → later = []

/-- The browser does not come online while a request is under way. -/
def OnlineAtRest (hook : Hook Body) (event : Event Body) (_ : Hook Body) : Prop :=
  event = .online → hook.mounted = true → hook.calls = []

/-- What holds of a hook as long as the browser comes online at rest: a mounted
one has one chain, with its timer remembered, and an unmounted one has nothing
left but requests that are aborted. -/
structure Orderly (hook : Hook Body) : Prop where
  single : hook.timers.length + hook.calls.length ≤ 1
  remembered : ∀ timer ∈ hook.timers, hook.timer = some timer.handle
  mounted : hook.mounted = true → .unmount ∉ hook.done
  timers : hook.mounted = false → hook.timers = []
  calls : hook.mounted = false → ∀ call ∈ hook.calls, call.aborted = true
  quiet : hook.mounted = false →
    ∃ earlier, hook.done = .unmount :: earlier ∧ .unmount ∉ earlier

theorem Orderly.oneChain {hook : Hook Body} (horderly : Orderly hook) :
    OneChain hook where
  single := horderly.single
  quiet later earlier hdone := by
    cases hmounted : hook.mounted with
    | true =>
        refine absurd ?_ (horderly.mounted hmounted)
        rw [hdone]
        simp
    | false =>
        obtain ⟨before, hbefore, habsent⟩ := horderly.quiet hmounted
        cases later with
        | nil => rfl
        | cons effect later =>
            rw [hbefore, List.cons_append, List.cons.injEq] at hdone
            rw [hdone.2] at habsent
            simp at habsent

theorem orderly_mount (failures : ℕ) (view : View Body)
    (stored : Option (Entry Body)) : Orderly (mount failures view stored) where
  single := le_rfl
  remembered _ hmem := absurd hmem List.not_mem_nil
  mounted _ := by simp [mount, Hook.start]
  timers hmounted := Bool.noConfusion hmounted
  calls hmounted := Bool.noConfusion hmounted
  quiet hmounted := Bool.noConfusion hmounted

/-! ## What an event does -/

/-- What the hook is after an event. -/
inductive Moves (parameters : Parameters Body) (hook : Hook Body) :
    Event Body → Hook Body → Prop
  | online : Moves parameters hook .online hook.onOnline
  | unmount (hmounted : hook.mounted = true) :
      Moves parameters hook .unmount hook.cleanUp
  | expire {timer : Timer} (hmem : timer ∈ hook.timers) :
      Moves parameters hook (.expire timer.handle)
        (Hook.start { hook with
          timers := hook.timers.filter (·.handle ≠ timer.handle) })
  | change {event : Event Body} {call updated : Call} (hmem : call ∈ hook.calls)
      (haborted : call.aborted = true → updated.aborted = true)
      (hevent : event ≠ .online) :
      Moves parameters hook event (hook.setCall updated)
  | settle {event : Event Body} {call : Call}
      {fetched : Except FetchError (Entry Body)} {stored : Option (Entry Body)}
      (hmem : call ∈ hook.calls)
      (haborted : call.aborted = true → fetched = .error .abortError)
      (hevent : event ≠ .online) :
      Moves parameters hook event
        (Hook.settle parameters call.id fetched { hook with stored := stored })
  | store (entry : Option (Entry Body)) :
      Moves parameters hook (.store entry) { hook with stored := entry }

theorem Hook.call_spec {hook : Hook Body} {id : ℕ} {call : Call}
    (hcall : hook.call id = some call) : call ∈ hook.calls ∧ call.id = id :=
  ⟨List.mem_of_find?_eq_some hcall, by simpa using List.find?_some hcall⟩

/-- A mounted hook sets a timer, whatever a request comes to. -/
theorem Hook.settle_of_mounted {hook : Hook Body} (hmounted : hook.mounted = true)
    (parameters : Parameters Body) (id : ℕ)
    (fetched : Except FetchError (Entry Body)) :
    ∃ failures view, hook.settle parameters id fetched =
      Hook.setTimer parameters.intervalMs
        { hook.endCall id with failures := failures, view := view } := by
  have hended : (hook.endCall id).mounted = true := hmounted
  simp only [Hook.settle]
  split
  · exact ⟨_, _, rfl⟩
  · rw [if_pos hended]
    exact ⟨_, _, rfl⟩

/-- Where the component has unmounted, an aborted request ends the chain. -/
theorem Hook.settle_of_unmounted {hook : Hook Body}
    (hunmounted : hook.mounted = false) (parameters : Parameters Body) (id : ℕ) :
    hook.settle parameters id (.error .abortError) = hook.endCall id := by
  simp [Hook.settle, fetchWithFallback, Hook.endCall, hunmounted]

theorem moves_of_step {parameters : Parameters Body} {hook next : Hook Body}
    {event : Event Body} (hstep : step parameters hook event = some next) :
    Moves parameters hook event next := by
  cases event with
  | online =>
      obtain rfl := Option.some.inj hstep
      exact .online
  | unmount =>
      obtain ⟨hmounted, hnext⟩ := Option.ite_none_right_eq_some.mp hstep
      obtain rfl := Option.some.inj hnext
      exact .unmount hmounted
  | expire handle =>
      obtain ⟨hany, hnext⟩ := Option.ite_none_right_eq_some.mp hstep
      obtain rfl := Option.some.inj hnext
      obtain ⟨timer, hmem, hhandle⟩ := List.any_eq_true.mp hany
      obtain rfl := of_decide_eq_true hhandle
      exact .expire hmem
  | timeout id =>
      obtain ⟨call, hcall, hnext⟩ := Option.bind_eq_some_iff.mp hstep
      obtain rfl := Option.some.inj hnext
      exact .change (Hook.call_spec hcall).1 (fun _ => rfl) (by simp)
  | respond id status =>
      obtain ⟨call, hcall, hnext⟩ := Option.bind_eq_some_iff.mp hstep
      obtain ⟨hmem, rfl⟩ := Hook.call_spec hcall
      obtain ⟨hawaits, hnext⟩ := Option.ite_none_right_eq_some.mp hnext
      have hlive : call.aborted = false := by
        simpa using (Bool.and_eq_true_iff.mp hawaits).2
      split_ifs at hnext
      · obtain rfl := Option.some.inj hnext
        exact .change hmem id (by simp)
      · obtain rfl := Option.some.inj hnext
        exact .settle hmem (fun haborted => by simp [hlive] at haborted)
          (by simp)
  | read id entry =>
      obtain ⟨call, hcall, hnext⟩ := Option.bind_eq_some_iff.mp hstep
      obtain ⟨hmem, rfl⟩ := Hook.call_spec hcall
      obtain ⟨hawaits, hnext⟩ := Option.ite_none_right_eq_some.mp hnext
      have hlive : call.aborted = false := by
        simpa using (Bool.and_eq_true_iff.mp hawaits).2
      obtain rfl := Option.some.inj hnext
      exact .settle hmem (fun haborted => by simp [hlive] at haborted) (by simp)
  | fail id =>
      obtain ⟨call, hcall, hnext⟩ := Option.bind_eq_some_iff.mp hstep
      obtain ⟨hmem, rfl⟩ := Hook.call_spec hcall
      obtain ⟨hlive, hnext⟩ := Option.ite_none_left_eq_some.mp hnext
      obtain rfl := Option.some.inj hnext
      exact .settle hmem (fun haborted => absurd haborted hlive) (by simp)
  | abort id =>
      obtain ⟨call, hcall, hnext⟩ := Option.bind_eq_some_iff.mp hstep
      obtain ⟨hmem, rfl⟩ := Hook.call_spec hcall
      obtain ⟨-, hnext⟩ := Option.ite_none_right_eq_some.mp hnext
      obtain rfl := Option.some.inj hnext
      exact .settle hmem (fun _ => rfl) (by simp)
  | store entry =>
      obtain rfl := Option.some.inj hstep
      exact .store entry

/-! ## Every event keeps the order -/

namespace Orderly

variable {hook : Hook Body} (horderly : Orderly hook)
include horderly

theorem only_call {call : Call} (hmem : call ∈ hook.calls) :
    hook.calls = [call] ∧ hook.timers = [] := by
  have hsingle := horderly.single
  have hpositive := List.length_pos_of_mem hmem
  obtain ⟨other, hcalls⟩ := List.length_eq_one_iff.mp
    (by omega : hook.calls.length = 1)
  rw [hcalls, List.mem_singleton] at hmem
  exact ⟨hmem ▸ hcalls, List.length_eq_zero_iff.mp (by omega)⟩

theorem only_timer {timer : Timer} (hmem : timer ∈ hook.timers) :
    hook.timers = [timer] ∧ hook.calls = [] := by
  have hsingle := horderly.single
  have hpositive := List.length_pos_of_mem hmem
  obtain ⟨other, htimers⟩ := List.length_eq_one_iff.mp
    (by omega : hook.timers.length = 1)
  rw [htimers, List.mem_singleton] at hmem
  exact ⟨hmem ▸ htimers, List.length_eq_zero_iff.mp (by omega)⟩

/-- Timers and requests may end. -/
theorem shrink {timers : List Timer} {calls : List Call}
    (stored : Option (Entry Body)) (htimers : timers.Sublist hook.timers)
    (hcalls : calls.Sublist hook.calls) :
    Orderly { hook with stored := stored, timers := timers, calls := calls } where
  single := (Nat.add_le_add htimers.length_le hcalls.length_le).trans
    horderly.single
  remembered timer hmem := horderly.remembered timer (htimers.subset hmem)
  mounted := horderly.mounted
  timers hunmounted := by
    rw [horderly.timers hunmounted] at htimers
    exact List.sublist_nil.mp htimers
  calls hunmounted call hmem :=
    horderly.calls hunmounted call (hcalls.subset hmem)
  quiet := horderly.quiet

theorem display (failures : ℕ) (view : View Body) :
    Orderly { hook with failures := failures, view := view } :=
  { horderly with }

/-- A mounted hook with neither timer nor request may start a request. -/
theorem start (hmounted : hook.mounted = true) (htimers : hook.timers = [])
    (hcalls : hook.calls = []) : Orderly hook.start where
  single := by simp [Hook.start, htimers, hcalls]
  remembered timer hmem := horderly.remembered timer hmem
  mounted _ := by simpa [Hook.start] using horderly.mounted hmounted
  timers hunmounted := absurd (hmounted.symm.trans hunmounted) Bool.noConfusion
  calls hunmounted := absurd (hmounted.symm.trans hunmounted) Bool.noConfusion
  quiet hunmounted := absurd (hmounted.symm.trans hunmounted) Bool.noConfusion

/-- It may set a timer as well. -/
theorem setTimer (intervalMs : ℕ) (hmounted : hook.mounted = true)
    (htimers : hook.timers = []) (hcalls : hook.calls = []) :
    Orderly (hook.setTimer intervalMs) where
  single := by simp [Hook.setTimer, htimers, hcalls]
  remembered timer hmem := by
    simp only [Hook.setTimer, htimers, List.mem_singleton] at hmem
    rw [hmem]
    rfl
  mounted _ := by simpa [Hook.setTimer] using horderly.mounted hmounted
  timers hunmounted := absurd (hmounted.symm.trans hunmounted) Bool.noConfusion
  calls hunmounted := absurd (hmounted.symm.trans hunmounted) Bool.noConfusion
  quiet hunmounted := absurd (hmounted.symm.trans hunmounted) Bool.noConfusion

/-- The timer that is remembered is the only one. -/
theorem timers_clearTimer : hook.clearTimer.timers = [] := by
  apply List.filter_eq_nil_iff.mpr
  intro timer hmem
  simp [horderly.remembered timer hmem]

theorem clearTimer : Orderly hook.clearTimer :=
  horderly.shrink hook.stored List.filter_sublist (List.Sublist.refl _)

theorem onOnline (hrest : hook.mounted = true → hook.calls = []) :
    Orderly hook.onOnline := by
  rw [Hook.onOnline]
  split_ifs with hmounted
  · exact horderly.clearTimer.start hmounted horderly.timers_clearTimer
      (hrest hmounted)
  · exact horderly

theorem cleanUp (hmounted : hook.mounted = true) : Orderly hook.cleanUp where
  single := by
    rw [Hook.cleanUp, List.length_map]
    exact horderly.clearTimer.single
  remembered := horderly.clearTimer.remembered
  mounted hnever := Bool.noConfusion hnever
  timers _ := horderly.timers_clearTimer
  calls _ call hmem := by
    obtain ⟨before, -, rfl⟩ := List.mem_map.mp hmem
    rfl
  quiet _ := ⟨hook.done, rfl, horderly.mounted hmounted⟩

theorem expire {timer : Timer} (hmem : timer ∈ hook.timers) :
    Orderly (Hook.start { hook with
      timers := hook.timers.filter (·.handle ≠ timer.handle) }) := by
  obtain ⟨htimers, hcalls⟩ := horderly.only_timer hmem
  have hmounted : hook.mounted = true := by
    by_contra hunmounted
    rw [horderly.timers (Bool.eq_false_of_not_eq_true hunmounted)] at hmem
    exact List.not_mem_nil hmem
  have hnone : hook.timers.filter (·.handle ≠ timer.handle) = [] := by
    simp [htimers]
  have hexpired := horderly.shrink hook.stored
    (List.filter_sublist : (hook.timers.filter (·.handle ≠ timer.handle)).Sublist _)
    (List.Sublist.refl _)
  exact hexpired.start hmounted hnone hcalls

theorem setCall {call updated : Call} (hmem : call ∈ hook.calls)
    (haborted : call.aborted = true → updated.aborted = true) :
    Orderly (hook.setCall updated) where
  single := by
    rw [Hook.setCall, List.length_map]
    exact horderly.single
  remembered := horderly.remembered
  mounted := horderly.mounted
  timers := horderly.timers
  calls hunmounted other hother := by
    obtain ⟨before, hbefore, rfl⟩ := List.mem_map.mp hother
    have hall := horderly.calls hunmounted
    split_ifs
    · exact haborted (hall call hmem)
    · exact hall before hbefore
  quiet := horderly.quiet

/-- A settled request is followed by a timer, unless the component has
unmounted: then it was aborted. -/
theorem settle (parameters : Parameters Body) {call : Call}
    {fetched : Except FetchError (Entry Body)} (stored : Option (Entry Body))
    (hmem : call ∈ hook.calls)
    (haborted : call.aborted = true → fetched = .error .abortError) :
    Orderly (Hook.settle parameters call.id fetched
      { hook with stored := stored }) := by
  obtain ⟨hcalls, htimers⟩ := horderly.only_call hmem
  have hnone : hook.calls.filter (·.id ≠ call.id) = [] := by
    simp [hcalls]
  have hended : Orderly (Hook.endCall call.id { hook with stored := stored }) :=
    horderly.shrink stored (List.Sublist.refl _) List.filter_sublist
  by_cases hmounted : hook.mounted = true
  · have hstored : ({ hook with stored := stored } : Hook Body).mounted = true :=
      hmounted
    obtain ⟨failures, view, hsettled⟩ :=
      Hook.settle_of_mounted hstored parameters call.id fetched
    rw [hsettled]
    exact (hended.display failures view).setTimer _ hmounted htimers hnone
  · have hunmounted : hook.mounted = false := Bool.eq_false_of_not_eq_true hmounted
    have hstored : ({ hook with stored := stored } : Hook Body).mounted = false :=
      hunmounted
    rw [haborted (horderly.calls hunmounted call hmem),
      Hook.settle_of_unmounted hstored]
    exact hended

theorem step {parameters : Parameters Body} {next : Hook Body}
    {event : Event Body} (hstep : step parameters hook event = some next)
    (hrest : OnlineAtRest hook event next) : Orderly next := by
  cases moves_of_step hstep with
  | online => exact horderly.onOnline (hrest rfl)
  | unmount hmounted => exact horderly.cleanUp hmounted
  | expire hmem => exact horderly.expire hmem
  | change hmem haborted => exact horderly.setCall hmem haborted
  | settle hmem haborted => exact horderly.settle parameters _ hmem haborted
  | store entry =>
      exact horderly.shrink entry (List.Sublist.refl _) (List.Sublist.refl _)

end Orderly

/-- A second chain is started where the browser comes online during a
request. -/
theorem onlineAtRest_of_oneChain {parameters : Parameters Body}
    {hook next : Hook Body} {event : Event Body}
    (hstep : step parameters hook event = some next) (hchain : OneChain next) :
    OnlineAtRest hook event next := by
  rintro rfl hmounted
  obtain rfl := Option.some.inj hstep
  have hsingle := hchain.single
  rw [Hook.onOnline, if_pos hmounted] at hsingle
  simp only [Hook.start, List.length_cons] at hsingle
  exact List.length_eq_zero_iff.mp (by
    change hook.clearTimer.calls.length = 0
    omega)

/-- The hook has one chain in every state of a run, and does nothing after its
component has unmounted, exactly when the browser never comes online during a
request. -/
theorem one_chain_iff (parameters : Parameters Body) (failures : ℕ)
    (view : View Body) (stored : Option (Entry Body))
    (events : List (Event Body)) :
    (polling parameters).States OneChain (mount failures view stored) events ↔
      (polling parameters).Steps OnlineAtRest (mount failures view stored)
        events := by
  apply System.states_iff_steps_of_stronger Orderly OneChain
  · exact fun _ horderly => horderly.oneChain
  · exact fun _ _ _ horderly hstep hrest => horderly.step hstep hrest
  · exact fun _ _ _ _ hstep hchain => onlineAtRest_of_oneChain hstep hchain
  · exact orderly_mount failures view stored

/-- The browser comes online while the first request is under way. -/
theorem online_during_request_starts_second :
    ¬(polling ⟨15000, fun _ : Unit => true⟩).States OneChain
      (mount 0 ⟨.loading, none, false, none⟩ none) [.online] := by
  intro hstates
  have hchain := hstates.2 _ rfl
  exact absurd hchain.single (by decide)

end UTTG.Web.Polling
