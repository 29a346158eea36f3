import UTTG.Webhooks.Idempotency
import UTTG.Webhooks.Isolation

/-!
# What `build_meta` does to a response

Before its response a request awaits `build_meta`, which returns or raises.
The outcome decides which response the request gets, the one that it has made
or the error, and nothing else: whatever the requests have been told, the
service takes the same steps as when `build_meta` never raises.
-/

namespace UTTG.Webhooks

open Python UTTG.Expiring UTTG.Transition
open UTTG.Limits (LimitClass)

/-- For whom `build_meta` calls `cached`: a request that writes or reads
webhooks, or one to another endpoint. -/
inductive Caller (Request : Type*) where
  | writing (request : Request)
  | reading (request : Request)
  | elsewhere (number : ℕ)
  deriving DecidableEq

variable {Request Id : Type*} [DecidableEq Request] [DecidableEq Id]

/-- Every call of `build_meta` has this outcome. -/
def Environment.telling (environment : Environment Request Id)
    (outcome : Bool) : Environment Request Id :=
  { environment with metaRaises := fun _ => outcome }

def Endpoints.telling (endpoints : Endpoints Request Id) (outcome : Bool) :
    Endpoints Request Id :=
  { endpoints with environment := endpoints.environment.telling outcome }

/-- The call whose outcome an activity goes on with. -/
def Activity.awaits : Activity Request Id → Option (Caller Request)
  | .write (.describe request) => some (.writing request)
  | .describe request => some (.reading request)
  | _ => none

/-- The request of the caller stands in `build_meta`. -/
def Caller.describing (service : Service Request Id) : Caller Request → Bool
  | .writing request =>
      match service.registry.phase request with
      | .describing _ _ => true
      | _ => false
  | .reading request =>
      match service.reading request with
      | .describing _ => true
      | _ => false
  | .elsewhere _ => true

/-! ## What requests are told -/

/-- Where a request stands if `build_meta` has raised for it after all. -/
def Phase.told {Client : Type*} (raised : Bool) :
    Phase Client Id → Phase Client Id
  | .ended (some response) =>
      .ended (some (if raised then .error else response))
  | phase => phase

def Reading.told (raised : Bool) : Reading Id → Reading Id
  | .ended (some answer) => .ended (some (if raised then .error else answer))
  | reading => reading

omit [DecidableEq Request] [DecidableEq Id] in
@[simp]
theorem Phase.told_false {Client : Type*} (phase : Phase Client Id) :
    phase.told false = phase := by
  cases phase with
  | ended response => cases response <;> rfl
  | _ => rfl

omit [DecidableEq Request] [DecidableEq Id] in
@[simp]
theorem Reading.told_false (reading : Reading Id) :
    reading.told false = reading := by
  cases reading with
  | ended answer => cases answer <;> rfl
  | _ => rfl

section Registry

variable {Client : Type*} [DecidableEq Client]
variable {settings : Settings} {environment : Environment Request Id}

def State.told (state : State Request Client Id) (raised : Request → Bool) :
    State Request Client Id :=
  { state with phase := fun request =>
      (state.phase request).told (raised request) }

omit [DecidableEq Request] [DecidableEq Client] [DecidableEq Id] in
@[simp]
theorem told_webhooks (state : State Request Client Id)
    (raised : Request → Bool) :
    (state.told raised).webhooks = state.webhooks := rfl

omit [DecidableEq Request] [DecidableEq Id] in
theorem told_setKey (state : State Request Client Id)
    (raised : Request → Bool) (claim : IdempotencyKey Client) :
    (state.told raised).setKey claim =
      ((state.setKey claim).1, (state.setKey claim).2.told raised) := rfl

omit [DecidableEq Client] [DecidableEq Id] in
theorem told_goto_of_told (state : State Request Client Id)
    {raised : Request → Bool} {request : Request} {phase : Phase Client Id}
    (hphase : phase.told (raised request) = phase) :
    (state.told raised).goto request phase =
      (state.goto request phase).told raised := by
  have hupdate : Function.update
        (fun other => (state.phase other).told (raised other)) request phase =
      fun other => (Function.update state.phase request phase other).told
        (raised other) := by
    funext other
    by_cases hother : other = request
    · subst hother
      simp [hphase]
    · simp [hother]
  simp only [State.told, State.goto, hupdate]

omit [DecidableEq Client] [DecidableEq Id] in
theorem told_goto (state : State Request Client Id) {raised : Request → Bool}
    {request : Request} (huntold : raised request = false)
    (phase : Phase Client Id) :
    (state.told raised).goto request phase =
      (state.goto request phase).told raised :=
  told_goto_of_told state (by rw [huntold, Phase.told_false])

omit [DecidableEq Client] [DecidableEq Id] in
theorem told_finish (state : State Request Client Id)
    {raised : Request → Bool} {request : Request}
    (huntold : raised request = false) (response : Response Id) :
    (state.told raised).finish request response =
      (state.finish request response).told raised :=
  told_goto state huntold _

omit [DecidableEq Client] [DecidableEq Id] in
theorem told_afterClaim (state : State Request Client Id)
    {raised : Request → Bool} {request : Request}
    (huntold : raised request = false) (claim : IdempotencyKey Client)
    (body : WebhookCreate) (url : String) :
    (state.told raised).afterClaim settings environment request claim body
        url =
      (state.afterClaim settings environment request claim body url).told
        raised := by
  unfold State.afterClaim
  split
  · exact told_goto { state with
      won := Function.update state.won request (some claim) } huntold _
  · exact told_finish { state with
      won := Function.update state.won request (some claim) } huntold _

omit [DecidableEq Client] [DecidableEq Id] in
theorem told_afterSelect (state : State Request Client Id)
    {raised : Request → Bool} {request : Request}
    (huntold : raised request = false) (row : Webhook Client Id)
    (change : Change) :
    (state.told raised).afterSelect environment request row change =
      (state.afterSelect environment request row change).told raised := by
  unfold State.afterSelect
  split
  · exact told_goto _ huntold _
  · split
    · exact told_goto _ huntold _
    · exact told_goto _ huntold _

theorem step_of_untold (state : State Request Client Id)
    {raised : Request → Bool} {action : Action Request Client Id}
    (huntold : ∀ request, action.request = some request →
      raised request = false) :
    step settings environment (state.told raised) action =
      (step settings environment state action).map
        fun next => next.told raised := by
  have hphase {request : Request} (hrequest : raised request = false) :
      (state.told raised).phase request = state.phase request := by
    simp [State.told, hrequest]
  cases action with
  | elapse duration =>
      simp only [step]
      split <;> rfl
  | create request client key body | change request client id change =>
      have hrequest := huntold request rfl
      simp only [step, hphase hrequest]
      split
      · simp only [told_goto state hrequest, Option.map_some]
      · rfl
  | validate request url =>
      have hrequest := huntold request rfl
      simp only [step, hphase hrequest]
      split
      · simp only [told_goto state hrequest, Option.map_some]
      · simp only [told_goto state hrequest, Option.map_some]
      · simp only [told_finish state hrequest, Option.map_some]
      · simp only [told_finish state hrequest, Option.map_some]
      · rfl
  | count request =>
      have hrequest := huntold request rfl
      simp only [step, hphase hrequest, told_webhooks,
        told_goto state hrequest, told_finish state hrequest]
      split
      · split <;> rfl
      · rfl
  | claim request reply =>
      have hrequest := huntold request rfl
      simp only [step, hphase hrequest, told_setKey]
      split
      · cases reply with
        | answered =>
            simp only [told_afterClaim _ hrequest, told_finish _ hrequest]
            split <;> rfl
        | lost => simp only [told_finish _ hrequest, Option.map_some]
        | refused => simp only [told_finish _ hrequest, Option.map_some]
      · rfl
  | commit request =>
      have hrequest := huntold request rfl
      simp only [step, hphase hrequest, told_webhooks,
        told_goto state hrequest, told_finish state hrequest]
      split
      · split
        · rfl
        · split
          · rfl
          · next webhooks hinsert =>
              exact congrArg some
                (told_goto { state with webhooks := webhooks } hrequest _)
      · next row assigned response hwriting =>
          split
          · rfl
          · exact congrArg some (told_goto { state with
              webhooks := writeBack state.webhooks row assigned } hrequest _)
      · rfl
  | unclaim request =>
      have hrequest := huntold request rfl
      simp only [step, hphase hrequest]
      split
      · next claim hunclaiming =>
          exact congrArg some (told_finish { state with
            keys := Function.update state.keys claim Slot.del } hrequest _)
      · rfl
  | select request =>
      have hrequest := huntold request rfl
      simp only [step, hphase hrequest, told_webhooks,
        told_finish state hrequest, told_afterSelect state hrequest]
      split
      · split <;> rfl
      · rfl
  | describe request =>
      have hrequest := huntold request rfl
      simp only [step, hphase hrequest, told_finish state hrequest]
      split
      · split <;> rfl
      · rfl
  | raise request =>
      have hrequest := huntold request rfl
      simp only [step, hphase hrequest, told_finish state hrequest]
      split <;> rfl
  | rollback request =>
      have hrequest := huntold request rfl
      simp only [step, hphase hrequest, told_goto state hrequest]
      split <;> rfl
  | crash request =>
      exact congrArg some (told_goto_of_told state rfl)

/-- The registry takes the same steps whatever the requests that have ended
were told. -/
theorem step_told (state : State Request Client Id) {raised : Request → Bool}
    (hended : ∀ request, raised request = true →
      ∃ response, state.phase request = .ended response)
    (action : Action Request Client Id) :
    step settings environment (state.told raised) action =
      (step settings environment state action).map
        fun next => next.told raised := by
  by_cases huntold : ∀ request, action.request = some request →
    raised request = false
  · exact step_of_untold state huntold
  push Not at huntold
  obtain ⟨request, hrequest, hraised⟩ := huntold
  obtain ⟨response, hphase⟩ := hended request (by simpa using hraised)
  have htold : ∃ other, (state.told raised).phase request = .ended other := by
    simp only [State.told, hphase]
    cases response with
    | none => exact ⟨none, rfl⟩
    | some response => exact ⟨_, rfl⟩
  obtain ⟨other, htold⟩ := htold
  cases action with
  | elapse duration => simp [Action.request] at hrequest
  | crash crashed => exact congrArg some (told_goto_of_told state rfl)
  | _ =>
      obtain rfl := Option.some.inj hrequest
      simp [step, hphase, htold]

omit [DecidableEq Client] [DecidableEq Id] in
/-- A request for which `build_meta` has just raised is told the error. -/
theorem told_finish_update (state : State Request Client Id)
    {raised : Request → Bool} {request : Request}
    (huntold : raised request = false) (outcome : Bool)
    (response : Response Id) :
    (state.finish request (if outcome then .error else response)).told
        raised =
      (state.finish request response).told
        (Function.update raised request outcome) := by
  simp only [State.told, State.finish, State.goto, State.mk.injEq, true_and,
    and_true]
  funext other
  by_cases hother : other = request
  · subst hother
    simp only [Function.update_self, huntold]
    rfl
  · simp only [Function.update_of_ne hother]

theorem describe_iff {state next : State Request Client Id}
    {request : Request} {outcome : Bool} :
    step settings (environment.telling outcome) state (.describe request) =
        some next ↔
      ∃ claim response, state.phase request = .describing claim response ∧
        state.finish request (if outcome then .error else response) =
          next := by
  simp only [step]
  split
  · next claim response hphase =>
      cases outcome <;> simp [Environment.telling, hphase]
  · next hphase =>
      refine iff_of_false (by simp) ?_
      rintro ⟨claim, response, hdescribing, -⟩
      exact hphase claim response hdescribing

end Registry

section Endpoints

variable {endpoints : Endpoints Request Id}

def Service.told (service : Service Request Id)
    (raised : Caller Request → Bool) : Service Request Id :=
  { service with
    registry := service.registry.told fun request => raised (.writing request)
    reading := fun request =>
      (service.reading request).told (raised (.reading request)) }

omit [DecidableEq Request] [DecidableEq Id] in
@[simp]
theorem told_limits (service : Service Request Id)
    (raised : Caller Request → Bool) :
    (service.told raised).limits = service.limits := rfl

omit [DecidableEq Request] [DecidableEq Id] in
theorem told_registry (service : Service Request Id)
    (raised : Caller Request → Bool) :
    (service.told raised).registry =
      service.registry.told fun request => raised (.writing request) := rfl

omit [DecidableEq Id] in
theorem told_read_of_told (service : Service Request Id)
    {raised : Caller Request → Bool} {request : Request} {reading : Reading Id}
    (hreading : reading.told (raised (.reading request)) = reading) :
    (service.told raised).read request reading =
      (service.read request reading).told raised := by
  have hupdate : Function.update (fun other =>
        (service.reading other).told (raised (.reading other))) request
          reading =
      fun other => (Function.update service.reading request reading other).told
        (raised (.reading other)) := by
    funext other
    by_cases hother : other = request
    · subst hother
      simp [hreading]
    · simp [hother]
  simp only [Service.told, Service.read, hupdate]

omit [DecidableEq Id] in
theorem told_read (service : Service Request Id)
    {raised : Caller Request → Bool} {request : Request}
    (huntold : raised (.reading request) = false) (reading : Reading Id) :
    (service.told raised).read request reading =
      (service.read request reading).told raised :=
  told_read_of_told service (by rw [huntold, Reading.told_false])

omit [DecidableEq Request] [DecidableEq Id] in
theorem reading_told (service : Service Request Id)
    {raised : Caller Request → Bool} {request : Request}
    (huntold : raised (.reading request) = false) :
    (service.told raised).reading request = service.reading request := by
  simp [Service.told, huntold]

/-- The request of the caller has ended. -/
def Caller.Ended (service : Service Request Id) : Caller Request → Prop
  | .writing request =>
      ∃ response, service.registry.phase request = .ended response
  | .reading request => ∃ answer, service.reading request = .ended answer
  | .elsewhere _ => False

/-- `build_meta` has raised only for requests that have ended since. -/
def Told (service : Service Request Id) (raised : Caller Request → Bool) :
    Prop :=
  ∀ caller, raised caller = true → caller.Ended service

omit [DecidableEq Request] [DecidableEq Id] in
theorem Caller.not_ended {service : Service Request Id}
    {caller : Caller Request} (hdescribing : caller.describing service = true) :
    ¬ caller.Ended service := by
  intro hended
  cases caller with
  | writing request =>
      obtain ⟨response, hphase⟩ := hended
      simp [Caller.describing, hphase] at hdescribing
  | reading request =>
      obtain ⟨answer, hreading⟩ := hended
      simp [Caller.describing, hreading] at hdescribing
  | elsewhere number => exact hended

omit [DecidableEq Request] [DecidableEq Id] in
theorem Told.untold {service : Service Request Id}
    {raised : Caller Request → Bool} (htold : Told service raised)
    {caller : Caller Request} (hdescribing : caller.describing service = true) :
    raised caller = false := by
  by_contra hraised
  exact Caller.not_ended hdescribing (htold caller (by simpa using hraised))

omit [DecidableEq Request] [DecidableEq Id] in
theorem describing_told (service : Service Request Id)
    (raised : Caller Request → Bool) (caller : Caller Request) :
    caller.describing (service.told raised) = caller.describing service := by
  cases caller with
  | writing request =>
      simp only [Caller.describing, Service.told, State.told]
      cases service.registry.phase request with
      | ended response => cases response <;> rfl
      | _ => rfl
  | reading request =>
      simp only [Caller.describing, Service.told]
      cases service.reading request with
      | ended answer => cases answer <;> rfl
      | _ => rfl
  | elsewhere number => rfl

omit [DecidableEq Id] in
theorem Told.update {service : Service Request Id}
    {raised : Caller Request → Bool} (htold : Told service raised)
    {caller : Caller Request} (hended : caller.Ended service)
    (outcome : Bool) :
    Told service (Function.update raised caller outcome) := by
  intro other hother
  by_cases hsame : other = caller
  · subst hsame
    exact hended
  · rw [Function.update_of_ne hsame] at hother
    exact htold other hother

omit [DecidableEq Id] in
theorem told_update_writing (service : Service Request Id)
    (raised : Caller Request → Bool) (request : Request) (outcome : Bool) :
    service.told (Function.update raised (.writing request) outcome) =
      { service.told raised with
        registry := service.registry.told (Function.update
          (fun other => raised (.writing other)) request outcome) } := by
  have hwriting : (fun other => Function.update raised (.writing request)
        outcome (.writing other)) =
      Function.update (fun other => raised (.writing other)) request
        outcome := by
    funext other
    simp only [Function.update_apply, Caller.writing.injEq]
  simp only [Service.told, hwriting]
  simp

omit [DecidableEq Id] in
theorem told_update_reading (service : Service Request Id)
    (raised : Caller Request → Bool) (request : Request) (outcome : Bool) :
    service.told (Function.update raised (.reading request) outcome) =
      { service.told raised with
        reading := fun other => (service.reading other).told
          (Function.update (fun other => raised (.reading other)) request
            outcome other) } := by
  have hreading : (fun other => (service.reading other).told
        (Function.update raised (.reading request) outcome
          (.reading other))) =
      fun other => (service.reading other).told (Function.update
        (fun other => raised (.reading other)) request outcome other) := by
    funext other
    simp only [Function.update_apply, Caller.reading.injEq]
  simp only [Service.told, hreading]
  simp

/-- A reading request that has ended takes no step but the last one of its
process. -/
theorem reading_ended_of_step {service next : Service Request Id}
    {activity : Activity Request Id} {request : Request}
    (hstep : serve endpoints service activity = some next)
    (hended : ∃ answer, service.reading request = .ended answer) :
    ∃ answer, next.reading request = .ended answer := by
  obtain ⟨answer, hreading⟩ := hended
  have hread (other : Request) (reading : Reading Id)
      (hother : request = other → reading = .ended none) :
      ∃ given, (service.read other reading).reading request =
        .ended given := by
    by_cases hsame : request = other
    · subst hsame
      rw [hother rfl]
      exact ⟨none, reading_read service request _⟩
    · exact ⟨answer,
        (reading_read_of_ne service reading hsame).trans hreading⟩
  cases activity with
  | elapse duration =>
      obtain ⟨limits, -, hrest⟩ := Option.bind_eq_some_iff.mp hstep
      obtain ⟨registry, -, rfl⟩ := Option.map_eq_some_iff.mp hrest
      exact ⟨answer, hreading⟩
  | limit action =>
      cases action with
      | elapse duration => simp [serve] at hstep
      | _ =>
          obtain ⟨limits, -, rfl⟩ := Option.map_eq_some_iff.mp hstep
          exact ⟨answer, hreading⟩
  | write action =>
      simp only [serve] at hstep
      split at hstep
      · obtain ⟨registry, -, rfl⟩ := Option.map_eq_some_iff.mp hstep
        exact ⟨answer, hreading⟩
      · simp at hstep
  | deliver creator data =>
      simp only [serve] at hstep
      split at hstep
      · obtain rfl := Option.some.inj hstep
        exact ⟨answer, hreading⟩
      · simp at hstep
  | crash other =>
      obtain rfl := Option.some.inj hstep
      exact hread other _ fun _ => rfl
  | ask other query | select other | describe other | raise other =>
      cases serves_of_step hstep with
      | read horigin =>
          obtain rfl := Option.some.inj horigin
          refine hread _ _ fun hsame => ?_
          subst hsame
          simp [serve, hreading] at hstep

/-- The service takes the same steps whatever the requests that have ended
were told. -/
theorem serve_told {service : Service Request Id}
    {raised : Caller Request → Bool} (htold : Told service raised)
    (activity : Activity Request Id) :
    serve endpoints (service.told raised) activity =
      (serve endpoints service activity).map
        fun next => next.told raised := by
  have hregistry (action : Action Request Text Id) :
      step endpoints.settings endpoints.environment
          (service.told raised).registry action =
        (step endpoints.settings endpoints.environment service.registry
          action).map _ :=
    step_told service.registry (fun request => htold (.writing request)) action
  cases activity with
  | elapse duration =>
      simp only [serve, told_limits, hregistry, Option.map_bind,
        Option.map_map, Function.comp_def]
      rfl
  | limit action =>
      cases action with
      | elapse duration => rfl
      | arrive request | evaluate request reply | respond request =>
          simp only [serve, told_limits, Option.map_map]
          rfl
  | write action =>
      have hstarts : endpoints.starts (service.told raised) action =
          endpoints.starts service action := by
        cases action <;> rfl
      have hstamped : stamped endpoints.environment (service.told raised)
          action = stamped endpoints.environment service action := by
        cases action <;> rfl
      simp only [serve, hregistry, hstarts, hstamped]
      split
      · simp only [Option.map_map]
        rfl
      · rfl
  | deliver creator data =>
      by_cases hfind : (service.registry.webhooks.find
          (endpoints.environment.webhookId creator)).isSome = true
      · simp only [serve, told_registry, told_webhooks, hfind, if_true]
        rfl
      · simp only [serve, told_registry, told_webhooks, hfind]
        rfl
  | crash request => exact congrArg some (told_read_of_told service rfl)
  | ask request query | select request | describe request | raise request =>
      cases hraised : raised (.reading request) with
      | true =>
          obtain ⟨answer, hanswer⟩ := htold (.reading request) hraised
          obtain ⟨other, hother⟩ : ∃ other,
              (service.told raised).reading request = .ended other := by
            simp only [Service.told, hanswer]
            cases answer with
            | none => exact ⟨none, rfl⟩
            | some answer => exact ⟨_, rfl⟩
          simp [serve, hanswer, hother]
      | false =>
          have hadmits (limitClass : LimitClass) : endpoints.admits
            (service.told raised) request limitClass =
              endpoints.admits service request limitClass := rfl
          have hselect (query : Query Id) : (service.told raised).afterSelect
            endpoints (endpoints.client request) query =
              service.afterSelect endpoints (endpoints.client request)
                query := by
            cases query <;> rfl
          have hdeliveries (id : Id) (limit : ℤ) :
            (service.told raised).deliveriesFor id limit =
              service.deliveriesFor id limit := rfl
          simp only [serve, reading_told service hraised, hadmits, hselect,
            hdeliveries, told_read service hraised]
          split <;> first | rfl | split <;> rfl

/-- The outcome of `build_meta` matters to no other activity. -/
theorem serve_telling (outcome : Bool) (service : Service Request Id)
    {activity : Activity Request Id} (hawaits : activity.awaits = none) :
    serve (endpoints.telling outcome) service activity =
      serve endpoints service activity := by
  cases activity with
  | write action =>
      cases action with
      | describe request => simp [Activity.awaits] at hawaits
      | _ => rfl
  | describe request => simp [Activity.awaits] at hawaits
  | limit action => cases action <;> rfl
  | _ => rfl

theorem Caller.Ended.step {service next : Service Request Id}
    {caller : Caller Request} (hended : caller.Ended service)
    {activity : Activity Request Id}
    (hstep : serve endpoints service activity = some next) :
    caller.Ended next := by
  cases caller with
  | writing request =>
      cases serves_of_step hstep with
      | elapsed hlimits hregistry => exact ended_of_step hregistry hended
      | limited => exact hended
      | wrote hstarts hregistry => exact ended_of_step hregistry hended
      | read => exact hended
      | delivered => exact hended
  | reading request => exact reading_ended_of_step hstep hended
  | elsewhere number => exact hended

theorem Told.step {service next : Service Request Id}
    {raised : Caller Request → Bool} (htold : Told service raised)
    {activity : Activity Request Id}
    (hstep : serve endpoints service activity = some next) :
    Told next raised :=
  fun caller hraised => (htold caller hraised).step hstep

/-- An activity that goes on with `build_meta` ends a request that stands there,
with either outcome. -/
theorem awaits_cases {service next : Service Request Id} {outcome : Bool}
    {activity : Activity Request Id} {caller : Caller Request}
    (hawaits : activity.awaits = some caller)
    (hstep : serve (endpoints.telling outcome) service activity =
      some next) :
    caller.describing service = true ∧ caller.Ended next ∧
      ∀ other, ∃ reached,
        serve (endpoints.telling other) service activity = some reached := by
  cases activity with
  | write action =>
      cases action with
      | describe request =>
          obtain rfl := Option.some.inj hawaits
          simp only [serve, Endpoints.starts, if_true] at hstep ⊢
          obtain ⟨registry, hregistry, rfl⟩ := Option.map_eq_some_iff.mp hstep
          obtain ⟨claim, response, hphase, rfl⟩ := describe_iff.mp hregistry
          refine ⟨by simp [Caller.describing, hphase],
            ⟨_, Function.update_self ..⟩, fun other => ⟨_, congrArg
              (Option.map _)
              (describe_iff.mpr ⟨claim, response, hphase, rfl⟩)⟩⟩
      | _ => simp [Activity.awaits] at hawaits
  | describe request =>
      obtain rfl := Option.some.inj hawaits
      simp only [serve] at hstep ⊢
      split at hstep
      · next answer hreading =>
          obtain rfl := Option.some.inj hstep
          exact ⟨by simp [Caller.describing, hreading], ⟨_, reading_read ..⟩,
            fun other => ⟨_, rfl⟩⟩
      · simp at hstep
  | _ => simp [Activity.awaits] at hawaits

/-- The outcome decides what the request is told. -/
theorem serve_awaits {service next : Service Request Id}
    {raised : Caller Request → Bool} (htold : Told service raised)
    {outcome : Bool} {activity : Activity Request Id}
    {caller : Caller Request} (hawaits : activity.awaits = some caller)
    (hstep : serve (endpoints.telling outcome) service activity =
      some next) :
    ∃ silent, serve (endpoints.telling false) service activity =
        some silent ∧
      next.told raised = silent.told (Function.update raised caller outcome) ∧
      Told silent (Function.update raised caller outcome) := by
  obtain ⟨hdescribing, -, hany⟩ := awaits_cases hawaits hstep
  obtain ⟨silent, hsilent⟩ := hany false
  obtain ⟨-, hended, -⟩ := awaits_cases hawaits hsilent
  refine ⟨silent, hsilent, ?_, (htold.step hsilent).update hended outcome⟩
  have huntold : raised caller = false := htold.untold hdescribing
  cases activity with
  | write action =>
      cases action with
      | describe request =>
          obtain rfl := Option.some.inj hawaits
          simp only [serve, Endpoints.starts, if_true] at hstep hsilent
          obtain ⟨registry, hregistry, rfl⟩ := Option.map_eq_some_iff.mp hstep
          obtain ⟨claim, response, hphase, rfl⟩ := describe_iff.mp hregistry
          obtain ⟨quiet, hquiet, rfl⟩ := Option.map_eq_some_iff.mp hsilent
          obtain ⟨other, given, hsame, rfl⟩ := describe_iff.mp hquiet
          obtain ⟨rfl, rfl⟩ := Phase.describing.inj (hphase.symm.trans hsame)
          have hfinish : (service.registry.finish request
                (if outcome then .error else response)).told
                  (fun other => raised (.writing other)) =
              (service.registry.finish request response).told
                (Function.update (fun other => raised (.writing other))
                  request outcome) :=
            told_finish_update _ (by exact huntold) outcome response
          rw [told_update_writing]
          simp only [Service.told, hfinish]
          rfl
      | _ => simp [Activity.awaits] at hawaits
  | describe request =>
      obtain rfl := Option.some.inj hawaits
      simp only [serve] at hstep hsilent
      split at hstep
      · next answer hreading =>
          obtain rfl := Option.some.inj hstep
          simp only [hreading, Option.some.injEq] at hsilent
          subst hsilent
          rw [told_update_reading]
          simp only [Service.told, Service.read, Service.mk.injEq, true_and]
          funext other
          by_cases hother : other = request
          · subst hother
            simp only [Function.update_self, huntold]
            rfl
          · simp only [Function.update_of_ne hother]
      · simp at hstep
  | _ => simp [Activity.awaits] at hawaits

omit [DecidableEq Request] [DecidableEq Id] in
theorem told_nobody (service : Service Request Id) :
    service.told (fun _ => false) = service := by
  simp only [Service.told, State.told, Phase.told_false, Reading.told_false]

end Endpoints

end UTTG.Webhooks
