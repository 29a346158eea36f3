import UTTG.Cache.Layer
import UTTG.Webhooks.Outcomes

/-!
# The health entry behind the responses

`build_meta` calls `cached` under the key `provider-health:`, because `_SOURCES`
is empty.  All clients and the endpoints without sources share this entry and
its lock.  Here nothing says beforehand for which requests `build_meta` raises:
it raises when the call of the request does, among the calls of all the others.
The data of the entry is the empty map and goes into the metadata only.
-/

namespace UTTG.Webhooks

open Python UTTG.Expiring UTTG.Transition

/-- The map that `load_health` returns without sources, as JSON. -/
def healthCodec : Cache.Codec Unit String where
  dumps _ := some "{}"
  size raw := raw.utf8ByteSize
  loads raw := if raw = "{}" then some () else none

/-- The service and the entry.  `raised` is only observed: the requests for
which `build_meta` has raised. -/
structure World (Request Id : Type*) where
  service : Service Request Id
  entry : Cache.State (Caller Request) Unit String
  raised : Caller Request → Bool

inductive Event (Request Id : Type*) where
  | serve (activity : Activity Request Id)
  | health (action : Cache.Action (Caller Request) Unit)

variable {Request Id : Type*} [DecidableEq Request] [DecidableEq Id]

def raises : Cache.Answer Unit → Bool
  | .returned _ _ _ => false
  | .raised _ => true

namespace World

variable (endpoints : Endpoints Request Id) (config : Cache.Config)
variable (world : World Request Id)

/-- `ttl=30, stale=300` in `build_meta`; time passes with the service. -/
def allows : Cache.Action (Caller Request) Unit → Bool
  | .elapse _ => false
  | .begin caller ttl stale _ =>
      caller.describing world.service && ttl = 30 && stale = 300
  | _ => true

/-- Time passes for the entry too. -/
def pass : Activity Request Id →
    Option (Cache.State (Caller Request) Unit String)
  | .elapse duration =>
      Cache.step config healthCodec world.entry (.elapse duration)
  | _ => some world.entry

def step : Event Request Id → Option (World Request Id)
  | .serve activity =>
      match activity.awaits with
      | some caller =>
          (world.entry.answer caller).bind fun answer =>
            (serve (endpoints.telling (raises answer)) world.service
              activity).map fun service =>
                { world with
                  service := service
                  raised :=
                    Function.update world.raised caller (raises answer) }
      | none =>
          (serve endpoints world.service activity).bind fun service =>
            (world.pass config activity).map fun entry =>
              { world with service := service, entry := entry }
  | .health action =>
      if world.allows action then
        (Cache.step config healthCodec world.entry action).map fun entry =>
          { world with entry := entry }
      else none

end World

/-- No request has arrived and no call has started; the entry may have been
stored before. -/
def worldSystem (endpoints : Endpoints Request Id) (config : Cache.Config) :
    System (World Request Id) (Event Request Id) where
  Init world :=
    (serviceSystem endpoints).Init world.service ∧
      (Cache.system (Caller Request) config healthCodec).Init world.entry ∧
      ∀ caller, world.raised caller = false
  step := World.step endpoints config

/-! ## Runs -/

def Event.activity : Event Request Id → Option (Activity Request Id)
  | .serve activity => some activity
  | .health _ => none

def activities (events : List (Event Request Id)) :
    List (Activity Request Id) :=
  events.filterMap Event.activity

/-- An event for one client leaves the rows of the others as they are. -/
def World.LeavesOthers (endpoints : Endpoints Request Id)
    (before : World Request Id) (event : Event Request Id)
    (after : World Request Id) : Prop :=
  match event with
  | .serve activity =>
      Webhooks.LeavesOthers endpoints before.service after.service activity
  | .health _ => after.service = before.service

/-- The error response, unless the process has died since. -/
def Caller.Failed (service : Service Request Id) : Caller Request → Prop
  | .writing request =>
      service.registry.phase request = .ended (some .error) ∨
        service.registry.phase request = .ended none
  | .reading request =>
      service.reading request = .ended (some .error) ∨
        service.reading request = .ended none
  | .elsewhere _ => False

/-- The world stands where the service without failures of `build_meta` does,
and `build_meta` has told the error to the requests for which it has raised. -/
structure Shows (world : World Request Id) (silent : Service Request Id) :
    Prop where
  service : world.service = silent.told world.raised
  told : Told silent world.raised

/-- `build_meta` has raised for the request in both worlds or in neither.  All it
can raise is one error response. -/
def RaisedAlike (request : Request) (left right : World Request Id) : Prop :=
  left.raised (.writing request) = right.raised (.writing request) ∧
    left.raised (.reading request) = right.raised (.reading request)

section World

variable {endpoints : Endpoints Request Id} {config : Cache.Config}
variable {world next : World Request Id} {silent : Service Request Id}

theorem Shows.serve (hshows : Shows world silent)
    {activity : Activity Request Id}
    (hstep : (worldSystem endpoints config).step world (.serve activity) =
      some next) :
    ∃ reached, Webhooks.serve (endpoints.telling false) silent activity =
        some reached ∧
      Shows next reached := by
  simp only [worldSystem, World.step] at hstep
  split at hstep
  · next caller hawaits =>
      obtain ⟨answer, -, hrest⟩ := Option.bind_eq_some_iff.mp hstep
      obtain ⟨service, hservice, rfl⟩ := Option.map_eq_some_iff.mp hrest
      rw [hshows.service, serve_told hshows.told] at hservice
      obtain ⟨spoken, hspoken, rfl⟩ := Option.map_eq_some_iff.mp hservice
      obtain ⟨reached, hreached, hsame, htold⟩ :=
        serve_awaits hshows.told hawaits hspoken
      exact ⟨reached, hreached, hsame, htold⟩
  · next hawaits =>
      obtain ⟨service, hservice, hrest⟩ := Option.bind_eq_some_iff.mp hstep
      obtain ⟨entry, -, rfl⟩ := Option.map_eq_some_iff.mp hrest
      rw [hshows.service, serve_told hshows.told] at hservice
      obtain ⟨reached, hreached, rfl⟩ := Option.map_eq_some_iff.mp hservice
      refine ⟨reached, ?_, rfl, hshows.told.step hreached⟩
      rw [serve_telling false silent hawaits, hreached]

theorem Shows.health (hshows : Shows world silent)
    {action : Cache.Action (Caller Request) Unit}
    (hstep : (worldSystem endpoints config).step world (.health action) =
      some next) :
    next.service = world.service ∧ Shows next silent := by
  simp only [worldSystem, World.step] at hstep
  split at hstep
  · obtain ⟨entry, -, rfl⟩ := Option.map_eq_some_iff.mp hstep
    exact ⟨rfl, hshows.service, hshows.told⟩
  · simp at hstep

theorem Shows.init (hinit : (worldSystem endpoints config).Init world) :
    Shows world world.service := by
  obtain ⟨-, -, hraised⟩ := hinit
  have hnobody : world.raised = fun _ => false := funext hraised
  constructor
  · rw [hnobody, told_nobody]
  · intro caller htold
    simp [hraised] at htold

theorem shows_of_run (hinit : (worldSystem endpoints config).Init world)
    {events : List (Event Request Id)}
    (hrun : (worldSystem endpoints config).run world events = some next) :
    ∃ silent, (serviceSystem (endpoints.telling false)).run world.service
        (activities events) = some silent ∧ Shows next silent := by
  refine System.run_filterMap (fun left right event activity after himage
    hshows hstep => ?_) (fun left right event after himage hshows hstep => ?_)
    (.init hinit) hrun
  · cases event with
    | serve served =>
        obtain rfl := Option.some.inj himage
        exact hshows.serve hstep
    | health action => simp [Event.activity] at himage
  · cases event with
    | serve served => simp [Event.activity] at himage
    | health action => exact (hshows.health hstep).2

omit [DecidableEq Request] [DecidableEq Id] in
/-- A request for which `build_meta` has raised has got the error response. -/
theorem Shows.failed (hshows : Shows world silent) {caller : Caller Request}
    (hraised : world.raised caller = true) : caller.Failed world.service := by
  have hended := hshows.told caller hraised
  rw [hshows.service]
  cases caller with
  | writing request =>
      obtain ⟨response, hphase⟩ := hended
      simp only [Caller.Failed, Service.told, State.told, hphase, hraised]
      cases response with
      | none => exact .inr rfl
      | some response => exact .inl rfl
  | reading request =>
      obtain ⟨answer, hreading⟩ := hended
      simp only [Caller.Failed, Service.told, hreading, hraised]
      cases answer with
      | none => exact .inr rfl
      | some answer => exact .inl rfl
  | elsewhere number => exact hended

omit [DecidableEq Request] [DecidableEq Id] in
/-- Two worlds show a request the same when their services do and `build_meta`
has raised for it in both or in neither. -/
theorem Shows.seen (hshows : Shows world silent) {other : World Request Id}
    {quiet : Service Request Id} (hother : Shows other quiet)
    {request : Request} (hseen : silent.seen request = quiet.seen request)
    (halike : RaisedAlike request world other) :
    world.service.seen request = other.service.seen request := by
  simp only [Service.seen, Prod.mk.injEq] at hseen ⊢
  rw [hshows.service, hother.service]
  simp only [Service.told, State.told, hseen, halike.1, halike.2, and_self]

theorem World.leavesOthers (hkept : Kept (endpoints.telling false) silent)
    (hshows : Shows world silent) {event : Event Request Id}
    (hstep : (worldSystem endpoints config).step world event = some next) :
    World.LeavesOthers endpoints world event next := by
  cases event with
  | health action => exact (hshows.health hstep).1
  | serve activity =>
      obtain ⟨reached, hreached, hnext⟩ := hshows.serve hstep
      have hleaves := hkept.leavesOthers hreached
      intro request horigin client hclient
      rw [hnext.service, hshows.service]
      exact hleaves request horigin client hclient

omit [DecidableEq Request] [DecidableEq Id] in
theorem activities_append (first second : List (Event Request Id)) :
    activities (first ++ second) = activities first ++ activities second :=
  List.filterMap_append

omit [DecidableEq Request] [DecidableEq Id] in
theorem activities_health
    (actions : List (Cache.Action (Caller Request) Unit)) :
    activities (actions.map .health : List (Event Request Id)) = [] := by
  simp [activities, Event.activity]

/-! ## Without the client -/

/-- The call of a request on its own: the store refuses its script, or it finds
both keys dropped, loads the map and stores it. -/
def ownCall (outcome : Bool) (caller : Caller Request) :
    List (Cache.Action (Caller Request) Unit) :=
  if outcome then [.begin caller 30 300 0, .read caller false .refused]
  else [.dropLock, .dropData, .begin caller 30 300 0,
    .read caller false .answered, .compute caller () 0,
    .store caller .answered]

theorem run_ownCall (hbytes : 1024 ≤ config.cacheMaxValueBytes)
    {entry : Cache.State (Caller Request) Unit String}
    {caller : Caller Request} (hidle : entry.call caller = .idle)
    (outcome : Bool) :
    ∃ last, (Cache.system (Caller Request) config healthCodec).run entry
        (ownCall outcome caller) = some last ∧
      (last.answer caller).map raises = some outcome ∧
      ∀ other, other ≠ caller → last.call other = entry.call other := by
  have hsize : ¬ config.cacheMaxValueBytes < "{}".utf8ByteSize := by
    have : "{}".utf8ByteSize = 2 := rfl
    omega
  cases outcome with
  | true =>
      refine ⟨(entry.goto caller (.reading 30 300 0)).raise caller
        .unavailable, ?_, ?_, fun other hother => ?_⟩
      · simp [ownCall, System.run, Cache.system, Cache.step, hidle,
          Cache.State.goto]
      · simp [Cache.State.raise, Cache.State.respond, Cache.State.goto, raises]
      · simp [Cache.State.raise, Cache.State.respond, Cache.State.goto, hother]
  | false =>
      let dropped := { entry with store := ⟨none, none⟩ }
      let elected := { entry with
        store := ⟨Slot.set caller (entry.clock + Cache.lockSeconds), none⟩
        log := entry.log ++ [TokenLock.Event.elected caller] }
      let loaded := { elected with
        loaded := Function.update entry.loaded caller (some ()) }
      have hbegin : Cache.step config healthCodec dropped
          (.begin caller 30 300 0) =
            some (dropped.goto caller (.reading 30 300 0)) := by
        simp [Cache.step, dropped, hidle]
      have hread : Cache.step config healthCodec
          (dropped.goto caller (.reading 30 300 0))
            (.read caller false .answered) =
          some (elected.goto caller (.computing 300 entry.clock false)) := by
        simp [Cache.step, Cache.State.goto, Cache.State.runRead,
          Cache.readLua, Slot.get, Cache.tryLock, Slot.setNx, Slot.exist,
          Cache.State.afterRead, Cache.ReadState.elects, dropped, elected]
      have hcompute : Cache.step config healthCodec
          (elected.goto caller (.computing 300 entry.clock false))
            (.compute caller () 0) =
          some (loaded.goto caller (.storing 300 0 () "{}" false)) := by
        simp [Cache.step, Cache.State.goto, Cache.State.afterCompute,
          healthCodec, hsize, elected, loaded]
      have hstore : Cache.step config healthCodec
          (loaded.goto caller (.storing 300 0 () "{}" false))
            (.store caller .answered) =
          some (((loaded.goto caller (.storing 300 0 () "{}" false)).runStore
            caller "{}" 0 300).afterStore caller () false) := by
        simp [Cache.step, Cache.State.goto]
      let last := ((loaded.goto caller (.storing 300 0 () "{}" false)).runStore
        caller "{}" 0 300).afterStore caller () false
      have hrun : (Cache.system (Caller Request) config healthCodec).run entry
          (ownCall false caller) = some last := by
        change (Cache.step config healthCodec dropped
          (.begin caller 30 300 0)).bind _ = _
        simp only [System.run, Cache.system, hbegin, hread, hcompute, hstore,
          Option.bind_some, last]
      refine ⟨last, hrun, ?_, fun other hother => ?_⟩
      · simp [Cache.State.afterStore, Cache.State.deliver,
          Cache.State.respond, Cache.State.goto, raises, last]
      · simp [Cache.State.afterStore, Cache.State.deliver,
          Cache.State.respond, Cache.State.goto, Cache.State.runStore, hother,
          loaded, elected, last]

/-- The calls run by themselves while the service stands still. -/
theorem run_health {actions : List (Cache.Action (Caller Request) Unit)}
    (hallowed : ∀ action ∈ actions, world.allows action = true)
    {last : Cache.State (Caller Request) Unit String}
    (hrun : (Cache.system (Caller Request) config healthCodec).run world.entry
      actions = some last) :
    (worldSystem endpoints config).run world (actions.map .health) =
      some { world with entry := last } := by
  induction actions generalizing world with
  | nil =>
      obtain rfl := Option.some.inj hrun
      rfl
  | cons action rest ih =>
      obtain ⟨entry, hentry, hrest⟩ := Option.bind_eq_some_iff.mp hrun
      have hstep : (worldSystem endpoints config).step world
          (.health action) = some { world with entry := entry } := by
        have haction := hallowed action (List.mem_cons_self ..)
        simp only [worldSystem, World.step, haction, if_true]
        exact congrArg (Option.map _) hentry
      rw [List.map_cons, System.run, hstep, Option.bind_some]
      exact ih (fun other hother =>
        hallowed other (List.mem_cons_of_mem _ hother)) hrest

theorem exists_pass_of_serve {service : Service Request Id}
    {activity : Activity Request Id}
    (hserve : serve endpoints world.service activity = some service) :
    ∃ entry, world.pass config activity = some entry ∧
      entry.call = world.entry.call := by
  cases activity with
  | elapse duration =>
      obtain ⟨limits, hlimits, -⟩ := Option.bind_eq_some_iff.mp hserve
      have hduration : 0 ≤ duration := by
        by_contra hnegative
        simp [Limits.step, hnegative] at hlimits
      exact ⟨_, if_pos hduration, rfl⟩
  | _ => exact ⟨_, rfl, rfl⟩

/-- A step of the service that does not go on with `build_meta` is one of the
world. -/
theorem exists_world_of_quiet (hshows : Shows world silent)
    {activity : Activity Request Id} (hawaits : activity.awaits = none)
    {reached : Service Request Id}
    (hstep : serve (endpoints.telling false) silent activity = some reached) :
    ∃ after, (worldSystem endpoints config).step world (.serve activity) =
        some after ∧
      Shows after reached ∧ after.entry.call = world.entry.call ∧
      after.raised = world.raised := by
  have hserve : serve endpoints world.service activity =
      some (reached.told world.raised) := by
    rw [hshows.service, serve_told hshows.told,
      ← serve_telling false silent hawaits, hstep]
    rfl
  obtain ⟨entry, hpass, hcalls⟩ : ∃ entry,
      world.pass config activity = some entry ∧
        entry.call = world.entry.call := exists_pass_of_serve hserve
  have hworld : (worldSystem endpoints config).step world
      (.serve activity) = some { world with
        service := reached.told world.raised
        entry := entry } := by
    simp only [worldSystem, World.step, hawaits, hserve, hpass,
      Option.bind_some, Option.map_some]
  exact ⟨_, hworld, ⟨rfl, hshows.told.step hstep⟩, hcalls, rfl⟩

/-- Before a step that goes on with `build_meta` the call of the request runs on
its own, with any outcome. -/
theorem exists_world_of_awaits (hbytes : 1024 ≤ config.cacheMaxValueBytes)
    (outcome : Bool) (hshows : Shows world silent)
    {activity : Activity Request Id} {caller : Caller Request}
    (hawaits : activity.awaits = some caller)
    (hcall : world.entry.call caller = .idle) {reached : Service Request Id}
    (hstep : serve (endpoints.telling false) silent activity = some reached) :
    ∃ events after, (worldSystem endpoints config).run world events =
        some after ∧
      activities events = [activity] ∧ Shows after reached ∧
      (∀ other, other ≠ caller →
        after.entry.call other = world.entry.call other) ∧
      after.raised = Function.update world.raised caller outcome := by
  obtain ⟨hdescribing, -, hany⟩ := awaits_cases hawaits hstep
  obtain ⟨last, hlast, hanswer, hothers⟩ := run_ownCall hbytes hcall outcome
  obtain ⟨answer, hgiven, rfl⟩ := Option.map_eq_some_iff.mp hanswer
  have hallowed : ∀ action ∈ ownCall (raises answer) caller,
      world.allows action = true := by
    have hworld : caller.describing world.service = true := by
      rw [hshows.service, describing_told, hdescribing]
    cases raises answer <;> simp [ownCall, World.allows, hworld]
  obtain ⟨spoken, hspoken⟩ := hany (raises answer)
  have hserve : serve (endpoints.telling (raises answer)) world.service
      activity = some (spoken.told world.raised) := by
    rw [hshows.service, serve_told hshows.told, hspoken]
    rfl
  have hworld : (worldSystem endpoints config).step
      { world with entry := last } (.serve activity) = some {
        service := spoken.told world.raised
        entry := last
        raised := Function.update world.raised caller (raises answer) } := by
    simp only [worldSystem, World.step, hawaits, hgiven, hserve,
      Option.bind_some, Option.map_some]
  have hcalled : Shows { world with entry := last } silent :=
    ⟨hshows.service, hshows.told⟩
  obtain ⟨same, hsame, hshown⟩ := hcalled.serve hworld
  obtain rfl := Option.some.inj (hsame.symm.trans hstep)
  refine ⟨(ownCall (raises answer) caller).map .health ++ [.serve activity],
    _, ?_, ?_, hshown, hothers, rfl⟩
  · rw [System.run_append, run_health hallowed hlast, Option.bind_some,
      System.run_singleton, hworld]
  · rw [activities_append, activities_health]
    rfl

/-- A step of the service is one of the world, with any outcome of the call that
it goes on with. -/
theorem exists_world_of_serve (hbytes : 1024 ≤ config.cacheMaxValueBytes)
    (outcome : Caller Request → Bool) (hshows : Shows world silent)
    (hidle : ∀ caller, world.entry.call caller = .idle ∨ caller.Ended silent)
    {activity : Activity Request Id} {reached : Service Request Id}
    (hstep : serve (endpoints.telling false) silent activity = some reached) :
    ∃ events after, (worldSystem endpoints config).run world events =
        some after ∧
      activities events = [activity] ∧ Shows after reached ∧
      (∀ caller, after.entry.call caller = .idle ∨ caller.Ended reached) ∧
      ∀ caller, after.raised caller =
        if activity.awaits = some caller then outcome caller
        else world.raised caller := by
  cases hawaits : activity.awaits with
  | none =>
      obtain ⟨after, hafter, hshown, hcalls, hraised⟩ :=
        exists_world_of_quiet hshows hawaits hstep
      refine ⟨[.serve activity], after,
        (System.run_singleton _ _).trans hafter, rfl, hshown,
        fun caller => ?_, fun caller => by simp [hraised]⟩
      rw [hcalls]
      exact (hidle caller).imp_right fun hended => hended.step hstep
  | some caller =>
      obtain ⟨hdescribing, hended, -⟩ := awaits_cases hawaits hstep
      have hcall : world.entry.call caller = .idle :=
        (hidle caller).resolve_right (Caller.not_ended hdescribing)
      obtain ⟨events, after, hrun, hactivity, hshown, hothers, hraised⟩ :=
        exists_world_of_awaits hbytes (outcome caller) hshows hawaits hcall
          hstep
      refine ⟨events, after, hrun, hactivity, hshown, fun other => ?_,
        fun other => ?_⟩
      · by_cases hother : other = caller
        · exact .inr (hother ▸ hended)
        · rw [hothers other hother]
          exact (hidle other).imp_right fun hended => hended.step hstep
      · by_cases hother : other = caller
        · subst hother
          simp [hraised]
        · simp [hraised, hother, Ne.symm hother]

omit [DecidableEq Id] in
/-- Some activity goes on with the outcome of a call. -/
def awaited (activities : List (Activity Request Id))
    (caller : Caller Request) : Bool :=
  activities.any fun activity => activity.awaits = some caller

omit [DecidableEq Id] in
theorem awaited_cons (activity : Activity Request Id)
    (rest : List (Activity Request Id)) (caller : Caller Request) :
    awaited (activity :: rest) caller =
      (decide (activity.awaits = some caller) || awaited rest caller) :=
  List.any_cons

/-- A run of the service is one of the world, with any outcomes of
`build_meta`. -/
theorem exists_world_of_run (hbytes : 1024 ≤ config.cacheMaxValueBytes)
    (outcome : Caller Request → Bool) (hshows : Shows world silent)
    (hidle : ∀ caller, world.entry.call caller = .idle ∨ caller.Ended silent)
    {served : List (Activity Request Id)} {quiet : Service Request Id}
    (hrun : (serviceSystem (endpoints.telling false)).run silent served =
      some quiet) :
    ∃ events after, (worldSystem endpoints config).run world events =
        some after ∧
      activities events = served ∧
      ∀ caller, after.raised caller =
        if awaited served caller then outcome caller
        else world.raised caller := by
  induction served generalizing world silent with
  | nil => exact ⟨[], world, rfl, rfl, fun caller => rfl⟩
  | cons activity rest ih =>
      obtain ⟨reached, hreached, hrest⟩ := Option.bind_eq_some_iff.mp hrun
      obtain ⟨first, middle, hfirst, hactivity, hshown, hwaiting, hraised⟩ :=
        exists_world_of_serve hbytes outcome hshows hidle hreached
      obtain ⟨others, after, hothers, hserved, hafter⟩ :=
        ih hshown hwaiting hrest
      refine ⟨first ++ others, after, ?_, ?_, fun caller => ?_⟩
      · rw [System.run_append, hfirst, Option.bind_some, hothers]
      · rw [activities_append, hactivity, hserved]
        rfl
      · rw [hafter, hraised, awaited_cons]
        cases awaited rest caller <;>
          by_cases hcaller : activity.awaits = some caller <;> simp [hcaller]

/-- A step after which `build_meta` has raised for a request. -/
theorem raised_of_step {event : Event Request Id}
    (hstep : (worldSystem endpoints config).step world event = some next)
    {caller : Caller Request} (hbefore : world.raised caller = false)
    (hraised : next.raised caller = true) :
    ∃ activity, event = .serve activity ∧ activity.awaits = some caller := by
  cases event with
  | health action =>
      simp only [worldSystem, World.step] at hstep
      split at hstep
      · obtain ⟨entry, -, rfl⟩ := Option.map_eq_some_iff.mp hstep
        simp [hbefore] at hraised
      · simp at hstep
  | serve activity =>
      refine ⟨activity, rfl, ?_⟩
      simp only [worldSystem, World.step] at hstep
      split at hstep
      · next other hawaits =>
          obtain ⟨answer, -, hrest⟩ := Option.bind_eq_some_iff.mp hstep
          obtain ⟨service, -, rfl⟩ := Option.map_eq_some_iff.mp hrest
          by_cases hsame : caller = other
          · rw [hawaits, hsame]
          · simp [Function.update_of_ne hsame, hbefore] at hraised
      · obtain ⟨service, -, hrest⟩ := Option.bind_eq_some_iff.mp hstep
        obtain ⟨entry, -, rfl⟩ := Option.map_eq_some_iff.mp hrest
        simp [hbefore] at hraised

/-- `build_meta` has raised for requests only that went on with it. -/
theorem awaited_of_raised {events : List (Event Request Id)}
    (hrun : (worldSystem endpoints config).run world events = some next)
    {caller : Caller Request} (hbefore : world.raised caller = false)
    (hraised : next.raised caller = true) :
    awaited (activities events) caller = true := by
  induction events generalizing world with
  | nil =>
      obtain rfl := Option.some.inj hrun
      simp [hbefore] at hraised
  | cons event rest ih =>
      obtain ⟨middle, hmiddle, hrest⟩ := Option.bind_eq_some_iff.mp hrun
      cases hbetween : middle.raised caller with
      | true =>
          obtain ⟨activity, rfl, hawaits⟩ :=
            raised_of_step hmiddle hbefore hbetween
          exact (awaited_cons ..).trans
            (Bool.or_eq_true_iff.mpr (.inl (decide_eq_true hawaits)))
      | false =>
          have hlater := ih hrest hbetween
          cases event with
          | serve activity =>
              exact (awaited_cons ..).trans
                (Bool.or_eq_true_iff.mpr (.inr hlater))
          | health action => exact hlater

omit [DecidableEq Request] [DecidableEq Id] in
theorem origin_of_awaits {activity : Activity Request Id} {request : Request}
    {caller : Caller Request} (hawaits : activity.awaits = some caller)
    (hcaller : caller = .writing request ∨ caller = .reading request) :
    activity.origin = some request := by
  cases activity with
  | write action =>
      cases action with
      | describe other =>
          obtain rfl := Option.some.inj hawaits
          rcases hcaller with hwriting | hreading
          · rw [Caller.writing.inj hwriting]
            rfl
          · cases hreading
      | _ => simp [Activity.awaits] at hawaits
  | describe other =>
      obtain rfl := Option.some.inj hawaits
      rcases hcaller with hwriting | hreading
      · cases hwriting
      · rw [Caller.reading.inj hreading]
        rfl
  | _ => simp [Activity.awaits] at hawaits

omit [DecidableEq Id] in
/-- What the requests of other clients await is left without the client. -/
theorem awaited_filter {served : List (Activity Request Id)} {hidden : Text}
    {request : Request} (hvisible : endpoints.client request ≠ hidden)
    {caller : Caller Request}
    (hcaller : caller = .writing request ∨ caller = .reading request) :
    awaited (served.filter (endpoints.without hidden)) caller =
      awaited served caller := by
  have hkept (activity : Activity Request Id) :
      (endpoints.without hidden activity &&
        decide (activity.awaits = some caller)) =
          decide (activity.awaits = some caller) := by
    by_cases hawaits : activity.awaits = some caller
    · simp [Endpoints.without, origin_of_awaits hawaits hcaller, hvisible]
    · simp [hawaits]
  simp only [awaited, List.any_filter, hkept]

/-- In some run with the activities that are left without the client,
`build_meta` raises for the same requests of the others. -/
theorem exists_alone (hbytes : 1024 ≤ config.cacheMaxValueBytes)
    (hinit : (worldSystem endpoints config).Init world)
    {events : List (Event Request Id)}
    (hrun : (worldSystem endpoints config).run world events = some next)
    (hidden : Text) :
    ∃ others alone, (worldSystem endpoints config).run world others =
        some alone ∧
      activities others =
        (activities events).filter (endpoints.without hidden) ∧
      ∀ request, endpoints.client request ≠ hidden →
        RaisedAlike request next alone := by
  obtain ⟨silent, hsilent, -⟩ := shows_of_run hinit hrun
  have hservice : (serviceSystem (endpoints.telling false)).Init
    world.service := hinit.1
  obtain ⟨quiet, hquiet, -⟩ := run_without hservice hsilent hidden
  have hcalls := hinit.2.1.2.1
  have hraised := hinit.2.2
  obtain ⟨others, alone, halone, hothers, hgiven⟩ :=
    exists_world_of_run hbytes next.raised (Shows.init hinit)
      (fun caller => .inl (hcalls caller)) hquiet
  have hsame {request : Request} (hvisible : endpoints.client request ≠ hidden)
      {caller : Caller Request}
      (hcaller : caller = .writing request ∨ caller = .reading request) :
      next.raised caller = alone.raised caller := by
    have hleft : awaited ((activities events).filter
          ((endpoints.telling false).without hidden)) caller =
        awaited (activities events) caller :=
      awaited_filter hvisible hcaller
    rw [hgiven, hleft, hraised]
    split
    · rfl
    · next hawaited =>
        by_contra hdiffers
        exact hawaited (awaited_of_raised hrun (hraised caller)
          (by simpa using hdiffers))
  exact ⟨others, alone, halone, hothers, fun request hvisible =>
    ⟨hsame hvisible (.inl rfl), hsame hvisible (.inr rfl)⟩⟩

/-- Two runs with the same activities, but for those of one client, show the
other clients the same where `build_meta` has raised alike. -/
theorem seen_of_raisedAlike
    (hinit : (worldSystem endpoints config).Init world)
    {events others : List (Event Request Id)} {alone : World Request Id}
    (hrun : (worldSystem endpoints config).run world events = some next)
    (halone : (worldSystem endpoints config).run world others = some alone)
    {hidden : Text}
    (hothers : activities others =
      (activities events).filter (endpoints.without hidden))
    {request : Request} (hvisible : endpoints.client request ≠ hidden)
    (halike : RaisedAlike request next alone) :
    next.service.seen request = alone.service.seen request := by
  have hservice : (serviceSystem (endpoints.telling false)).Init
    world.service := hinit.1
  obtain ⟨silent, hsilent, hshows⟩ := shows_of_run hinit hrun
  obtain ⟨quiet, hquiet, hseen⟩ := run_without hservice hsilent hidden
  obtain ⟨reached, hreached, hshown⟩ := shows_of_run hinit halone
  rw [hothers] at hreached
  obtain rfl := Option.some.inj (hreached.symm.trans hquiet)
  exact hshows.seen hshown (hseen request hvisible) halike

end World

def twoClients : Endpoints (Fin 3) (Fin 3) where
  account request := ⟨if request = 2 then .publicStandard else .mutation,
    text (if request = 1 then "second" else "first")⟩
  settings := ⟨5, some "encryption-key"⟩
  environment := calm 3
  loads events := some [events]

def emptyWorld : World (Fin 3) (Fin 3) where
  service := {
    limits := ⟨0, fun _ => none, fun _ => .idle, []⟩
    registry := ⟨0, Table.empty, fun _ => none, fun _ => .idle, fun _ => none⟩
    createdAt := fun _ => 0
    deliveries := []
    reading := fun _ => .idle }
  entry := Cache.blank
  raised _ := false

def cacheDefaults : Cache.Config := ⟨2, 2000000⟩

theorem emptyWorld_init :
    (worldSystem twoClients cacheDefaults).Init emptyWorld :=
  ⟨⟨⟨fun _ => rfl, fun _ => rfl, rfl⟩,
    ⟨rfl, fun _ => rfl, fun _ => rfl, fun _ => rfl⟩, rfl, rfl, fun _ => rfl⟩,
    Cache.blank_init _ _, fun _ => rfl⟩

def admitting (request : Fin 3) : List (Activity (Fin 3) (Fin 3)) :=
  [.limit (.arrive request), .limit (.evaluate request .answered),
    .limit (.respond request)]

/-- A request adds a webhook and goes on to `build_meta`. -/
def registering (request : Fin 3) : List (Activity (Fin 3) (Fin 3)) :=
  admitting request ++
    [.write (.create request (twoClients.client request) "idempotency"
        ⟨"https://example.com/", ["launch.updated"], none⟩),
      .write (.validate request (some "https://example.com/")),
      .write (.count request), .write (.claim request .answered),
      .write (.commit request)]

/-- A request asks for the webhooks of its client and goes on to
`build_meta`. -/
def listing (request : Fin 3) : List (Activity (Fin 3) (Fin 3)) :=
  admitting request ++ [.ask request (.listWebhooks 50), .select request]

/-- `cached` runs its first script. -/
def calling (caller : Caller (Fin 3)) : List (Event (Fin 3) (Fin 3)) :=
  [.health (.begin caller 30 300 0), .health (.read caller false .answered)]

def loading (caller : Caller (Fin 3)) : List (Event (Fin 3) (Fin 3)) :=
  [.health (.compute caller () 0), .health (.store caller .answered)]

/-- The response of a request that adds a webhook, and a delivery for it. -/
def delivering (request : Fin 3) : List (Event (Fin 3) (Fin 3)) :=
  [.serve (.write (.describe request)),
    .serve (.deliver request ⟨"delivery", some 200, 1, 0, true⟩)]

/-- Both clients register, and the first one lists its webhooks; the map is
loaded once. -/
def bothRegister : List (Event (Fin 3) (Fin 3)) :=
  (registering 0).map .serve ++ calling (.writing 0) ++ loading (.writing 0) ++
    delivering 0 ++ [.serve (.elapse 1)] ++
    (registering 1).map .serve ++ calling (.writing 1) ++ delivering 1 ++
    [.serve (.elapse 1)] ++
    (listing 2).map .serve ++ calling (.reading 2) ++ [.serve (.describe 2)]

def oneRegisters : List (Event (Fin 3) (Fin 3)) :=
  (registering 0).map .serve ++ calling (.writing 0) ++ loading (.writing 0) ++
    delivering 0 ++ [.serve (.elapse 1), .serve (.elapse 1)] ++
    (listing 2).map .serve ++ calling (.reading 2) ++ [.serve (.describe 2)]

/-- The second client registers a webhook and its `build_meta` is loading the
map when the first client lists its own; the first client waits for it. -/
def busyEntry : List (Event (Fin 3) (Fin 3)) :=
  (registering 1).map .serve ++ calling (.writing 1) ++
    (listing 2).map .serve ++ calling (.reading 2) ++
    [.health (.check (.reading 2)), .serve (.elapse 2),
      .health (.poll (.reading 2) .answered), .health (.check (.reading 2)),
      .serve (.describe 2)]

/-- The first client alone loads the map itself. -/
def ownEntry : List (Event (Fin 3) (Fin 3)) :=
  (listing 2).map .serve ++ calling (.reading 2) ++ loading (.reading 2) ++
    [.serve (.elapse 2), .serve (.describe 2)]

end UTTG.Webhooks
