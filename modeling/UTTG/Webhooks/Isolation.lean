import UTTG.Limits.Quotas
import UTTG.Webhooks.ActiveLimit
import UTTG.Webhooks.Ownership

/-!
# Clients of the webhook endpoints

The six endpoints behind their rate limiter, and the deliveries that the worker
stores.  A client is compared with itself in the run from which the requests of
another client, its webhooks and their deliveries have been removed: while the
environment says for both runs which calls of `build_meta` raise, it stands at
every await where it stood, and it gets the same responses.
-/

namespace UTTG.Webhooks

open Python UTTG.Expiring UTTG.Transition
open UTTG.Limits (Account LimitClass Agree)

/-- What `list_deliveries` answers of a delivery. -/
structure DeliveryData where
  id : String
  statusCode : Option ℕ
  attempt : ℕ
  attemptedAt : ℚ
  success : Bool
  deriving DecidableEq

/-- The columns of `webhook_deliveries` that are read. -/
structure Delivery (Id : Type*) where
  webhookId : Id
  data : DeliveryData
  deriving DecidableEq

/-- What the endpoints answer of a webhook. -/
structure WebhookData (Id : Type*) where
  id : Id
  url : String
  events : List String
  active : Bool
  deriving DecidableEq

/-- A request to one of the endpoints that only read. -/
inductive Query (Id : Type*) where
  | listWebhooks (limit : ℤ)
  | getWebhook (id : Id)
  | listDeliveries (id : Id) (limit : ℤ)
  deriving DecidableEq

/-- `Query(50, ge=1, le=100)`. -/
def Query.valid {Id : Type*} : Query Id → Bool
  | .listWebhooks limit | .listDeliveries _ limit => 1 ≤ limit && limit ≤ 100
  | .getWebhook _ => true

inductive Answer (Id : Type*) where
  | webhooks (data : List (WebhookData Id))
  | webhook (data : WebhookData Id)
  | deliveries (data : List DeliveryData)
  /-- 404 `Webhook not found`. -/
  | notFound
  /-- 422, for a limit out of its range. -/
  | invalid
  /-- The error response to an exception. -/
  | error
  deriving DecidableEq

/-- Where a reading request stands. -/
inductive Reading (Id : Type*) where
  | idle
  | selecting (query : Query Id)
  /-- In `list_deliveries`, after its `_owner_statement`. -/
  | listing (id : Id) (limit : ℤ)
  /-- In `build_meta`, before the response. -/
  | describing (answer : Answer Id)
  /-- `none` when the process died. -/
  | ended (answer : Option (Answer Id))
  deriving DecidableEq

/-- Who sends which kind of request, and what the endpoints run with; `loads`
is `json.loads` of the events of a row. -/
structure Endpoints (Request Id : Type*) where
  account : Request → Account
  settings : Settings
  environment : Environment Request Id
  loads : String → Option (List String)

/-- The stores and the requests.  `createdAt` is a column of `webhooks`, by the
id of the row. -/
structure Service (Request Id : Type*) where
  limits : Limits.State Request
  registry : State Request Text Id
  createdAt : Id → ℚ
  deliveries : List (Delivery Id)
  reading : Request → Reading Id

inductive Activity (Request Id : Type*) where
  | elapse (duration : ℚ)
  /-- A step of the rate limiter. -/
  | limit (action : Limits.Action Request)
  /-- A step of `create_webhook`, `update_webhook` or `delete_webhook`. -/
  | write (action : Action Request Text Id)
  | ask (request : Request) (query : Query Id)
  | select (request : Request)
  | describe (request : Request)
  /-- A command of a reading request raises. -/
  | raise (request : Request)
  | crash (request : Request)
  /-- The worker stores a delivery for the webhook of a request. -/
  | deliver (creator : Request) (data : DeliveryData)

variable {Request Id : Type*} [DecidableEq Request] [DecidableEq Id]

namespace Endpoints

variable (endpoints : Endpoints Request Id)

/-- `client["id"]`. -/
def client (request : Request) : Text := (endpoints.account request).client

/-- The rate limiter of the endpoint has let the request pass. -/
def admits (service : Service Request Id) (request : Request)
    (limitClass : LimitClass) : Bool :=
  (endpoints.account request).limitClass = limitClass &&
    match service.limits.phase request with
    | .ended (.admitted _) => true
    | _ => false

/-- A writing request starts at its endpoint, and time passes for the stores
together. -/
def starts (service : Service Request Id) : Action Request Text Id → Bool
  | .elapse _ => false
  | .create request client _ _ | .change request client _ _ =>
      client = endpoints.client request &&
        endpoints.admits service request .mutation
  | _ => true

/-- The item of a webhook, unless its events cannot be read. -/
def webhookData (row : Webhook Text Id) : Option (WebhookData Id) :=
  (endpoints.loads row.events).map fun events =>
    ⟨row.id, row.url, events, row.active⟩

end Endpoints

/-- `order_by(stamp.desc()).limit(limit)`; equal stamps stand in the order of
the table. -/
def newest {Row : Type*} (stamp : Row → ℚ) (limit : ℤ) (rows : List Row) :
    List Row :=
  (rows.insertionSort fun left right => stamp right ≤ stamp left).take
    limit.toNat

namespace Service

variable (service : Service Request Id)

omit [DecidableEq Id] in
def read (request : Request) (reading : Reading Id) : Service Request Id :=
  { service with
    reading := Function.update service.reading request reading }

omit [DecidableEq Request] in
/-- What follows the first `SELECT` of a reading request. -/
def afterSelect (endpoints : Endpoints Request Id) (client : Text) :
    Query Id → Reading Id
  | .listWebhooks limit =>
      let rows := newest (fun row => service.createdAt row.id) limit
        (webhooksOf service.registry.webhooks client).rows
      match rows.mapM endpoints.webhookData with
      | some data => .describing (.webhooks data)
      | none => .ended (some .error)
  | .getWebhook id =>
      match ownerStatement service.registry.webhooks id client with
      | none => .ended (some .notFound)
      | some row =>
          match endpoints.webhookData row with
          | some data => .describing (.webhook data)
          | none => .ended (some .error)
  | .listDeliveries id limit =>
      match ownerStatement service.registry.webhooks id client with
      | none => .ended (some .notFound)
      | some _ => .listing id limit

omit [DecidableEq Request] in
/-- The second `SELECT` of `list_deliveries`. -/
def deliveriesFor (id : Id) (limit : ℤ) : List DeliveryData :=
  (newest (fun delivery => delivery.data.attemptedAt) limit
    (service.deliveries.filter fun delivery => delivery.webhookId = id)).map
      Delivery.data

end Service

/-- `created_at` of the row that a request adds is the instant at which its
transaction began, with the count of its active webhooks. -/
def stamped (environment : Environment Request Id)
    (service : Service Request Id) : Action Request Text Id → Id → ℚ
  | .count request => Function.update service.createdAt
      (environment.webhookId request) service.registry.clock
  | _ => service.createdAt

/-- One step of one request or of the worker, or the passage of time. -/
def serve (endpoints : Endpoints Request Id) (service : Service Request Id) :
    Activity Request Id → Option (Service Request Id)
  | .elapse duration =>
      (Limits.step endpoints.account service.limits (.elapse duration)).bind
        fun limits =>
          (step endpoints.settings endpoints.environment service.registry
            (.elapse duration)).map fun registry =>
              { service with limits := limits, registry := registry }
  | .limit (.elapse _) => none
  | .limit action =>
      (Limits.step endpoints.account service.limits action).map fun limits =>
        { service with limits := limits }
  | .write action =>
      if endpoints.starts service action then
        (step endpoints.settings endpoints.environment service.registry
          action).map fun registry =>
            { service with
              registry := registry
              createdAt := stamped endpoints.environment service action }
      else none
  | .ask request query =>
      match service.reading request with
      | .idle =>
          if endpoints.admits service request .publicStandard then
            some (service.read request (if query.valid then .selecting query
              else .ended (some .invalid)))
          else none
      | _ => none
  | .select request =>
      match service.reading request with
      | .selecting query =>
          some (service.read request
            (service.afterSelect endpoints (endpoints.client request) query))
      | .listing id limit =>
          some (service.read request
            (.describing (.deliveries (service.deliveriesFor id limit))))
      | _ => none
  | .describe request =>
      match service.reading request with
      | .describing answer =>
          some (service.read request (.ended (some
            (if endpoints.environment.metaRaises request then .error
            else answer))))
      | _ => none
  | .raise request =>
      match service.reading request with
      | .selecting _ => some (service.read request (.ended (some .error)))
      | .listing _ _ => some (service.read request (.ended (some .error)))
      | _ => none
  | .crash request => some (service.read request (.ended none))
  | .deliver creator data =>
      let id := endpoints.environment.webhookId creator
      if (service.registry.webhooks.find id).isSome then
        some { service with deliveries := service.deliveries ++ [⟨id, data⟩] }
      else none

/-- Requests that have not arrived, over empty stores. -/
def serviceSystem (endpoints : Endpoints Request Id) :
    System (Service Request Id) (Activity Request Id) where
  Init service :=
    (Limits.system endpoints.account).Init service.limits ∧
      (system Text endpoints.settings endpoints.environment).Init
        service.registry ∧
      service.limits.clock = service.registry.clock ∧
      service.deliveries = [] ∧ ∀ request, service.reading request = .idle
  step := serve endpoints

/-! ## What belongs to whom -/

/-- The request that an activity goes back to: its own, or the one that added
the webhook of a delivery. -/
def Activity.origin : Activity Request Id → Option Request
  | .elapse _ | .limit (.elapse _) => none
  | .limit (.arrive request) | .limit (.evaluate request _)
  | .limit (.respond request) => some request
  | .write action => action.request
  | .ask request _ | .select request | .describe request | .raise request
  | .crash request => some request
  | .deliver creator _ => some creator

/-- The delivery rows of a client. -/
def deliveriesOf (service : Service Request Id) (client : Text) :
    List (Delivery Id) :=
  service.deliveries.filter fun delivery =>
    ownerOf service.registry.webhooks delivery.webhookId = some client

/-- An activity for one client leaves the rows of the others as they are. -/
def LeavesOthers (endpoints : Endpoints Request Id)
    (before after : Service Request Id)
    (activity : Activity Request Id) : Prop :=
  ∀ request, activity.origin = some request →
    ∀ client, client ≠ endpoints.client request →
      webhooksOf after.registry.webhooks client =
          webhooksOf before.registry.webhooks client ∧
        deliveriesOf after client = deliveriesOf before client

/-- The activity stays when everything of a client is removed. -/
def Endpoints.without (endpoints : Endpoints Request Id) (hidden : Text)
    (activity : Activity Request Id) : Bool :=
  match activity.origin with
  | none => true
  | some request => endpoints.client request ≠ hidden

/-- All that the sender of a request gets to see of it. -/
def Service.seen (service : Service Request Id) (request : Request) :
    Limits.Phase × Phase Text Id × Reading Id :=
  (service.limits.phase request, service.registry.phase request,
    service.reading request)

variable {endpoints : Endpoints Request Id}

/-- The registry is sound, every delivery has a webhook, and deliveries are
listed for the owner of their webhook only. -/
structure Kept (endpoints : Endpoints Request Id)
    (service : Service Request Id) : Prop where
  sound : Sound endpoints.settings endpoints.environment service.registry
  owned : Owned endpoints.environment endpoints.client service.registry
  stored : ∀ delivery ∈ service.deliveries, ∃ client,
    ownerOf service.registry.webhooks delivery.webhookId = some client
  listing : ∀ request id limit, service.reading request = .listing id limit →
    ownerOf service.registry.webhooks id = some (endpoints.client request)

theorem Kept.init {service : Service Request Id}
    (hinit : (serviceSystem endpoints).Init service) :
    Kept endpoints service := by
  obtain ⟨-, hregistry, -, hnone, hidle⟩ := hinit
  refine ⟨sound_init hregistry, owned_init hregistry, ?_, ?_⟩
  · simp [hnone]
  · intro request id limit hlisting
    simp [hidle] at hlisting

/-- A step of the registry. -/
theorem Kept.registry {service next : Service Request Id}
    {action : Action Request Text Id} (hkept : Kept endpoints service)
    (hauthentic : Authentic endpoints.client action)
    (hstep : step endpoints.settings endpoints.environment service.registry
      action = some next.registry)
    (hdeliveries : next.deliveries = service.deliveries)
    (hreading : next.reading = service.reading) : Kept endpoints next := by
  constructor
  · exact hkept.sound.step hstep
  · exact hkept.owned.step hkept.sound hauthentic hstep
  · rw [hdeliveries]
    intro delivery hmem
    obtain ⟨client, howner⟩ := hkept.stored delivery hmem
    exact ⟨client, ownerOf_of_step hstep howner⟩
  · rw [hreading]
    intro request id limit hlisting
    exact ownerOf_of_step hstep (hkept.listing request id limit hlisting)

omit [DecidableEq Id] in
theorem reading_read (service : Service Request Id) (request : Request)
    (reading : Reading Id) :
    (service.read request reading).reading request = reading :=
  Function.update_self _ _ _

omit [DecidableEq Id] in
theorem reading_read_of_ne (service : Service Request Id)
    {request other : Request} (reading : Reading Id) (hne : other ≠ request) :
    (service.read request reading).reading other = service.reading other :=
  Function.update_of_ne hne _ _

/-- A step of a reading request. -/
theorem Kept.read {service : Service Request Id}
    (hkept : Kept endpoints service) {request : Request} {reading : Reading Id}
    (hlisting : ∀ id limit, reading = .listing id limit →
      ownerOf service.registry.webhooks id =
        some (endpoints.client request)) :
    Kept endpoints (service.read request reading) := by
  refine ⟨hkept.sound, hkept.owned, hkept.stored, ?_⟩
  intro other id limit hreading
  by_cases hother : other = request
  · subst hother
    rw [reading_read] at hreading
    exact hlisting id limit hreading
  · rw [reading_read_of_ne service reading hother] at hreading
    exact hkept.listing other id limit hreading

omit [DecidableEq Request] in
/-- Deliveries are listed after the webhook was found for the client. -/
theorem listing_of_afterSelect {service : Service Request Id} {client : Text}
    {query : Query Id} {id : Id} {limit : ℤ}
    (hlisting : service.afterSelect endpoints client query =
      .listing id limit) :
    ownerOf service.registry.webhooks id = some client := by
  cases query with
  | listWebhooks =>
      simp only [Service.afterSelect] at hlisting
      split at hlisting <;> simp at hlisting
  | getWebhook =>
      simp only [Service.afterSelect] at hlisting
      split at hlisting
      · simp at hlisting
      · split at hlisting <;> simp at hlisting
  | listDeliveries other bound =>
      simp only [Service.afterSelect] at hlisting
      split at hlisting
      · simp at hlisting
      · next row hrow =>
          obtain ⟨rfl, rfl⟩ := Reading.listing.inj hlisting
          exact (ownerOf_of_ownerStatement hrow).2

omit [DecidableEq Request] [DecidableEq Id] in
theorem authentic_of_starts {service : Service Request Id}
    {action : Action Request Text Id}
    (hstarts : endpoints.starts service action = true) :
    Authentic endpoints.client action := by
  cases action with
  | create request client key body | change request client id change =>
      change client = endpoints.client request
      exact of_decide_eq_true (Bool.and_eq_true_iff.mp hstarts).1
  | _ => trivial

/-! ## One step -/

/-- A step, by the part of the service that it changes. -/
inductive Serves (endpoints : Endpoints Request Id)
    (service : Service Request Id) :
    Activity Request Id → Service Request Id → Prop
  | elapsed {duration : ℚ} {limits : Limits.State Request}
      {registry : State Request Text Id}
      (hlimits : Limits.step endpoints.account service.limits
        (.elapse duration) = some limits)
      (hregistry : step endpoints.settings endpoints.environment
        service.registry (.elapse duration) = some registry) :
      Serves endpoints service (.elapse duration)
        { service with limits := limits, registry := registry }
  | limited {action : Limits.Action Request} {request : Request}
      {limits : Limits.State Request}
      (horigin : (Activity.limit action : Activity Request Id).origin =
        some request)
      (hlimits : Limits.step endpoints.account service.limits action =
        some limits) :
      Serves endpoints service (.limit action)
        { service with limits := limits }
  | wrote {action : Action Request Text Id}
      {registry : State Request Text Id}
      (hstarts : endpoints.starts service action = true)
      (hregistry : step endpoints.settings endpoints.environment
        service.registry action = some registry) :
      Serves endpoints service (.write action)
        { service with
          registry := registry
          createdAt := stamped endpoints.environment service action }
  | read {activity : Activity Request Id} {request : Request}
      {reading : Reading Id} (horigin : activity.origin = some request)
      (hlisting : ∀ id limit, reading = .listing id limit →
        ownerOf service.registry.webhooks id =
          some (endpoints.client request)) :
      Serves endpoints service activity (service.read request reading)
  | delivered {creator : Request} {data : DeliveryData}
      (hfind : (service.registry.webhooks.find
        (endpoints.environment.webhookId creator)).isSome = true) :
      Serves endpoints service (.deliver creator data)
        { service with deliveries := service.deliveries ++
          [⟨endpoints.environment.webhookId creator, data⟩] }

theorem serves_of_step {service next : Service Request Id}
    {activity : Activity Request Id}
    (hstep : serve endpoints service activity = some next) :
    Serves endpoints service activity next := by
  cases activity with
  | elapse duration =>
      obtain ⟨limits, hlimits, hrest⟩ := Option.bind_eq_some_iff.mp hstep
      obtain ⟨registry, hregistry, rfl⟩ := Option.map_eq_some_iff.mp hrest
      exact .elapsed hlimits hregistry
  | limit action =>
      cases action with
      | elapse duration => simp [serve] at hstep
      | arrive request | evaluate request reply | respond request =>
          obtain ⟨limits, hlimits, rfl⟩ := Option.map_eq_some_iff.mp hstep
          exact .limited rfl hlimits
  | write action =>
      simp only [serve] at hstep
      split at hstep
      case isTrue hstarts =>
        obtain ⟨registry, hregistry, rfl⟩ := Option.map_eq_some_iff.mp hstep
        exact .wrote hstarts hregistry
      case isFalse => simp at hstep
  | ask request query =>
      simp only [serve] at hstep
      split at hstep
      · split at hstep
        · obtain rfl := Option.some.inj hstep
          refine .read rfl fun id limit hlisting => ?_
          split at hlisting <;> simp at hlisting
        · simp at hstep
      · simp at hstep
  | select request =>
      simp only [serve] at hstep
      split at hstep
      · obtain rfl := Option.some.inj hstep
        exact .read rfl fun id limit hlisting =>
          listing_of_afterSelect hlisting
      · obtain rfl := Option.some.inj hstep
        exact .read rfl (by simp)
      · simp at hstep
  | describe request =>
      simp only [serve] at hstep
      split at hstep
      · obtain rfl := Option.some.inj hstep
        exact .read rfl (by simp)
      · simp at hstep
  | raise request =>
      simp only [serve] at hstep
      split at hstep
      case h_3 => simp at hstep
      all_goals
        obtain rfl := Option.some.inj hstep
        exact .read rfl (by simp)
  | crash request =>
      obtain rfl := Option.some.inj hstep
      exact .read rfl (by simp)
  | deliver creator data =>
      simp only [serve] at hstep
      split at hstep
      case isTrue hfind =>
        obtain rfl := Option.some.inj hstep
        exact .delivered hfind
      case isFalse => simp at hstep

omit [DecidableEq Request] in
/-- A webhook that is found under the id that a request drew belongs to the
client of that request. -/
theorem Kept.ownerOf_drawn {service : Service Request Id}
    (hkept : Kept endpoints service) {request : Request}
    (hfind : (service.registry.webhooks.find
      (endpoints.environment.webhookId request)).isSome = true) :
    ownerOf service.registry.webhooks
      (endpoints.environment.webhookId request) =
        some (endpoints.client request) := by
  obtain ⟨row, hrow⟩ := Option.isSome_iff_exists.mp hfind
  obtain ⟨hmem, hid⟩ :=
    (service.registry.webhooks.find_eq_some_iff _ _).mp hrow
  obtain ⟨drawer, hdrawn, howner⟩ := hkept.owned.drawn row hmem
  obtain rfl : drawer = request :=
    endpoints.environment.distinct (hdrawn.symm.trans hid)
  rw [ownerOf, hrow, Option.map_some, howner]

theorem Kept.step {service next : Service Request Id}
    {activity : Activity Request Id} (hkept : Kept endpoints service)
    (hstep : serve endpoints service activity = some next) :
    Kept endpoints next := by
  cases serves_of_step hstep with
  | elapsed hlimits hregistry =>
      refine hkept.registry ?_ hregistry rfl rfl
      trivial
  | limited horigin hlimits =>
      exact ⟨hkept.sound, hkept.owned, hkept.stored, hkept.listing⟩
  | wrote hstarts hregistry =>
      exact hkept.registry (authentic_of_starts hstarts) hregistry rfl rfl
  | read horigin hlisting => exact hkept.read hlisting
  | delivered hfind =>
      refine ⟨hkept.sound, hkept.owned, ?_, hkept.listing⟩
      intro delivery hmem
      rcases List.mem_append.mp hmem with hold | hnew
      · exact hkept.stored delivery hold
      · rw [List.mem_singleton.mp hnew]
        exact ⟨_, hkept.ownerOf_drawn hfind⟩

/-- The owner of the webhook of a stored delivery does not change. -/
theorem Kept.ownerOf_stored {service : Service Request Id}
    {registry : State Request Text Id} {action : Action Request Text Id}
    (hkept : Kept endpoints service)
    (hstep : Webhooks.step endpoints.settings endpoints.environment
      service.registry action = some registry) {delivery : Delivery Id}
    (hmem : delivery ∈ service.deliveries) :
    ownerOf registry.webhooks delivery.webhookId =
      ownerOf service.registry.webhooks delivery.webhookId := by
  obtain ⟨client, howner⟩ := hkept.stored delivery hmem
  rw [howner, ownerOf_of_step hstep howner]

/-- No activity for one client changes a row of another one. -/
theorem Kept.leavesOthers {service next : Service Request Id}
    {activity : Activity Request Id} (hkept : Kept endpoints service)
    (hstep : serve endpoints service activity = some next) :
    LeavesOthers endpoints service next activity := by
  intro request horigin client hclient
  cases serves_of_step hstep with
  | elapsed hlimits hregistry => simp [Activity.origin] at horigin
  | limited hsame hlimits => exact ⟨rfl, rfl⟩
  | wrote hstarts hregistry =>
      refine ⟨webhooksOf_of_step hkept.owned horigin hclient.symm hregistry,
        ?_⟩
      apply List.filter_congr
      intro delivery hmem
      rw [hkept.ownerOf_stored hregistry hmem]
  | read hsame hlisting => exact ⟨rfl, rfl⟩
  | delivered hfind =>
      obtain rfl := Option.some.inj horigin
      refine ⟨rfl, ?_⟩
      simp only [deliveriesOf, List.filter_append,
        List.filter_cons, hkept.ownerOf_drawn hfind, Option.some.injEq,
        hclient.symm, decide_false, Bool.false_eq_true, if_false,
        List.filter_nil, List.append_nil]

/-! ## Without one client -/

/-- The right state is the left one without the rows, the keys and the requests
of a client. -/
structure Blind (endpoints : Endpoints Request Id) (hidden : Text)
    (left right : Service Request Id) : Prop where
  limits : ∀ whose : Account, whose.client ≠ hidden →
    Agree endpoints.account whose left.limits right.limits
  registry : right.registry = left.registry.erase endpoints.client hidden
  createdAt : ∀ request, endpoints.client request ≠ hidden →
    right.createdAt (endpoints.environment.webhookId request) =
      left.createdAt (endpoints.environment.webhookId request)
  deliveries : right.deliveries = left.deliveries.filter fun delivery =>
    ownerOf left.registry.webhooks delivery.webhookId ≠ some hidden
  reading : ∀ request, endpoints.client request ≠ hidden →
    right.reading request = left.reading request

variable {hidden : Text} {left right : Service Request Id}

theorem newest_congr {Row : Type*} {stamp other : Row → ℚ} {rows : List Row}
    (hstamp : ∀ row ∈ rows, stamp row = other row) (limit : ℤ) :
    newest stamp limit rows = newest other limit rows := by
  have hsorted := List.map_insertionSort
    (fun first second => stamp second ≤ stamp first)
    (fun first second => other second ≤ other first) id rows
    fun first hfirst second hsecond => by
      rw [hstamp first hfirst, hstamp second hsecond]
      rfl
  rw [List.map_id, List.map_id] at hsorted
  rw [newest, newest, hsorted]

/-- A step of the rate limiter for another client. -/
theorem Blind.limit (hblind : Blind endpoints hidden left right)
    {action : Limits.Action Request} {request : Request}
    {limits : Limits.State Request}
    (horigin : (Activity.limit action : Activity Request Id).origin =
      some request)
    (hvisible : endpoints.client request ≠ hidden)
    (hstep : Limits.step endpoints.account left.limits action = some limits) :
    ∃ alone, Limits.step endpoints.account right.limits action = some alone ∧
      ∀ whose : Account, whose.client ≠ hidden →
        Agree endpoints.account whose limits alone := by
  have hconcerns (whose : Account) : action.concerns endpoints.account whose =
      decide (endpoints.account request = whose) := by
    cases action with
    | elapse duration => simp [Activity.origin] at horigin
    | arrive other | evaluate other reply | respond other =>
        obtain rfl := Option.some.inj horigin
        rfl
  obtain ⟨alone, halone, -⟩ := (hblind.limits _ hvisible).step
    ((hconcerns _).trans (decide_eq_true rfl)) hstep
  refine ⟨alone, halone, fun whose hwhose => ?_⟩
  have hagree := hblind.limits whose hwhose
  by_cases hown : endpoints.account request = whose
  · obtain ⟨same, hsame, hnext⟩ :=
      hagree.step ((hconcerns whose).trans (decide_eq_true hown)) hstep
    obtain rfl := Option.some.inj (halone.symm.trans hsame)
    exact hnext
  · -- the step is one of a third account, on both sides
    have hother := (hconcerns whose).trans (decide_eq_false hown)
    have hleft := hagree.step_left hother hstep
    exact (hleft.symm.step_left hother halone).symm

/-- A step of the rate limiter for the client itself. -/
theorem Blind.limit_left (hblind : Blind endpoints hidden left right)
    {action : Limits.Action Request} {request : Request}
    {limits : Limits.State Request}
    (horigin : (Activity.limit action : Activity Request Id).origin =
      some request)
    (hhidden : endpoints.client request = hidden)
    (hstep : Limits.step endpoints.account left.limits action = some limits)
    {whose : Account} (hwhose : whose.client ≠ hidden) :
    Agree endpoints.account whose limits right.limits := by
  have hown : endpoints.account request ≠ whose := by
    rintro rfl
    exact hwhose hhidden
  refine (hblind.limits whose hwhose).step_left ?_ hstep
  cases action with
  | elapse duration => simp [Activity.origin] at horigin
  | arrive other | evaluate other reply | respond other =>
      obtain rfl := Option.some.inj horigin
      exact decide_eq_false hown

omit [DecidableEq Request] in
theorem Blind.admits (hblind : Blind endpoints hidden left right)
    {request : Request} (hvisible : endpoints.client request ≠ hidden)
    (limitClass : LimitClass) :
    endpoints.admits right request limitClass =
      endpoints.admits left request limitClass := by
  have hphase := (hblind.limits (endpoints.account request) hvisible).phase
    request rfl
  rw [Endpoints.admits, Endpoints.admits, hphase]

omit [DecidableEq Request] in
theorem Blind.webhooksOf (hblind : Blind endpoints hidden left right)
    {client : Text} (hclient : client ≠ hidden) :
    webhooksOf right.registry.webhooks client =
      webhooksOf left.registry.webhooks client := by
  rw [hblind.registry]
  exact webhooksOf_others left.registry.webhooks hclient

omit [DecidableEq Request] in
theorem Blind.ownerStatement (hblind : Blind endpoints hidden left right)
    {client : Text} (hclient : client ≠ hidden) (id : Id) :
    ownerStatement right.registry.webhooks id client =
      ownerStatement left.registry.webhooks id client := by
  rw [hblind.registry]
  exact ownerStatement_others left.registry.webhooks id hclient

omit [DecidableEq Request] in
/-- The first `SELECT` answers another client as it would without the
client. -/
theorem Blind.afterSelect (hkept : Kept endpoints left)
    (hblind : Blind endpoints hidden left right) {request : Request}
    (hvisible : endpoints.client request ≠ hidden) (query : Query Id) :
    right.afterSelect endpoints (endpoints.client request) query =
      left.afterSelect endpoints (endpoints.client request) query := by
  cases query with
  | listWebhooks limit =>
      have hstamp : ∀ row ∈
          (Webhooks.webhooksOf left.registry.webhooks
            (endpoints.client request)).rows,
          right.createdAt row.id = left.createdAt row.id := by
        intro row hrow
        obtain ⟨hmem, howner⟩ := List.mem_filter.mp hrow
        obtain ⟨drawer, hid, hdrawer⟩ := hkept.owned.drawn row hmem
        rw [hid]
        apply hblind.createdAt
        rw [← hdrawer, of_decide_eq_true howner]
        exact hvisible
      simp only [Service.afterSelect, hblind.webhooksOf hvisible,
        newest_congr hstamp]
  | getWebhook id =>
      simp only [Service.afterSelect, hblind.ownerStatement hvisible]
  | listDeliveries id limit =>
      simp only [Service.afterSelect, hblind.ownerStatement hvisible]

omit [DecidableEq Request] in
/-- So does the second `SELECT` of `list_deliveries`. -/
theorem Blind.deliveriesFor (hblind : Blind endpoints hidden left right)
    {id : Id} {client : Text}
    (howner : ownerOf left.registry.webhooks id = some client)
    (hclient : client ≠ hidden) (limit : ℤ) :
    right.deliveriesFor id limit = left.deliveriesFor id limit := by
  have hsame : right.deliveries.filter
        (fun delivery => delivery.webhookId = id) =
      left.deliveries.filter fun delivery => delivery.webhookId = id := by
    rw [hblind.deliveries, List.filter_filter]
    apply List.filter_congr
    intro delivery _
    by_cases hid : delivery.webhookId = id
    · simp [hid, howner, hclient]
    · simp [hid]
  rw [Service.deliveriesFor, Service.deliveriesFor, hsame]

theorem Blind.read (hblind : Blind endpoints hidden left right)
    (request : Request) (reading : Reading Id) :
    Blind endpoints hidden (left.read request reading)
      (right.read request reading) where
  limits := hblind.limits
  registry := hblind.registry
  createdAt := hblind.createdAt
  deliveries := hblind.deliveries
  reading other hother := by
    simp only [Service.read, Function.update_apply,
      hblind.reading other hother]

/-- A reading request of the client is not seen. -/
theorem Blind.read_left (hblind : Blind endpoints hidden left right)
    {request : Request} (hhidden : endpoints.client request = hidden)
    (reading : Reading Id) :
    Blind endpoints hidden (left.read request reading) right where
  limits := hblind.limits
  registry := hblind.registry
  createdAt := hblind.createdAt
  deliveries := hblind.deliveries
  reading other hother := by
    have hne : other ≠ request := by
      rintro rfl
      exact hother hhidden
    rw [reading_read_of_ne left reading hne]
    exact hblind.reading other hother

/-- The deliveries that are seen after a step of the registry. -/
theorem Blind.stored (hkept : Kept endpoints left)
    (hblind : Blind endpoints hidden left right)
    {registry : State Request Text Id} {action : Action Request Text Id}
    (hstep : Webhooks.step endpoints.settings endpoints.environment
      left.registry action = some registry) :
    right.deliveries = left.deliveries.filter fun delivery =>
      ownerOf registry.webhooks delivery.webhookId ≠ some hidden := by
  rw [hblind.deliveries]
  apply List.filter_congr
  intro delivery hmem
  rw [hkept.ownerOf_stored hstep hmem]

/-- Time passes for the rate limiter. -/
theorem Blind.elapse (hblind : Blind endpoints hidden left right)
    {duration : ℚ} {limits : Limits.State Request}
    (hstep : Limits.step endpoints.account left.limits (.elapse duration) =
      some limits) :
    ∃ alone, Limits.step endpoints.account right.limits (.elapse duration) =
        some alone ∧
      ∀ whose : Account, whose.client ≠ hidden →
        Agree endpoints.account whose limits alone := by
  have hduration : 0 ≤ duration := by
    by_contra hnegative
    simp [Limits.step, hnegative] at hstep
  refine ⟨_, if_pos hduration, fun whose hwhose => ?_⟩
  obtain ⟨same, hsame, hnext⟩ := (hblind.limits whose hwhose).step rfl hstep
  rw [Limits.step, if_pos hduration] at hsame
  rw [Option.some.inj hsame]
  exact hnext

omit [DecidableEq Request] in
/-- The stamp of a row of another client is as it would be. -/
theorem Blind.stamped (hblind : Blind endpoints hidden left right)
    (action : Action Request Text Id) {request : Request}
    (hvisible : endpoints.client request ≠ hidden) :
    stamped endpoints.environment right action
        (endpoints.environment.webhookId request) =
      stamped endpoints.environment left action
        (endpoints.environment.webhookId request) := by
  have hclock : right.registry.clock = left.registry.clock := by
    rw [hblind.registry]
    rfl
  cases action with
  | count other =>
      simp only [Webhooks.stamped, Function.update_apply,
        hblind.createdAt request hvisible, hclock]
  | _ => exact hblind.createdAt request hvisible

/-- An activity for another client, or the passage of time, is the same
without the client. -/
theorem Blind.step (hkept : Kept endpoints left)
    (hblind : Blind endpoints hidden left right)
    {activity : Activity Request Id} {next : Service Request Id}
    (hwithout : endpoints.without hidden activity = true)
    (hstep : serve endpoints left activity = some next) :
    ∃ alone, serve endpoints right activity = some alone ∧
      Blind endpoints hidden next alone := by
  have hvisible (request : Request) (horigin : activity.origin = some request) :
      endpoints.client request ≠ hidden := by
    simpa [Endpoints.without, horigin] using hwithout
  cases activity with
  | elapse duration =>
      obtain ⟨limits, hlimits, hrest⟩ := Option.bind_eq_some_iff.mp hstep
      obtain ⟨registry, hregistry, rfl⟩ := Option.map_eq_some_iff.mp hrest
      obtain ⟨alone, halone, hagree⟩ := hblind.elapse hlimits
      have herased : Webhooks.step endpoints.settings endpoints.environment
          (left.registry.erase endpoints.client hidden) (.elapse duration) =
            some (registry.erase endpoints.client hidden) :=
        step_erase hkept.sound hkept.owned (by simp [Action.request]) hregistry
      refine ⟨{ right with
        limits := alone
        registry := registry.erase endpoints.client hidden }, ?_, hagree, rfl,
        hblind.createdAt, hblind.stored hkept hregistry, hblind.reading⟩
      simp only [serve, halone, Option.bind_some, hblind.registry, herased,
        Option.map_some]
  | limit action =>
      cases action with
      | elapse duration => simp [serve] at hstep
      | arrive request | evaluate request reply | respond request =>
          obtain ⟨limits, hlimits, rfl⟩ := Option.map_eq_some_iff.mp hstep
          obtain ⟨alone, halone, hagree⟩ :=
            hblind.limit rfl (hvisible request rfl) hlimits
          refine ⟨{ right with limits := alone }, ?_, hagree, hblind.registry,
            hblind.createdAt, hblind.deliveries, hblind.reading⟩
          simp only [serve, halone, Option.map_some]
  | write action =>
      simp only [serve] at hstep
      split at hstep
      case isTrue hstarts =>
        obtain ⟨registry, hregistry, rfl⟩ := Option.map_eq_some_iff.mp hstep
        have herased : Webhooks.step endpoints.settings endpoints.environment
            (left.registry.erase endpoints.client hidden) action =
              some (registry.erase endpoints.client hidden) :=
          step_erase hkept.sound hkept.owned hvisible hregistry
        have hsame : endpoints.starts right action = true := by
          rw [← hstarts]
          cases action with
          | create request client key body | change request client id change =>
              simp only [Endpoints.starts, hblind.admits (hvisible request rfl)]
          | _ => rfl
        refine ⟨{ right with
          registry := registry.erase endpoints.client hidden
          createdAt := Webhooks.stamped endpoints.environment right action },
          ?_, hblind.limits, rfl,
          fun request hother => hblind.stamped action hother,
          hblind.stored hkept hregistry, hblind.reading⟩
        simp only [serve, hsame, if_true, hblind.registry, herased,
          Option.map_some]
      case isFalse => simp at hstep
  | ask request query =>
      have hother := hvisible request rfl
      simp only [serve, hblind.reading request hother,
        hblind.admits hother] at hstep ⊢
      split at hstep
      · split at hstep
        case isTrue hadmits =>
          obtain rfl := Option.some.inj hstep
          exact ⟨_, if_pos hadmits, hblind.read request _⟩
        case isFalse => simp at hstep
      · simp at hstep
  | select request =>
      have hother := hvisible request rfl
      simp only [serve, hblind.reading request hother,
        hblind.afterSelect hkept hother] at hstep ⊢
      split at hstep
      · obtain rfl := Option.some.inj hstep
        exact ⟨_, rfl, hblind.read request _⟩
      · next id limit hlisting =>
          obtain rfl := Option.some.inj hstep
          rw [hblind.deliveriesFor (hkept.listing request id limit hlisting)
            hother]
          exact ⟨_, rfl, hblind.read request _⟩
      · simp at hstep
  | describe request =>
      have hother := hvisible request rfl
      simp only [serve, hblind.reading request hother] at hstep ⊢
      split at hstep
      · obtain rfl := Option.some.inj hstep
        exact ⟨_, rfl, hblind.read request _⟩
      · simp at hstep
  | raise request =>
      have hother := hvisible request rfl
      simp only [serve, hblind.reading request hother] at hstep ⊢
      split at hstep
      case h_3 => simp at hstep
      all_goals
        obtain rfl := Option.some.inj hstep
        exact ⟨_, rfl, hblind.read request _⟩
  | crash request =>
      obtain rfl := Option.some.inj hstep
      exact ⟨_, rfl, hblind.read request _⟩
  | deliver creator data =>
      have hother := hvisible creator rfl
      simp only [serve] at hstep ⊢
      split at hstep
      case isTrue hfind =>
        obtain rfl := Option.some.inj hstep
        have howner := hkept.ownerOf_drawn hfind
        have hsame : right.registry.webhooks.find
            (endpoints.environment.webhookId creator) =
              left.registry.webhooks.find
                (endpoints.environment.webhookId creator) := by
          rw [hblind.registry]
          exact find_others howner hother
        rw [hsame]
        refine ⟨_, if_pos hfind, hblind.limits, hblind.registry,
          hblind.createdAt, ?_, hblind.reading⟩
        simp [hblind.deliveries, howner, hother]
      case isFalse => simp at hstep

/-- An activity for the client itself is not seen. -/
theorem Blind.step_left (hkept : Kept endpoints left)
    (hblind : Blind endpoints hidden left right)
    {activity : Activity Request Id} {next : Service Request Id}
    (hwithout : endpoints.without hidden activity = false)
    (hstep : serve endpoints left activity = some next) :
    Blind endpoints hidden next right := by
  obtain ⟨request, horigin, hhidden⟩ : ∃ request,
      activity.origin = some request ∧ endpoints.client request = hidden := by
    unfold Endpoints.without at hwithout
    split at hwithout
    · simp at hwithout
    · exact ⟨_, ‹_›, by simpa using hwithout⟩
  cases serves_of_step hstep with
  | elapsed hlimits hregistry => simp [Activity.origin] at horigin
  | limited hsame hlimits =>
      exact ⟨fun whose hwhose =>
          hblind.limit_left horigin hhidden hlimits hwhose,
        hblind.registry, hblind.createdAt, hblind.deliveries, hblind.reading⟩
  | wrote hstarts hregistry =>
      rename_i action registry
      refine ⟨hblind.limits, ?_, fun other hother => ?_,
        hblind.stored hkept hregistry, hblind.reading⟩
      · rw [hblind.registry]
        exact (erase_of_step hkept.owned horigin hhidden hregistry).symm
      · rw [hblind.createdAt other hother]
        cases action with
        | count counting =>
            obtain rfl := Option.some.inj horigin
            have hne : endpoints.environment.webhookId other ≠
                endpoints.environment.webhookId counting := by
              intro heq
              rw [endpoints.environment.distinct heq] at hother
              exact hother hhidden
            simp [Webhooks.stamped, hne]
        | _ => rfl
  | read hsame hlisting =>
      obtain rfl := Option.some.inj (hsame.symm.trans horigin)
      exact hblind.read_left hhidden _
  | delivered hfind =>
      obtain rfl := Option.some.inj horigin
      refine ⟨hblind.limits, hblind.registry, hblind.createdAt, ?_,
        hblind.reading⟩
      simp [hblind.deliveries, hkept.ownerOf_drawn hfind, hhidden]

theorem Blind.init {service : Service Request Id}
    (hinit : (serviceSystem endpoints).Init service) :
    Blind endpoints hidden service service := by
  obtain ⟨-, ⟨hrows, hkeys, hidle, hwon⟩, -, hnone, -⟩ := hinit
  refine ⟨fun whose _ => .refl whose service.limits, ?_, fun _ _ => rfl,
    by simp [hnone], fun _ _ => rfl⟩
  have hothers : others hidden service.registry.webhooks =
      service.registry.webhooks := by
    apply Table.filter_of_forall
    simp [hrows]
  cases hregistry : service.registry with
  | mk clock webhooks keys phase won =>
      rw [hregistry] at hothers hkeys hidle hwon
      simp only [State.erase, hothers, State.mk.injEq, true_and]
      refine ⟨funext fun claim => ?_, funext fun request => ?_,
        funext fun request => ?_⟩
      · simp [show keys claim = none from hkeys claim]
      · simp [show phase request = .idle from hidle request]
      · simp [show won request = none from hwon request]

/-- Every request of the other clients stands at the same await, or has got the
same response, as in the run from which all activities for one client are
removed. -/
theorem run_without {start : Service Request Id}
    (hinit : (serviceSystem endpoints).Init start)
    {activities : List (Activity Request Id)} {final : Service Request Id}
    (hrun : (serviceSystem endpoints).run start activities = some final)
    (hidden : Text) :
    ∃ alone, (serviceSystem endpoints).run start
        (activities.filter (endpoints.without hidden)) = some alone ∧
      ∀ request, endpoints.client request ≠ hidden →
        final.seen request = alone.seen request := by
  have hkeep (left right : Service Request Id)
      (activity : Activity Request Id) (next : Service Request Id)
      (hkeep : endpoints.without hidden activity = true)
      (hrelated : Kept endpoints left ∧ Blind endpoints hidden left right)
      (hstep : (serviceSystem endpoints).step left activity = some next) :
      ∃ other, (serviceSystem endpoints).step right activity = some other ∧
        Kept endpoints next ∧ Blind endpoints hidden next other := by
    obtain ⟨hkept, hblind⟩ := hrelated
    obtain ⟨other, hother, hnext⟩ := hblind.step hkept hkeep hstep
    exact ⟨other, hother, hkept.step hstep, hnext⟩
  have hdrop (left right : Service Request Id)
      (activity : Activity Request Id) (next : Service Request Id)
      (hdrop : endpoints.without hidden activity = false)
      (hrelated : Kept endpoints left ∧ Blind endpoints hidden left right)
      (hstep : (serviceSystem endpoints).step left activity = some next) :
      Kept endpoints next ∧ Blind endpoints hidden next right :=
    ⟨hrelated.1.step hstep, hrelated.2.step_left hrelated.1 hdrop hstep⟩
  obtain ⟨alone, halone, -, hblind⟩ :=
    System.run_filter hkeep hdrop ⟨.init hinit, .init hinit⟩ hrun
  refine ⟨alone, halone, fun request hother => ?_⟩
  have hlimits := (hblind.limits (endpoints.account request) hother).phase
    request rfl
  rw [Service.seen, Service.seen, hlimits, hblind.registry,
    phase_erase final.registry hother, hblind.reading request hother]

end UTTG.Webhooks
