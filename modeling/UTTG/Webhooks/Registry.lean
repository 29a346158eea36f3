import UTTG.Core.Expiring
import UTTG.Core.Table
import UTTG.Core.Transition

/-!
# The webhook registry

`create_webhook`, `update_webhook` and `delete_webhook` as requests that
interleave at their awaits, over the table of webhooks and the idempotency
keys.  What a request draws at random and which of its own commands fail is
fixed by the environment, about which nothing is assumed except that drawn
webhook ids are distinct.
-/

namespace UTTG.Webhooks

open UTTG.Expiring UTTG.Transition

/-- The columns of `webhooks` that the endpoints write. -/
structure Webhook (Client Id : Type*) where
  id : Id
  url : String
  events : String
  secretHash : String
  secretCiphertext : String
  ownerIpFingerprint : Client
  active : Bool
  deriving DecidableEq

structure WebhookCreate where
  url : String
  events : List String
  secret : Option String
  deriving DecidableEq

structure WebhookPatch where
  url : Option String
  events : Option (List String)
  active : Option Bool
  deriving DecidableEq

structure Settings where
  webhookMaxPerIp : ℕ
  webhookEncryptionKey : Option String

/-- `_fernet` raises unless the key is set and not empty. -/
def Settings.encrypts (settings : Settings) : Bool :=
  match settings.webhookEncryptionKey with
  | none => false
  | some source => source != ""

/-- What the requests draw (`uuid4`, `token_urlsafe`, the Fernet token), which
of their commits and `build_meta` calls raise, and the functions of the
standard library that they use.  The entry that all clients share decides
`metaRaises` where clients are compared (`World`). -/
structure Environment (Request Id : Type*) where
  webhookId : Request → Id
  distinct : Function.Injective webhookId
  generatedSecret : Request → String
  ciphertext : Request → String
  commitRaises : Request → Bool
  metaRaises : Request → Bool
  sha256 : String → String
  dumps : List String → String

def idempotencySeconds : ℚ := 86400

abbrev Registry (Client Id : Type*) :=
  Table (Webhook.id : Webhook Client Id → Id)

/-- Client and digest, the variable parts of an idempotency key. -/
abbrev IdempotencyKey (Client : Type*) := Client × String

inductive Response (Id : Type*) where
  /-- 201 with the data of the new webhook. -/
  | created (id : Id) (url : String) (events : List String) (active : Bool)
      (signingSecret : String)
  /-- 409 `WEBHOOK_LIMIT_REACHED`. -/
  | limitReached
  /-- 409 `IDEMPOTENCY_CONFLICT`. -/
  | conflict
  /-- 404 `Webhook not found`. -/
  | notFound
  | changed (id : Id) (active : Bool)
  /-- The error response to an exception. -/
  | error
  deriving DecidableEq

def Response.isCreated {Id : Type*} : Response Id → Bool
  | .created _ _ _ _ _ => true
  | _ => false

structure Assigned where
  url : Option String
  events : Option String
  active : Option Bool
  deriving DecidableEq

inductive Change where
  | patch (patch : WebhookPatch)
  | delete
  deriving DecidableEq

/-- Where a request stands; every constructor but the first and the last is
one pending await. -/
inductive Phase (Client Id : Type*) where
  | idle
  | validating (client : Client) (key : String) (body : WebhookCreate)
  | counting (client : Client) (key : String) (body : WebhookCreate)
      (url : String)
  | claiming (client : Client) (key : String) (body : WebhookCreate)
      (url : String)
  | committing (claim : IdempotencyKey Client) (webhook : Webhook Client Id)
      (events : List String) (signingSecret : String)
  | rollingBack (claim : IdempotencyKey Client)
  | unclaiming (claim : IdempotencyKey Client)
  | selecting (client : Client) (id : Id) (change : Change)
  | validatingPatch (row : Webhook Client Id) (patch : WebhookPatch)
  | writing (row : Webhook Client Id) (assigned : Assigned)
      (response : Response Id)
  /-- In `build_meta`, before the response. -/
  | describing (claim : Option (IdempotencyKey Client))
      (response : Response Id)
  /-- `none` when the process died. -/
  | ended (response : Option (Response Id))
  deriving DecidableEq

/-- The two stores and the requests.  `won` is the idempotency key that a
request claimed; it is only observed. -/
structure State (Request Client Id : Type*) where
  clock : ℚ
  webhooks : Registry Client Id
  keys : IdempotencyKey Client → Slot Unit ℚ
  phase : Request → Phase Client Id
  won : Request → Option (IdempotencyKey Client)

inductive Action (Request Client Id : Type*) where
  | elapse (duration : ℚ)
  | create (request : Request) (client : Client) (key : String)
      (body : WebhookCreate)
  | change (request : Request) (client : Client) (id : Id) (change : Change)
  /-- `validate_webhook_url` returned the URL, or raised. -/
  | validate (request : Request) (url : Option String)
  | count (request : Request)
  | claim (request : Request) (reply : Reply)
  | commit (request : Request)
  | rollback (request : Request)
  | unclaim (request : Request)
  | select (request : Request)
  | describe (request : Request)
  /-- A command outside every handler raises. -/
  | raise (request : Request)
  | crash (request : Request)

variable {Request Client Id : Type*}
variable [DecidableEq Request] [DecidableEq Client] [DecidableEq Id]

/-- `Webhook.owner_ip_fingerprint == client["id"], Webhook.active.is_(True)`
in the count of `create_webhook`. -/
def activeCount (webhooks : Registry Client Id) (client : Client) : ℕ :=
  webhooks.count fun row => row.ownerIpFingerprint = client && row.active

def limitReached (settings : Settings) (webhooks : Registry Client Id)
    (client : Client) : Bool :=
  settings.webhookMaxPerIp ≤ activeCount webhooks client

def ownerStatement (webhooks : Registry Client Id) (id : Id)
    (client : Client) : Option (Webhook Client Id) :=
  (webhooks.find id).filter fun row => row.ownerIpFingerprint = client

def newWebhook (environment : Environment Request Id) (request : Request)
    (client : Client) (body : WebhookCreate) (url signingSecret : String) :
    Webhook Client Id where
  id := environment.webhookId request
  url := url
  events := environment.dumps body.events
  secretHash := environment.sha256 signingSecret
  secretCiphertext := environment.ciphertext request
  ownerIpFingerprint := client
  active := true

/-- `body.secret or secrets.token_urlsafe(32)`. -/
def signingSecret (environment : Environment Request Id) (request : Request)
    (body : WebhookCreate) : String :=
  match body.secret with
  | none => environment.generatedSecret request
  | some "" => environment.generatedSecret request
  | some secret => secret

/-- The assignments of `update_webhook`; the URL is the validated one. -/
def WebhookPatch.assigned (environment : Environment Request Id)
    (patch : WebhookPatch) (url : Option String) : Assigned where
  url := url
  events := patch.events.map environment.dumps
  active := patch.active

/-- The attributes that a flush writes: those assigned a value other than the
loaded one. -/
def Assigned.net (assigned : Assigned) (row : Webhook Client Id) :
    Assigned where
  url := assigned.url.filter fun url => url ≠ row.url
  events := assigned.events.filter fun events => events ≠ row.events
  active := assigned.active.filter fun active => active ≠ row.active

/-- The `UPDATE` of a flush, applied to the row as it is now. -/
def Assigned.apply (assigned : Assigned) (row : Webhook Client Id) :
    Webhook Client Id :=
  { row with
    url := assigned.url.getD row.url
    events := assigned.events.getD row.events
    active := assigned.active.getD row.active }

omit [DecidableEq Client] [DecidableEq Id] in
@[simp]
theorem Assigned.apply_id (assigned : Assigned) (row : Webhook Client Id) :
    (assigned.apply row).id = row.id := rfl

def writeBack (webhooks : Registry Client Id) (row : Webhook Client Id)
    (assigned : Assigned) : Registry Client Id :=
  webhooks.modify row.id (assigned.net row).apply
    (assigned.net row).apply_id

namespace State

variable (state : State Request Client Id)

omit [DecidableEq Client] [DecidableEq Id] in
def goto (request : Request) (phase : Phase Client Id) :
    State Request Client Id :=
  { state with phase := Function.update state.phase request phase }

omit [DecidableEq Client] [DecidableEq Id] in
def finish (request : Request) (response : Response Id) :
    State Request Client Id :=
  state.goto request (.ended (some response))

def afterSelect (environment : Environment Request Id) (request : Request)
    (row : Webhook Client Id) : Change → State Request Client Id
  | .delete =>
      state.goto request
        (.writing row ⟨none, none, some false⟩ (.changed row.id false))
  | .patch patch =>
      match patch.url with
      | some _ => state.goto request (.validatingPatch row patch)
      | none =>
          state.goto request (.writing row (patch.assigned environment none)
            (.changed row.id (patch.active.getD row.active)))

/-- `create_webhook` between the granted claim and the commit, where
`encrypt_webhook_secret` raises without a key. -/
def afterClaim (settings : Settings) (environment : Environment Request Id)
    (request : Request) (claim : IdempotencyKey Client)
    (body : WebhookCreate) (url : String) : State Request Client Id :=
  let won := { state with
    won := Function.update state.won request (some claim) }
  if settings.encrypts then
    let secret := signingSecret environment request body
    won.goto request (.committing claim
      (newWebhook environment request claim.1 body url secret) body.events
      secret)
  else won.finish request .error

def setKey (claim : IdempotencyKey Client) :
    Bool × State Request Client Id :=
  let (granted, slot) := (state.keys claim).setNx state.clock ()
    (state.clock + idempotencySeconds)
  (granted, { state with keys := Function.update state.keys claim slot })

end State

def step (settings : Settings) (environment : Environment Request Id)
    (state : State Request Client Id) :
    Action Request Client Id → Option (State Request Client Id)
  | .elapse duration =>
      if 0 ≤ duration then some { state with clock := state.clock + duration }
      else none
  | .create request client key body =>
      match state.phase request with
      | .idle => some (state.goto request (.validating client key body))
      | _ => none
  | .change request client id change =>
      match state.phase request with
      | .idle => some (state.goto request (.selecting client id change))
      | _ => none
  | .validate request url =>
      match state.phase request, url with
      | .validating client key body, some url =>
          some (state.goto request (.counting client key body url))
      | .validatingPatch row patch, some url =>
          some (state.goto request
            (.writing row (patch.assigned environment (some url))
              (.changed row.id (patch.active.getD row.active))))
      | .validating _ _ _, none => some (state.finish request .error)
      | .validatingPatch _ _, none => some (state.finish request .error)
      | _, _ => none
  | .count request =>
      match state.phase request with
      | .counting client key body url =>
          if limitReached settings state.webhooks client then
            some (state.finish request .limitReached)
          else some (state.goto request (.claiming client key body url))
      | _ => none
  | .claim request reply =>
      match state.phase request with
      | .claiming client key body url =>
          let claim := (client, environment.sha256 key)
          let (granted, next) := state.setKey claim
          match reply with
          | .answered =>
              if granted then
                some (next.afterClaim settings environment request claim body
                  url)
              else some (next.finish request .conflict)
          | .lost => some (next.finish request .error)
          | .refused => some (state.finish request .error)
      | _ => none
  | .commit request =>
      match state.phase request with
      | .committing claim webhook events secret =>
          if environment.commitRaises request then
            some (state.goto request (.rollingBack claim))
          else
            match state.webhooks.insert webhook with
            | none => some (state.goto request (.rollingBack claim))
            | some webhooks =>
                some ({ state with webhooks := webhooks }.goto request
                  (.describing (some claim)
                    (.created webhook.id webhook.url events webhook.active
                      secret)))
      | .writing row assigned response =>
          if environment.commitRaises request then
            some (state.finish request .error)
          else
            some ({ state with
              webhooks := writeBack state.webhooks row assigned }.goto request
                (.describing none response))
      | _ => none
  | .rollback request =>
      match state.phase request with
      | .rollingBack claim => some (state.goto request (.unclaiming claim))
      | _ => none
  | .unclaim request =>
      match state.phase request with
      | .unclaiming claim =>
          some ({ state with
            keys := Function.update state.keys claim Slot.del }.finish request
              .error)
      | _ => none
  | .select request =>
      match state.phase request with
      | .selecting client id change =>
          match ownerStatement state.webhooks id client with
          | none => some (state.finish request .notFound)
          | some row => some (state.afterSelect environment request row change)
      | _ => none
  | .describe request =>
      match state.phase request with
      | .describing _ response =>
          if environment.metaRaises request then
            some (state.finish request .error)
          else some (state.finish request response)
      | _ => none
  | .raise request =>
      match state.phase request with
      | .counting _ _ _ _ => some (state.finish request .error)
      | .selecting _ _ _ => some (state.finish request .error)
      | .rollingBack _ => some (state.finish request .error)
      | .unclaiming _ => some (state.finish request .error)
      | _ => none
  | .crash request => some (state.goto request (.ended none))

/-- Requests that have not arrived yet, over an empty registry. -/
def system (Client : Type*) [DecidableEq Client] (settings : Settings)
    (environment : Environment Request Id) :
    System (State Request Client Id) (Action Request Client Id) where
  Init state := state.webhooks.rows = [] ∧
    (∀ claim, state.keys claim = none) ∧
    (∀ request, state.phase request = .idle) ∧
    ∀ request, state.won request = none
  step := step settings environment

end UTTG.Webhooks
