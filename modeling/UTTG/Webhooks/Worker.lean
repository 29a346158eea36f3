import UTTG.Core.Expiring
import UTTG.Core.Transition
import UTTG.Python.Codec
import UTTG.Python.Repr

/-!
# Webhook workers

Messages on `events.webhooks.outbound` are handled by any number of concurrent
`_handle_message` calls, in one worker process or several.  A handler runs from
one await to the next in one step.  It may raise or be killed at any of them, a
message may be delivered again at any time, and webhooks may change at any
time.

The state also logs what the outside world saw of a message: the row that a
lookup found, the statuses that receivers answered, and the payloads accepted on
the dead-letter subject.
-/

namespace UTTG.Worker

open Python Transition
open Expiring (Reply)

/-- The settings and the parts of the Python runtime that a worker uses. -/
structure Config (F : Type) where
  format : FloatFormat F
  isPrintable : CodePoint → Bool
  webhookMaxBodyBytes : ℕ
  webhookMaxAttempts : ℕ

/-- The columns of a `webhooks` row that a worker reads. -/
structure Webhook where
  url : Text
  events : Text
  secretCiphertext : Option Text
  active : Bool
  deriving DecidableEq

/-- A row of `webhook_deliveries`. -/
structure WebhookDelivery where
  webhookId : Text
  payload : List Byte
  statusCode : Option ℕ
  attempt : ℕ
  success : Bool
  deriving DecidableEq

/-! ## Messages -/

/-- What `_handle_message` takes from a message. -/
structure Envelope (F : Type) where
  webhookId : Text
  eventName : Text
  eventData : Dict Text (Value F Empty)

section Messages

variable {F : Type} (config : Config F)

/-- The part of `_handle_message` inside its first `try`; `none` where the
`except` clause takes over. -/
def decodeMessage (data : List Byte) : Option (Envelope F) :=
  match loadsBytes config.format data with
  | some (.dict envelope) => do
      let webhookId ← Dict.get envelope (text "webhook_id")
      let webhookId ← str config.format config.isPrintable webhookId
      let eventName ← Dict.get envelope (text "event")
      let eventName ← str config.format config.isPrintable eventName
      match Dict.get envelope (text "data") with
      | none => some ⟨webhookId, eventName, []⟩
      | some (.dict eventData) => some ⟨webhookId, eventName, eventData⟩
      | some _ => none
  | _ => none

/-- `json.dumps(value, separators=(",", ":")).encode()`. -/
def dumpsBytes (value : Value F Empty) : Option (List Byte) := do
  let written ← dumps config.format Empty.elim value
  encode written

/-- The message that goes to `events.webhooks.dlq`. -/
def deadLetter (envelope : Envelope F) : Option (List Byte) :=
  dumpsBytes config (.dict [
    (text "webhook_id", .str envelope.webhookId),
    (text "event", .str envelope.eventName),
    (text "data", .dict envelope.eventData)])

/-- The body that `_dispatch` posts. -/
def dispatchPayload (envelope : Envelope F) (createdAt : Text) :
    Option (List Byte) :=
  dumpsBytes config (.dict [
    (text "event", .str envelope.eventName),
    (text "data", .dict envelope.eventData),
    (text "created_at", .str createdAt)])

/-- Whether an item of a parsed list may be a member of a set. -/
def isHashable : Value F Empty → Bool
  | .list _ | .dict _ => false
  | _ => true

def isString (string : Text) : Value F Empty → Bool
  | .str value => value = string
  | _ => false

/-- `event_name in set(json.loads(webhook.events))`, or `none` where building
the set raises. -/
def subscribed (events eventName : Text) : Option Bool :=
  match (loads config.format events : Option (Value F Empty)) with
  | some (.list items) =>
      if items.all isHashable then some (items.any (isString eventName))
      else none
  | some (.dict items) => some (decide (eventName ∈ Dict.keys items))
  | some (.str characters) =>
      some (characters.any fun code => eventName = [code])
  | _ => none

end Messages

/-! ## Attempts -/

/-- How `_deliver_once` ends unless it raises: the URL or the secret is
rejected with a `ValueError`, the receiver answers, or the transfer fails
with an `httpx.HTTPError`. -/
inductive Attempt where
  | rejected
  | responded (status : ℕ)
  | failed
  deriving DecidableEq

def Attempt.statusCode : Attempt → Option ℕ
  | .responded status => some status
  | .rejected | .failed => none

/-- `200 <= response.status_code < 300`. -/
def isSuccess (status : ℕ) : Bool := 200 ≤ status && status < 300

def Attempt.success (outcome : Attempt) : Bool :=
  outcome.statusCode.any isSuccess

/-! ## State -/

/-- What a handler has in hand inside `_dispatch`. -/
structure Dispatch (F Message : Type) where
  message : Message
  envelope : Envelope F
  payload : List Byte

/-- Where a handler is; each phase but the first ends at an await. -/
inductive Phase (F Message : Type) where
  | idle
  | terminating (message : Message)
  | lookingUp (message : Message) (envelope : Envelope F)
  | delivering (dispatch : Dispatch F Message) (attempt : ℕ)
  | recording (dispatch : Dispatch F Message) (attempt : ℕ)
      (outcome : Attempt)
  | sleeping (dispatch : Dispatch F Message) (attempt : ℕ)
  | deadLettering (message : Message) (envelope : Envelope F)
  | acking (message : Message)

/-- What was seen of a message. -/
inductive Event (Message : Type) where
  | lookedUp (message : Message) (row : Option Webhook)
  | responded (message : Message) (status : ℕ)
  deriving DecidableEq

structure State (F Handler Message : Type) where
  published : Message → Option (List Byte)
  acked : Message → Bool
  termed : Message → Bool
  webhooks : Text → Option Webhook
  deliveries : List WebhookDelivery
  phase : Handler → Phase F Message
  events : List (Event Message)
  deadLetters : List (List Byte)

inductive Action (Handler Message : Type) where
  | publish (message : Message) (data : List Byte)
  | setWebhook (id : Text) (row : Option Webhook)
  | deliver (handler : Handler) (message : Message)
  | term (handler : Handler) (reply : Reply)
  | lookUp (handler : Handler) (createdAt : Text)
  | attempt (handler : Handler) (outcome : Attempt)
  | record (handler : Handler) (reply : Reply)
  | wake (handler : Handler)
  | deadLetter (handler : Handler) (reply : Reply)
  | ack (handler : Handler) (reply : Reply)
  | crash (handler : Handler)

variable {F Handler Message : Type} [DecidableEq Handler] [DecidableEq Message]

namespace State

variable (state : State F Handler Message)

def goto (handler : Handler) (next : Phase F Message) :
    State F Handler Message :=
  { state with phase := Function.update state.phase handler next }

/-- Go on after an await that may raise. -/
def proceed (handler : Handler) (reply : Reply) (next : Phase F Message) :
    State F Handler Message :=
  state.goto handler (if reply = .answered then next else .idle)

def see (event : Event Message) : State F Handler Message :=
  { state with events := event :: state.events }

end State

/-- What follows the lookup, up to the next await: an inactive or missing
webhook or another event is acknowledged, a payload above the limit counts as
not delivered. -/
def afterLookUp (config : Config F) (message : Message)
    (envelope : Envelope F) (row : Option Webhook) (createdAt : Text) :
    Phase F Message :=
  match row.filter Webhook.active with
  | none => .acking message
  | some webhook =>
      match subscribed config webhook.events envelope.eventName with
      | none => .idle
      | some false => .acking message
      | some true =>
          match dispatchPayload config envelope createdAt with
          | none => .idle
          | some payload =>
              if config.webhookMaxBodyBytes < payload.length then
                .deadLettering message envelope
              else if 1 ≤ config.webhookMaxAttempts then
                .delivering ⟨message, envelope, payload⟩ 1
              else .deadLettering message envelope

/-- What follows a recorded attempt. -/
def afterRecord (config : Config F) (dispatch : Dispatch F Message)
    (attempt : ℕ) (outcome : Attempt) : Phase F Message :=
  if outcome.success then .acking dispatch.message
  else if attempt < config.webhookMaxAttempts then .sleeping dispatch attempt
  else .deadLettering dispatch.message dispatch.envelope

def step (config : Config F) (state : State F Handler Message) :
    Action Handler Message → Option (State F Handler Message)
  | .publish message data =>
      if state.published message = none then
        some { state with
          published := Function.update state.published message (some data) }
      else none
  | .setWebhook id row =>
      some { state with webhooks := Function.update state.webhooks id row }
  | .deliver handler message =>
      match state.phase handler, state.published message with
      | .idle, some data =>
          match decodeMessage config data with
          | none => some (state.goto handler (.terminating message))
          | some envelope =>
              some (state.goto handler (.lookingUp message envelope))
      | _, _ => none
  | .term handler reply =>
      match state.phase handler with
      | .terminating message =>
          if reply = .refused then some (state.goto handler .idle)
          else
            some ({ state with
              termed := Function.update state.termed message true }.goto
                handler .idle)
      | _ => none
  | .lookUp handler createdAt =>
      match state.phase handler with
      | .lookingUp message envelope =>
          let row := state.webhooks envelope.webhookId
          some ((state.see (.lookedUp message row)).goto handler
            (afterLookUp config message envelope row createdAt))
      | _ => none
  | .attempt handler outcome =>
      match state.phase handler with
      | .delivering dispatch attempt =>
          let seen := match outcome with
            | .responded status =>
                state.see (.responded dispatch.message status)
            | _ => state
          some (seen.goto handler (.recording dispatch attempt outcome))
      | _ => none
  | .record handler reply =>
      match state.phase handler with
      | .recording dispatch attempt outcome =>
          let row : WebhookDelivery :=
            ⟨dispatch.envelope.webhookId, dispatch.payload,
              outcome.statusCode, attempt, outcome.success⟩
          let stored :=
            if reply = .refused then state
            else { state with deliveries := row :: state.deliveries }
          some (stored.proceed handler reply
            (afterRecord config dispatch attempt outcome))
      | _ => none
  | .wake handler =>
      match state.phase handler with
      | .sleeping dispatch attempt =>
          some (state.goto handler (.delivering dispatch (attempt + 1)))
      | _ => none
  | .deadLetter handler reply =>
      match state.phase handler with
      | .deadLettering message envelope =>
          match deadLetter config envelope with
          | none => some (state.goto handler .idle)
          | some data =>
              let accepted :=
                if reply = .refused then state
                else { state with deadLetters := data :: state.deadLetters }
              some (accepted.proceed handler reply (.acking message))
      | _ => none
  | .ack handler reply =>
      match state.phase handler with
      | .acking message =>
          if reply = .refused then some (state.goto handler .idle)
          else
            some ({ state with
              acked := Function.update state.acked message true }.goto
                handler .idle)
      | _ => none
  | .crash handler => some (state.goto handler .idle)

variable (Handler Message) in
/-- Any number of handlers, any messages. -/
def system (config : Config F) :
    System (State F Handler Message) (Action Handler Message) where
  Init state :=
    (∀ message, state.published message = none) ∧
    (∀ message, state.acked message = false) ∧
    (∀ message, state.termed message = false) ∧
    ∀ handler, state.phase handler = .idle
  step := step config

end UTTG.Worker
