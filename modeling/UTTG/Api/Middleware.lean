import UTTG.Analytics.Writer
import UTTG.Api.BodyLimit
import UTTG.Api.CacheReports
import UTTG.Core.Tally
import UTTG.Limits.RateLimiter
import UTTG.Python.Codec

/-!
# The middlewares around the application

A request passes `RequestBodyLimitMiddleware`, `SecurityHeadersMiddleware`,
`RequestAnalyticsMiddleware` and `PrometheusMiddleware`, in this order, and the
messages of the application pass them in the other one.  The application is
taken as it comes: it may send, receive and change the state of the scope in any
order, catch what the receive function raises, and end in any way.  Requests
interleave at every message, with each other and with the writer of the metrics.
-/

namespace UTTG.Middleware

open Python BodyLimit Analytics Transition Tally
open Api.CacheReports (Label Counter counterOf)

/-! ## Identifiers of requests -/

/-- The character that the bytes begin with, and how long it is. -/
def firstPoint (source : List Byte) : Option (CodePoint × ℕ) :=
  [1, 2, 3, 4].findSome? fun length =>
    match decodeUtf8 (source.take length) with
    | some [code] =>
        if isHigh code || isLow code then none else some (code, length)
    | _ => none

/-- `bytes.decode(errors="ignore")` after some bytes that are done with. -/
def decodeAfter : ℕ → List Byte → Text
  | _, [] => []
  | done + 1, _ :: rest => decodeAfter done rest
  | 0, first :: rest =>
      match firstPoint (first :: rest) with
      | some (code, length) => code :: decodeAfter (length - 1) rest
      | none => decodeAfter 0 rest

/-- The check of a candidate in `_request_id`. -/
def isRequestId (isAlnum : CodePoint → Bool) (candidate : Text) : Bool :=
  (1 ≤ candidate.length && candidate.length ≤ 128) &&
    candidate.all fun code => isAlnum code || (text "-_.").contains code

/-- `_request_id`, with the characters for which `str.isalnum` holds. -/
def requestIdOf (isAlnum : CodePoint → Bool) (uuid : Text) :
    List Header → Text
  | [] => uuid
  | (name, value) :: rest =>
      if lower name = bytes "x-request-id" then
        if isRequestId isAlnum (decodeAfter 0 value) then decodeAfter 0 value
        else requestIdOf isAlnum uuid rest
      else requestIdOf isAlnum uuid rest

/-! ## Headers -/

/-- `str.encode()` of ASCII text. -/
def ascii (source : Text) : List Byte := source.map fun code => byte code.val

/-- What the application has left in the scope. -/
structure View where
  /-- The path of the matched route. -/
  routePath : Option Text
  rate : Option Limits.Rate
  cacheState : Option Label
  deriving DecidableEq

/-- What `PrometheusMiddleware` adds to a response, with the text of the elapsed
milliseconds. -/
def prometheusHeaders (view : View) (elapsed : List Byte) : List Header :=
  (match view.rate with
    | none => []
    | some rate =>
        [(bytes "ratelimit-limit", ascii (signed rate.limit)),
          (bytes "ratelimit-remaining", ascii (signed rate.remaining)),
          (bytes "ratelimit-reset", ascii (signed rate.reset))]) ++
    (match view.cacheState with
      | none => []
      | some cacheState => [(bytes "x-cache-state", ascii cacheState.text)]) ++
    [(bytes "x-response-time-ms", elapsed)]

/-- What `RequestAnalyticsMiddleware` adds. -/
def analyticsHeaders (requestId : Text) : List Header :=
  [(bytes "x-request-id", (encode requestId).getD [])]

def isDocs (path : Text) : Bool :=
  (text "/docs").isPrefixOf path || path = text "/openapi.json"

/-- What `SecurityHeadersMiddleware` adds. -/
def securityHeaders (path : Text) : List Header :=
  [(bytes "x-content-type-options", bytes "nosniff"),
    (bytes "x-frame-options", bytes "DENY"),
    (bytes "referrer-policy", bytes "no-referrer"),
    (bytes "permissions-policy",
      bytes "camera=(), microphone=(), geolocation=()")] ++
    if isDocs path then []
    else [(bytes "content-security-policy",
      bytes "default-src 'none'; frame-ancestors 'none'")]

/-- A message with more headers, if it starts a response. -/
def extend (headers : List Header) : Response → Response
  | .start status own => .start status (own ++ headers)
  | message => message

/-! ## A request in the middlewares -/

/-- What a scope says from the beginning. -/
structure RequestScope where
  type : Text
  headers : List Header
  path : Option Text
  method : Option Text

/-- The local variables of the two middlewares that count. -/
structure Counted where
  prometheusStatus : ℕ
  analyticsStatus : ℕ
  responseBytes : ℕ

def Counted.start : Counted := ⟨500, 500, 0⟩

/-- `send_wrapper` of `PrometheusMiddleware` and then that of
`RequestAnalyticsMiddleware`, on their variables. -/
def Counted.send (counted : Counted) : Response → Counted
  | .start status _ =>
      { counted with prometheusStatus := status, analyticsStatus := status }
  | .body content _ =>
      { counted with responseBytes := counted.responseBytes + content.length }
  | .other _ => counted

/-- Where a call is: passed on as it is no request, in the application, in
`_payload_too_large` with the messages still to be sent, or done. -/
inductive Place where
  | passing
  | inside (counted : Counted)
  | refusing (pending : List Response)
  | gone

/-- A message of the application, with the scope and the elapsed time when it
was sent. -/
structure Sending where
  message : Response
  view : View
  elapsed : List Byte
  deriving DecidableEq

/-- A call.  As observed histories it has the messages that the application
received, those that it sent, and those that left the middlewares. -/
structure Track where
  scope : RequestScope
  uuid : Text
  requestId : Text
  view : View
  consumed : ℕ
  /-- The receive function has raised. -/
  overflowed : Bool
  place : Place
  received : List Message
  own : List Sending
  client : List Response

inductive TrackAction where
  | view (view : View)
  | receive (message : Message)
  | send (message : Response) (elapsed : List Byte)
  /-- The next message of `_payload_too_large`. -/
  | answer

/-- How a call of the application ends. -/
inductive Ending where
  | returned
  | tooLarge
  | raised
  deriving DecidableEq

namespace Track

/-- `scope["type"] == "http"`. -/
def isHttp (track : Track) : Bool := track.scope.type = text "http"

def isInside (track : Track) : Bool :=
  match track.place with
  | .inside _ => true
  | _ => false

/-- A message of the application behind the middlewares. -/
def dress (track : Track) (sending : Sending) : Response :=
  let path := track.scope.path.getD []
  if track.isHttp then
    extend (securityHeaders path)
      (extend (analyticsHeaders track.requestId)
        (extend (prometheusHeaders sending.view sending.elapsed)
          sending.message))
  else extend (securityHeaders path) sending.message

/-- A call that comes in. -/
def enter (maximum : ℕ) (isAlnum : CodePoint → Bool) (scope : RequestScope)
    (uuid : Text) : Track where
  scope := scope
  uuid := uuid
  requestId := requestIdOf isAlnum uuid scope.headers
  view := ⟨none, none, none⟩
  consumed := 0
  overflowed := false
  place :=
    if scope.type ≠ text "http" then .passing
    else if refusesHeaders maximum scope.headers then
      .refusing payloadTooLarge
    else .inside Counted.start
  received := []
  own := []
  client := []

/-- The application sends a message. -/
def send (track : Track) (message : Response) (elapsed : List Byte)
    (place : Place) : Track :=
  let sending : Sending := ⟨message, track.view, elapsed⟩
  { track with
    place := place
    own := track.own ++ [sending]
    client := track.client ++ [track.dress sending] }

/-- A step of a call on its own. -/
def step (maximum : ℕ) (track : Track) : TrackAction → Option Track
  | .view view =>
      match track.place with
      | .inside _ | .passing => some { track with view := view }
      | _ => none
  | .receive message =>
      match track.place with
      | .passing =>
          some { track with received := track.received ++ [message] }
      | .inside _ =>
          match limitedReceive maximum track.consumed message with
          | some consumed =>
              some { track with
                consumed := consumed
                received := track.received ++ [message] }
          | none =>
              -- the application may catch the exception and go on
              some { track with
                consumed := track.consumed + message.bodySize
                overflowed := true }
      | _ => none
  | .send message elapsed =>
      match track.place with
      | .passing => some (track.send message elapsed .passing)
      | .inside counted =>
          some (track.send message elapsed (.inside (counted.send message)))
      | _ => none
  | .answer =>
      match track.place with
      | .refusing (message :: pending) =>
          some { track with
            place := .refusing pending
            client := track.client ++ [message] }
      | _ => none

/-- `RequestBodyLimitMiddleware` after the application has ended. -/
def leave (track : Track) (ending : Ending) : Track :=
  { track with
    place :=
      if ending = .tooLarge then .refusing payloadTooLarge else .gone }

/-- The path of the matched route, or the path of the request. -/
def endpoint (track : Track) : Text :=
  track.view.routePath.getD (track.scope.path.getD (text "unknown"))

def method (track : Track) : Text :=
  track.scope.method.getD (text "UNKNOWN")

end Track

/-! ## All requests of a process -/

/-- What the middlewares are configured with. -/
structure Config where
  requestBodyMaxBytes : ℕ
  queue : QueueSettings
  isAlnum : CodePoint → Bool

section Model

variable {Request F : Type}

/-- A request that has left the application, with the seconds that
`PrometheusMiddleware` measured and the number of metrics that were in the queue
then. -/
structure Departure (Request F : Type) where
  request : Request
  method : Text
  endpoint : Text
  elapsed : F
  cacheState : Option Label
  served : Served F
  queued : ℕ

/-- The metrics of `PrometheusMiddleware` and the queue of
`RequestAnalyticsMiddleware`.  The requests in the order in which they came in
and the departures are only observed. -/
structure State (Request F : Type) where
  tracks : Request → Option Track
  activeRequests : ℤ
  requestCount : Text × Text × ℕ → ℕ
  requestLatency : Text × Text → List F
  cacheHit : Text → ℕ
  cacheMiss : Text → ℕ
  metrics : QueueState Request F
  entered : List Request
  departures : List (Departure Request F)

inductive Action (Request F : Type) where
  | enter (request : Request) (scope : RequestScope) (uuid : Text)
  | advance (request : Request) (action : TrackAction)
  | leave (request : Request) (ending : Ending) (elapsed : F)
    (timestamp : Instant) (durationMs : F)
  /-- A step of the writer or of the stop. -/
  | metrics (action : QueueAction Request F)

/-- The label of a departure in `CACHE_HIT` and in `CACHE_MISS`. -/
def cacheLabel (counter : Counter) (endpoint : Text)
    (cacheState : Option Label) : Option Text :=
  if cacheState.map counterOf = some counter then some endpoint else none

/-- A message as the analytics see it. -/
def sentOf : Response → Sent
  | .start status _ => .start status
  | .body content _ => .body content.length
  | .other _ => .other

def Track.sent (track : Track) : List Sent :=
  track.own.map fun sending => sentOf sending.message

/-- What is known of a request when it leaves the application. -/
def Track.departure (track : Track) (request : Request) (elapsed : F)
    (timestamp : Instant) (durationMs : F) (queued : ℕ) :
    Departure Request F where
  request := request
  method := track.method
  endpoint := track.endpoint
  elapsed := elapsed
  cacheState := track.view.cacheState
  served := {
    routePath := track.view.routePath
    path := track.scope.path
    method := track.scope.method
    sent := track.sent
    timestamp := timestamp
    durationMs := durationMs
    cacheState := track.view.cacheState.map Label.text }
  queued := queued

/-- The metric that `RequestAnalyticsMiddleware` builds. -/
def Track.metric (track : Track) (counted : Counted) (timestamp : Instant)
    (durationMs : F) : Metric F where
  timestamp := timestamp
  route := track.endpoint.take 255
  method := track.method.take 8
  statusCode := counted.analyticsStatus
  durationMs := durationMs
  responseBytes := counted.responseBytes
  cacheState := track.view.cacheState.map Label.text

/-- The action is a request that is done, and not a step of the writer. -/
def isFinish : QueueAction Request F → Bool
  | .finish _ _ => true
  | _ => false

variable [DecidableEq Request]

namespace State

variable (config : Config) (state : State Request F)

/-- Another track for a request. -/
def setTrack (request : Request) (track : Track) : State Request F :=
  { state with tracks := Function.update state.tracks request (some track) }

/-- `put_nowait` for a request that is done. -/
def enqueue (request : Request) (metric : Metric F) : QueueState Request F :=
  { state.metrics with
    finished := Function.update state.metrics.finished request true }.putNowait
      config.queue ⟨request, metric⟩

/-- The two `finally` blocks. -/
def depart (request : Request) (track : Track) (counted : Counted)
    (ending : Ending) (elapsed : F) (timestamp : Instant) (durationMs : F) :
    State Request F :=
  { state.setTrack request (track.leave ending) with
    activeRequests := state.activeRequests - 1
    requestCount := increment state.requestCount
      (some (track.method, track.endpoint, counted.prometheusStatus))
    requestLatency :=
      observe state.requestLatency (track.method, track.endpoint) elapsed
    cacheHit := increment state.cacheHit
      (cacheLabel .hit track.endpoint track.view.cacheState)
    cacheMiss := increment state.cacheMiss
      (cacheLabel .miss track.endpoint track.view.cacheState)
    metrics := state.enqueue config request
      (track.metric counted timestamp durationMs)
    departures := state.departures ++
      [track.departure request elapsed timestamp durationMs
        state.metrics.queue.length] }

end State

/-- A step of one request, or of the writer of the metrics. -/
def step (config : Config) (state : State Request F) :
    Action Request F → Option (State Request F)
  | .enter request scope uuid =>
      match state.tracks request with
      | some _ => none
      | none =>
          let track :=
            Track.enter config.requestBodyMaxBytes config.isAlnum scope uuid
          some { state.setTrack request track with
            activeRequests :=
              if track.isInside then state.activeRequests + 1
              else state.activeRequests
            entered := state.entered ++ [request] }
  | .advance request action =>
      (state.tracks request).bind fun track =>
        (track.step config.requestBodyMaxBytes action).map fun next =>
          state.setTrack request next
  | .leave request ending elapsed timestamp durationMs =>
      match state.tracks request with
      | none => none
      | some track =>
          match track.place with
          | .inside counted =>
              -- only the receive function raises the exception of the limit
              if ending = .tooLarge ∧ track.overflowed = false then none
              else
                some (state.depart config request track counted ending elapsed
                  timestamp durationMs)
          | _ => none
  | .metrics action =>
      if isFinish action then none
      else
        (queueStep config.queue state.metrics action).map fun metrics =>
          { state with metrics := metrics }

variable (Request F) in
/-- One API process after its start-up. -/
def system (config : Config) : System (State Request F) (Action Request F) where
  Init state := (∀ request, state.tracks request = none) ∧
    state.activeRequests = 0 ∧ (state.requestCount = fun _ => 0) ∧
    (state.requestLatency = fun _ => []) ∧ (state.cacheHit = fun _ => 0) ∧
    (state.cacheMiss = fun _ => 0) ∧
    (queueSystem Request F config.queue).Init state.metrics ∧
    state.entered = [] ∧ state.departures = []
  step := step config

end Model

/-! ## Identifiers can be encoded -/

theorem firstPoint_whole {source : List Byte} {code : CodePoint} {length : ℕ}
    (hfirst : firstPoint source = some (code, length)) :
    isHigh code = false ∧ isLow code = false := by
  rw [firstPoint, List.findSome?_eq_some_iff] at hfirst
  obtain ⟨-, tried, -, -, htried, -⟩ := hfirst
  split at htried
  · next decoded hdecoded =>
      split at htried
      · simp at htried
      · next hwhole =>
          obtain ⟨rfl, rfl⟩ := Prod.mk.inj (Option.some.inj htried)
          simpa using hwhole
  · simp at htried

theorem exists_utf8 {code : CodePoint} (hhigh : isHigh code = false)
    (hlow : isLow code = false) : ∃ encoded, utf8 code = some encoded := by
  unfold utf8
  split
  · exact ⟨_, rfl⟩
  · split
    · exact ⟨_, rfl⟩
    · split
      · rw [hhigh, hlow]
        exact ⟨_, rfl⟩
      · exact ⟨_, rfl⟩

theorem exists_encode_decodeAfter (done : ℕ) (source : List Byte) :
    ∃ encoded, encode (decodeAfter done source) = some encoded := by
  fun_induction decodeAfter done source with
  | case1 => exact ⟨[], rfl⟩
  | case2 done first rest ih => exact ih
  | case3 first rest code length hfirst ih =>
      obtain ⟨hhigh, hlow⟩ := firstPoint_whole hfirst
      obtain ⟨head, hhead⟩ := exists_utf8 hhigh hlow
      obtain ⟨tail, htail⟩ := ih
      exact ⟨head ++ tail, by rw [encode, hhead, htail]; rfl⟩
  | case4 first rest hfirst ih => exact ih

/-- The identifier is the new one, or a well-formed one of the client. -/
theorem requestIdOf_cases (isAlnum : CodePoint → Bool) (uuid : Text)
    (headers : List Header) :
    requestIdOf isAlnum uuid headers = uuid ∨
      isRequestId isAlnum (requestIdOf isAlnum uuid headers) = true ∧
        ∃ encoded, encode (requestIdOf isAlnum uuid headers) = some encoded := by
  induction headers with
  | nil => exact .inl rfl
  | cons header rest ih =>
      obtain ⟨name, value⟩ := header
      rw [requestIdOf]
      split
      · split
        · next hvalid =>
            exact .inr ⟨hvalid, exists_encode_decodeAfter 0 value⟩
        · exact ih
      · exact ih

/-! ## What holds of every call -/

/-- The account of a call, which holds from the beginning to the end. -/
structure Track.Fits (config : Config) (track : Track) : Prop where
  requestId : track.requestId =
    requestIdOf config.isAlnum track.uuid track.scope.headers
  passing : track.place = .passing ↔ track.isHttp = false
  /-- What is refused for its headers does not reach the application. -/
  declared : track.isHttp = true →
    Declared config.requestBodyMaxBytes track.scope.headers ∨
      track.own = [] ∧ track.received = [] ∧
        ∃ pending, track.place = .refusing pending
  counted : ∀ counted, track.place = .inside counted →
    counted.prometheusStatus = statusOf track.sent ∧
      counted.analyticsStatus = statusOf track.sent ∧
      counted.responseBytes = bytesOf track.sent
  received : track.isHttp = true →
    bodyBytes track.received ≤ config.requestBodyMaxBytes
  consumed : track.isHttp = true →
    if track.overflowed then config.requestBodyMaxBytes < track.consumed
    else track.consumed = bodyBytes track.received
  /-- The limit answers only what it has refused. -/
  refused : ∀ pending, track.place = .refusing pending →
    Declared config.requestBodyMaxBytes track.scope.headers →
      track.overflowed = true
  /-- The client gets the messages of the application in their dress. -/
  client : (∀ pending, track.place ≠ .refusing pending) →
    track.client = track.own.map track.dress
  /-- The 413 of the limit comes after them, without any dress. -/
  client_refused : ∀ pending, track.place = .refusing pending →
    ∃ finished, payloadTooLarge = finished ++ pending ∧
      track.client = track.own.map track.dress ++ finished

section Tracks

variable {config : Config} {track next : Track}

theorem Track.fits_enter (config : Config) (scope : RequestScope)
    (uuid : Text) :
    (Track.enter config.requestBodyMaxBytes config.isAlnum scope
      uuid).Fits config := by
  have hplace : (Track.enter config.requestBodyMaxBytes config.isAlnum scope
      uuid).place =
        if scope.type ≠ text "http" then .passing
        else if refusesHeaders config.requestBodyMaxBytes scope.headers then
          .refusing payloadTooLarge
        else .inside Counted.start := rfl
  have hhttp : (Track.enter config.requestBodyMaxBytes config.isAlnum scope
      uuid).isHttp = decide (scope.type = text "http") := rfl
  constructor
  · rfl
  · rw [hplace, hhttp]
    split
    · next hother => simpa using hother
    · next hrequest =>
        rw [not_ne_iff] at hrequest
        split <;> simp [hrequest]
  · intro hrequest
    rw [hhttp, decide_eq_true_eq] at hrequest
    rw [hplace, if_neg (not_not_intro hrequest)]
    cases hrefuses : refusesHeaders config.requestBodyMaxBytes scope.headers with
    | true => exact .inr ⟨rfl, rfl, _, if_pos rfl⟩
    | false =>
        left
        exact (refusesHeaders_eq_false_iff _ _).mp hrefuses
  · intro counted hinside
    rw [hplace] at hinside
    split at hinside
    · simp at hinside
    · split at hinside
      · simp at hinside
      · rw [← Place.inside.inj hinside]
        exact ⟨rfl, rfl, rfl⟩
  · intro _
    exact Nat.zero_le _
  · intro _
    rfl
  · intro pending hrefusing hdeclared
    rw [hplace] at hrefusing
    split at hrefusing
    · simp at hrefusing
    · split at hrefusing
      · next hrefuses =>
          have hpasses : refusesHeaders config.requestBodyMaxBytes
              scope.headers = false :=
            (refusesHeaders_eq_false_iff _ _).mpr hdeclared
          rw [hpasses] at hrefuses
          exact Bool.noConfusion hrefuses
      · simp at hrefusing
  · intro _
    rfl
  · intro pending hrefusing
    rw [hplace] at hrefusing
    split at hrefusing
    · simp at hrefusing
    · split at hrefusing
      · rw [← Place.refusing.inj hrefusing]
        exact ⟨[], rfl, rfl⟩
      · simp at hrefusing

@[simp]
theorem statusOf_concat (sent : List Sent) (message : Response) :
    statusOf (sent ++ [sentOf message]) =
      match message with
      | .start status _ => status
      | _ => statusOf sent := by
  rw [statusOf, List.foldl_append]
  cases message <;> rfl

@[simp]
theorem bytesOf_concat (sent : List Sent) (message : Response) :
    bytesOf (sent ++ [sentOf message]) =
      match message with
      | .body content _ => bytesOf sent + content.length
      | _ => bytesOf sent := by
  rw [bytesOf, List.foldl_append]
  cases message <;> rfl

/-- What a message does to the variables, and to what they stand for. -/
theorem counted_send {counted : Counted} {sent : List Sent}
    (hcounted : counted.prometheusStatus = statusOf sent ∧
      counted.analyticsStatus = statusOf sent ∧
      counted.responseBytes = bytesOf sent) (message : Response) :
    (counted.send message).prometheusStatus =
        statusOf (sent ++ [sentOf message]) ∧
      (counted.send message).analyticsStatus =
        statusOf (sent ++ [sentOf message]) ∧
      (counted.send message).responseBytes =
        bytesOf (sent ++ [sentOf message]) := by
  rw [statusOf_concat, bytesOf_concat]
  cases message with
  | start status headers => exact ⟨rfl, rfl, hcounted.2.2⟩
  | body content moreBody =>
      exact ⟨hcounted.1, hcounted.2.1,
        congrArg (· + content.length) hcounted.2.2⟩
  | other type => exact hcounted

/-- A call in the application, or one that is no request, sends a message. -/
theorem Track.Fits.send (hfits : track.Fits config) (message : Response)
    (elapsed : List Byte) {place : Place}
    (hopen : ∀ pending, track.place ≠ .refusing pending)
    (hplace : ∀ pending, place ≠ .refusing pending)
    (hpassing : place = .passing ↔ track.place = .passing)
    (hcounted : ∀ counted, place = .inside counted →
      counted.prometheusStatus = statusOf (track.sent ++ [sentOf message]) ∧
        counted.analyticsStatus = statusOf (track.sent ++ [sentOf message]) ∧
        counted.responseBytes = bytesOf (track.sent ++ [sentOf message])) :
    (track.send message elapsed place).Fits config where
  requestId := hfits.requestId
  passing := hpassing.trans hfits.passing
  declared hrequest := by
    rcases hfits.declared hrequest with hdeclared | ⟨-, -, pending, hrefusing⟩
    · exact .inl hdeclared
    · exact absurd hrefusing (hopen pending)
  counted counted hinside := by
    have hsent : (track.send message elapsed place).sent =
        track.sent ++ [sentOf message] := List.map_append
    rw [hsent]
    exact hcounted counted hinside
  received := hfits.received
  consumed := hfits.consumed
  refused pending hrefusing := absurd hrefusing (hplace pending)
  client _ := by
    change track.client ++ [_] = (track.own ++ [_]).map _
    rw [hfits.client hopen, List.map_append]
    rfl
  client_refused pending hrefusing := absurd hrefusing (hplace pending)

/-- The application receives a message, or the receive function raises. -/
theorem Track.Fits.receive (hfits : track.Fits config)
    (hopen : ∀ pending, track.place ≠ .refusing pending)
    {received : List Message} {consumed : ℕ} {overflowed : Bool}
    (hreceived : track.isHttp = true →
      bodyBytes received ≤ config.requestBodyMaxBytes)
    (hconsumed : track.isHttp = true →
      if overflowed then config.requestBodyMaxBytes < consumed
      else consumed = bodyBytes received) :
    Track.Fits config { track with
      received := received
      consumed := consumed
      overflowed := overflowed } where
  requestId := hfits.requestId
  passing := hfits.passing
  declared hrequest := by
    rcases hfits.declared hrequest with hdeclared | ⟨-, -, pending, hrefusing⟩
    · exact .inl hdeclared
    · exact absurd hrefusing (hopen pending)
  counted := hfits.counted
  received := hreceived
  consumed := hconsumed
  refused pending hrefusing := absurd hrefusing (hopen pending)
  client := hfits.client
  client_refused := hfits.client_refused

/-- A message within the limit reaches the application, and none does once the
limit has been passed. -/
theorem Track.Fits.limited (hfits : track.Fits config)
    (hrequest : track.isHttp = true) {message : Message} {consumed : ℕ}
    (hreceive : limitedReceive config.requestBodyMaxBytes track.consumed
      message = some consumed) :
    bodyBytes (track.received ++ [message]) ≤ config.requestBodyMaxBytes ∧
      if track.overflowed then config.requestBodyMaxBytes < consumed
      else consumed = bodyBytes (track.received ++ [message]) := by
  have hconsumed := hfits.consumed hrequest
  have hreceived := hfits.received hrequest
  have hone : bodyBytes [message] = message.bodySize := Nat.add_zero _
  rw [limitedReceive] at hreceive
  rw [bodyBytes_append, hone, Message.bodySize]
  by_cases hbody : message.isRequest = true
  · rw [if_pos hbody] at hreceive ⊢
    dsimp only at hreceive
    split at hreceive
    · simp at hreceive
    · next hfit =>
        obtain rfl := Option.some.inj hreceive
        cases hoverflowed : track.overflowed with
        | true =>
            rw [hoverflowed, if_pos rfl] at hconsumed
            omega
        | false =>
            rw [hoverflowed, if_neg Bool.false_ne_true] at hconsumed
            rw [if_neg Bool.false_ne_true, ← hconsumed]
            exact ⟨Nat.le_of_not_lt hfit, rfl⟩
  · rw [if_neg hbody] at hreceive ⊢
    obtain rfl := Option.some.inj hreceive
    exact ⟨hreceived, hconsumed⟩

/-- A message that goes over the limit, or that comes after it. -/
theorem Track.Fits.overflow {message : Message}
    (hreceive : limitedReceive config.requestBodyMaxBytes track.consumed
      message = none) :
    config.requestBodyMaxBytes < track.consumed + message.bodySize := by
  rw [limitedReceive] at hreceive
  rw [Message.bodySize]
  split at hreceive
  · next hbody =>
      dsimp only at hreceive
      split at hreceive
      · next hover =>
          rw [if_pos hbody]
          exact hover
      · simp at hreceive
  · simp at hreceive

theorem Track.place_of_inside {counted : Counted}
    (hplace : track.place = .inside counted) :
    ∀ pending, track.place ≠ .refusing pending := by
  intro pending hrefusing
  rw [hplace] at hrefusing
  simp at hrefusing

theorem Track.place_of_passing (hplace : track.place = .passing) :
    ∀ pending, track.place ≠ .refusing pending := by
  intro pending hrefusing
  rw [hplace] at hrefusing
  simp at hrefusing

theorem Track.Fits.isHttp_of_inside (hfits : track.Fits config)
    {counted : Counted} (hplace : track.place = .inside counted) :
    track.isHttp = true := by
  cases hrequest : track.isHttp with
  | true => rfl
  | false =>
      have hpassing := hfits.passing.mpr hrequest
      rw [hplace] at hpassing
      simp at hpassing

/-- What a step on its own leaves as it is: a call in the application stays
there, and one that has left it has sent all that it will. -/
structure Track.Stays (track next : Track) : Prop where
  scope : next.scope = track.scope
  inside : next.isInside = track.isInside
  settled : track.isHttp = true → track.isInside = false →
    next.own = track.own ∧ next.view = track.view

theorem Track.isInside_iff : track.isInside = true ↔
    ∃ counted, track.place = .inside counted := by
  unfold Track.isInside
  cases track.place <;> simp

/-- Every step keeps the account of a call. -/
theorem Track.Fits.step {action : TrackAction} (hfits : track.Fits config)
    (hstep : track.step config.requestBodyMaxBytes action = some next) :
    next.Fits config ∧ track.Stays next := by
  cases action with
  | view view =>
      simp only [Track.step] at hstep
      split at hstep
      · next counted hplace =>
          rw [← Option.some.inj hstep]
          refine ⟨⟨hfits.requestId, hfits.passing, hfits.declared,
            hfits.counted, hfits.received, hfits.consumed, hfits.refused,
            hfits.client, hfits.client_refused⟩, rfl, rfl, fun _ houtside => ?_⟩
          rw [Track.isInside_iff.mpr ⟨counted, hplace⟩] at houtside
          exact Bool.noConfusion houtside
      · next hplace =>
          rw [← Option.some.inj hstep]
          refine ⟨⟨hfits.requestId, hfits.passing, hfits.declared,
            hfits.counted, hfits.received, hfits.consumed, hfits.refused,
            hfits.client, hfits.client_refused⟩, rfl, rfl, fun hrequest _ => ?_⟩
          rw [hfits.passing.mp hplace] at hrequest
          exact Bool.noConfusion hrequest
      · simp at hstep
  | receive message =>
      simp only [Track.step] at hstep
      split at hstep
      · next hplace =>
          rw [← Option.some.inj hstep]
          have hother := hfits.passing.mp hplace
          refine ⟨hfits.receive (Track.place_of_passing hplace) ?_ ?_, rfl, rfl,
            fun _ _ => ⟨rfl, rfl⟩⟩
          · intro hrequest
            rw [hother] at hrequest
            exact Bool.noConfusion hrequest
          · intro hrequest
            rw [hother] at hrequest
            exact Bool.noConfusion hrequest
      · next counted hplace =>
          have hopen := Track.place_of_inside hplace
          have hrequest := hfits.isHttp_of_inside hplace
          split at hstep
          · next consumed hreceive =>
              rw [← Option.some.inj hstep]
              obtain ⟨hbytes, hconsumed⟩ := hfits.limited hrequest hreceive
              exact ⟨hfits.receive hopen (fun _ => hbytes) fun _ => hconsumed,
                rfl, rfl, fun _ _ => ⟨rfl, rfl⟩⟩
          · next hreceive =>
              rw [← Option.some.inj hstep]
              exact ⟨hfits.receive hopen hfits.received fun _ =>
                Track.Fits.overflow hreceive, rfl, rfl, fun _ _ => ⟨rfl, rfl⟩⟩
      · simp at hstep
  | send message elapsed =>
      simp only [Track.step] at hstep
      split at hstep
      · next hplace =>
          rw [← Option.some.inj hstep]
          refine ⟨hfits.send message elapsed (Track.place_of_passing hplace)
            (by simp) (by simp [hplace]) (by simp), rfl, ?_, ?_⟩
          · simp [Track.isInside, Track.send, hplace]
          · intro hrequest _
            rw [hfits.passing.mp hplace] at hrequest
            exact Bool.noConfusion hrequest
      · next counted hplace =>
          rw [← Option.some.inj hstep]
          have hsend := counted_send (hfits.counted counted hplace) message
          refine ⟨hfits.send message elapsed (Track.place_of_inside hplace)
            (by simp) (by simp [hplace]) ?_, rfl, ?_, ?_⟩
          · intro other hother
            rw [← Place.inside.inj hother]
            exact hsend
          · simp [Track.isInside, Track.send, hplace]
          · intro _ houtside
            rw [Track.isInside_iff.mpr ⟨counted, hplace⟩] at houtside
            exact Bool.noConfusion houtside
      · simp at hstep
  | answer =>
      simp only [Track.step] at hstep
      split at hstep
      · next message pending hplace =>
          rw [← Option.some.inj hstep]
          obtain ⟨finished, hhandler, hclient⟩ :=
            hfits.client_refused _ hplace
          refine ⟨⟨hfits.requestId, ?_, ?_, by simp, hfits.received,
            hfits.consumed, fun _ _ => hfits.refused _ hplace, by simp, ?_⟩,
            rfl, ?_, fun _ _ => ⟨rfl, rfl⟩⟩
          · have hpassing := hfits.passing
            rw [hplace] at hpassing
            exact ⟨nofun, fun hother => Place.noConfusion (hpassing.mpr hother)⟩
          · intro hrequest
            rcases hfits.declared hrequest with hdeclared | ⟨hown, hreceived, -⟩
            · exact .inl hdeclared
            · exact .inr ⟨hown, hreceived, pending, rfl⟩
          · intro later hlater
            rw [← Place.refusing.inj hlater]
            refine ⟨finished ++ [message], ?_, ?_⟩
            · rw [hhandler, List.append_assoc, List.singleton_append]
            · change track.client ++ [message] = _
              rw [hclient, List.append_assoc]
              rfl
          · simp [Track.isInside, hplace]
      · simp at hstep

/-- The end of the application keeps it as well. -/
theorem Track.Fits.leave (hfits : track.Fits config) {counted : Counted}
    (hplace : track.place = .inside counted) {ending : Ending}
    (hending : ending = .tooLarge → track.overflowed = true) :
    (track.leave ending).Fits config := by
  have hopen := Track.place_of_inside hplace
  have hrequest := hfits.isHttp_of_inside hplace
  have hdeclared : Declared config.requestBodyMaxBytes track.scope.headers := by
    rcases hfits.declared hrequest with hdeclared | ⟨-, -, pending, hrefusing⟩
    · exact hdeclared
    · exact absurd hrefusing (hopen pending)
  constructor
  · exact hfits.requestId
  · change (if ending = .tooLarge then _ else _) = Place.passing ↔ _
    rw [show (track.leave ending).isHttp = true from hrequest]
    split <;> simp
  · intro _
    exact .inl hdeclared
  · intro other hinside
    change (if ending = .tooLarge then _ else _) = Place.inside other at hinside
    split at hinside <;> simp at hinside
  · exact hfits.received
  · exact hfits.consumed
  · intro pending hrefusing _
    change (if ending = .tooLarge then _ else _) = Place.refusing pending
      at hrefusing
    split at hrefusing
    · next htooLarge => exact hending htooLarge
    · simp at hrefusing
  · intro _
    exact hfits.client hopen
  · intro pending hrefusing
    change (if ending = .tooLarge then _ else _) = Place.refusing pending
      at hrefusing
    split at hrefusing
    · rw [← Place.refusing.inj hrefusing]
      refine ⟨[], rfl, ?_⟩
      rw [List.append_nil]
      exact hfits.client hopen
    · simp at hrefusing

end Tracks

/-! ## What holds of a process -/

section Process

variable {Request F : Type}

/-- The request is in the application. -/
def State.inside (state : State Request F) (request : Request) : Bool :=
  (state.tracks request).any Track.isInside

/-- The label of a departure in `REQUEST_COUNT`. -/
def Departure.countLabel (departure : Departure Request F) :
    Option (Text × Text × ℕ) :=
  some (departure.method, departure.endpoint,
    statusOf departure.served.sent)

/-- The label of a departure in `REQUEST_LATENCY`. -/
def Departure.latencyLabel (departure : Departure Request F) : Text × Text :=
  (departure.method, departure.endpoint)

/-- The metric of a departure in the queue. -/
def Departure.item (departure : Departure Request F) : Item Request F :=
  ⟨departure.request, metricOf departure.served⟩

/-- The queue had room for the metric of the departure. -/
def Departure.fits (config : Config) (departure : Departure Request F) : Bool :=
  departure.queued < config.queue.analyticsQueueSize

/-- The call has been in the application and has left it. -/
def Track.Departed (config : Config) (track : Track) : Prop :=
  track.isHttp = true ∧
    Declared config.requestBodyMaxBytes track.scope.headers ∧
    track.isInside = false

/-- What the metrics say about the requests of a process. -/
structure Accounted (config : Config) (state : State Request F) : Prop where
  fits : ∀ request track, state.tracks request = some track →
    track.Fits config
  entered : ∀ request,
    request ∈ state.entered ↔ (state.tracks request).isSome = true
  distinct : state.entered.Nodup
  active : state.activeRequests = (state.entered.countP state.inside : ℤ)
  requestCount : state.requestCount =
    tally Departure.countLabel state.departures
  requestLatency : state.requestLatency =
    readings Departure.latencyLabel Departure.elapsed state.departures
  cacheHit : state.cacheHit = tally (fun departure =>
    cacheLabel .hit departure.endpoint departure.cacheState) state.departures
  cacheMiss : state.cacheMiss = tally (fun departure =>
    cacheLabel .miss departure.endpoint departure.cacheState) state.departures
  departed : ∀ request, request ∈ state.departures.map Departure.request ↔
    ∃ track, state.tracks request = some track ∧ track.Departed config
  once : (state.departures.map Departure.request).Nodup
  told : ∀ departure ∈ state.departures,
    ∃ track elapsed timestamp durationMs queued,
      state.tracks departure.request = some track ∧
        departure =
          track.departure departure.request elapsed timestamp durationMs queued
  /-- The queue accepts the metric of every departure for which it has room. -/
  accepted : state.metrics.accepted =
    (state.departures.filter (Departure.fits config)).map Departure.item
  finished : ∀ request, state.metrics.finished request = true ↔
    request ∈ state.departures.map Departure.request

variable {config : Config} {state : State Request F} {request : Request}
  {track : Track}

/-- The metric is built from the variables, which stand for the messages. -/
theorem metricOf_departure (hfits : track.Fits config) {counted : Counted}
    (hplace : track.place = .inside counted) (request : Request) (elapsed : F)
    (timestamp : Instant) (durationMs : F) (queued : ℕ) :
    metricOf
        (track.departure request elapsed timestamp durationMs queued).served =
      track.metric counted timestamp durationMs := by
  obtain ⟨-, hstatus, hbytes⟩ := hfits.counted counted hplace
  rw [Track.metric, hstatus, hbytes]
  rfl

variable [DecidableEq Request]

theorem setTrack_tracks (state : State Request F) (request other : Request)
    (track : Track) :
    (state.setTrack request track).tracks other =
      if other = request then some track else state.tracks other :=
  Function.update_apply ..

theorem inside_setTrack (state : State Request F) (request other : Request)
    (track : Track) :
    (state.setTrack request track).inside other =
      if other = request then track.isInside else state.inside other := by
  rw [State.inside, setTrack_tracks]
  split
  · rfl
  · rfl

/-- The account of the tracks, where one call is replaced by another. -/
theorem fits_setTrack (hfits : ∀ request track,
      state.tracks request = some track → track.Fits config)
    (hnew : track.Fits config) (request : Request) :
    ∀ other found, (state.setTrack request track).tracks other = some found →
      found.Fits config := by
  intro other found hfound
  rw [setTrack_tracks] at hfound
  split at hfound
  · rw [← Option.some.inj hfound]
    exact hnew
  · exact hfits other found hfound

/-- A call that comes in. -/
theorem Accounted.enter (haccounted : Accounted config state)
    (hfresh : state.tracks request = none) (scope : RequestScope)
    (uuid : Text) :
    let track := Track.enter config.requestBodyMaxBytes config.isAlnum scope uuid
    Accounted config { state.setTrack request track with
      activeRequests :=
        if track.isInside then state.activeRequests + 1
        else state.activeRequests
      entered := state.entered ++ [request] } := by
  intro track
  have hnew : track.Fits config := Track.fits_enter config scope uuid
  have habsent : request ∉ state.entered := by
    rw [haccounted.entered, hfresh]
    simp
  have hdeparted : request ∉ state.departures.map Departure.request := by
    rw [haccounted.departed, hfresh]
    simp
  refine ⟨fits_setTrack haccounted.fits hnew request, ?_, ?_, ?_,
    haccounted.requestCount, haccounted.requestLatency, haccounted.cacheHit,
    haccounted.cacheMiss, ?_, haccounted.once, ?_, haccounted.accepted,
    haccounted.finished⟩
  · intro other
    change other ∈ state.entered ++ [request] ↔
      ((state.setTrack request track).tracks other).isSome = true
    rw [List.mem_append, List.mem_singleton, setTrack_tracks,
      haccounted.entered]
    split
    · next hsame => simp [hsame]
    · next hother => simp [hother]
  · exact List.nodup_append.mpr ⟨haccounted.distinct, List.nodup_singleton _,
      fun other hother another hanother => by
        rintro rfl
        exact habsent (List.mem_singleton.mp hanother ▸ hother)⟩
  · have hcount := countP_enter state.inside
      (state.setTrack request track).inside habsent
      fun other hother => by rw [inside_setTrack, if_neg hother]
    rw [inside_setTrack, if_pos rfl] at hcount
    change (if track.isInside then _ else _) =
      (((state.entered ++ [request]).countP
        (state.setTrack request track).inside : ℕ) : ℤ)
    rw [hcount, haccounted.active]
    split <;> simp
  · intro other
    change other ∈ state.departures.map Departure.request ↔
      ∃ found, (state.setTrack request track).tracks other = some found ∧ _
    rw [setTrack_tracks, haccounted.departed]
    split
    · next hsame =>
        subst hsame
        simp only [hfresh, reduceCtorEq, false_and, exists_false,
          Option.some.injEq, false_iff, not_exists, not_and]
        rintro found rfl ⟨hrequest, hdeclared, houtside⟩
        have hplace : track.place = .inside Counted.start := by
          have hhttp : scope.type = text "http" := of_decide_eq_true hrequest
          have hpasses := (refusesHeaders_eq_false_iff _ _).mpr hdeclared
          change (if _ then _ else if _ then _ else _) = _
          rw [if_neg (not_not_intro hhttp), if_neg]
          exact Bool.eq_false_iff.mp hpasses
        rw [Track.isInside_iff.mpr ⟨_, hplace⟩] at houtside
        exact Bool.noConfusion houtside
    · rfl
  · intro departure hdeparture
    obtain ⟨found, elapsed, timestamp, durationMs, queued, hfound, htold⟩ :=
      haccounted.told departure hdeparture
    refine ⟨found, elapsed, timestamp, durationMs, queued, ?_, htold⟩
    change (state.setTrack request track).tracks departure.request = _
    rw [setTrack_tracks, if_neg, hfound]
    rintro hsame
    exact hdeparted (hsame ▸ List.mem_map_of_mem hdeparture)

/-- A call that goes on by itself. -/
theorem Accounted.advance (haccounted : Accounted config state)
    (htrack : state.tracks request = some track) {next : Track}
    (hnext : next.Fits config) (hstays : track.Stays next) :
    Accounted config (state.setTrack request next) := by
  have hhttp : next.isHttp = track.isHttp := by
    rw [Track.isHttp, Track.isHttp, hstays.scope]
  refine ⟨fits_setTrack haccounted.fits hnext request, ?_, haccounted.distinct,
    ?_, haccounted.requestCount, haccounted.requestLatency, haccounted.cacheHit,
    haccounted.cacheMiss, ?_, haccounted.once, ?_, haccounted.accepted,
    haccounted.finished⟩
  · intro other
    rw [setTrack_tracks]
    change other ∈ state.entered ↔ _
    rw [haccounted.entered]
    split
    · next hsame => simp [hsame, htrack]
    · rfl
  · have hinside : (state.setTrack request next).inside = state.inside := by
      funext other
      rw [inside_setTrack]
      split
      · next hsame =>
          rw [hstays.inside, hsame, State.inside, htrack]
          rfl
      · rfl
    rw [hinside]
    exact haccounted.active
  · intro other
    change other ∈ state.departures.map Departure.request ↔ _
    rw [haccounted.departed, setTrack_tracks]
    split
    · next hsame =>
        subst hsame
        simp only [htrack, Option.some.injEq, exists_eq_left', Track.Departed,
          hhttp, hstays.scope, hstays.inside]
    · rfl
  · intro departure hdeparture
    obtain ⟨found, elapsed, timestamp, durationMs, queued, hfound, htold⟩ :=
      haccounted.told departure hdeparture
    rw [setTrack_tracks]
    split
    · next hsame =>
        obtain ⟨other, hother, hrequest, -, houtside⟩ :=
          (haccounted.departed _).mp (List.mem_map_of_mem hdeparture)
        rw [hsame, htrack] at hfound hother
        obtain rfl := Option.some.inj hfound
        obtain rfl := Option.some.inj hother
        obtain ⟨hown, hview⟩ := hstays.settled hrequest houtside
        refine ⟨next, elapsed, timestamp, durationMs, queued, rfl,
          htold.trans ?_⟩
        simp only [Track.departure, Track.method, Track.endpoint, Track.sent,
          hown, hview, hstays.scope]
    · exact ⟨found, elapsed, timestamp, durationMs, queued, hfound, htold⟩

/-- The queue accepts a metric for which it has room. -/
theorem accepted_enqueue (state : State Request F) (request : Request)
    (metric : Metric F) :
    (state.enqueue config request metric).accepted = state.metrics.accepted ++
      if state.metrics.queue.length < config.queue.analyticsQueueSize
        then [⟨request, metric⟩] else [] := by
  rw [State.enqueue, QueueState.putNowait]
  split
  · next hfull =>
      rw [if_neg (not_lt.mpr hfull)]
      exact (List.append_nil _).symm
  · next hroom =>
      rw [if_pos (not_le.mp hroom)]

theorem finished_enqueue (state : State Request F) (request : Request)
    (metric : Metric F) :
    (state.enqueue config request metric).finished =
      Function.update state.metrics.finished request true := by
  rw [State.enqueue, QueueState.putNowait]
  split <;> rfl

/-- A call that leaves the application is recorded once. -/
theorem Accounted.depart (haccounted : Accounted config state)
    (htrack : state.tracks request = some track) {counted : Counted}
    (hplace : track.place = .inside counted) {ending : Ending}
    (hending : ending = .tooLarge → track.overflowed = true) (elapsed : F)
    (timestamp : Instant) (durationMs : F) :
    Accounted config (state.depart config request track counted ending elapsed
      timestamp durationMs) := by
  have hfits := haccounted.fits request track htrack
  have hrequest := hfits.isHttp_of_inside hplace
  have hdeclared := (hfits.declared hrequest).resolve_right
    fun ⟨_, _, pending, hrefusing⟩ =>
      Track.place_of_inside hplace pending hrefusing
  have hinside : track.isInside = true := Track.isInside_iff.mpr ⟨_, hplace⟩
  have hleft : (track.leave ending).isInside = false := by
    rw [Track.isInside]
    cases ending <;> rfl
  have hstatus := (hfits.counted counted hplace).1
  have hpresent : request ∉ state.departures.map Departure.request := by
    rw [haccounted.departed]
    rintro ⟨found, hfound, -, -, houtside⟩
    rw [htrack] at hfound
    rw [← Option.some.inj hfound, hinside] at houtside
    exact Bool.noConfusion houtside
  refine ⟨fits_setTrack haccounted.fits (hfits.leave hplace hending) request,
    ?_, haccounted.distinct, ?_, ?_, ?_, ?_, ?_, ?_, ?_, ?_, ?_, ?_⟩
  · intro other
    change other ∈ state.entered ↔
      ((state.setTrack request _).tracks other).isSome = true
    rw [setTrack_tracks, haccounted.entered]
    split
    · next hsame => simp [hsame, htrack]
    · rfl
  · have hmem : request ∈ state.entered := by
      rw [haccounted.entered, htrack]
      rfl
    have hcount := countP_leave state.inside
      (state.setTrack request (track.leave ending)).inside
      haccounted.distinct hmem (by rw [State.inside, htrack]; exact hinside)
      (by rw [inside_setTrack, if_pos rfl]; exact hleft)
      fun other hother => by rw [inside_setTrack, if_neg hother]
    change state.activeRequests - 1 = ((state.entered.countP
      (state.setTrack request (track.leave ending)).inside : ℕ) : ℤ)
    rw [haccounted.active, hcount]
    simp
  · change increment state.requestCount
        (some (track.method, track.endpoint, counted.prometheusStatus)) =
      tally Departure.countLabel (state.departures ++
        [track.departure request elapsed timestamp durationMs _])
    rw [tally_concat, haccounted.requestCount, hstatus]
    rfl
  · change observe state.requestLatency _ _ =
      readings _ _ (state.departures ++ [_])
    rw [readings_concat, haccounted.requestLatency]
    rfl
  · change increment state.cacheHit _ = tally _ (state.departures ++ [_])
    rw [tally_concat, haccounted.cacheHit]
    rfl
  · change increment state.cacheMiss _ = tally _ (state.departures ++ [_])
    rw [tally_concat, haccounted.cacheMiss]
    rfl
  · intro other
    change other ∈ (state.departures ++ [_]).map Departure.request ↔
      ∃ found, (state.setTrack request _).tracks other = some found ∧ _
    rw [List.map_append, List.mem_append, haccounted.departed, setTrack_tracks]
    split
    · next hsame =>
        subst hsame
        simp only [Option.some.injEq, exists_eq_left']
        exact iff_of_true (.inr (List.mem_singleton.mpr rfl))
          ⟨hrequest, hdeclared, hleft⟩
    · next hother =>
        rw [or_iff_left]
        exact fun hnew => hother (List.mem_singleton.mp hnew)
  · change ((state.departures ++ [_]).map Departure.request).Nodup
    rw [List.map_append, List.nodup_append]
    refine ⟨haccounted.once, List.nodup_singleton _, ?_⟩
    intro other hother another hanother
    rw [List.mem_singleton.mp hanother]
    rintro rfl
    exact hpresent hother
  · intro departure hdeparture
    change ∃ found _ _ _ _,
      (state.setTrack request _).tracks _ = some found ∧ _
    rcases List.mem_append.mp hdeparture with hold | hnew
    · obtain ⟨found, older, earlier, duration, queued, hfound, htold⟩ :=
        haccounted.told departure hold
      refine ⟨found, older, earlier, duration, queued, ?_, htold⟩
      rw [setTrack_tracks, if_neg, hfound]
      rintro hsame
      exact hpresent (hsame ▸ List.mem_map_of_mem hold)
    · rw [List.mem_singleton.mp hnew]
      refine ⟨track.leave ending, elapsed, timestamp, durationMs, _, ?_, rfl⟩
      rw [setTrack_tracks]
      exact if_pos rfl
  · change (state.enqueue config request _).accepted =
      ((state.departures ++ [_]).filter (Departure.fits config)).map
        Departure.item
    rw [accepted_enqueue, List.filter_append, List.map_append,
      ← haccounted.accepted]
    by_cases hroom :
        state.metrics.queue.length < config.queue.analyticsQueueSize
    · have hin : Departure.fits config (track.departure request elapsed
          timestamp durationMs state.metrics.queue.length) = true :=
        decide_eq_true hroom
      rw [if_pos hroom, List.filter_cons_of_pos hin]
      change _ = _ ++ [Departure.item _]
      rw [Departure.item, metricOf_departure hfits hplace]
      rfl
    · have hout : ¬Departure.fits config (track.departure request elapsed
          timestamp durationMs state.metrics.queue.length) = true := by
        rw [Departure.fits, decide_eq_true_eq]
        exact hroom
      rw [if_neg hroom, List.filter_cons_of_neg hout]
      rfl
  · intro other
    change (state.enqueue config request _).finished other = true ↔
      other ∈ (state.departures ++ [_]).map Departure.request
    rw [finished_enqueue, Function.update_apply, List.map_append, List.mem_append,
      ← haccounted.finished]
    split
    · next hsame => exact iff_of_true rfl (.inr (List.mem_singleton.mpr hsame))
    · next hother =>
        rw [or_iff_left]
        exact fun hnew => hother (List.mem_singleton.mp hnew)

/-- The writer and the stop leave the requests alone. -/
theorem Accounted.metrics (haccounted : Accounted config state)
    {action : QueueAction Request F} (hother : isFinish action = false)
    {metrics : QueueState Request F}
    (hstep : queueStep config.queue state.metrics action = some metrics) :
    Accounted config { state with metrics := metrics } := by
  have hsame : metrics.accepted = state.metrics.accepted ∧
      metrics.finished = state.metrics.finished := by
    cases effect_of_step hstep with
    | finish request served hfresh => simp [isFinish] at hother
    | fill | done | turn | stop | join | drainTimeout | finishStop =>
        exact ⟨rfl, rfl⟩
  refine ⟨haccounted.fits, haccounted.entered, haccounted.distinct,
    haccounted.active, haccounted.requestCount, haccounted.requestLatency,
    haccounted.cacheHit, haccounted.cacheMiss, haccounted.departed,
    haccounted.once, haccounted.told, ?_, ?_⟩
  · change metrics.accepted = _
    rw [hsame.1]
    exact haccounted.accepted
  · intro request
    change metrics.finished request = true ↔ _
    rw [hsame.2]
    exact haccounted.finished request

/-- To the queue a departure is a request that is done. -/
theorem queueStep_departure (haccounted : Accounted config state)
    (htrack : state.tracks request = some track) {counted : Counted}
    (hplace : track.place = .inside counted) (elapsed : F)
    (timestamp : Instant) (durationMs : F) (queued : ℕ) :
    queueStep config.queue state.metrics
      (.finish request
        (track.departure request elapsed timestamp durationMs queued).served) =
      some (state.enqueue config request
        (track.metric counted timestamp durationMs)) := by
  have hunfinished : state.metrics.finished request = false := by
    rw [Bool.eq_false_iff]
    intro hfinished
    obtain ⟨found, hfound, -, -, houtside⟩ :=
      (haccounted.departed request).mp
        ((haccounted.finished request).mp hfinished)
    rw [htrack] at hfound
    rw [← Option.some.inj hfound, Track.isInside_iff.mpr ⟨_, hplace⟩]
      at houtside
    exact Bool.noConfusion houtside
  simp only [queueStep, hunfinished, Bool.false_eq_true, if_false]
  rw [metricOf_departure (haccounted.fits request track htrack) hplace]
  rfl

theorem accounted_of_init (hinit : (system Request F config).Init state) :
    Accounted config state := by
  obtain ⟨htracks, hactive, hcount, hlatency, hhit, hmiss, hqueue, hentered,
    hdepartures⟩ := hinit
  obtain ⟨-, -, -, -, hfinished, haccepted, -⟩ := hqueue
  constructor
  · simp [htracks]
  · simp [htracks, hentered]
  · simp [hentered]
  · simp [hactive, hentered]
  · rw [hcount, hdepartures, tally_nil]
  · rw [hlatency, hdepartures, readings_nil]
  · rw [hhit, hdepartures, tally_nil]
  · rw [hmiss, hdepartures, tally_nil]
  · simp [htracks, hdepartures]
  · simp [hdepartures]
  · simp [hdepartures]
  · rw [haccepted, hdepartures]
    rfl
  · simp [hfinished, hdepartures]

/-- Every step keeps the account, and is at most one step of the queue. -/
theorem accounted_step {next : State Request F} {action : Action Request F}
    (haccounted : Accounted config state)
    (hqueue : (queueSystem Request F config.queue).Reachable state.metrics)
    (hstep : step config state action = some next) :
    Accounted config next ∧
      (queueSystem Request F config.queue).Reachable next.metrics := by
  cases action with
  | enter request scope uuid =>
      simp only [step] at hstep
      split at hstep
      · simp at hstep
      · next hfresh =>
          rw [← Option.some.inj hstep]
          exact ⟨haccounted.enter hfresh scope uuid, hqueue⟩
  | advance request action =>
      simp only [step, Option.bind_eq_some_iff, Option.map_eq_some_iff] at hstep
      obtain ⟨track, htrack, moved, hmoved, rfl⟩ := hstep
      obtain ⟨hfits, hstays⟩ :=
        (haccounted.fits request track htrack).step hmoved
      exact ⟨haccounted.advance htrack hfits hstays, hqueue⟩
  | leave request ending elapsed timestamp durationMs =>
      simp only [step] at hstep
      split at hstep
      · simp at hstep
      · next track htrack =>
          split at hstep
          · next counted hplace =>
              split at hstep
              · simp at hstep
              · next hallowed =>
                  rw [← Option.some.inj hstep]
                  have hending : ending = .tooLarge →
                      track.overflowed = true := by
                    intro htooLarge
                    simpa [htooLarge] using hallowed
                  have hdone : (queueSystem Request F config.queue).step
                      state.metrics (.finish request (track.departure request
                        elapsed timestamp durationMs 0).served) = some _ :=
                    queueStep_departure haccounted htrack hplace elapsed
                      timestamp durationMs 0
                  exact ⟨haccounted.depart htrack hplace hending elapsed
                    timestamp durationMs, .step hqueue hdone trivial⟩
          · simp at hstep
  | metrics action =>
      simp only [step] at hstep
      split at hstep
      · simp at hstep
      · next hother =>
          obtain ⟨metrics, hmetrics, rfl⟩ := Option.map_eq_some_iff.mp hstep
          exact ⟨haccounted.metrics (Bool.eq_false_iff.mpr hother) hmetrics,
            .step hqueue hmetrics trivial⟩

theorem accounted_of_reachable
    (hreach : (system Request F config).Reachable state) :
    Accounted config state ∧
      (queueSystem Request F config.queue).Reachable state.metrics := by
  apply System.Reachable.invariant (fun state => Accounted config state ∧
    (queueSystem Request F config.queue).Reachable state.metrics) _ _ hreach
  · intro start hinit
    exact ⟨accounted_of_init hinit, .init hinit.2.2.2.2.2.2.1⟩
  · intro before action after hboth hstep
    exact accounted_step hboth.1 hboth.2 hstep

end Process

/-! ## Status codes -/

section Statuses

variable {config : Config} {track : Track}

theorem sentOf_extend (headers : List Header) (message : Response) :
    sentOf (extend headers message) = sentOf message := by
  cases message <;> rfl

theorem sentOf_dress (track : Track) (sending : Sending) :
    sentOf (track.dress sending) = sentOf sending.message := by
  unfold Track.dress
  split
  · rw [sentOf_extend, sentOf_extend, sentOf_extend]
  · exact sentOf_extend _ _

theorem map_sentOf_dress (track : Track) :
    (track.own.map track.dress).map sentOf = track.sent := by
  rw [List.map_map]
  exact List.map_congr_left fun sending _ => sentOf_dress track sending

/-- A part of the 413 leaves the status alone or makes it 413. -/
theorem statusOf_refused {finished pending : List Response}
    (hhandler : payloadTooLarge = finished ++ pending) (sent : List Sent) :
    finished = [] ∨ tooLargeStart ∈ finished ∧
      statusOf (sent ++ finished.map sentOf) = 413 := by
  rw [payloadTooLarge] at hhandler
  cases finished with
  | nil => exact .inl rfl
  | cons first rest =>
      obtain ⟨rfl, hrest⟩ := List.cons.inj hhandler
      refine .inr ⟨List.mem_cons_self, ?_⟩
      cases rest with
      | nil => simp [statusOf, sentOf, tooLargeStart]
      | cons second others =>
          obtain ⟨rfl, hothers⟩ := List.cons.inj hrest
          obtain ⟨rfl, -⟩ := List.append_eq_nil_iff.mp hothers.symm
          simp [statusOf, sentOf, tooLargeStart, tooLargeBody]

/-- The client sees the status that the application gave last, unless the limit
has refused the body. -/
theorem Track.Fits.status (hfits : track.Fits config)
    (hdeclared : Declared config.requestBodyMaxBytes track.scope.headers) :
    statusOf (track.client.map sentOf) = statusOf track.sent ∨
      track.overflowed = true ∧ tooLargeStart ∈ track.client ∧
        statusOf (track.client.map sentOf) = 413 := by
  by_cases hrefusing : ∃ pending, track.place = .refusing pending
  · obtain ⟨pending, hplace⟩ := hrefusing
    obtain ⟨finished, hhandler, hclient⟩ := hfits.client_refused pending hplace
    rw [hclient, List.map_append, map_sentOf_dress]
    rcases statusOf_refused hhandler track.sent with rfl | ⟨hmem, hstatus⟩
    · left
      rw [List.map_nil, List.append_nil]
    · exact .inr ⟨hfits.refused pending hplace hdeclared,
        List.mem_append_right _ hmem, hstatus⟩
  · left
    rw [hfits.client (not_exists.mp hrefusing), map_sentOf_dress]

end Statuses

section Result

variable {Request F : Type} [DecidableEq Request] {config : Config}
  {state : State Request F}

/-- In every run the metrics are those of the requests that have been in the
application and have left it, each counted once, and the queue has got all of
them but those that left while it was full; it runs as if it was alone.  A
request is recorded with the status that its client gets, except where the limit
refuses the body: the client then gets the 413, and what is recorded is the
status of the application. -/
theorem requests_accounted
    (hreach : (system Request F config).Reachable state) :
    Accounted config state ∧
    (queueSystem Request F config.queue).Reachable state.metrics ∧
    (∀ departure ∈ state.departures, ∃ track,
      state.tracks departure.request = some track ∧
        (statusOf (track.client.map sentOf) =
            statusOf departure.served.sent ∨
          track.overflowed = true ∧ tooLargeStart ∈ track.client ∧
            statusOf (track.client.map sentOf) = 413)) ∧
    ∀ request track, state.tracks request = some track →
      track.requestId = track.uuid ∨
        isRequestId config.isAlnum track.requestId = true ∧
          ∃ encoded, encode track.requestId = some encoded := by
  obtain ⟨haccounted, hqueue⟩ := accounted_of_reachable hreach
  refine ⟨haccounted, hqueue, ?_, ?_⟩
  · intro departure hdeparture
    obtain ⟨track, elapsed, timestamp, durationMs, queued, htrack, htold⟩ :=
      haccounted.told departure hdeparture
    obtain ⟨found, hfound, -, hdeclared, -⟩ :=
      (haccounted.departed _).mp (List.mem_map_of_mem hdeparture)
    rw [htrack] at hfound
    obtain rfl := Option.some.inj hfound
    have hsent : departure.served.sent = track.sent := by
      rw [htold]
      rfl
    rw [hsent]
    exact ⟨track, htrack,
      (haccounted.fits _ track htrack).status hdeclared⟩
  · intro request track htrack
    rw [(haccounted.fits request track htrack).requestId]
    exact requestIdOf_cases _ _ _

end Result

/-- Bodies of one byte at most. -/
def tightConfig : Config where
  requestBodyMaxBytes := 1
  queue :=
    { analyticsQueueSize := 100
      analyticsBatchSize := 10
      queueSize_bounds := by decide
      batchSize_bounds := by decide }
  isAlnum := Python.isDigit

def idle : State (Fin 3) ℕ where
  tracks _ := none
  activeRequests := 0
  requestCount _ := 0
  requestLatency _ := []
  cacheHit _ := 0
  cacheMiss _ := 0
  metrics := {
    queue := []
    unfinishedTasks := 0
    writer := .waiting
    stop := .running
    finished := fun _ => false
    accepted := []
    attempted := [] }
  entered := []
  departures := []

def requestWith (headers : List Header) : RequestScope where
  type := text "http"
  headers := headers
  path := some (text "/v1/health")
  method := some (text "POST")

/-- Request `0` is answered from the cache, request `1` sends a body that is too
long, and request `2` declares one. -/
def threeRequests : List (Action (Fin 3) ℕ) :=
  [.enter 0 (requestWith [(bytes "X-Request-Id", bytes "1-2")]) (text "a"),
    .enter 1 (requestWith []) (text "b"),
    .advance 0 (.view ⟨none, none, some .fresh⟩),
    .advance 1 (.receive ⟨text "http.request", some (bytes "long"), none⟩),
    .advance 0 (.send (.start 200 []) (bytes "0.5")),
    .leave 1 .tooLarge 3 0 4,
    .enter 2 (requestWith [(bytes "content-length", bytes "9")]) (text "c"),
    .advance 1 .answer,
    .advance 2 .answer]

/-- Requests `0` and `1` are counted as long as they are in the application, and
what is recorded of `1` is not what its client gets. -/
theorem three_requests_accounted :
    ∃ state ∈ (system (Fin 3) ℕ tightConfig).run idle threeRequests,
      state.activeRequests = 1 ∧
      state.departures.map Departure.request = [1] ∧
      state.requestCount (text "POST", text "/v1/health", 500) = 1 ∧
      ((state.tracks 0).map Track.requestId = some (text "1-2") ∧
        (state.tracks 1).map Track.client = some [tooLargeStart] ∧
        (state.tracks 2).map Track.client = some [tooLargeStart]) ∧
      Accounted tightConfig state := by
  obtain ⟨state, hrun, hactive, hdepartures, hcount, htracks⟩ :
      ∃ state ∈ (system (Fin 3) ℕ tightConfig).run idle threeRequests,
        state.activeRequests = 1 ∧
        state.departures.map Departure.request = [1] ∧
        state.requestCount (text "POST", text "/v1/health", 500) = 1 ∧
        ((state.tracks 0).map Track.requestId = some (text "1-2") ∧
          (state.tracks 1).map Track.client = some [tooLargeStart] ∧
          (state.tracks 2).map Track.client = some [tooLargeStart]) := by
    decide +kernel
  have hinit : (system (Fin 3) ℕ tightConfig).Init idle :=
    ⟨fun _ => rfl, rfl, rfl, rfl, rfl, rfl,
      ⟨rfl, rfl, rfl, rfl, fun _ => rfl, rfl, rfl⟩, rfl, rfl⟩
  exact ⟨state, hrun, hactive, hdepartures, hcount, htracks,
    (requests_accounted (System.reachable_of_run hinit hrun)).1⟩

end UTTG.Middleware
