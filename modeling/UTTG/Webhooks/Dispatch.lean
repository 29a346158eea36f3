import UTTG.Webhooks.Ssrf
import UTTG.Webhooks.Worker

/-!
# The attempts of a delivery

`_dispatch` calls `_deliver_once` until an attempt succeeds or the attempts are
used up, and each attempt records one row.  What a call does is kept as the
list of its entries.  The handlers of the worker take the same attempts, with
their awaits as steps.
-/

namespace UTTG.Dispatch

open Python Transition
open Expiring (Reply)
open Ssrf (UrlLibrary Resolver Decryption validateWebhookUrl)
open Worker (Webhook WebhookDelivery Attempt Config Envelope)

/-! ## One attempt -/

/-- What `client.stream` meets. -/
inductive Exchange where
  /-- An `httpx.HTTPError` before there is a status. -/
  | failed
  /-- A response; closing it may raise an `httpx.HTTPError`. -/
  | answered (status : ℕ) (broken : Bool)
  /-- Any other exception. -/
  | raised
  deriving DecidableEq

/-- What one attempt meets: the answers of the resolver, the decryption of the
secret, the clock, the receiver, and the reply to the record of the attempt. -/
structure Surroundings where
  resolver : Resolver
  decryptWebhookSecret : Text → Decryption
  time : ℤ
  exchange : Exchange
  recorded : Reply

/-- What `client.stream` is called with. -/
structure Request where
  url : Text
  content : List Byte
  headers : Dict Text Text

/-- The entries of a call of `_dispatch`. -/
inductive Entry where
  /-- A call of `_deliver_once`. -/
  | attempted (attempt : ℕ)
  | posted (attempt : ℕ) (request : Request)
  | recorded (row : WebhookDelivery)
  | slept (seconds : ℕ)

/-- The entries of a call and its result; `none` where it raises. -/
structure Course where
  entries : List Entry
  verdict : Option Bool

section Model

variable (library : UrlLibrary) (hmacSha256 : List Byte → List Byte → Text)

/-- `_signature`; encoding the secret may raise. -/
def signature (payload : List Byte) (secret : Text) : Option Text :=
  (encode secret).map fun key => text "sha256=" ++ hmacSha256 key payload

/-- The headers of a delivery. -/
def headers (deliveryId eventName : Text) (time : ℤ) (signature : Text) :
    Dict Text Text :=
  [(text "Content-Type", text "application/json"),
    (text "User-Agent", text "UTTG-Webhook/1.0"),
    (text "X-UTTG-Delivery", deliveryId),
    (text "X-UTTG-Event", eventName),
    (text "X-UTTG-Timestamp", signed time),
    (text "X-UTTG-Signature", signature)]

/-- `_record_delivery` and the return after it. -/
def recordDelivery (entries : List Entry) (row : WebhookDelivery) :
    Reply → Course
  | .answered => ⟨entries ++ [.recorded row], some row.success⟩
  | .lost => ⟨entries ++ [.recorded row], none⟩
  | .refused => ⟨entries, none⟩

/-- `_deliver_once`. -/
def deliverOnce (webhookId : Text) (webhook : Webhook) (payload : List Byte)
    (eventName deliveryId : Text) (attempt : ℕ)
    (surroundings : Surroundings) : Course :=
  let rejected := recordDelivery [.attempted attempt]
    ⟨webhookId, payload, none, attempt, false⟩ surroundings.recorded
  match validateWebhookUrl library surroundings.resolver webhook.url with
  | .raised => ⟨[.attempted attempt], none⟩
  | .rejected _ => rejected
  | .accepted url =>
      match surroundings.decryptWebhookSecret
          (webhook.secretCiphertext.getD []) with
      | .unconfigured => ⟨[.attempted attempt], none⟩
      | .invalid => rejected
      | .secret secret =>
          match signature hmacSha256 payload secret with
          | none => ⟨[.attempted attempt], none⟩
          | some signature =>
              let posted := [.attempted attempt, .posted attempt
                ⟨url, payload, headers deliveryId eventName
                  surroundings.time signature⟩]
              match surroundings.exchange with
              | .raised => ⟨posted, none⟩
              | .failed =>
                  recordDelivery posted
                    ⟨webhookId, payload, none, attempt, false⟩
                    surroundings.recorded
              | .answered status _ =>
                  recordDelivery posted
                    ⟨webhookId, payload, some status, attempt,
                      Worker.isSuccess status⟩ surroundings.recorded

/-! ## All attempts -/

/-- The loop of `_dispatch` over the attempts that are left. -/
def attempts (deliver : ℕ → Course) (webhookMaxAttempts : ℕ) :
    List ℕ → Course
  | [] => ⟨[], some false⟩
  | attempt :: rest =>
      let once := deliver attempt
      match once.verdict with
      | none => once
      | some true => once
      | some false =>
          let later := attempts deliver webhookMaxAttempts rest
          let pause := if attempt < webhookMaxAttempts then
            [.slept (min (2 ^ attempt) 30)] else []
          ⟨once.entries ++ pause ++ later.entries, later.verdict⟩

/-- `_dispatch`. -/
def dispatch {F : Type} (config : Config F) (webhook : Webhook)
    (envelope : Envelope F) (createdAt deliveryId : Text)
    (surroundings : ℕ → Surroundings) : Course :=
  match Worker.dispatchPayload config envelope createdAt with
  | none => ⟨[], none⟩
  | some payload =>
      if config.webhookMaxBodyBytes < payload.length then ⟨[], some false⟩
      else
        attempts (fun attempt => deliverOnce library hmacSha256
            envelope.webhookId webhook payload envelope.eventName deliveryId
            attempt (surroundings attempt))
          config.webhookMaxAttempts
          (List.range' 1 config.webhookMaxAttempts)

/-- How an attempt ends; `none` where something else is raised. -/
def outcomeOf (webhook : Webhook) (surroundings : Surroundings) :
    Option Attempt :=
  match validateWebhookUrl library surroundings.resolver webhook.url with
  | .raised => none
  | .rejected _ => some .rejected
  | .accepted _ =>
      match surroundings.decryptWebhookSecret
          (webhook.secretCiphertext.getD []) with
      | .unconfigured => none
      | .invalid => some .rejected
      | .secret secret =>
          if encode secret = none then none
          else
            match surroundings.exchange with
            | .raised => none
            | .failed => some .failed
            | .answered status _ => some (.responded status)

end Model

/-! ## What the entries tell -/

/-- The numbers of the attempts. -/
def attemptsOf (entries : List Entry) : List ℕ :=
  entries.filterMap fun
    | .attempted attempt => some attempt
    | _ => none

/-- The rows, oldest first. -/
def rowsOf (entries : List Entry) : List WebhookDelivery :=
  entries.filterMap fun
    | .recorded row => some row
    | _ => none

/-- The requests with the numbers of their attempts. -/
def requestsOf (entries : List Entry) : List (ℕ × Request) :=
  entries.filterMap fun
    | .posted attempt request => some (attempt, request)
    | _ => none

/-- `last` is the first attempt that succeeds, or the greatest one where none
does. -/
structure LastAttempt (outcomes : ℕ → Attempt) (greatest last : ℕ) :
    Prop where
  positive : 1 ≤ last
  le_greatest : last ≤ greatest
  before : ∀ attempt, 1 ≤ attempt → attempt < last →
    (outcomes attempt).success = false
  success : last < greatest → (outcomes last).success = true

/-- The row of an attempt. -/
def rowOf (webhookId : Text) (payload : List Byte) (outcomes : ℕ → Attempt)
    (attempt : ℕ) : WebhookDelivery :=
  ⟨webhookId, payload, (outcomes attempt).statusCode, attempt,
    (outcomes attempt).success⟩

section Accounts

variable {library : UrlLibrary} {hmacSha256 : List Byte → List Byte → Text}

variable (hmacSha256) in
/-- The request carries this body and delivery id, and the signature of this
body under the secret that the attempt decrypted. -/
def Carries (webhook : Webhook) (payload : List Byte) (deliveryId : Text)
    (surroundings : Surroundings) (request : Request) : Prop :=
  request.content = payload ∧
    Dict.get request.headers (text "X-UTTG-Delivery") = some deliveryId ∧
    ∃ secret key,
      surroundings.decryptWebhookSecret (webhook.secretCiphertext.getD []) =
        .secret secret ∧ encode secret = some key ∧
      Dict.get request.headers (text "X-UTTG-Signature") =
        some (text "sha256=" ++ hmacSha256 key payload)

/-! ## One attempt -/

theorem get_headers (deliveryId eventName : Text) (time : ℤ)
    (signature : Text) :
    Dict.get (headers deliveryId eventName time signature)
        (text "X-UTTG-Delivery") = some deliveryId ∧
      Dict.get (headers deliveryId eventName time signature)
        (text "X-UTTG-Signature") = some signature := by
  constructor
  · rfl
  · rfl

variable (hmacSha256) in
/-- What the entries of an attempt with this outcome are. -/
inductive Kept (webhookId : Text) (webhook : Webhook) (payload : List Byte)
    (deliveryId : Text) (attempt : ℕ) (surroundings : Surroundings)
    (outcome : Attempt) : List Entry → Prop
  | rejected (houtcome : outcome = .rejected) :
      Kept webhookId webhook payload deliveryId attempt surroundings outcome
        [.attempted attempt, .recorded ⟨webhookId, payload,
          outcome.statusCode, attempt, outcome.success⟩]
  | posted (houtcome : outcome ≠ .rejected) (request : Request)
      (hcarries : Carries hmacSha256 webhook payload deliveryId surroundings
        request) :
      Kept webhookId webhook payload deliveryId attempt surroundings outcome
        [.attempted attempt, .posted attempt request, .recorded ⟨webhookId,
          payload, outcome.statusCode, attempt, outcome.success⟩]

/-- An attempt with one of the four kinds of outcome keeps one row, posts
unless it is rejected, and returns whether it succeeded. -/
theorem deliverOnce_kept {webhookId : Text} {webhook : Webhook}
    {payload : List Byte} {eventName deliveryId : Text} {attempt : ℕ}
    {surroundings : Surroundings} {outcome : Attempt}
    (houtcome : outcomeOf library webhook surroundings = some outcome)
    (hrecorded : surroundings.recorded = .answered) :
    Kept hmacSha256 webhookId webhook payload deliveryId attempt surroundings
        outcome (deliverOnce library hmacSha256 webhookId webhook payload
          eventName deliveryId attempt surroundings).entries ∧
      (deliverOnce library hmacSha256 webhookId webhook payload eventName
        deliveryId attempt surroundings).verdict = some outcome.success := by
  rw [outcomeOf] at houtcome
  simp only [deliverOnce, hrecorded]
  cases hurl : validateWebhookUrl library surroundings.resolver
      webhook.url with
  | raised => simp [hurl] at houtcome
  | rejected reason =>
      obtain rfl : .rejected = outcome := by simpa [hurl] using houtcome
      exact ⟨.rejected rfl, rfl⟩
  | accepted url =>
      simp only [hurl] at houtcome
      cases hsecret : surroundings.decryptWebhookSecret
          (webhook.secretCiphertext.getD []) with
      | unconfigured => simp [hsecret] at houtcome
      | invalid =>
          obtain rfl : .rejected = outcome := by simpa [hsecret] using houtcome
          exact ⟨.rejected rfl, rfl⟩
      | secret secret =>
          simp only [hsecret] at houtcome
          cases hkey : encode secret with
          | none => simp [hkey] at houtcome
          | some key =>
              have hsignature : signature hmacSha256 payload secret =
                  some (text "sha256=" ++ hmacSha256 key payload) := by
                rw [signature, hkey, Option.map_some]
              obtain ⟨hdelivery, hsigned⟩ := get_headers deliveryId eventName
                surroundings.time (text "sha256=" ++ hmacSha256 key payload)
              have hcarries : Carries hmacSha256 webhook payload deliveryId
                  surroundings ⟨url, payload, headers deliveryId eventName
                    surroundings.time
                    (text "sha256=" ++ hmacSha256 key payload)⟩ :=
                ⟨rfl, hdelivery, secret, key, hsecret, hkey, hsigned⟩
              cases hexchange : surroundings.exchange with
              | raised => simp [hkey, hexchange] at houtcome
              | failed =>
                  obtain rfl : .failed = outcome := by
                    simpa [hkey, hexchange] using houtcome
                  simp only [hsignature]
                  exact ⟨.posted (by simp) _ hcarries, rfl⟩
              | answered status broken =>
                  obtain rfl : .responded status = outcome := by
                    simpa [hkey, hexchange] using houtcome
                  simp only [hsignature]
                  exact ⟨.posted (by simp) _ hcarries, rfl⟩

/-! ## The loop -/

/-- `_dispatch` sleeps between two attempts. -/
def pause (last attempt : ℕ) : List Entry :=
  if attempt < last then [.slept (min (2 ^ attempt) 30)] else []

theorem pause_of_lt {last attempt : ℕ} (hlt : attempt < last) :
    pause last attempt = [.slept (min (2 ^ attempt) 30)] :=
  if_pos hlt

theorem pause_self (last : ℕ) : pause last last = [] :=
  if_neg (lt_irrefl last)

theorem attempts_of_success {deliver : ℕ → Course} {greatest attempt : ℕ}
    (rest : List ℕ) (hverdict : (deliver attempt).verdict = some true) :
    attempts deliver greatest (attempt :: rest) = deliver attempt := by
  simp only [attempts, hverdict]

theorem attempts_of_failure {deliver : ℕ → Course} {greatest attempt : ℕ}
    (rest : List ℕ) (hverdict : (deliver attempt).verdict = some false) :
    attempts deliver greatest (attempt :: rest) =
      ⟨(deliver attempt).entries ++ pause greatest attempt ++
          (attempts deliver greatest rest).entries,
        (attempts deliver greatest rest).verdict⟩ := by
  simp only [attempts, hverdict, pause]

/-- The loop ends with the first attempt that succeeds, or with the greatest
one, and keeps the entries of each attempt up to it. -/
theorem attempts_eq {deliver : ℕ → Course} {outcomes : ℕ → Attempt}
    {greatest : ℕ} (hverdict : ∀ attempt,
      (deliver attempt).verdict = some (outcomes attempt).success)
    (count : ℕ) {first : ℕ} (hfirst : 1 ≤ first)
    (hcount : first + count = greatest)
    (hbefore : ∀ attempt, 1 ≤ attempt → attempt < first →
      (outcomes attempt).success = false) :
    ∃ last, LastAttempt outcomes greatest last ∧ first ≤ last ∧
      attempts deliver greatest (List.range' first (count + 1)) =
        ⟨(List.range' first (last + 1 - first)).flatMap fun attempt =>
            (deliver attempt).entries ++ pause last attempt,
          some (outcomes last).success⟩ := by
  induction count generalizing first with
  | zero =>
      obtain rfl : first = greatest := by simpa using hcount
      have honly : first + 1 - first = 1 := by omega
      refine ⟨first, ⟨hfirst, le_rfl, hbefore, ?_⟩, le_rfl, ?_⟩
      · intro hlt
        exact absurd hlt (lt_irrefl first)
      · rw [honly, List.range'_one, List.flatMap_singleton, pause_self,
          List.append_nil, ← hverdict first]
        cases hsuccess : (outcomes first).success with
        | true =>
            have honce := hverdict first
            rw [hsuccess] at honce
            exact attempts_of_success [] honce
        | false =>
            have honce := hverdict first
            rw [hsuccess] at honce
            rw [attempts_of_failure [] honce, pause_self, honce]
            simp [attempts]
  | succ count ih =>
      rw [List.range'_succ]
      have honce := hverdict first
      cases hsuccess : (outcomes first).success with
      | true =>
          have honly : first + 1 - first = 1 := by omega
          rw [hsuccess] at honce
          refine ⟨first, ⟨hfirst, by omega, hbefore, fun _ => hsuccess⟩,
            le_rfl, ?_⟩
          rw [attempts_of_success _ honce, honly, List.range'_one,
            List.flatMap_singleton, pause_self, List.append_nil, hsuccess,
            ← honce]
      | false =>
          rw [hsuccess] at honce
          have hpassed : ∀ attempt, 1 ≤ attempt → attempt < first + 1 →
              (outcomes attempt).success = false := by
            intro attempt hpositive hlt
            rcases Nat.lt_succ_iff_lt_or_eq.mp hlt with hlt | rfl
            · exact hbefore attempt hpositive hlt
            · exact hsuccess
          obtain ⟨last, hlast, hle, hrest⟩ :=
            ih (Nat.le_add_left 1 first) (by omega) hpassed
          have hlength : last + 1 - first = last + 1 - (first + 1) + 1 := by
            omega
          have hpause : pause greatest first = pause last first := by
            rw [pause_of_lt (by omega), pause_of_lt (by omega)]
          refine ⟨last, hlast, by omega, ?_⟩
          rw [attempts_of_failure _ honce, hrest, hlength, List.range'_succ,
            List.flatMap_cons, hpause]

/-! ## What the entries of a call tell -/

section Tell

variable {webhookId : Text} {webhook : Webhook} {payload : List Byte}
  {deliveryId : Text} {attempt : ℕ} {surroundings : Surroundings}
  {outcome : Attempt} {entries : List Entry}

theorem Kept.attemptsOf (hkept : Kept hmacSha256 webhookId webhook payload
    deliveryId attempt surroundings outcome entries) :
    Dispatch.attemptsOf entries = [attempt] := by
  cases hkept with
  | rejected => rfl
  | posted => rfl

theorem Kept.rowsOf (hkept : Kept hmacSha256 webhookId webhook payload
    deliveryId attempt surroundings outcome entries) :
    Dispatch.rowsOf entries = [⟨webhookId, payload, outcome.statusCode,
      attempt, outcome.success⟩] := by
  cases hkept with
  | rejected => rfl
  | posted => rfl

theorem Kept.posted_iff (hkept : Kept hmacSha256 webhookId webhook payload
    deliveryId attempt surroundings outcome entries) :
    (Dispatch.requestsOf entries).map Prod.fst =
      if outcome = .rejected then [] else [attempt] := by
  cases hkept with
  | rejected houtcome =>
      rw [if_pos houtcome]
      rfl
  | posted houtcome =>
      rw [if_neg houtcome]
      rfl

theorem Kept.carries (hkept : Kept hmacSha256 webhookId webhook payload
    deliveryId attempt surroundings outcome entries) {posted : ℕ × Request}
    (hmem : posted ∈ Dispatch.requestsOf entries) : posted.1 = attempt ∧
      Carries hmacSha256 webhook payload deliveryId surroundings posted.2 := by
  cases hkept with
  | rejected => simp [Dispatch.requestsOf] at hmem
  | posted houtcome request hcarries =>
      obtain rfl : posted = (attempt, request) := by
        simpa [Dispatch.requestsOf] using hmem
      exact ⟨rfl, hcarries⟩

end Tell

/-- A projection of the entries that the pauses do not have is read off
attempt by attempt. -/
theorem filterMap_course {Item : Type} (read : Entry → Option Item)
    (hslept : ∀ seconds, read (.slept seconds) = none)
    (deliver : ℕ → Course) (last : ℕ) (numbers : List ℕ) :
    (numbers.flatMap fun attempt =>
        (deliver attempt).entries ++ pause last attempt).filterMap read =
      numbers.flatMap fun attempt =>
        (deliver attempt).entries.filterMap read := by
  rw [List.filterMap_flatMap]
  congr 1
  funext attempt
  have hpause : (pause last attempt).filterMap read = [] := by
    rw [pause]
    split
    · simp [hslept]
    · rfl
  rw [List.filterMap_append, hpause, List.append_nil]

variable (hmacSha256) in
/-- What a call of `_dispatch` did when `last` was its last attempt. -/
structure Accounted (webhookId : Text) (webhook : Webhook)
    (payload : List Byte) (deliveryId : Text)
    (surroundings : ℕ → Surroundings) (outcomes : ℕ → Attempt)
    (greatest last : ℕ) (course : Course) : Prop where
  isLast : LastAttempt outcomes greatest last
  verdict : course.verdict = some (outcomes last).success
  attempts : attemptsOf course.entries = List.range' 1 last
  rows : rowsOf course.entries =
    (List.range' 1 last).map (rowOf webhookId payload outcomes)
  success : ∀ row ∈ rowsOf course.entries, row.success = true →
    row.attempt = last
  posts : (requestsOf course.entries).map Prod.fst =
    (List.range' 1 last).filter fun attempt => outcomes attempt ≠ .rejected
  carries : ∀ posted ∈ requestsOf course.entries,
    Carries hmacSha256 webhook payload deliveryId (surroundings posted.1)
      posted.2

theorem flatMap_unless {Item : Type} (drop : Item → Prop) [DecidablePred drop]
    (items : List Item) :
    (items.flatMap fun item => if drop item then [] else [item]) =
      items.filter fun item => ¬drop item := by
  induction items with
  | nil => rfl
  | cons item rest ih =>
      rw [List.flatMap_cons, ih]
      by_cases hdrop : drop item
      · simp [hdrop]
      · simp [hdrop]

theorem mem_attemptsUpTo {last attempt : ℕ} :
    attempt ∈ List.range' 1 last ↔ 1 ≤ attempt ∧ attempt ≤ last := by
  rw [List.mem_range'_1]
  omega

/-- The loop over attempts that are all kept. -/
theorem attempts_accounted {webhookId : Text} {webhook : Webhook}
    {payload : List Byte} {deliveryId : Text}
    {surroundings : ℕ → Surroundings} {outcomes : ℕ → Attempt}
    {greatest : ℕ} {deliver : ℕ → Course} (hgreatest : 1 ≤ greatest)
    (hkept : ∀ attempt, Kept hmacSha256 webhookId webhook payload deliveryId
      attempt (surroundings attempt) (outcomes attempt)
      (deliver attempt).entries)
    (hverdict : ∀ attempt,
      (deliver attempt).verdict = some (outcomes attempt).success) :
    ∃ last, Accounted hmacSha256 webhookId webhook payload deliveryId
      surroundings outcomes greatest last
      (attempts deliver greatest (List.range' 1 greatest)) := by
  obtain ⟨count, rfl⟩ := Nat.exists_eq_add_of_le hgreatest
  obtain ⟨last, hlast, -, hcourse⟩ := attempts_eq hverdict count le_rfl rfl
    (fun attempt hpositive hlt => absurd hpositive (not_le.mpr hlt))
  rw [Nat.add_sub_cancel] at hcourse
  rw [Nat.add_comm count 1] at hcourse
  refine ⟨last, ?_⟩
  rw [hcourse]
  have hrows : rowsOf ((List.range' 1 last).flatMap fun attempt =>
        (deliver attempt).entries ++ pause last attempt) =
      (List.range' 1 last).map (rowOf webhookId payload outcomes) := by
    rw [rowsOf, filterMap_course _ (fun _ => rfl), List.map_eq_flatMap]
    congr 1
    funext attempt
    exact (hkept attempt).rowsOf
  refine ⟨hlast, rfl, ?_, hrows, ?_, ?_, ?_⟩
  · rw [attemptsOf, filterMap_course _ (fun _ => rfl)]
    calc (List.range' 1 last).flatMap _
        = (List.range' 1 last).flatMap fun attempt => [attempt] := by
          congr 1
          funext attempt
          exact (hkept attempt).attemptsOf
      _ = List.range' 1 last := List.flatMap_singleton' _
  · intro row hmem hsuccess
    rw [hrows] at hmem
    obtain ⟨attempt, hrange, rfl⟩ := List.mem_map.mp hmem
    obtain ⟨hpositive, hle⟩ := mem_attemptsUpTo.mp hrange
    rcases lt_or_eq_of_le hle with hlt | rfl
    · have hfailed := hlast.before attempt hpositive hlt
      exact absurd hsuccess (by simp [rowOf, hfailed])
    · rfl
  · rw [requestsOf, filterMap_course _ (fun _ => rfl), List.map_flatMap,
      ← flatMap_unless]
    congr 1
    funext attempt
    exact (hkept attempt).posted_iff
  · intro posted hmem
    rw [requestsOf, filterMap_course _ (fun _ => rfl)] at hmem
    obtain ⟨attempt, -, hposted⟩ := List.mem_flatMap.mp hmem
    obtain ⟨hnumber, hcarries⟩ := (hkept attempt).carries hposted
    rw [hnumber]
    exact hcarries

end Accounts

/-- Where every record is written and every attempt ends in one of the four
ways, a payload above the limit leads to no attempt.  Any other one is sent
in numbered attempts up to the first that succeeds or the greatest one: each
writes its row and posts, unless it is rejected, the same body and delivery id
with a signature of that body, and the call returns whether the last one
succeeded. -/
theorem dispatch_accounted {F : Type} (config : Config F)
    (library : UrlLibrary) (hmacSha256 : List Byte → List Byte → Text)
    (webhook : Webhook) (envelope : Envelope F) (createdAt deliveryId : Text)
    (surroundings : ℕ → Surroundings) (outcomes : ℕ → Attempt)
    (hattempts : 1 ≤ config.webhookMaxAttempts)
    (houtcomes : ∀ attempt, outcomeOf library webhook (surroundings attempt) =
      some (outcomes attempt))
    (hrecorded : ∀ attempt, (surroundings attempt).recorded = .answered)
    {payload : List Byte} (hpayload :
      Worker.dispatchPayload config envelope createdAt = some payload) :
    (config.webhookMaxBodyBytes < payload.length →
      dispatch library hmacSha256 config webhook envelope createdAt deliveryId
        surroundings = ⟨[], some false⟩) ∧
    (payload.length ≤ config.webhookMaxBodyBytes →
      ∃ last, Accounted hmacSha256 envelope.webhookId webhook payload
        deliveryId surroundings outcomes config.webhookMaxAttempts last
        (dispatch library hmacSha256 config webhook envelope createdAt
          deliveryId surroundings)) := by
  rw [dispatch, hpayload]
  simp only
  constructor
  · intro hlarge
    rw [if_pos hlarge]
  · intro hfits
    rw [if_neg (not_lt.mpr hfits)]
    apply attempts_accounted hattempts
    · intro attempt
      exact (deliverOnce_kept (houtcomes attempt) (hrecorded attempt)).1
    · intro attempt
      exact (@deliverOnce_kept library hmacSha256 _ _ _ _ _ _ _ _
        (houtcomes attempt) (hrecorded attempt)).2

/-- The default settings. -/
def fiveAttempts : Config Empty := ⟨.empty, fun _ => true, 262144, 5⟩

def listener : Webhook :=
  ⟨text "https://hook.example/events", text "[\"e\"]", some (text "c"), true⟩

def oneString : Envelope Empty :=
  ⟨text "w", text "e", [(text "k", .str (text "v"))]⟩

/-- The digest of the body of this event under the secret below. -/
def oneDigest (_ _ : List Byte) : Text :=
  text "a79465e18593a173ac878e4c84994e11da13c363a55327eebd7a815b42f28e40"

/-- The first transfer fails, later ones are answered with 204. -/
def secondTry (attempt : ℕ) : Surroundings where
  resolver := fun _ _ => .answered [.v4 (Ssrf.dotted 93 184 216 34)]
  decryptWebhookSecret := fun _ => .secret (text "s3cret")
  time := 1767225600
  exchange := if attempt = 1 then .failed else .answered 204 false
  recorded := .answered

def secondOutcome (attempt : ℕ) : Attempt :=
  if attempt = 1 then .failed else .responded 204

/-- The second attempt is the last one. -/
theorem second_try_accounted :
    ∃ payload, Worker.dispatchPayload fiveAttempts oneString
        (text "2026-01-01T00:00:00+00:00") = some payload ∧
      Accounted oneDigest (text "w") listener payload (text "d") secondTry
        secondOutcome 5 2
        (dispatch Ssrf.singleLibrary oneDigest fiveAttempts listener oneString
          (text "2026-01-01T00:00:00+00:00") (text "d") secondTry) := by
  obtain ⟨payload, hpayload, hfits⟩ :
      ∃ payload ∈ Worker.dispatchPayload fiveAttempts oneString
          (text "2026-01-01T00:00:00+00:00"),
        payload.length ≤ fiveAttempts.webhookMaxBodyBytes := by
    decide +kernel
  have houtcomes : ∀ attempt, outcomeOf Ssrf.singleLibrary listener
      (secondTry attempt) = some (secondOutcome attempt) := by
    intro attempt
    by_cases hfirst : attempt = 1
    · rw [hfirst]
      decide
    · have hanswered : outcomeOf Ssrf.singleLibrary listener
          { secondTry 2 with exchange := .answered 204 false } =
            some (.responded 204) := by
        decide
      simpa [secondTry, secondOutcome, hfirst] using hanswered
  obtain ⟨last, haccounted⟩ := (dispatch_accounted fiveAttempts
    Ssrf.singleLibrary oneDigest listener oneString
    (text "2026-01-01T00:00:00+00:00") (text "d") secondTry secondOutcome
    (by decide) houtcomes (fun _ => rfl) hpayload).2 hfits
  have hsecond : last = 2 := by
    have hpositive := haccounted.isLast.positive
    have hbefore := haccounted.isLast.before 2 (by decide)
    have hsuccess := haccounted.isLast.success
    rcases Nat.lt_or_ge 2 last with hlt | hle
    · exact absurd (hbefore hlt) (by decide)
    · interval_cases last
      · exact absurd (hsuccess (by decide)) (by decide)
      · rfl
  rw [hsecond] at haccounted
  exact ⟨payload, hpayload, haccounted⟩

/-! ## The handlers of the worker -/

section Handlers

variable {F Handler Message : Type} [DecidableEq Handler]
  [DecidableEq Message]

/-- The steps of a handler for these attempts. -/
def handlerActions (handler : Handler) (outcomes : ℕ → Attempt) (last : ℕ)
    (numbers : List ℕ) : List (Worker.Action Handler Message) :=
  numbers.flatMap fun attempt =>
    [.attempt handler (outcomes attempt), .record handler .answered] ++
      if attempt < last then [.wake handler] else []

/-- A handler takes one attempt and records it. -/
theorem handler_attempt (config : Config F)
    {state : Worker.State F Handler Message} {handler : Handler}
    {dispatch : Worker.Dispatch F Message} {attempt : ℕ}
    (hphase : state.phase handler = .delivering dispatch attempt)
    (outcomes : ℕ → Attempt) :
    ∃ next, (Worker.system Handler Message config).run state
        [.attempt handler (outcomes attempt), .record handler .answered] =
          some next ∧
      next.phase handler =
        Worker.afterRecord config dispatch attempt (outcomes attempt) ∧
      next.deliveries = rowOf dispatch.envelope.webhookId dispatch.payload
        outcomes attempt :: state.deliveries := by
  cases houtcome : outcomes attempt with
  | rejected | failed | responded =>
      simp [System.run, Worker.system, Worker.step, hphase, Worker.State.goto,
        Worker.State.proceed, Worker.State.see, rowOf, houtcome]

/-- A handler takes the attempts of `_dispatch`, writes their rows, and goes on
to acknowledge the message where the last one succeeded and to dead-letter it
otherwise. -/
theorem handler_takes_attempts (config : Config F) {outcomes : ℕ → Attempt}
    {last : ℕ}
    (hlast : LastAttempt outcomes config.webhookMaxAttempts last)
    (count : ℕ) {first : ℕ} (hfirst : 1 ≤ first)
    (hcount : first + count = last)
    {state : Worker.State F Handler Message} {handler : Handler}
    {dispatch : Worker.Dispatch F Message}
    (hphase : state.phase handler = .delivering dispatch first) :
    ∃ final, (Worker.system Handler Message config).run state
        (handlerActions handler outcomes last
          (List.range' first (count + 1))) = some final ∧
      final.phase handler =
        (if (outcomes last).success then .acking dispatch.message
        else .deadLettering dispatch.message dispatch.envelope) ∧
      final.deliveries = ((List.range' first (count + 1)).map
        (rowOf dispatch.envelope.webhookId dispatch.payload outcomes)).reverse
          ++ state.deliveries := by
  induction count generalizing first state with
  | zero =>
      obtain rfl : first = last := by simpa using hcount
      obtain ⟨next, hnext, hafter, hrow⟩ :=
        handler_attempt config hphase outcomes
      refine ⟨next, ?_, ?_, ?_⟩
      · simpa [handlerActions] using hnext
      · rw [hafter, Worker.afterRecord]
        split
        · rfl
        · next hfailed =>
            -- a failed attempt below the greatest one is not the last
            have hgreatest : ¬first < config.webhookMaxAttempts :=
              fun hlt => hfailed (hlast.success hlt)
            rw [if_neg hgreatest]
      · simpa using hrow
  | succ count ih =>
      have hlt : first < last := by omega
      obtain ⟨next, hnext, hafter, hrow⟩ :=
        handler_attempt config hphase outcomes
      have hsleeping : next.phase handler = .sleeping dispatch first := by
        rw [hafter, Worker.afterRecord, hlast.before first hfirst hlt,
          if_neg Bool.false_ne_true, if_pos (hlt.trans_le hlast.le_greatest)]
      have hwake : (Worker.system Handler Message config).step next
          (.wake handler) =
            some (next.goto handler (.delivering dispatch (first + 1))) := by
        simp only [Worker.system, Worker.step, hsleeping]
      have hdelivering : (next.goto handler
          (.delivering dispatch (first + 1))).phase handler =
            .delivering dispatch (first + 1) :=
        Function.update_self ..
      obtain ⟨final, hrun, hphase', hrows⟩ :=
        ih (Nat.le_add_left 1 first) (by omega) hdelivering
      refine ⟨final, ?_, hphase', ?_⟩
      · rw [List.range'_succ, handlerActions, List.flatMap_cons, if_pos hlt,
          System.run_append, System.run_append, hnext, Option.bind_some,
          System.run_singleton, hwake, Option.bind_some]
        exact hrun
      · have hnumbers : List.range' first (count + 1 + 1) =
            first :: List.range' (first + 1) (count + 1) := List.range'_succ
        have hkept : (next.goto handler
            (.delivering dispatch (first + 1))).deliveries =
              next.deliveries := rfl
        rw [hrows, hnumbers, hkept, hrow, List.map_cons, List.reverse_cons,
          List.append_assoc, List.singleton_append]

/-- The verdict of `_dispatch` decides between the acknowledgement and the dead
letter, and the rows of the handler are those of the call. -/
theorem Accounted.handler {hmacSha256 : List Byte → List Byte → Text}
    {config : Config F} {webhook : Webhook} {deliveryId : Text}
    {surroundings : ℕ → Surroundings} {outcomes : ℕ → Attempt} {last : ℕ}
    {course : Course} {state : Worker.State F Handler Message}
    {handler : Handler} {dispatch : Worker.Dispatch F Message}
    (haccounted : Accounted hmacSha256 dispatch.envelope.webhookId webhook
      dispatch.payload deliveryId surroundings outcomes
      config.webhookMaxAttempts last course)
    (hphase : state.phase handler = .delivering dispatch 1) :
    ∃ final, (Worker.system Handler Message config).run state
        (handlerActions handler outcomes last (List.range' 1 last)) =
          some final ∧
      final.phase handler =
        (if course.verdict = some true then .acking dispatch.message
        else .deadLettering dispatch.message dispatch.envelope) ∧
      final.deliveries =
        (rowsOf course.entries).reverse ++ state.deliveries := by
  obtain ⟨count, rfl⟩ :=
    Nat.exists_eq_add_of_le' haccounted.isLast.positive
  obtain ⟨final, hrun, hfinal, hrows⟩ := handler_takes_attempts config
    haccounted.isLast count le_rfl (Nat.add_comm 1 count) hphase
  refine ⟨final, hrun, ?_, ?_⟩
  · rw [hfinal, haccounted.verdict]
    simp
  · rw [hrows, haccounted.rows]

end Handlers

end UTTG.Dispatch
