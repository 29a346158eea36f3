import UTTG.Core.Wrapped
import UTTG.Python.Integer

/-!
# The limit on request bodies

`RequestBodyLimitMiddleware` answers a request by itself when its headers
declare too long a body, and counts the bytes of the body as the application
receives them.  Where they go over the maximum the receive function raises, and
the middleware answers in the place of the application.  It does not look
whether the application has begun its own response.
-/

namespace UTTG.BodyLimit

open Python Wrapped

/-! ## The middleware -/

/-- A message from the server, with its `body` and `more_body` where given. -/
structure Message where
  type : Text
  body : Option (List Byte)
  moreBody : Option Bool
  deriving DecidableEq

abbrev Header := List Byte × List Byte

/-- A message to the server. -/
inductive Response where
  | start (status : ℕ) (headers : List Header)
  | body (content : List Byte) (moreBody : Bool)
  | other (type : Text)
  deriving DecidableEq

structure Scope where
  type : Text
  headers : List Header

/-- The bytes of a literal. -/
def bytes (literal : String) : List Byte :=
  literal.toList.map fun char => byte char.toNat

/-- `name.lower()`. -/
def lower (name : List Byte) : List Byte :=
  name.map fun unit =>
    if 0x41 ≤ unit.val ∧ unit.val ≤ 0x5A then byte (unit.val + 0x20) else unit

/-- The loop over the headers: whether it answers and returns. -/
def refusesHeaders (maximum : ℕ) : List Header → Bool
  | [] => false
  | (name, value) :: rest =>
      if lower name ≠ bytes "content-length" then refusesHeaders maximum rest
      else
        match intOfBytes value with
        | none => true
        | some length =>
            if (maximum : ℤ) < length then true else refusesHeaders maximum rest

/-- `message["type"] == "http.request"`. -/
def Message.isRequest (message : Message) : Bool :=
  message.type = text "http.request"

/-- `limited_receive` on a message, with `consumed` before and after; `none`
where it raises. -/
def limitedReceive (maximum consumed : ℕ) (message : Message) : Option ℕ :=
  if message.isRequest then
    let consumed := consumed + (message.body.getD []).length
    if maximum < consumed then none else some consumed
  else some consumed

/-- The first message of `_payload_too_large`. -/
def tooLargeStart : Response :=
  .start 413 [(bytes "content-type", bytes "application/problem+json")]

def tooLargeBody : Response :=
  .body
    (bytes "\x7b\"type\":\"https://uttg.example/problems/payload-too-large\"," ++
      bytes "\"title\":\"Payload too large\",\"status\":413," ++
      bytes "\"detail\":\"Request body exceeds the configured limit\"," ++
      bytes "\"code\":\"PAYLOAD_TOO_LARGE\"\x7d")
    false

/-- `_payload_too_large`. -/
def payloadTooLarge : List Response := [tooLargeStart, tooLargeBody]

section Calls

variable {State : Type*} (app : Program State Message Response)

abbrev AppCall (State : Type*) := Call State ℕ Message Response

/-- `limited_receive` and the `except` branch. -/
def limited (maximum : ℕ) : Wrapper ℕ Message Response where
  receive := limitedReceive maximum
  handler := payloadTooLarge

/-- The receive function that the application is handed. -/
def wrapperOf (maximum : ℕ) (scope : Scope) : Wrapper ℕ Message Response :=
  if scope.type ≠ text "http" then .plain ℕ Message Response
  else limited maximum

/-- Where the headers are done with. -/
def enter (maximum : ℕ) (scope : Scope) (state : State)
    (incoming : List Message) : AppCall State :=
  if scope.type ≠ text "http" then .start (.running state) 0 incoming
  else if refusesHeaders maximum scope.headers then
    .start (.handling payloadTooLarge) 0 incoming
  else .start (.running state) 0 incoming

/-- `RequestBodyLimitMiddleware.__call__` after a number of steps. -/
def call (maximum : ℕ) (scope : Scope) (state : State)
    (incoming : List Message) (steps : ℕ) : AppCall State :=
  (enter maximum scope state incoming).run (wrapperOf maximum scope) app steps

/-- The application without the middleware, which is how `call_eq_direct` has it
see the calls that are no requests. -/
def direct (state : State) (incoming : List Message) (steps : ℕ) :
    AppCall State :=
  (Call.start (.running state) 0 incoming).run (.plain ℕ Message Response) app
    steps

/-- Calls that are no requests reach the application as they are. -/
theorem call_eq_direct {scope : Scope} (hscope : scope.type ≠ text "http")
    (maximum : ℕ) (state : State) (incoming : List Message) (steps : ℕ) :
    call app maximum scope state incoming steps =
      direct app state incoming steps := by
  rw [call, direct, enter, wrapperOf, if_pos hscope, if_pos hscope]

end Calls

/-! ## What the limit promises -/

/-- The bytes of the body in a message. -/
def Message.bodySize (message : Message) : ℕ :=
  if message.isRequest then (message.body.getD []).length else 0

def bodyBytes (messages : List Message) : ℕ :=
  (messages.map Message.bodySize).sum

/-- Every declared length is a number within the maximum. -/
def Declared (maximum : ℕ) (headers : List Header) : Prop :=
  ∀ header ∈ headers, lower header.1 = bytes "content-length" →
    ∃ length, intOfBytes header.2 = some length ∧ length ≤ (maximum : ℤ)

def Response.isStart : Response → Bool
  | .start _ _ => true
  | _ => false

/-- The `http.response.start` messages. -/
def starts (messages : List Response) : List Response :=
  messages.filter Response.isStart

def httpScope (headers : List Header) : Scope := ⟨text "http", headers⟩

section Promises

variable {State : Type*} (app : Program State Message Response) (maximum : ℕ)
  (headers : List Header) (state : State) (incoming : List Message)

/-- The lengths and the body are within the maximum. -/
def Within : Prop := Declared maximum headers ∧ bodyBytes incoming ≤ maximum

/-- What the limit promises about a request. -/
structure Upheld : Prop where
  received_bytes : ∀ steps, bodyBytes
    (call app maximum (httpScope headers) state incoming steps).received ≤
      maximum
  received_in_order : ∀ steps,
    (call app maximum (httpScope headers) state incoming steps).received <+:
      incoming
  /-- The application and the client see no difference. -/
  untouched : Within maximum headers incoming → ∀ steps,
    let limited := call app maximum (httpScope headers) state incoming steps
    let plain := direct app state incoming steps
    limited.phase = plain.phase ∧ limited.incoming = plain.incoming ∧
      limited.received = plain.received ∧ limited.sent = plain.sent
  one_start : ¬Within maximum headers incoming → ∀ steps, (starts
    (call app maximum (httpScope headers) state incoming steps).sent).length ≤ 1
  /-- The response is the 413 unless the application has started one. -/
  refused : ¬Within maximum headers incoming → ∀ steps,
    starts (call app maximum (httpScope headers) state incoming steps).own =
      [] →
    ∀ first ∈ starts
      (call app maximum (httpScope headers) state incoming steps).sent,
      first = tooLargeStart

/-- With some messages only, the application starts at most one response, and
none before it waits for a further message. -/
def AnswersAfter (messages : List Message) : Prop :=
  ∀ steps, (starts (direct app state messages steps).sent).length ≤ 1 ∧
    ((direct app state messages steps).Waits app →
      starts (direct app state messages steps).sent = [])

end Promises

/-! ## Headers and bytes -/

theorem refusesHeaders_eq_false_iff (maximum : ℕ) (headers : List Header) :
    refusesHeaders maximum headers = false ↔ Declared maximum headers := by
  induction headers with
  | nil => exact ⟨fun _ => List.forall_mem_nil _, fun _ => rfl⟩
  | cons header rest ih =>
      obtain ⟨name, value⟩ := header
      rw [Declared, List.forall_mem_cons, refusesHeaders]
      by_cases hname : lower name = bytes "content-length"
      · rw [if_neg (not_not_intro hname)]
        cases hvalue : intOfBytes value with
        | none => simp [hname]
        | some length =>
            simp only [hname, forall_const, Option.some.injEq,
              exists_eq_left']
            rw [← Declared, ← ih]
            by_cases hlength : (maximum : ℤ) < length
            · simp [hlength]
            · simp [hlength, not_lt.mp hlength]
      · rw [if_pos hname, ih]
        simp only [hname, false_imp_iff, true_and]
        rfl

theorem bodyBytes_append (left right : List Message) :
    bodyBytes (left ++ right) = bodyBytes left + bodyBytes right := by
  rw [bodyBytes, List.map_append, List.sum_append]
  rfl

theorem bodyBytes_cons (message : Message) (rest : List Message) :
    bodyBytes (message :: rest) = message.bodySize + bodyBytes rest := by
  rw [bodyBytes, List.map_cons, List.sum_cons]
  rfl

theorem bodyBytes_mono {left right : List Message}
    (hfirst : left <+: right) : bodyBytes left ≤ bodyBytes right := by
  obtain ⟨rest, rfl⟩ := hfirst
  rw [bodyBytes_append]
  exact Nat.le_add_right _ _

/-- Within the maximum the receive function counts the bytes of the body. -/
theorem limitedReceive_eq {maximum consumed : ℕ} (hconsumed : consumed ≤ maximum)
    (message : Message) :
    limitedReceive maximum consumed message =
      if maximum < consumed + message.bodySize then none
      else some (consumed + message.bodySize) := by
  rw [limitedReceive, Message.bodySize]
  by_cases hrequest : message.isRequest = true
  · rw [if_pos hrequest, if_pos hrequest]
  · rw [if_neg hrequest, if_neg hrequest, Nat.add_zero,
      if_neg (Nat.not_lt.mpr hconsumed)]

theorem foldlM_limitedReceive {maximum consumed : ℕ} {messages : List Message}
    (hfits : consumed + bodyBytes messages ≤ maximum) :
    messages.foldlM (limitedReceive maximum) consumed =
      some (consumed + bodyBytes messages) := by
  induction messages generalizing consumed with
  | nil => rfl
  | cons message rest ih =>
      rw [bodyBytes_cons] at hfits
      rw [List.foldlM_cons, limitedReceive_eq (by omega), if_neg (by omega),
        Option.bind_eq_bind, Option.bind_some, ih (by omega), bodyBytes_cons,
        Nat.add_assoc]

/-- The messages up to the one that goes over the maximum. -/
theorem exists_split (maximum : ℕ) (incoming : List Message) :
    ∃ before rest, incoming = before ++ rest ∧ bodyBytes before ≤ maximum ∧
      ∀ message tail, rest = message :: tail →
        maximum < bodyBytes (before ++ [message]) := by
  induction incoming using List.reverseRecOn with
  | nil => exact ⟨[], [], rfl, Nat.zero_le _, nofun⟩
  | append_singleton incoming last ih =>
      obtain ⟨before, rest, rfl, hbefore, hover⟩ := ih
      cases rest with
      | nil =>
          rw [List.append_nil]
          by_cases hfits : bodyBytes (before ++ [last]) ≤ maximum
          · exact ⟨before ++ [last], [], (List.append_nil _).symm, hfits, nofun⟩
          · refine ⟨before, [last], rfl, hbefore, ?_⟩
            rintro message tail ⟨⟩
            exact Nat.lt_of_not_le hfits
      | cons message tail =>
          refine ⟨before, message :: (tail ++ [last]), ?_, hbefore, ?_⟩
          · rw [List.append_assoc, List.cons_append]
          · rintro first others ⟨⟩
            exact hover message tail rfl

/-! ## Response starts -/

theorem starts_append (left right : List Response) :
    starts (left ++ right) = starts left ++ starts right :=
  List.filter_append left right

theorem starts_payloadTooLarge : starts payloadTooLarge = [tooLargeStart] :=
  rfl

/-- What the handler has sent has no start but the 413. -/
theorem starts_of_append {finished pending : List Response}
    (hhandler : payloadTooLarge = finished ++ pending) :
    starts finished <+: [tooLargeStart] := by
  rw [← starts_payloadTooLarge, hhandler, starts_append]
  exact List.prefix_append _ _

/-! ## The limit on a request -/

section Limit

variable {State : Type*} {app : Program State Message Response} {maximum : ℕ}
  {headers : List Header} {state : State} {before rest : List Message}

theorem call_of_refused (hrefused : refusesHeaders maximum headers = true)
    (incoming : List Message) (steps : ℕ) :
    call app maximum (httpScope headers) state incoming steps =
      (Call.start (.handling payloadTooLarge) 0 incoming).run
        (limited maximum) app steps := by
  rw [call, enter, wrapperOf, httpScope, if_neg (not_not_intro rfl),
    if_neg (not_not_intro rfl), if_pos hrefused]

theorem call_of_declared (hdeclared : Declared maximum headers)
    (incoming : List Message) (steps : ℕ) :
    call app maximum (httpScope headers) state incoming steps =
      (Call.start (.running state) 0 incoming).run (limited maximum) app
        steps := by
  have hpasses : ¬refusesHeaders maximum headers = true := by
    rw [(refusesHeaders_eq_false_iff maximum headers).mpr hdeclared]
    exact Bool.false_ne_true
  rw [call, enter, wrapperOf, httpScope, if_neg (not_not_intro rfl),
    if_neg (not_not_intro rfl), if_neg hpasses]

/-- The head of the rest does not fit. -/
def Overflows (maximum : ℕ) (before rest : List Message) : Prop :=
  ∀ message tail, rest = message :: tail →
    maximum < bodyBytes (before ++ [message])

theorem Overflows.refused (hbefore : bodyBytes before ≤ maximum)
    (hover : Overflows maximum before rest) (message : Message)
    (tail : List Message) (hrest : rest = message :: tail) :
    (limited maximum).receive (bodyBytes before) message = none := by
  have hlarge := hover message tail hrest
  rw [bodyBytes_append, bodyBytes_cons] at hlarge
  exact (limitedReceive_eq hbefore message).trans (if_pos hlarge)

theorem follows_start (hbefore : bodyBytes before ≤ maximum) :
    Follows (limited maximum) rest (bodyBytes before)
      (Call.start (.running state) 0 (before ++ rest) : AppCall State)
      (.start (.running state) 0 before) := by
  apply Follows.start
  have hfits : 0 + bodyBytes before ≤ maximum := by rwa [Nat.zero_add]
  have hfold := foldlM_limitedReceive hfits
  rw [Nat.zero_add] at hfold
  exact hfold

variable (app state) in
/-- The call follows the application on the messages that fit, and answers by
itself only where that one waits for more. -/
theorem call_cases (hdeclared : Declared maximum headers)
    (hbefore : bodyBytes before ≤ maximum)
    (hover : Overflows maximum before rest) (steps : ℕ) :
    Follows (limited maximum) rest (bodyBytes before)
        (call app maximum (httpScope headers) state (before ++ rest) steps)
        (direct app state before steps) ∨
      Overran (limited maximum) app rest
        (call app maximum (httpScope headers) state (before ++ rest) steps)
        (direct app state before steps) := by
  rw [call_of_declared hdeclared]
  exact follows_or_overran app (hover.refused hbefore) (follows_start hbefore) steps

variable (app state) in
theorem received_prefix_before (hdeclared : Declared maximum headers)
    (hbefore : bodyBytes before ≤ maximum)
    (hover : Overflows maximum before rest) (steps : ℕ) :
    (call app maximum (httpScope headers) state (before ++ rest) steps).received
      <+: before := by
  have heq : (call app maximum (httpScope headers) state (before ++ rest)
      steps).received = (direct app state before steps).received := by
    rcases call_cases app state hdeclared hbefore hover steps with hfollows | hoverran
    · exact hfollows.received
    · exact hoverran.received
  rw [heq]
  exact ⟨_, received_append_incoming steps⟩

/-- A request that its headers refuse is answered without the application. -/
theorem upheld_of_refused (hdeclared : ¬Declared maximum headers)
    (incoming : List Message) :
    Upheld app maximum headers state incoming := by
  have hrefused : refusesHeaders maximum headers = true := by
    by_contra hpasses
    exact hdeclared ((refusesHeaders_eq_false_iff maximum headers).mp
      (Bool.eq_false_of_not_eq_true hpasses))
  have hrun : ∀ steps,
      (call app maximum (httpScope headers) state incoming steps).Handles []
          payloadTooLarge ∧
        (call app maximum (httpScope headers) state incoming steps).received =
          [] := by
    intro steps
    rw [call_of_refused hrefused]
    have hstart : (Call.start (.handling payloadTooLarge) 0 incoming :
        AppCall State).Handles [] payloadTooLarge :=
      Call.handles_start 0 incoming
    obtain ⟨hhandles, hreceived, -⟩ := hstart.run (limited maximum) app steps
    exact ⟨hhandles, hreceived⟩
  have hstarts : ∀ steps, starts
      (call app maximum (httpScope headers) state incoming steps).sent <+:
        [tooLargeStart] := by
    intro steps
    obtain ⟨⟨finished, pending, hhandler, hsent, -⟩, -⟩ := hrun steps
    rw [hsent]
    exact starts_of_append hhandler
  refine ⟨fun steps => ?_, fun steps => ?_, fun hwithin => ?_,
    fun _ steps => (hstarts steps).length_le, fun _ steps _ first hfirst => ?_⟩
  · rw [(hrun steps).2]
    exact Nat.zero_le _
  · rw [(hrun steps).2]
    exact List.nil_prefix
  · exact absurd hwithin.1 hdeclared
  · exact List.mem_singleton.mp ((hstarts steps).subset hfirst)

/-- A request within the maximum reaches the application as it is. -/
theorem upheld_of_within {incoming : List Message}
    (hwithin : Within maximum headers incoming) :
    Upheld app maximum headers state incoming := by
  obtain ⟨hdeclared, hbytes⟩ := id hwithin
  have hover : Overflows maximum incoming [] := nofun
  have hfollows : ∀ steps, Follows (limited maximum) [] (bodyBytes incoming)
      (call app maximum (httpScope headers) state incoming steps)
      (direct app state incoming steps) := by
    intro steps
    have hcases := call_cases app state hdeclared hbytes hover steps
    rw [List.append_nil] at hcases
    exact hcases.resolve_right fun hoverran => hoverran.more rfl
  have hprefixes : ∀ steps,
      (call app maximum (httpScope headers) state incoming steps).received <+:
        incoming := by
    intro steps
    have hreceived :=
      received_prefix_before app state hdeclared hbytes hover steps
    rwa [List.append_nil] at hreceived
  refine ⟨fun steps => ?_, hprefixes, fun _ steps => ?_,
    fun hnot => absurd hwithin hnot, fun hnot => absurd hwithin hnot⟩
  · exact (bodyBytes_mono (hprefixes steps)).trans hbytes
  · have hincoming := (hfollows steps).incoming
    rw [List.append_nil] at hincoming
    exact ⟨(hfollows steps).phase, hincoming, (hfollows steps).received,
      (hfollows steps).sent⟩

theorem not_within_of_overflow {message : Message} {after : List Message}
    (hover : maximum < bodyBytes (before ++ [message])) :
    ¬Within maximum headers (before ++ message :: after) := by
  rintro ⟨-, hbytes⟩
  have hfirst : before ++ [message] <+: before ++ message :: after :=
    ⟨after, by rw [List.append_assoc, List.singleton_append]⟩
  exact absurd (hover.trans_le (bodyBytes_mono hfirst))
    (Nat.not_lt.mpr hbytes)

/-- A body that goes over the maximum has one response when the application
answers once, or not before it waits. -/
theorem upheld_of_answers (hdeclared : Declared maximum headers)
    (hbefore : bodyBytes before ≤ maximum) {message : Message}
    {after : List Message}
    (hover : maximum < bodyBytes (before ++ [message]))
    (hanswers : AnswersAfter app state before) :
    Upheld app maximum headers state (before ++ message :: after) := by
  have hoverflows : Overflows maximum before (message :: after) := by
    rintro first others ⟨⟩
    exact hover
  have hreceived :=
    received_prefix_before app state hdeclared hbefore hoverflows
  have hnot : ¬Within maximum headers (before ++ message :: after) :=
    not_within_of_overflow hover
  refine ⟨fun steps => ?_, fun steps => ?_, fun hwithin => absurd hwithin hnot,
    fun _ steps => ?_, fun _ steps hown first hfirst => ?_⟩
  · exact (bodyBytes_mono (hreceived steps)).trans hbefore
  · exact (hreceived steps).trans (List.prefix_append _ _)
  · rcases call_cases app state hdeclared hbefore hoverflows steps with
      hfollows | hoverran
    · rw [hfollows.sent]
      exact (hanswers steps).1
    · obtain ⟨finished, pending, hhandler, hsent, -⟩ := hoverran.handled
      rw [hsent, starts_append, (hanswers steps).2 hoverran.waits,
        List.nil_append]
      exact (starts_of_append hhandler).length_le
  · rcases call_cases app state hdeclared hbefore hoverflows steps with
      hfollows | hoverran
    · rw [hfollows.own] at hown
      rw [hfollows.sent, hown] at hfirst
      exact absurd hfirst List.not_mem_nil
    · obtain ⟨finished, pending, hhandler, hsent, -⟩ := hoverran.handled
      rw [hsent, starts_append, (hanswers steps).2 hoverran.waits,
        List.nil_append] at hfirst
      exact List.mem_singleton.mp ((starts_of_append hhandler).subset hfirst)

/-- Where one response starts at most, the application answers once, and not
before it waits. -/
theorem answers_of_upheld (hdeclared : Declared maximum headers)
    (hbefore : bodyBytes before ≤ maximum) {message : Message}
    {after : List Message}
    (hover : maximum < bodyBytes (before ++ [message]))
    (hupheld : Upheld app maximum headers state (before ++ message :: after)) :
    AnswersAfter app state before := by
  have hoverflows : Overflows maximum before (message :: after) := by
    rintro first others ⟨⟩
    exact hover
  have hone := hupheld.one_start (not_within_of_overflow hover)
  intro steps
  constructor
  · rcases call_cases app state hdeclared hbefore hoverflows steps with
      hfollows | hoverran
    · rw [← hfollows.sent]
      exact hone steps
    · obtain ⟨finished, pending, hhandler, hsent, -⟩ := hoverran.handled
      have hlength := hone steps
      rw [hsent, starts_append, List.length_append] at hlength
      exact (Nat.le_add_right _ _).trans hlength
  · intro hwaits
    obtain ⟨further, hsent⟩ := exists_handled (hoverflows.refused hbefore)
      (List.cons_ne_nil _ _) (follows_start hbefore) hwaits
    have hlength := hone further
    rw [call_of_declared hdeclared, hsent, ← direct, starts_append,
      List.length_append] at hlength
    have hhandler : (starts (limited maximum).handler).length = 1 := rfl
    exact List.eq_nil_of_length_eq_zero (by omega)

/-- The limit keeps its promises exactly when a body that goes over the maximum
finds the application with one response at most, and with none before it waits
for the message that goes over. -/
theorem upheld_iff (app : Program State Message Response) (maximum : ℕ)
    (headers : List Header) (state : State) (incoming : List Message) :
    Upheld app maximum headers state incoming ↔
      (Declared maximum headers → ∀ before message after,
        incoming = before ++ message :: after →
        bodyBytes before ≤ maximum →
        maximum < bodyBytes (before ++ [message]) →
        AnswersAfter app state before) := by
  constructor
  · rintro hupheld hdeclared before message after rfl hbefore hover
    exact answers_of_upheld hdeclared hbefore hover hupheld
  · intro hanswers
    by_cases hdeclared : Declared maximum headers
    · obtain ⟨before, rest, rfl, hbefore, hover⟩ :=
        exists_split maximum incoming
      cases rest with
      | nil =>
          rw [List.append_nil]
          exact upheld_of_within ⟨hdeclared, hbefore⟩
      | cons message after =>
          have hlarge := hover message after rfl
          exact upheld_of_answers hdeclared hbefore hlarge
            (hanswers hdeclared before message after rfl hbefore hlarge)
    · exact upheld_of_refused hdeclared incoming

/-- An application that starts its response before it reads the body. -/
def earlyStart : Program Bool Message Response
  | false => .send (.start 200 []) true
  | true => .receive fun _ => true

/-- Its client receives two response starts. -/
theorem early_start_answered_twice :
    ¬Upheld earlyStart 1024 [] false
      [⟨text "http.request", some (List.replicate 1025 (byte 0)), none⟩] := by
  intro hupheld
  have hlarge : 1024 < bodyBytes
      [⟨text "http.request", some (List.replicate 1025 (byte 0)), none⟩] := by
    decide +kernel
  have hone := hupheld.one_start (fun hwithin => absurd hwithin.2
    (Nat.not_le.mpr hlarge)) 3
  revert hone
  decide +kernel

end Limit

end UTTG.BodyLimit
