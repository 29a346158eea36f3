import UTTG.Webhooks.NoLoss

/-!
# Where deliveries come from

Whatever a worker posts, records or dead-letters belongs to a message of the
stream whose lookup found an active webhook subscribed to the event.  The
invariant names, for each phase of a handler, the message that it is about.
-/

namespace UTTG.Worker

open Python Transition
open Expiring (Reply)

section Origins

variable {F Handler Message : Type} (config : Config F)

/-- A lookup of the message found an active webhook with the event. -/
def Listed (state : State F Handler Message) (message : Message)
    (envelope : Envelope F) : Prop :=
  ∃ row : Webhook, .lookedUp message (some row) ∈ state.events ∧
    row.active = true ∧
    subscribed config row.events envelope.eventName = some true

/-- The message was published and its lookup found an interested webhook. -/
structure Accepted (state : State F Handler Message) (message : Message)
    (envelope : Envelope F) : Prop where
  carries : Carries config state message envelope
  listed : Listed config state message envelope

/-- The payload in hand is the body for an accepted message. -/
structure Prepared (state : State F Handler Message)
    (dispatch : Dispatch F Message) : Prop where
  accepted : Accepted config state dispatch.message dispatch.envelope
  payload : ∃ createdAt,
    dispatchPayload config dispatch.envelope createdAt = some dispatch.payload

/-- The message behind each phase of a handler. -/
def Originates (state : State F Handler Message) : Phase F Message → Prop
  | .idle | .terminating _ | .acking _ => True
  | .lookingUp message envelope => Carries config state message envelope
  | .delivering dispatch _ | .recording dispatch _ _ | .sleeping dispatch _ =>
      Prepared config state dispatch
  | .deadLettering message envelope => Accepted config state message envelope

def Recorded (state : State F Handler Message) (row : WebhookDelivery) :
    Prop :=
  ∃ dispatch, Prepared config state dispatch ∧
    row.webhookId = dispatch.envelope.webhookId ∧
    row.payload = dispatch.payload

def Lettered (state : State F Handler Message) (letter : List Byte) : Prop :=
  ∃ message envelope, Accepted config state message envelope ∧
    deadLetter config envelope = some letter

/-- Everything a worker did has a message behind it. -/
structure Traced (state : State F Handler Message) : Prop where
  phases : ∀ handler, Originates config state (state.phase handler)
  deliveries : ∀ row ∈ state.deliveries, Recorded config state row
  deadLetters : ∀ letter ∈ state.deadLetters, Lettered config state letter

end Origins

section Growth

variable {F Handler Message : Type} {config : Config F}
variable {state next : State F Handler Message}

theorem Accepted.mono (hextends : Extends state next) {message : Message}
    {envelope : Envelope F}
    (haccepted : Accepted config state message envelope) :
    Accepted config next message envelope := by
  obtain ⟨hcarries, row, hseen, hrow⟩ := haccepted
  exact ⟨hcarries.mono hextends, row, hextends.events _ hseen, hrow⟩

theorem Prepared.mono (hextends : Extends state next)
    {dispatch : Dispatch F Message}
    (hprepared : Prepared config state dispatch) :
    Prepared config next dispatch :=
  ⟨hprepared.accepted.mono hextends, hprepared.payload⟩

theorem Originates.mono (hextends : Extends state next)
    {phase : Phase F Message} (hphase : Originates config state phase) :
    Originates config next phase := by
  cases phase with
  | idle | terminating | acking => trivial
  | lookingUp message envelope => exact Carries.mono hextends hphase
  | delivering dispatch attempt => exact Prepared.mono hextends hphase
  | recording dispatch attempt outcome => exact Prepared.mono hextends hphase
  | sleeping dispatch attempt => exact Prepared.mono hextends hphase
  | deadLettering message envelope => exact Accepted.mono hextends hphase

theorem Recorded.mono (hextends : Extends state next) {row : WebhookDelivery}
    (hrow : Recorded config state row) : Recorded config next row := by
  obtain ⟨dispatch, hprepared, hid, hpayload⟩ := hrow
  exact ⟨dispatch, hprepared.mono hextends, hid, hpayload⟩

theorem Lettered.mono (hextends : Extends state next) {letter : List Byte}
    (hletter : Lettered config state letter) : Lettered config next letter := by
  obtain ⟨message, envelope, haccepted, hdata⟩ := hletter
  exact ⟨message, envelope, haccepted.mono hextends, hdata⟩

end Growth

section Steps

variable {F Handler Message : Type} {config : Config F}

/-- A handler that goes on after the lookup has an accepted message. -/
theorem originates_afterLookUp {state : State F Handler Message}
    {message : Message} {envelope : Envelope F} {row : Option Webhook}
    (createdAt : Text) (hcarries : Carries config state message envelope)
    (hseen : .lookedUp message row ∈ state.events) :
    Originates config state
      (afterLookUp config message envelope row createdAt) := by
  unfold afterLookUp
  cases hactive : row.filter Webhook.active with
  | none => trivial
  | some webhook =>
      obtain ⟨rfl, hon⟩ := Option.filter_eq_some_iff.mp hactive
      dsimp only
      cases hlisted : subscribed config webhook.events envelope.eventName with
      | none => trivial
      | some listed =>
          cases listed with
          | false => trivial
          | true =>
              have haccepted : Accepted config state message envelope :=
                ⟨hcarries, webhook, hseen, hon, hlisted⟩
              dsimp only
              cases hpayload : dispatchPayload config envelope createdAt with
              | none => trivial
              | some payload =>
                  dsimp only
                  split
                  · exact haccepted
                  · split
                    · exact ⟨haccepted, createdAt, hpayload⟩
                    · exact haccepted

theorem originates_afterRecord {state : State F Handler Message}
    {dispatch : Dispatch F Message} (attempt : ℕ) (outcome : Attempt)
    (hprepared : Prepared config state dispatch) :
    Originates config state
      (afterRecord config dispatch attempt outcome) := by
  unfold afterRecord
  split
  · trivial
  · split
    · exact hprepared
    · exact hprepared.accepted

theorem originates_reply {state : State F Handler Message} (reply : Reply)
    {phase : Phase F Message} (hphase : Originates config state phase) :
    Originates config state (if reply = .answered then phase else .idle) := by
  split
  · exact hphase
  · trivial

/-- What one step adds, each with its message. -/
structure Adds (config : Config F) (state next : State F Handler Message) :
    Prop where
  phases : ∀ handler, next.phase handler = state.phase handler ∨
    Originates config next (next.phase handler)
  deliveries : ∀ row ∈ next.deliveries, row ∈ state.deliveries ∨
    Recorded config next row
  deadLetters : ∀ letter ∈ next.deadLetters, letter ∈ state.deadLetters ∨
    Lettered config next letter

variable [DecidableEq Handler]

/-- A handler moves, the logs grow as told. -/
theorem Adds.goto {state base : State F Handler Message} {handler : Handler}
    {phase : Phase F Message} (hphase : base.phase = state.phase)
    (hdeliveries : ∀ row ∈ base.deliveries, row ∈ state.deliveries ∨
      Recorded config base row)
    (hletters : ∀ letter ∈ base.deadLetters, letter ∈ state.deadLetters ∨
      Lettered config base letter)
    (horiginates : Originates config base phase) :
    Adds config state (base.goto handler phase) := by
  have hsame : Extends base (base.goto handler phase) := .of_eq rfl rfl rfl
  refine ⟨fun other => ?_, fun row hrow => ?_, fun letter hletter => ?_⟩
  · by_cases hother : other = handler
    · right
      have hnext : (base.goto handler phase).phase other = phase := by
        rw [hother]
        exact Function.update_self ..
      rw [hnext]
      exact horiginates.mono hsame
    · left
      rw [← hphase]
      exact Function.update_of_ne hother ..
  · exact (hdeliveries row hrow).imp_right fun hnew => hnew.mono hsame
  · exact (hletters letter hletter).imp_right fun hnew => hnew.mono hsame

/-- A handler moves and nothing is logged. -/
theorem Adds.goto_same {state base : State F Handler Message}
    {handler : Handler} {phase : Phase F Message}
    (hphase : base.phase = state.phase)
    (hdeliveries : base.deliveries = state.deliveries)
    (hletters : base.deadLetters = state.deadLetters)
    (horiginates : Originates config base phase) :
    Adds config state (base.goto handler phase) := by
  apply Adds.goto hphase ?_ ?_ horiginates
  · rw [hdeliveries]
    exact fun row hrow => .inl hrow
  · rw [hletters]
    exact fun letter hletter => .inl hletter

variable [DecidableEq Message]

theorem Traced.adds {state next : State F Handler Message}
    (htraced : Traced config state) {action : Action Handler Message}
    (hstep : step config state action = some next) :
    Adds config state next := by
  have hphase := htraced.phases
  cases action with
  | publish message data =>
      simp only [step, Option.ite_none_right_eq_some,
        Option.some.injEq] at hstep
      obtain ⟨-, rfl⟩ := hstep
      exact ⟨fun _ => .inl rfl, fun _ hrow => .inl hrow,
        fun _ hletter => .inl hletter⟩
  | setWebhook id row =>
      obtain rfl := Option.some.inj hstep
      exact ⟨fun _ => .inl rfl, fun _ hrow => .inl hrow,
        fun _ hletter => .inl hletter⟩
  | deliver handler message =>
      simp only [step] at hstep
      split at hstep
      · next data _ hpublished =>
          split at hstep
          · obtain rfl := Option.some.inj hstep
            exact .goto_same rfl rfl rfl trivial
          · next envelope hdecode =>
              obtain rfl := Option.some.inj hstep
              exact .goto_same rfl rfl rfl ⟨data, hpublished, hdecode⟩
      · simp at hstep
  | term handler reply =>
      simp only [step] at hstep
      split at hstep
      · split at hstep
        · obtain rfl := Option.some.inj hstep
          exact .goto_same rfl rfl rfl trivial
        · obtain rfl := Option.some.inj hstep
          exact .goto_same rfl rfl rfl trivial
      · simp at hstep
  | lookUp handler createdAt =>
      simp only [step] at hstep
      split at hstep
      · next message envelope hlooking =>
          obtain rfl := Option.some.inj hstep
          have hcarries := hphase handler
          rw [hlooking] at hcarries
          have hgrows := extends_see state
            (.lookedUp message (state.webhooks envelope.webhookId))
          exact .goto_same rfl rfl rfl (originates_afterLookUp createdAt
            (Carries.mono hgrows hcarries) List.mem_cons_self)
      · simp at hstep
  | attempt handler outcome =>
      simp only [step] at hstep
      split at hstep
      · next dispatch attempt hdelivering =>
          obtain rfl := Option.some.inj hstep
          have hprepared := hphase handler
          rw [hdelivering] at hprepared
          cases outcome with
          | responded status =>
              exact .goto_same rfl rfl rfl (Prepared.mono (extends_see state
                (.responded dispatch.message status)) hprepared)
          | rejected => exact .goto_same rfl rfl rfl hprepared
          | failed => exact .goto_same rfl rfl rfl hprepared
      · simp at hstep
  | record handler reply =>
      simp only [step] at hstep
      split at hstep
      · next dispatch attempt outcome hrecording =>
          obtain rfl := Option.some.inj hstep
          have hprepared := hphase handler
          rw [hrecording] at hprepared
          have hgrows : ∀ rows, Extends state { state with deliveries := rows } :=
            fun _ => .of_eq rfl rfl rfl
          split
          · exact .goto_same rfl rfl rfl
              (originates_reply reply (originates_afterRecord _ _ hprepared))
          · refine .goto rfl (fun row hrow => ?_) (fun _ hletter => .inl hletter)
              (originates_reply reply (originates_afterRecord _ _ ?_))
            · rcases List.mem_cons.mp hrow with rfl | hbefore
              · exact .inr ⟨dispatch,
                  Prepared.mono (hgrows _) hprepared, rfl, rfl⟩
              · exact .inl hbefore
            · exact Prepared.mono (hgrows _) hprepared
      · simp at hstep
  | wake handler =>
      simp only [step] at hstep
      split at hstep
      · next dispatch attempt hsleeping =>
          obtain rfl := Option.some.inj hstep
          have hprepared := hphase handler
          rw [hsleeping] at hprepared
          exact .goto_same rfl rfl rfl hprepared
      · simp at hstep
  | deadLetter handler reply =>
      simp only [step] at hstep
      split at hstep
      · next message envelope hlettering =>
          have haccepted := hphase handler
          rw [hlettering] at haccepted
          split at hstep
          · obtain rfl := Option.some.inj hstep
            exact .goto_same rfl rfl rfl trivial
          · next letter hletter =>
              obtain rfl := Option.some.inj hstep
              split
              · exact .goto_same rfl rfl rfl (originates_reply reply trivial)
              · have hgrows : Extends state { state with
                    deadLetters := letter :: state.deadLetters } :=
                  ⟨fun _ _ hdata => hdata, fun _ hevent => hevent,
                    fun _ hold => List.mem_cons_of_mem letter hold⟩
                refine .goto rfl (fun _ hrow => .inl hrow)
                  (fun other hother => ?_) (originates_reply reply trivial)
                rcases List.mem_cons.mp hother with rfl | hbefore
                · exact .inr ⟨message, envelope,
                    Accepted.mono hgrows haccepted, hletter⟩
                · exact .inl hbefore
      · simp at hstep
  | ack handler reply =>
      simp only [step] at hstep
      split at hstep
      · split at hstep
        · obtain rfl := Option.some.inj hstep
          exact .goto_same rfl rfl rfl trivial
        · obtain rfl := Option.some.inj hstep
          exact .goto_same rfl rfl rfl trivial
      · simp at hstep
  | crash handler =>
      obtain rfl := Option.some.inj hstep
      exact .goto_same rfl rfl rfl trivial

theorem Traced.step {state next : State F Handler Message}
    (htraced : Traced config state) (hextends : Extends state next)
    {action : Action Handler Message}
    (hstep : step config state action = some next) : Traced config next := by
  have hadds := htraced.adds hstep
  refine ⟨fun handler => ?_, fun row hrow => ?_, fun letter hletter => ?_⟩
  · rcases hadds.phases handler with hsame | hnew
    · rw [hsame]
      exact (htraced.phases handler).mono hextends
    · exact hnew
  · rcases hadds.deliveries row hrow with hold | hnew
    · exact (htraced.deliveries row hold).mono hextends
    · exact hnew
  · rcases hadds.deadLetters letter hletter with hold | hnew
    · exact (htraced.deadLetters letter hold).mono hextends
    · exact hnew

end Steps

/-! ## Bodies -/

section Bodies

variable {F : Type} {config : Config F}

theorem joined_joined (envelope : Envelope F) :
    envelope.joined.joined = envelope.joined := by
  rw [Envelope.joined, Envelope.joined, Envelope.mk.injEq,
    joinPairs_joinPairs, joinPairs_joinPairs]
  exact ⟨rfl, rfl, ofPairs_readBackMembers_twice _
    (readBackMembers_fixed _ envelope.eventData)⟩

/-- What a receiver parses from a body. -/
theorem loads_dispatchPayload {envelope : Envelope F} {createdAt : Text}
    {payload : List Byte}
    (hpayload : dispatchPayload config envelope createdAt = some payload) :
    loadsBytes config.format payload = some (.dict [
      (text "event", .str envelope.joined.eventName),
      (text "data", .dict envelope.joined.eventData),
      (text "created_at", .str (joinPairs createdAt))] : Value F Empty) := by
  obtain ⟨written, hdumps, hencode⟩ := Option.bind_eq_some_iff.mp hpayload
  have hloads := loadsBytes_dumps hdumps hencode
  have hkeys : joinPairs (text "event") = text "event" ∧
      joinPairs (text "data") = text "data" ∧
      joinPairs (text "created_at") = text "created_at" := by
    decide
  have hnodup : ([text "event", text "data", text "created_at"] :
      List Text).Nodup := by
    decide
  rw [readBack, readBackMembers, readBackMembers, readBackMembers,
    readBackMembers, hkeys.1, hkeys.2.1, hkeys.2.2, readBack, readBack,
    readBack] at hloads
  rw [hloads, Dict.ofPairs_of_nodup (by exact hnodup)]
  rfl

end Bodies

end UTTG.Worker
