import UTTG.Webhooks.Worker

/-!
# No message is lost

A message leaves the stream only after one of the terminal outcomes: it does
not decode, its webhook was not there or not interested when it was looked up, a
receiver answered with success, or a copy of it was accepted on the dead-letter
subject.  The invariant follows each handler from await to await; what has been
seen only grows, so an outcome stays one.
-/

namespace UTTG.Worker

open Python Transition
open Expiring (Reply)

section Copies

variable {F : Type} {config : Config F}

/-- The envelope that comes out of the dead-letter payload: each split
surrogate pair has become one character. -/
def Envelope.joined (envelope : Envelope F) : Envelope F where
  webhookId := joinPairs envelope.webhookId
  eventName := joinPairs envelope.eventName
  eventData := Dict.ofPairs (readBackMembers Empty.elim envelope.eventData)

/-- No string of the envelope has a split surrogate pair. -/
def Envelope.isWhole (envelope : Envelope F) : Prop :=
  Unsplit envelope.webhookId ∧ Unsplit envelope.eventName ∧
    isWholeMembers envelope.eventData = true

theorem decodeMessage_eq_some_iff {data : List Byte} {envelope : Envelope F} :
    decodeMessage config data = some envelope ↔
      ∃ items webhookId eventName,
        loadsBytes config.format data = some (.dict items) ∧
        Dict.get items (text "webhook_id") = some webhookId ∧
        str config.format config.isPrintable webhookId =
          some envelope.webhookId ∧
        Dict.get items (text "event") = some eventName ∧
        str config.format config.isPrintable eventName =
          some envelope.eventName ∧
        (Dict.get items (text "data") = none ∧ envelope.eventData = [] ∨
          Dict.get items (text "data") = some (.dict envelope.eventData)) := by
  obtain ⟨id, name, content⟩ := envelope
  unfold decodeMessage
  cases hloads : loadsBytes config.format data with
  | none => simp
  | some value =>
      cases value with
      | dict items =>
          dsimp only
          cases hdata : Dict.get items (text "data") with
          | none => simp [Option.bind_eq_some_iff]; grind
          | some content =>
              cases content <;> simp [Option.bind_eq_some_iff] <;> grind
      | _ => simp

/-- Decoding the dead letter of an envelope gives the envelope with its split
pairs joined. -/
theorem decodeMessage_deadLetter {envelope : Envelope F} {data : List Byte}
    (hletter : deadLetter config envelope = some data) :
    decodeMessage config data = some envelope.joined := by
  obtain ⟨written, hdumps, hencode⟩ := Option.bind_eq_some_iff.mp hletter
  have hloads := loadsBytes_dumps hdumps hencode
  have hkeys : joinPairs (text "webhook_id") = text "webhook_id" ∧
      joinPairs (text "event") = text "event" ∧
      joinPairs (text "data") = text "data" := by
    decide
  rw [readBack, readBackMembers, readBackMembers, readBackMembers,
    readBackMembers, hkeys.1, hkeys.2.1, hkeys.2.2, readBack, readBack,
    readBack] at hloads
  have hnodup : ([text "webhook_id", text "event", text "data"] :
      List Text).Nodup := by
    decide
  have hdict : ∀ id name content : Value F Empty,
      Dict.ofPairs [(text "webhook_id", id), (text "event", name),
        (text "data", content)] = [(text "webhook_id", id),
          (text "event", name), (text "data", content)] :=
    fun id name content => Dict.ofPairs_of_nodup hnodup
  rw [hdict] at hloads
  refine decodeMessage_eq_some_iff.mpr ⟨_, .str (joinPairs envelope.webhookId),
    .str (joinPairs envelope.eventName), hloads, ?_, rfl, ?_, rfl, .inr ?_⟩
  · rfl
  · rfl
  · rfl

/-- The data of a decoded message has distinct keys throughout. -/
theorem distinct_of_decodeMessage {data : List Byte} {envelope : Envelope F}
    (hdecode : decodeMessage config data = some envelope) :
    Distinct (.dict envelope.eventData : Value F Empty) := by
  obtain ⟨items, -, -, hloads, -, -, -, -, hdata⟩ :=
    decodeMessage_eq_some_iff.mp hdecode
  obtain ⟨source, -, hsource⟩ := Option.bind_eq_some_iff.mp hloads
  have hmembers := (distinctMembers_iff items).mp (distinct_loads hsource).2
  rcases hdata with ⟨-, hnone⟩ | hdata
  · rw [hnone]
    exact ⟨List.nodup_nil, trivial⟩
  · exact hmembers _ (Dict.mem_of_get hdata)

/-- The dead letter decodes to the very envelope exactly when no pair in it is
split. -/
theorem joined_eq_self_iff {data : List Byte} {envelope : Envelope F}
    (hdecode : decodeMessage config data = some envelope) :
    envelope.joined = envelope ↔ envelope.isWhole := by
  have hdistinct := distinct_of_decodeMessage hdecode
  have hdata := readBack_eq_self_iff Empty.elim hdistinct
  rw [readBack, Value.dict.injEq, isWhole] at hdata
  obtain ⟨id, name, content⟩ := envelope
  rw [Envelope.joined, Envelope.mk.injEq, joinPairs_eq_self_iff,
    joinPairs_eq_self_iff, hdata, Envelope.isWhole]

end Copies

/-! ## Outcomes -/

section Outcomes

variable {F Handler Message : Type} (config : Config F)

/-- The row found by a lookup makes the message void: no webhook, an inactive
one, or one without the event. -/
def Unlisted (row : Option Webhook) (eventName : Text) : Prop :=
  ∀ webhook ∈ row, webhook.active = true →
    subscribed config webhook.events eventName = some false

/-- One of the three ends of a message that decodes.  `Copy` says which
envelopes a dead letter may decode to. -/
def Settled (Copy : Envelope F → Envelope F → Prop)
    (state : State F Handler Message) (message : Message)
    (envelope : Envelope F) : Prop :=
  (∃ row, .lookedUp message row ∈ state.events ∧
    Unlisted config row envelope.eventName) ∨
  (∃ status, .responded message status ∈ state.events ∧
    isSuccess status = true) ∨
  ∃ letter ∈ state.deadLetters, ∃ copy,
    decodeMessage config letter = some copy ∧ Copy envelope copy

/-- The terminal outcomes of a message with the given data. -/
def Outcome (Copy : Envelope F → Envelope F → Prop)
    (state : State F Handler Message) (message : Message)
    (data : List Byte) : Prop :=
  decodeMessage config data = none ∨
    ∃ envelope, decodeMessage config data = some envelope ∧
      Settled config Copy state message envelope

/-- The copy has the strings of the original, split pairs joined. -/
def JoinedCopy (original copy : Envelope F) : Prop := copy = original.joined

def State.Removed (state : State F Handler Message) (message : Message) :
    Prop :=
  state.acked message = true ∨ state.termed message = true

end Outcomes

/-! ## The invariant -/

section Invariant

variable {F Handler Message : Type}
variable {config : Config F}

/-- The message was published with data that decodes to the envelope. -/
def Carries (config : Config F) (state : State F Handler Message)
    (message : Message) (envelope : Envelope F) : Prop :=
  ∃ data, state.published message = some data ∧
    decodeMessage config data = some envelope

def Undecodable (config : Config F) (state : State F Handler Message)
    (message : Message) : Prop :=
  ∃ data, state.published message = some data ∧
    decodeMessage config data = none

def Concluded (config : Config F) (state : State F Handler Message)
    (message : Message) : Prop :=
  ∃ envelope, Carries config state message envelope ∧
    Settled config JoinedCopy state message envelope

/-- What holds of a handler in each phase. -/
def Fits (config : Config F) (state : State F Handler Message) :
    Phase F Message → Prop
  | .idle => True
  | .terminating message => Undecodable config state message
  | .lookingUp message envelope | .deadLettering message envelope =>
      Carries config state message envelope
  | .delivering dispatch _ | .sleeping dispatch _ =>
      Carries config state dispatch.message dispatch.envelope
  | .recording dispatch _ outcome =>
      Carries config state dispatch.message dispatch.envelope ∧
        ∀ status ∈ outcome.statusCode,
          .responded dispatch.message status ∈ state.events
  | .acking message => Concluded config state message

structure Sound (config : Config F) (state : State F Handler Message) :
    Prop where
  phases : ∀ handler, Fits config state (state.phase handler)
  acked : ∀ message, state.acked message = true →
    Concluded config state message
  termed : ∀ message, state.termed message = true →
    Undecodable config state message

/-- What has been published and seen stays so. -/
structure Extends (state next : State F Handler Message) : Prop where
  published : ∀ message data, state.published message = some data →
    next.published message = some data
  events : ∀ event ∈ state.events, event ∈ next.events
  deadLetters : ∀ letter ∈ state.deadLetters, letter ∈ next.deadLetters

/-- Acknowledgements, webhooks, deliveries and phases do not matter. -/
theorem Extends.of_eq {state next : State F Handler Message}
    (hpublished : next.published = state.published)
    (hevents : next.events = state.events)
    (hletters : next.deadLetters = state.deadLetters) :
    Extends state next := by
  refine ⟨?_, ?_, ?_⟩
  · rw [hpublished]
    exact fun _ _ hdata => hdata
  · rw [hevents]
    exact fun _ hevent => hevent
  · rw [hletters]
    exact fun _ hletter => hletter

theorem Carries.mono {state next : State F Handler Message}
    (hextends : Extends state next) {message : Message}
    {envelope : Envelope F} (hcarries : Carries config state message envelope) :
    Carries config next message envelope := by
  obtain ⟨data, hdata, hdecode⟩ := hcarries
  exact ⟨data, hextends.published message data hdata, hdecode⟩

theorem Undecodable.mono {state next : State F Handler Message}
    (hextends : Extends state next) {message : Message}
    (hundecodable : Undecodable config state message) :
    Undecodable config next message := by
  obtain ⟨data, hdata, hdecode⟩ := hundecodable
  exact ⟨data, hextends.published message data hdata, hdecode⟩

theorem Settled.mono {Copy : Envelope F → Envelope F → Prop}
    {state next : State F Handler Message} (hextends : Extends state next)
    {message : Message} {envelope : Envelope F}
    (hsettled : Settled config Copy state message envelope) :
    Settled config Copy next message envelope := by
  rcases hsettled with ⟨row, hseen, hrow⟩ | ⟨status, hseen, hstatus⟩ |
    ⟨letter, hletter, hcopy⟩
  · exact .inl ⟨row, hextends.events _ hseen, hrow⟩
  · exact .inr (.inl ⟨status, hextends.events _ hseen, hstatus⟩)
  · exact .inr (.inr ⟨letter, hextends.deadLetters _ hletter, hcopy⟩)

theorem Concluded.mono {state next : State F Handler Message}
    (hextends : Extends state next) {message : Message}
    (hconcluded : Concluded config state message) :
    Concluded config next message := by
  obtain ⟨envelope, hcarries, hsettled⟩ := hconcluded
  exact ⟨envelope, hcarries.mono hextends, hsettled.mono hextends⟩

theorem Fits.mono {state next : State F Handler Message}
    (hextends : Extends state next) {phase : Phase F Message}
    (hfits : Fits config state phase) : Fits config next phase := by
  cases phase with
  | idle => trivial
  | terminating message => exact Undecodable.mono hextends hfits
  | lookingUp message envelope => exact Carries.mono hextends hfits
  | deadLettering message envelope => exact Carries.mono hextends hfits
  | delivering dispatch attempt => exact Carries.mono hextends hfits
  | sleeping dispatch attempt => exact Carries.mono hextends hfits
  | recording dispatch attempt outcome =>
      exact ⟨hfits.1.mono hextends, fun status hstatus =>
        hextends.events _ (hfits.2 status hstatus)⟩
  | acking message => exact Concluded.mono hextends hfits

/-- After the lookup the handler acknowledges only a void message. -/
theorem fits_afterLookUp {state : State F Handler Message}
    {message : Message} {envelope : Envelope F} {row : Option Webhook}
    (createdAt : Text) (hcarries : Carries config state message envelope)
    (hseen : .lookedUp message row ∈ state.events) :
    Fits config state
      (afterLookUp config message envelope row createdAt) := by
  have hacking : Unlisted config row envelope.eventName →
      Fits config state (.acking message) := fun hunlisted =>
    ⟨envelope, hcarries, .inl ⟨row, hseen, hunlisted⟩⟩
  unfold afterLookUp
  cases hactive : row.filter Webhook.active with
  | none =>
      refine hacking fun webhook hwebhook hon => ?_
      rw [Option.mem_def] at hwebhook
      simp [hwebhook, Option.filter, hon] at hactive
  | some webhook =>
      obtain ⟨hwebhook, hon⟩ := Option.filter_eq_some_iff.mp hactive
      dsimp only
      cases hlisted : subscribed config webhook.events envelope.eventName with
      | none => exact trivial
      | some listed =>
          cases listed with
          | false =>
              refine hacking fun other hother _ => ?_
              obtain rfl : webhook = other := by
                simpa [hwebhook] using hother
              exact hlisted
          | true =>
              dsimp only
              split
              · exact trivial
              · split
                · exact hcarries
                · split
                  · exact hcarries
                  · exact hcarries

/-- After an attempt the handler acknowledges only a delivered message. -/
theorem fits_afterRecord {state : State F Handler Message}
    {dispatch : Dispatch F Message} {attempt : ℕ} {outcome : Attempt}
    (hfits : Fits config state (.recording dispatch attempt outcome)) :
    Fits config state (afterRecord config dispatch attempt outcome) := by
  obtain ⟨hcarries, hseen⟩ := hfits
  unfold afterRecord
  split
  case isTrue hsuccess =>
    obtain ⟨status, hstatus, hok⟩ : ∃ status ∈ outcome.statusCode,
        isSuccess status = true := by
      simpa [Attempt.success, Option.any_eq_true] using hsuccess
    exact ⟨dispatch.envelope, hcarries,
      .inr (.inl ⟨status, hseen status hstatus, hok⟩)⟩
  case isFalse =>
    split
    · exact hcarries
    · exact hcarries

/-- What one step does: what was seen grows, the phase that changes fits, and
a message is removed by a handler that was about to remove it. -/
structure Advances (config : Config F) (state next : State F Handler Message) :
    Prop where
  grows : Extends state next
  phases : ∀ handler, next.phase handler = state.phase handler ∨
    Fits config next (next.phase handler)
  acked : ∀ message, next.acked message = true →
    state.acked message = true ∨ ∃ handler, state.phase handler = .acking message
  termed : ∀ message, next.termed message = true →
    state.termed message = true ∨
      ∃ handler, state.phase handler = .terminating message

/-- A message that a step leaves removed has met its outcome before. -/
theorem Sound.concluded_of_acked {state next : State F Handler Message}
    (hsound : Sound config state) (hadvances : Advances config state next)
    {message : Message} (hacked : next.acked message = true) :
    Concluded config state message := by
  rcases hadvances.acked message hacked with hbefore | ⟨handler, hphase⟩
  · exact hsound.acked message hbefore
  · have hfits := hsound.phases handler
    rw [hphase] at hfits
    exact hfits

theorem Sound.undecodable_of_termed {state next : State F Handler Message}
    (hsound : Sound config state) (hadvances : Advances config state next)
    {message : Message} (htermed : next.termed message = true) :
    Undecodable config state message := by
  rcases hadvances.termed message htermed with hbefore | ⟨handler, hphase⟩
  · exact hsound.termed message hbefore
  · have hfits := hsound.phases handler
    rw [hphase] at hfits
    exact hfits

variable [DecidableEq Handler]

theorem Advances.goto {state base : State F Handler Message}
    {handler : Handler} {phase : Phase F Message}
    (hgrows : Extends state base) (hphase : base.phase = state.phase)
    (hacked : ∀ message, base.acked message = true →
      state.acked message = true ∨
        ∃ handler, state.phase handler = .acking message)
    (htermed : ∀ message, base.termed message = true →
      state.termed message = true ∨
        ∃ handler, state.phase handler = .terminating message)
    (hfits : Fits config base phase) :
    Advances config state (base.goto handler phase) := by
  refine ⟨⟨hgrows.published, hgrows.events, hgrows.deadLetters⟩,
    fun other => ?_, hacked, htermed⟩
  by_cases hother : other = handler
  · right
    have hnext : (base.goto handler phase).phase other = phase := by
      rw [hother]
      exact Function.update_self ..
    have hsame : Extends base (base.goto handler phase) := .of_eq rfl rfl rfl
    rw [hnext]
    exact hfits.mono hsame
  · left
    rw [← hphase]
    exact Function.update_of_ne hother ..

/-- A step that removes nothing. -/
theorem Advances.goto_same {state base : State F Handler Message}
    {handler : Handler} {phase : Phase F Message}
    (hgrows : Extends state base) (hphase : base.phase = state.phase)
    (hacked : base.acked = state.acked) (htermed : base.termed = state.termed)
    (hfits : Fits config base phase) :
    Advances config state (base.goto handler phase) := by
  refine .goto hgrows hphase ?_ ?_ hfits
  · intro message hmessage
    rw [hacked] at hmessage
    exact .inl hmessage
  · intro message hmessage
    rw [htermed] at hmessage
    exact .inl hmessage

omit [DecidableEq Handler] in
theorem fits_reply {state : State F Handler Message} (reply : Reply)
    {phase : Phase F Message} (hfits : Fits config state phase) :
    Fits config state (if reply = .answered then phase else .idle) := by
  split
  · exact hfits
  · trivial

omit [DecidableEq Handler] in
theorem extends_see (state : State F Handler Message) (event : Event Message) :
    Extends state (state.see event) :=
  ⟨fun _ _ hdata => hdata, fun _ hevent => List.mem_cons_of_mem event hevent,
    fun _ hletter => hletter⟩

variable [DecidableEq Message]

omit [DecidableEq Handler] in
theorem eq_or_of_update {flags : Message → Bool} {message other : Message}
    (hset : Function.update flags message true other = true) :
    other = message ∨ flags other = true := by
  by_cases hsame : other = message
  · exact .inl hsame
  · rw [Function.update_of_ne hsame] at hset
    exact .inr hset

theorem Sound.advances {state next : State F Handler Message}
    (hsound : Sound config state) {action : Action Handler Message}
    (hstep : step config state action = some next) :
    Advances config state next := by
  cases action with
  | publish message data =>
      simp only [step, Option.ite_none_right_eq_some,
        Option.some.injEq] at hstep
      obtain ⟨habsent, rfl⟩ := hstep
      refine ⟨⟨fun other old hold => ?_, fun _ hevent => hevent,
        fun _ hletter => hletter⟩, fun _ => .inl rfl,
        fun _ hacked => .inl hacked, fun _ htermed => .inl htermed⟩
      have hother : other ≠ message := by
        rintro rfl
        rw [habsent] at hold
        simp at hold
      dsimp only
      rw [Function.update_of_ne hother]
      exact hold
  | setWebhook id row =>
      obtain rfl := Option.some.inj hstep
      exact ⟨.of_eq rfl rfl rfl, fun _ => .inl rfl,
        fun _ hacked => .inl hacked, fun _ htermed => .inl htermed⟩
  | deliver handler message =>
      simp only [step] at hstep
      split at hstep
      · next data hphase hpublished =>
          split at hstep
          · next hdecode =>
              obtain rfl := Option.some.inj hstep
              exact .goto_same (.of_eq rfl rfl rfl) rfl rfl rfl
                ⟨data, hpublished, hdecode⟩
          · next envelope hdecode =>
              obtain rfl := Option.some.inj hstep
              exact .goto_same (.of_eq rfl rfl rfl) rfl rfl rfl
                ⟨data, hpublished, hdecode⟩
      · simp at hstep
  | term handler reply =>
      simp only [step] at hstep
      split at hstep
      · next message hphase =>
          split at hstep
          · obtain rfl := Option.some.inj hstep
            exact .goto_same (.of_eq rfl rfl rfl) rfl rfl rfl trivial
          · obtain rfl := Option.some.inj hstep
            refine .goto (.of_eq rfl rfl rfl) rfl (fun _ hacked => .inl hacked) ?_ trivial
            intro other hother
            rcases eq_or_of_update hother with rfl | hbefore
            · exact .inr ⟨handler, hphase⟩
            · exact .inl hbefore
      · simp at hstep
  | lookUp handler createdAt =>
      simp only [step] at hstep
      split at hstep
      · next message envelope hphase =>
          obtain rfl := Option.some.inj hstep
          have hfits := hsound.phases handler
          rw [hphase] at hfits
          have hgrows := extends_see state
            (.lookedUp message (state.webhooks envelope.webhookId))
          exact .goto_same hgrows rfl rfl rfl
            (fits_afterLookUp createdAt (Carries.mono hgrows hfits)
              List.mem_cons_self)
      · simp at hstep
  | attempt handler outcome =>
      simp only [step] at hstep
      split at hstep
      · next dispatch attempt hphase =>
          obtain rfl := Option.some.inj hstep
          have hfits := hsound.phases handler
          rw [hphase] at hfits
          cases outcome with
          | responded status =>
              have hgrows := extends_see state
                (.responded dispatch.message status)
              refine .goto_same hgrows rfl rfl rfl
                ⟨Carries.mono hgrows hfits, fun other hother => ?_⟩
              obtain rfl : status = other := by
                simpa [Attempt.statusCode] using hother
              exact List.mem_cons_self
          | rejected =>
              exact .goto_same (.of_eq rfl rfl rfl) rfl rfl rfl
                ⟨hfits, by simp [Attempt.statusCode]⟩
          | failed =>
              exact .goto_same (.of_eq rfl rfl rfl) rfl rfl rfl
                ⟨hfits, by simp [Attempt.statusCode]⟩
      · simp at hstep
  | record handler reply =>
      simp only [step] at hstep
      split at hstep
      · next dispatch attempt outcome hphase =>
          obtain rfl := Option.some.inj hstep
          have hfits := hsound.phases handler
          rw [hphase] at hfits
          have hafter := fits_reply reply (fits_afterRecord hfits)
          split
          · exact .goto_same (.of_eq rfl rfl rfl) rfl rfl rfl hafter
          · exact .goto_same (.of_eq rfl rfl rfl) rfl rfl rfl hafter
      · simp at hstep
  | wake handler =>
      simp only [step] at hstep
      split at hstep
      · next dispatch attempt hphase =>
          obtain rfl := Option.some.inj hstep
          have hfits := hsound.phases handler
          rw [hphase] at hfits
          exact .goto_same (.of_eq rfl rfl rfl) rfl rfl rfl hfits
      · simp at hstep
  | deadLetter handler reply =>
      simp only [step] at hstep
      split at hstep
      · next message envelope hphase =>
          have hfits := hsound.phases handler
          rw [hphase] at hfits
          split at hstep
          · obtain rfl := Option.some.inj hstep
            exact .goto_same (.of_eq rfl rfl rfl) rfl rfl rfl trivial
          · next letter hletter =>
              obtain rfl := Option.some.inj hstep
              split
              · next hrefused =>
                  rw [State.proceed, hrefused, if_neg (by decide)]
                  exact .goto_same (.of_eq rfl rfl rfl) rfl rfl rfl trivial
              · have hgrows : Extends state { state with
                    deadLetters := letter :: state.deadLetters } :=
                  ⟨fun _ _ hdata => hdata, fun _ hevent => hevent,
                    fun _ hold => List.mem_cons_of_mem letter hold⟩
                refine .goto_same hgrows rfl rfl rfl (fits_reply reply ?_)
                exact ⟨envelope, Carries.mono hgrows hfits, .inr (.inr
                  ⟨letter, List.mem_cons_self, _,
                    decodeMessage_deadLetter hletter, rfl⟩)⟩
      · simp at hstep
  | ack handler reply =>
      simp only [step] at hstep
      split at hstep
      · next message hphase =>
          split at hstep
          · obtain rfl := Option.some.inj hstep
            exact .goto_same (.of_eq rfl rfl rfl) rfl rfl rfl trivial
          · obtain rfl := Option.some.inj hstep
            refine .goto (.of_eq rfl rfl rfl) rfl ?_ (fun _ htermed => .inl htermed)
              trivial
            intro other hother
            rcases eq_or_of_update hother with rfl | hbefore
            · exact .inr ⟨handler, hphase⟩
            · exact .inl hbefore
      · simp at hstep
  | crash handler =>
      obtain rfl := Option.some.inj hstep
      exact .goto_same (.of_eq rfl rfl rfl) rfl rfl rfl trivial

theorem Sound.step {state next : State F Handler Message}
    (hsound : Sound config state) {action : Action Handler Message}
    (hstep : step config state action = some next) : Sound config next := by
  have hadvances := hsound.advances hstep
  refine ⟨fun handler => ?_, fun message hacked => ?_,
    fun message htermed => ?_⟩
  · rcases hadvances.phases handler with hsame | hfits
    · rw [hsame]
      exact (hsound.phases handler).mono hadvances.grows
    · exact hfits
  · exact (hsound.concluded_of_acked hadvances hacked).mono hadvances.grows
  · exact (hsound.undecodable_of_termed hadvances htermed).mono
      hadvances.grows

theorem sound_of_reachable {state : State F Handler Message}
    (hreach : (system Handler Message config).Reachable state) :
    Sound config state := by
  refine System.Reachable.invariant (Sound config) ?_ ?_ hreach
  · rintro start ⟨-, hacked, htermed, hidle⟩
    refine ⟨fun handler => ?_, by simp [hacked], by simp [htermed]⟩
    rw [hidle handler]
    trivial
  · intro before action after hsound hstep
    exact hsound.step hstep

/-- A step removes a message only after one of its outcomes, where a dead
letter decodes to the envelope with split pairs joined: to the envelope itself
when it has none.  In every reachable state a published message is in the
stream or has an outcome, and none is both acknowledged and terminated. -/
theorem removed_only_after_outcome {state : State F Handler Message}
    (hreach : (system Handler Message config).Reachable state)
    {message : Message} {data : List Byte}
    (hpublished : state.published message = some data) :
    (∀ action next, (system Handler Message config).step state action =
      some next → next.Removed message →
        Outcome config JoinedCopy state message data) ∧
    (¬state.Removed message ∨
      Outcome config JoinedCopy state message data) ∧
    ¬(state.acked message = true ∧ state.termed message = true) ∧
    ∀ envelope, decodeMessage config data = some envelope →
      (envelope.joined = envelope ↔ envelope.isWhole) := by
  have hsound := sound_of_reachable hreach
  have hconcluded : Concluded config state message →
      Outcome config JoinedCopy state message data := by
    rintro ⟨envelope, ⟨sent, hsent, hdecode⟩, hsettled⟩
    obtain rfl : data = sent := by simpa [hpublished] using hsent
    exact .inr ⟨envelope, hdecode, hsettled⟩
  have hundecodable : Undecodable config state message →
      Outcome config JoinedCopy state message data := by
    rintro ⟨sent, hsent, hdecode⟩
    obtain rfl : data = sent := by simpa [hpublished] using hsent
    exact .inl hdecode
  refine ⟨fun action next hstep hremoved => ?_, ?_, ?_, fun envelope hdecode =>
    joined_eq_self_iff hdecode⟩
  · have hadvances := hsound.advances hstep
    rcases hremoved with hacked | htermed
    · exact hconcluded (hsound.concluded_of_acked hadvances hacked)
    · exact hundecodable (hsound.undecodable_of_termed hadvances htermed)
  · by_cases hremoved : state.Removed message
    · right
      rcases hremoved with hacked | htermed
      · exact hconcluded (hsound.acked message hacked)
      · exact hundecodable (hsound.termed message htermed)
    · exact .inl hremoved
  · rintro ⟨hacked, htermed⟩
    obtain ⟨envelope, ⟨sent, hsent, hdecode⟩, -⟩ :=
      hsound.acked message hacked
    obtain ⟨other, hother, hnone⟩ := hsound.termed message htermed
    obtain rfl : other = sent := by simpa [hother] using hsent
    rw [hdecode] at hnone
    simp at hnone

end Invariant

/-! ## A dead letter that is not the same -/

/-- One delivery attempt. -/
def singleAttempt : Config Empty := ⟨.empty, fun _ => true, 262144, 1⟩

def ascii (literal : String) : List Byte :=
  literal.toList.map fun char => byte char.toNat

/-- The data of a message for the event `e` with one string. -/
def messageWith (content : List Byte) : List Byte :=
  ascii "\x7b\"webhook_id\":\"w\",\"event\":\"e\",\"data\":\x7b\"k\":\"" ++
    content ++ ascii "\"\x7d\x7d"

def emptyStream : State Empty Unit Unit :=
  ⟨fun _ => none, fun _ => false, fun _ => false, fun _ => none, [],
    fun _ => .idle, [], []⟩

theorem emptyStream_init (config : Config Empty) :
    (system Unit Unit config).Init emptyStream :=
  ⟨fun _ => rfl, fun _ => rfl, fun _ => rfl, fun _ => rfl⟩

def subscriber : Webhook :=
  ⟨text "https://example.org/", text "[\"e\"]", some (text "c"), true⟩

/-- The one attempt fails, the message is dead-lettered and acknowledged. -/
def deadLettered (data : List Byte) : List (Action Unit Unit) :=
  [.setWebhook (text "w") (some subscriber), .publish () data, .deliver () (),
    .lookUp () (text "2026-01-01T00:00:00+00:00"), .attempt () .failed,
    .record () .answered, .deadLetter () .answered, .ack () .answered]

/-- The UTF-8 forms of U+D83D and U+DE00, which only `surrogatepass` reads. -/
def splitPair : List Byte := [0xED, 0xA0, 0xBD, 0xED, 0xB8, 0x80]

def stringLengths (envelope : Envelope Empty) : List ℕ :=
  envelope.eventData.map fun item =>
    match item.2 with
    | .str value => value.length
    | _ => 0

/-- A message with a split pair is acknowledged although no dead letter decodes
to its very envelope: there the pair has become one character. -/
theorem split_message_not_copied :
    ∃ state ∈ (system Unit Unit singleAttempt).run emptyStream
        (deadLettered (messageWith splitPair)),
      state.published () = some (messageWith splitPair) ∧
      state.acked () = true ∧
      ¬Outcome singleAttempt (fun original copy => copy = original) state ()
        (messageWith splitPair) := by
  obtain ⟨state, hrun, hpublished, hacked, hevents, hlengths⟩ :
      ∃ state ∈ (system Unit Unit singleAttempt).run emptyStream
          (deadLettered (messageWith splitPair)),
        state.published () = some (messageWith splitPair) ∧
        state.acked () = true ∧
        state.events = [.lookedUp () (some subscriber)] ∧
        ∀ letter ∈ state.deadLetters,
          (decodeMessage singleAttempt letter).map stringLengths = some [1] := by
    decide +kernel
  have hdecoded : (decodeMessage singleAttempt (messageWith splitPair)).map
        (fun envelope => (envelope.eventName, stringLengths envelope)) =
      some (text "e", [2]) := by
    decide +kernel
  refine ⟨state, hrun, hpublished, hacked, ?_⟩
  rintro (hnone | ⟨envelope, hdecode, hsettled⟩)
  · rw [hnone] at hdecoded
    simp at hdecoded
  rw [hdecode, Option.map_some, Option.some.injEq, Prod.mk.injEq] at hdecoded
  rcases hsettled with ⟨row, hseen, hrow⟩ | ⟨status, hseen, -⟩ |
    ⟨letter, hletter, copy, hcopy, rfl⟩
  · rw [hevents, List.mem_singleton, Event.lookedUp.injEq] at hseen
    rw [hseen.2, hdecoded.1] at hrow
    have hlisted : subscribed singleAttempt subscriber.events (text "e") =
        some true := by
      decide +kernel
    have hunlisted := hrow subscriber rfl rfl
    rw [hlisted] at hunlisted
    simp at hunlisted
  · rw [hevents, List.mem_singleton] at hseen
    simp at hseen
  · have hone := hlengths letter hletter
    rw [hcopy, Option.map_some, hdecoded.2] at hone
    simp at hone

/-- The same course of events for a message without a split pair. -/
theorem whole_message_settled :
    ∃ state ∈ (system Unit Unit singleAttempt).run emptyStream
        (deadLettered (messageWith (ascii "v"))),
      state.acked () = true ∧
      Outcome singleAttempt JoinedCopy state () (messageWith (ascii "v")) := by
  obtain ⟨state, hrun, hpublished, hacked⟩ :
      ∃ state ∈ (system Unit Unit singleAttempt).run emptyStream
          (deadLettered (messageWith (ascii "v"))),
        state.published () = some (messageWith (ascii "v")) ∧
        state.acked () = true := by
    decide +kernel
  obtain ⟨-, hsettled, -, -⟩ := removed_only_after_outcome
    (System.reachable_of_run (emptyStream_init singleAttempt) hrun) hpublished
  exact ⟨state, hrun, hacked,
    hsettled.resolve_left (not_not_intro (.inl hacked))⟩

end UTTG.Worker
