import UTTG.Webhooks.Deliveries

/-!
# Events from the scheduler to the receiver

`_publish_event` reads the active webhooks and publishes one message for each
that lists the event.  Any number of calls run beside the workers, webhooks
change at any time, and a call may be killed at any of its awaits.  The state
keeps, for each call, the rows that its SELECT answered and the messages that
the stream stored for it.
-/

namespace UTTG.Events

open Python Transition Worker
open Expiring (Reply)

/-- The arguments of `_publish_event`.  Every caller passes JSON values, so
`default=str` is never reached. -/
structure Call (F : Type) where
  eventName : Text
  data : Dict Text (Value F Empty)
  distinct : Distinct (.dict data : Value F Empty)

/-- The envelope meant for one webhook. -/
def Call.envelope {F : Type} (call : Call F) (id : Text) : Envelope F :=
  ⟨id, call.eventName, call.data⟩

/-- A row of the SELECT of `_publish_event`. -/
abbrev Row := Text × Worker.Webhook

section Publishing

variable {F : Type} (config : Config F) (call : Call F)

/-- `json.dumps({...}, default=str, separators=(",", ":")).encode()`. -/
def envelope (id : Text) : Option (List Byte) :=
  dumpsBytes config (.dict [
    (text "webhook_id", .str id),
    (text "event", .str call.eventName),
    (text "data", .dict call.data)])

/-- `event_name in set(json.loads(webhook.events))`. -/
def lists (row : Row) : Option Bool :=
  subscribed config row.2.events call.eventName

/-- The webhooks that get a message. -/
def listeners (rows : List Row) : List Text :=
  (rows.filter fun row => lists config call row = some true).map Prod.fst

end Publishing

/-- Where a call is; each phase but the first and the last two ends at an
await.  A failed call has logged its exception or was killed. -/
inductive Phase (F : Type) where
  | waiting
  | selecting (call : Call F)
  | publishing (call : Call F) (id : Text) (data : List Byte)
      (rest : List Row)
  | finished (call : Call F)
  | failed (call : Call F)

def Phase.call {F : Type} : Phase F → Option (Call F)
  | .waiting => none
  | .selecting call | .publishing call _ _ _ | .finished call | .failed call =>
      some call

/-- The loop over the webhooks, up to the next publish. -/
def nextMessage {F : Type} (config : Config F) (call : Call F) :
    List Row → Phase F
  | [] => .finished call
  | row :: rest =>
      match lists config call row with
      | none => .failed call
      | some false => nextMessage config call rest
      | some true =>
          match envelope config call row.1 with
          | none => .failed call
          | some data => .publishing call row.1 data rest

/-- The answer of `select(Webhook).where(Webhook.active.is_(True))`. -/
structure Selected (webhooks : Text → Option Worker.Webhook)
    (ids : List Text) (rows : List Row) : Prop where
  nodup : (rows.map Prod.fst).Nodup
  sound : ∀ row ∈ rows, webhooks row.1 = some row.2 ∧ row.2.active = true
  complete : ∀ id ∈ ids, ∀ webhook ∈ webhooks id, webhook.active = true →
    (id, webhook) ∈ rows

instance decidableSelected (webhooks : Text → Option Worker.Webhook)
    (ids : List Text) (rows : List Row) :
    Decidable (Selected webhooks ids rows) :=
  decidable_of_iff
    ((rows.map Prod.fst).Nodup ∧
      (∀ row ∈ rows, webhooks row.1 = some row.2 ∧ row.2.active = true) ∧
      ∀ id ∈ ids, ∀ webhook ∈ webhooks id, webhook.active = true →
        (id, webhook) ∈ rows)
    ⟨fun hall => ⟨hall.1, hall.2.1, hall.2.2⟩,
      fun hall => ⟨hall.nodup, hall.sound, hall.complete⟩⟩

/-- `ids` are the ids under which a webhook has been stored. -/
structure State (F Publisher Handler Message : Type) where
  worker : Worker.State F Handler Message
  ids : List Text
  phase : Publisher → Phase F
  found : Publisher → List Row
  sent : Publisher → List (Text × Message)

inductive Action (F Publisher Handler Message : Type) where
  | call (publisher : Publisher) (call : Call F)
  | select (publisher : Publisher) (answer : Option (List Row))
  | publish (publisher : Publisher) (message : Message) (reply : Reply)
  | crash (publisher : Publisher)
  | setWebhook (id : Text) (row : Option Worker.Webhook)
  | worker (action : Worker.Action Handler Message)

variable {F Publisher Handler Message : Type}
variable [DecidableEq Publisher] [DecidableEq Handler] [DecidableEq Message]

def State.goto (state : State F Publisher Handler Message)
    (publisher : Publisher) (next : Phase F) :
    State F Publisher Handler Message :=
  { state with phase := Function.update state.phase publisher next }

/-- Steps of a worker of its own: what comes from elsewhere is left to the
other actions. -/
def isOwn : Worker.Action Handler Message → Bool
  | .publish _ _ | .setWebhook _ _ => false
  | _ => true

def step (config : Config F) (state : State F Publisher Handler Message) :
    Action F Publisher Handler Message →
      Option (State F Publisher Handler Message)
  | .call publisher call =>
      match state.phase publisher with
      | .waiting => some (state.goto publisher (.selecting call))
      | _ => none
  | .select publisher answer =>
      match state.phase publisher, answer with
      | .selecting call, none => some (state.goto publisher (.failed call))
      | .selecting call, some rows =>
          if Selected state.worker.webhooks state.ids rows then
            some ({ state with
              found := Function.update state.found publisher rows }.goto
                publisher (nextMessage config call rows))
          else none
      | _, _ => none
  | .publish publisher message reply =>
      match state.phase publisher with
      | .publishing call id data rest =>
          if reply = .refused then
            some (state.goto publisher (.failed call))
          else
            (Worker.step config state.worker (.publish message data)).map
              fun worker =>
                { state with
                  worker
                  sent := Function.update state.sent publisher
                    (state.sent publisher ++ [(id, message)]) }.goto publisher
                  (if reply = Reply.answered then nextMessage config call rest
                    else .failed call)
      | _ => none
  | .crash publisher =>
      match state.phase publisher with
      | .selecting call | .publishing call _ _ _ =>
          some (state.goto publisher (.failed call))
      | _ => none
  | .setWebhook id row =>
      (Worker.step config state.worker (.setWebhook id row)).map fun worker =>
        { state with worker, ids := id :: state.ids }
  | .worker action =>
      if isOwn action then
        (Worker.step config state.worker action).map fun worker =>
          { state with worker }
      else none

variable (Publisher Handler Message) in
/-- Any number of calls, handlers and messages. -/
def system (config : Config F) :
    System (State F Publisher Handler Message)
      (Action F Publisher Handler Message) where
  Init state :=
    (Worker.system Handler Message config).Init state.worker ∧
    state.worker.deliveries = [] ∧ state.worker.deadLetters = [] ∧
    (∀ id webhook, state.worker.webhooks id = some webhook →
      id ∈ state.ids) ∧
    (∀ publisher, state.phase publisher = .waiting) ∧
    (∀ publisher, state.found publisher = []) ∧
    ∀ publisher, state.sent publisher = []
  step := step config

/-! ## What a call sends -/

section Loop

variable {config : Config F} {call : Call F}

theorem listeners_append (first second : List Row) :
    listeners config call (first ++ second) =
      listeners config call first ++ listeners config call second := by
  rw [listeners, List.filter_append, List.map_append]
  rfl

theorem listeners_concat {rows : List Row} {row : Row}
    (hlists : lists config call row = some true) :
    listeners config call (rows ++ [row]) =
      listeners config call rows ++ [row.1] := by
  rw [listeners_append]
  simp [listeners, hlists]

theorem listeners_concat_not {rows : List Row} {row : Row}
    (hlists : lists config call row = some false) :
    listeners config call (rows ++ [row]) = listeners config call rows := by
  rw [listeners_append]
  simp [listeners, hlists]

variable (config) in
/-- The messages of a call, by the phase that it is in: up to the webhook that
is being served, all of them, or some first ones. -/
def Follows (found : List Row) (sent : List Text) : Phase F → Prop
  | .waiting | .selecting _ => sent = []
  | .publishing call id data rest =>
      ∃ earlier row, found = earlier ++ row :: rest ∧ row.1 = id ∧
        lists config call row = some true ∧
        envelope config call id = some data ∧
        sent = listeners config call earlier
  | .finished call => sent = listeners config call found
  | .failed call => sent <+: listeners config call found

/-- The loop goes on from the rows already served. -/
theorem follows_nextMessage {found earlier rest : List Row}
    {sent : List Text} (hfound : found = earlier ++ rest)
    (hsent : sent = listeners config call earlier) :
    Follows config found sent (nextMessage config call rest) := by
  induction rest generalizing earlier with
  | nil =>
      rw [List.append_nil] at hfound
      rw [hfound]
      exact hsent
  | cons row rest ih =>
      have hleading : sent <+: listeners config call found := by
        rw [hfound, hsent, listeners_append]
        exact List.prefix_append _ _
      rw [nextMessage]
      split
      · exact hleading
      · next hlists =>
          have hsplit : found = (earlier ++ [row]) ++ rest := by
            rw [hfound, List.append_assoc]
            rfl
          apply ih hsplit
          rw [hsent, listeners_concat_not hlists]
      · next hlists =>
          split
          · exact hleading
          · next data hdata =>
              exact ⟨earlier, row, hfound, rfl, hlists, hdata, hsent⟩

theorem call_nextMessage (rows : List Row) :
    (nextMessage config call rows).call = some call := by
  induction rows with
  | nil => rfl
  | cons row rest ih =>
      rw [nextMessage]
      split
      · rfl
      · exact ih
      · split
        · rfl
        · rfl

/-- Whatever a call has sent is the beginning of what it has to send. -/
theorem Follows.leading {found : List Row} {sent : List Text} {phase : Phase F}
    (hfollows : Follows config found sent phase)
    (hcall : phase.call = some call) :
    sent <+: listeners config call found := by
  cases phase with
  | waiting => simp [Phase.call] at hcall
  | selecting other =>
      rw [show sent = [] from hfollows]
      exact List.nil_prefix
  | publishing other id data rest =>
      obtain rfl := Option.some.inj hcall
      obtain ⟨earlier, row, rfl, -, -, -, rfl⟩ := hfollows
      rw [listeners_append]
      exact List.prefix_append _ _
  | finished other =>
      obtain rfl := Option.some.inj hcall
      rw [show sent = _ from hfollows]
  | failed other =>
      obtain rfl := Option.some.inj hcall
      exact hfollows

/-- The next message is one more of them. -/
theorem Follows.published {found rest : List Row} {sent : List Text}
    {id : Text} {data : List Byte} (reply : Reply)
    (hfollows : Follows config found sent (.publishing call id data rest)) :
    Follows config found (sent ++ [id])
      (if reply = .answered then nextMessage config call rest
        else .failed call) := by
  obtain ⟨earlier, row, hfound, rfl, hlists, -, rfl⟩ := hfollows
  have hsent : listeners config call (earlier ++ [row]) =
      listeners config call earlier ++ [row.1] :=
    listeners_concat hlists
  have hsplit : found = (earlier ++ [row]) ++ rest := by
    rw [hfound, List.append_assoc]
    rfl
  split
  · exact follows_nextMessage hsplit hsent.symm
  · rw [← hsent, hsplit, Follows, listeners_append (earlier ++ [row])]
    exact List.prefix_append _ _

end Loop

/-! ## Accounts -/

section Accounts

variable {config : Config F}

variable (config) in
/-- What a call has found and sent, against what the stream holds. -/
structure Account (published : Message → Option (List Byte))
    (found : List Row) (sent : List (Text × Message)) (phase : Phase F) :
    Prop where
  follows : Follows config found (sent.map Prod.fst) phase
  active : ∀ row ∈ found, row.2.active = true
  nodup : (found.map Prod.fst).Nodup
  stored : ∀ item ∈ sent, ∃ call data, phase.call = some call ∧
    envelope config call item.1 = some data ∧ published item.2 = some data

omit [DecidableEq Message] in
theorem Account.mono {published grown : Message → Option (List Byte)}
    (hgrows : ∀ message data, published message = some data →
      grown message = some data)
    {found : List Row} {sent : List (Text × Message)} {phase : Phase F}
    (haccount : Account config published found sent phase) :
    Account config grown found sent phase where
  follows := haccount.follows
  active := haccount.active
  nodup := haccount.nodup
  stored item hitem := by
    obtain ⟨call, data, hcall, hdata, hheld⟩ := haccount.stored item hitem
    exact ⟨call, data, hcall, hdata, hgrows item.2 data hheld⟩

omit [DecidableEq Message] in
/-- A call goes on without sending. -/
theorem Account.move {published : Message → Option (List Byte)}
    {found : List Row} {sent : List (Text × Message)} {phase next : Phase F}
    (haccount : Account config published found sent phase)
    (hfollows : Follows config found (sent.map Prod.fst) next)
    (hcall : next.call = phase.call) :
    Account config published found sent next where
  follows := hfollows
  active := haccount.active
  nodup := haccount.nodup
  stored item hitem := by
    rw [hcall]
    exact haccount.stored item hitem

/-- The messages of the stream and the accounts of the calls agree: each
message was sent once, by one call, for one webhook. -/
structure Ledger (config : Config F)
    (state : State F Publisher Handler Message) : Prop where
  known : ∀ id webhook, state.worker.webhooks id = some webhook →
    id ∈ state.ids
  accounts : ∀ publisher, Account config state.worker.published
    (state.found publisher) (state.sent publisher) (state.phase publisher)
  owned : ∀ message data, state.worker.published message = some data →
    ∃ publisher, ∃ item ∈ state.sent publisher, item.2 = message
  unique : ∀ first second, ∀ item ∈ state.sent first,
    ∀ other ∈ state.sent second, item.2 = other.2 →
      first = second ∧ item = other

omit [DecidableEq Handler] [DecidableEq Message] in
/-- A call goes on, the stream stays. -/
theorem Ledger.goto {state : State F Publisher Handler Message}
    (hledger : Ledger config state) {publisher : Publisher} {phase : Phase F}
    (haccount : Account config state.worker.published (state.found publisher)
      (state.sent publisher) phase) :
    Ledger config (state.goto publisher phase) where
  known := hledger.known
  accounts other := by
    by_cases hother : other = publisher
    · rw [hother]
      simpa [State.goto] using haccount
    · simpa [State.goto, Function.update_of_ne hother] using
        hledger.accounts other
  owned := hledger.owned
  unique := hledger.unique

omit [DecidableEq Handler] [DecidableEq Message] in
/-- The SELECT answers a call that has sent nothing. -/
theorem Ledger.select {state : State F Publisher Handler Message}
    (hledger : Ledger config state) {publisher : Publisher} {call : Call F}
    {rows : List Row} (hphase : state.phase publisher = .selecting call)
    (hrows : Selected state.worker.webhooks state.ids rows) :
    Ledger config ({ state with
      found := Function.update state.found publisher rows }.goto publisher
        (nextMessage config call rows)) := by
  have hbefore := hledger.accounts publisher
  rw [hphase] at hbefore
  have hempty : state.sent publisher = [] := List.map_eq_nil_iff.mp
    hbefore.follows
  refine ⟨hledger.known, fun other => ?_, hledger.owned, hledger.unique⟩
  by_cases hother : other = publisher
  · have haccount : Account config state.worker.published rows
        (state.sent publisher) (nextMessage config call rows) := by
      refine ⟨?_, fun row hrow => (hrows.sound row hrow).2, hrows.nodup, ?_⟩
      · rw [hempty]
        exact follows_nextMessage (List.nil_append rows).symm rfl
      · rw [hempty]
        simp
    rw [hother]
    simpa [State.goto] using haccount
  · simpa [State.goto, Function.update_of_ne hother] using
      hledger.accounts other

omit [DecidableEq Handler] in
/-- The stream stores the message of a call. -/
theorem Ledger.publish {state : State F Publisher Handler Message}
    (hledger : Ledger config state) {publisher : Publisher} {call : Call F}
    {id : Text} {data : List Byte} {rest : List Row} {message : Message}
    (reply : Reply)
    (hphase : state.phase publisher = .publishing call id data rest)
    (habsent : state.worker.published message = none) :
    Ledger config (State.goto { state with
      worker := { state.worker with
        published := Function.update state.worker.published message
          (some data) }
      sent := Function.update state.sent publisher
        (state.sent publisher ++ [(id, message)]) } publisher
      (if reply = .answered then nextMessage config call rest
        else .failed call)) := by
  have hbefore := hledger.accounts publisher
  rw [hphase] at hbefore
  have hgrows : ∀ other old, state.worker.published other = some old →
      Function.update state.worker.published message (some data) other =
        some old := by
    intro other old hold
    rw [Function.update_of_ne, hold]
    rintro rfl
    rw [habsent] at hold
    simp at hold
  -- no call has sent the message before, as the stream did not hold it
  have hfresh : ∀ other, ∀ item ∈ state.sent other, item.2 ≠ message := by
    rintro other item hitem rfl
    obtain ⟨-, old, -, -, hold⟩ := (hledger.accounts other).stored item hitem
    rw [habsent] at hold
    simp at hold
  have hsent : ∀ other, ∀ item ∈ Function.update state.sent publisher
      (state.sent publisher ++ [(id, message)]) other,
      item ∈ state.sent other ∨ other = publisher ∧ item = (id, message) := by
    intro other item hitem
    by_cases hother : other = publisher
    · rw [hother, Function.update_self, List.mem_append,
        List.mem_singleton] at hitem
      rw [hother]
      exact hitem.imp_right fun heq => ⟨rfl, heq⟩
    · rw [Function.update_of_ne hother] at hitem
      exact .inl hitem
  refine ⟨hledger.known, fun other => ?_, fun other old hold => ?_,
    fun first second item hitem other hother hsame => ?_⟩
  · by_cases hother : other = publisher
    · obtain ⟨earlier, row, -, -, -, hdata, -⟩ := hbefore.follows
      have haccount : Account config
          (Function.update state.worker.published message (some data))
          (state.found publisher) (state.sent publisher ++ [(id, message)])
          (if reply = .answered then nextMessage config call rest
            else .failed call) := by
        have hcall : (if reply = .answered then nextMessage config call rest
            else .failed call).call = some call := by
          split
          · exact call_nextMessage rest
          · rfl
        refine ⟨?_, hbefore.active, hbefore.nodup, fun item hitem => ?_⟩
        · rw [List.map_append]
          exact hbefore.follows.published reply
        · rw [hcall]
          rcases List.mem_append.mp hitem with hold | hnew
          · exact (hbefore.mono hgrows).stored item hold
          · rw [List.mem_singleton.mp hnew]
            exact ⟨call, data, rfl, hdata, Function.update_self ..⟩
      rw [hother]
      simpa [State.goto] using haccount
    · simpa [State.goto, Function.update_of_ne hother] using
        (hledger.accounts other).mono hgrows
  · by_cases hmessage : other = message
    · refine ⟨publisher, (id, message), ?_, hmessage.symm⟩
      simp [State.goto]
    · have hbefore : state.worker.published other = some old := by
        have hheld : Function.update state.worker.published message
            (some data) other = some old := hold
        rwa [Function.update_of_ne hmessage] at hheld
      obtain ⟨sender, item, hitem, hsame⟩ := hledger.owned other old hbefore
      refine ⟨sender, item, ?_, hsame⟩
      by_cases hsender : sender = publisher
      · rw [hsender] at hitem ⊢
        simp [State.goto, hitem]
      · simpa [State.goto, Function.update_of_ne hsender] using hitem
  · rcases hsent first item hitem with hold | ⟨rfl, rfl⟩
    · rcases hsent second other hother with hother | ⟨rfl, rfl⟩
      · exact hledger.unique first second item hold other hother hsame
      · exact absurd hsame (hfresh first item hold)
    · rcases hsent second other hother with hother | ⟨rfl, rfl⟩
      · exact absurd hsame.symm (hfresh second other hother)
      · exact ⟨rfl, rfl⟩

/-- The workers alone publish nothing and change no webhook. -/
theorem kept_of_own {worker next : Worker.State F Handler Message}
    {action : Worker.Action Handler Message} (hown : isOwn action = true)
    (hstep : Worker.step config worker action = some next) :
    next.published = worker.published ∧ next.webhooks = worker.webhooks := by
  cases action with
  | publish message data => simp [isOwn] at hown
  | setWebhook id row => simp [isOwn] at hown
  | crash handler =>
      obtain rfl := Option.some.inj hstep
      exact ⟨rfl, rfl⟩
  | _ =>
      simp only [Worker.step] at hstep
      grind [Worker.State.goto, Worker.State.proceed, Worker.State.see]

theorem Ledger.step {state next : State F Publisher Handler Message}
    (hledger : Ledger config state)
    {action : Action F Publisher Handler Message}
    (hstep : step config state action = some next) : Ledger config next := by
  cases action with
  | call publisher call =>
      have hbefore := hledger.accounts publisher
      simp only [Events.step] at hstep
      split at hstep
      · next hphase =>
          obtain rfl := Option.some.inj hstep
          rw [hphase] at hbefore
          have hempty : state.sent publisher = [] :=
            List.map_eq_nil_iff.mp hbefore.follows
          refine hledger.goto ⟨hbefore.follows, hbefore.active,
            hbefore.nodup, ?_⟩
          rw [hempty]
          simp
      · simp at hstep
  | select publisher answer =>
      have hbefore := hledger.accounts publisher
      simp only [Events.step] at hstep
      split at hstep
      · next call hphase =>
          obtain rfl := Option.some.inj hstep
          rw [hphase] at hbefore
          refine hledger.goto (hbefore.move ?_ rfl)
          rw [show (state.sent publisher).map Prod.fst = [] from
            hbefore.follows]
          exact List.nil_prefix
      · next call rows hphase =>
          rw [Option.ite_none_right_eq_some, Option.some.injEq] at hstep
          obtain ⟨hrows, rfl⟩ := hstep
          exact hledger.select hphase hrows
      · simp at hstep
  | publish publisher message reply =>
      have hbefore := hledger.accounts publisher
      simp only [Events.step] at hstep
      split at hstep
      · next call id data rest hphase =>
          rw [hphase] at hbefore
          split at hstep
          · obtain rfl := Option.some.inj hstep
            exact hledger.goto
              (hbefore.move (hbefore.follows.leading rfl) rfl)
          · simp only [Worker.step, Option.map_eq_some_iff,
              Option.ite_none_right_eq_some, Option.some.injEq] at hstep
            obtain ⟨-, ⟨habsent, rfl⟩, rfl⟩ := hstep
            exact hledger.publish reply hphase habsent
      · simp at hstep
  | crash publisher =>
      have hbefore := hledger.accounts publisher
      simp only [Events.step] at hstep
      split at hstep
      · next call hphase =>
          obtain rfl := Option.some.inj hstep
          rw [hphase] at hbefore
          exact hledger.goto (hbefore.move (hbefore.follows.leading rfl) rfl)
      · next call id data rest hphase =>
          obtain rfl := Option.some.inj hstep
          rw [hphase] at hbefore
          exact hledger.goto (hbefore.move (hbefore.follows.leading rfl) rfl)
      · simp at hstep
  | setWebhook id row =>
      simp only [Events.step, Worker.step, Option.map_some,
        Option.some.injEq] at hstep
      obtain rfl := hstep
      refine ⟨fun other webhook hother => ?_, hledger.accounts, hledger.owned,
        hledger.unique⟩
      by_cases hsame : other = id
      · rw [hsame]
        exact List.mem_cons_self
      · have hbefore : state.worker.webhooks other = some webhook := by
          have hheld : Function.update state.worker.webhooks id row other =
            some webhook := hother
          rwa [Function.update_of_ne hsame] at hheld
        exact List.mem_cons_of_mem id (hledger.known other webhook hbefore)
  | worker action =>
      simp only [Events.step] at hstep
      split at hstep
      · next hown =>
          obtain ⟨worker, hworker, rfl⟩ := Option.map_eq_some_iff.mp hstep
          obtain ⟨hpublished, hwebhooks⟩ := kept_of_own hown hworker
          refine ⟨?_, ?_, ?_, hledger.unique⟩
          · rw [hwebhooks]
            exact hledger.known
          · rw [hpublished]
            exact hledger.accounts
          · rw [hpublished]
            exact hledger.owned
      · simp at hstep

/-- The worker part of a step is a step of a worker, or none. -/
theorem worker_of_step {state next : State F Publisher Handler Message}
    {action : Action F Publisher Handler Message}
    (hstep : step config state action = some next) :
    next.worker = state.worker ∨
      ∃ own, Worker.step config state.worker own = some next.worker := by
  cases action with
  | call publisher call =>
      simp only [Events.step] at hstep
      split at hstep
      · obtain rfl := Option.some.inj hstep
        exact .inl rfl
      · simp at hstep
  | select publisher answer =>
      simp only [Events.step] at hstep
      split at hstep
      · obtain rfl := Option.some.inj hstep
        exact .inl rfl
      · rw [Option.ite_none_right_eq_some, Option.some.injEq] at hstep
        obtain ⟨-, rfl⟩ := hstep
        exact .inl rfl
      · simp at hstep
  | publish publisher message reply =>
      simp only [Events.step] at hstep
      split at hstep
      · next call id data rest hphase =>
          split at hstep
          · obtain rfl := Option.some.inj hstep
            exact .inl rfl
          · obtain ⟨worker, hworker, rfl⟩ := Option.map_eq_some_iff.mp hstep
            exact .inr ⟨.publish message data, hworker⟩
      · simp at hstep
  | crash publisher =>
      simp only [Events.step] at hstep
      split at hstep
      · obtain rfl := Option.some.inj hstep
        exact .inl rfl
      · obtain rfl := Option.some.inj hstep
        exact .inl rfl
      · simp at hstep
  | setWebhook id row =>
      simp only [Events.step] at hstep
      obtain ⟨worker, hworker, rfl⟩ := Option.map_eq_some_iff.mp hstep
      exact .inr ⟨.setWebhook id row, hworker⟩
  | worker action =>
      simp only [Events.step] at hstep
      split at hstep
      · obtain ⟨worker, hworker, rfl⟩ := Option.map_eq_some_iff.mp hstep
        exact .inr ⟨action, hworker⟩
      · simp at hstep

/-- What holds of the calls, the stream and the workers together. -/
structure Sound (config : Config F)
    (state : State F Publisher Handler Message) : Prop where
  worker : Worker.Sound config state.worker
  traced : Traced config state.worker
  ledger : Ledger config state

theorem sound_of_reachable {state : State F Publisher Handler Message}
    (hreach : (system Publisher Handler Message config).Reachable state) :
    Sound config state := by
  refine System.Reachable.invariant (Sound config) ?_ ?_ hreach
  · rintro start ⟨hworker, hdeliveries, hletters, hknown, hwaiting, hfound,
      hsent⟩
    have hpublished := hworker.1
    have hidle := hworker.2.2.2
    refine ⟨Worker.sound_of_reachable (.init hworker), ⟨fun handler => ?_,
      by simp [hdeliveries], by simp [hletters]⟩, hknown, fun publisher => ?_,
      by simp [hpublished], by simp [hsent]⟩
    · rw [hidle handler]
      trivial
    · rw [hfound, hsent, hwaiting]
      exact ⟨rfl, by simp, List.nodup_nil, by simp⟩
  · rintro before action after ⟨hworker, htraced, hledger⟩ hstep
    rcases worker_of_step hstep with hsame | ⟨own, hown⟩
    · refine ⟨?_, ?_, hledger.step hstep⟩
      · rw [hsame]
        exact hworker
      · rw [hsame]
        exact htraced
    · exact ⟨hworker.step hown, htraced.step (hworker.advances hown).grows hown,
        hledger.step hstep⟩

end Accounts

/-! ## From the call to the receiver -/

section Receivers

variable {config : Config F}

/-- An envelope comes out as it went in exactly when no pair in it is
split. -/
theorem Call.joined_eq_iff (call : Call F) (id : Text) :
    (call.envelope id).joined = call.envelope id ↔
      (call.envelope id).isWhole := by
  have hdata := readBack_eq_self_iff Empty.elim call.distinct
  rw [readBack, Value.dict.injEq, isWhole] at hdata
  rw [Call.envelope, Envelope.joined, Envelope.mk.injEq,
    joinPairs_eq_self_iff, joinPairs_eq_self_iff, hdata, Envelope.isWhole]

variable (config) in
/-- The call sent the message for a webhook that its SELECT found active and
listing the event. -/
structure Meant (state : State F Publisher Handler Message)
    (publisher : Publisher) (call : Call F) (id : Text) (message : Message) :
    Prop where
  made : (state.phase publisher).call = some call
  sent : (id, message) ∈ state.sent publisher
  listed : ∃ webhook, (id, webhook) ∈ state.found publisher ∧
    webhook.active = true ∧ lists config call (id, webhook) = some true

omit [DecidableEq Publisher] [DecidableEq Handler] [DecidableEq Message] in
theorem mem_listeners {call : Call F} {rows : List Row} {id : Text} :
    id ∈ listeners config call rows ↔
      ∃ webhook, (id, webhook) ∈ rows ∧
        lists config call (id, webhook) = some true := by
  rw [listeners, List.mem_map]
  constructor
  · rintro ⟨row, hrow, rfl⟩
    obtain ⟨hmem, hlists⟩ := List.mem_filter.mp hrow
    exact ⟨row.2, hmem, of_decide_eq_true hlists⟩
  · rintro ⟨webhook, hmem, hlists⟩
    exact ⟨(id, webhook),
      List.mem_filter.mpr ⟨hmem, decide_eq_true hlists⟩, rfl⟩

omit [DecidableEq Publisher] [DecidableEq Handler] [DecidableEq Message] in
theorem Ledger.meant {state : State F Publisher Handler Message}
    (hledger : Ledger config state) {publisher : Publisher}
    {item : Text × Message} (hitem : item ∈ state.sent publisher) :
    ∃ call data, Meant config state publisher call item.1 item.2 ∧
      envelope config call item.1 = some data ∧
      state.worker.published item.2 = some data := by
  have haccount := hledger.accounts publisher
  obtain ⟨call, data, hcall, hdata, hheld⟩ := haccount.stored item hitem
  have hid : item.1 ∈ listeners config call (state.found publisher) :=
    (haccount.follows.leading hcall).subset
      (List.mem_map.mpr ⟨item, hitem, rfl⟩)
  obtain ⟨webhook, hrow, hlists⟩ := mem_listeners.mp hid
  exact ⟨call, data, ⟨hcall, hitem, webhook, hrow,
    haccount.active _ hrow, hlists⟩, hdata, hheld⟩

/-- The message of a call decodes to its envelope, split pairs joined. -/
theorem decodeMessage_envelope {call : Call F} {id : Text} {data : List Byte}
    (hdata : envelope config call id = some data) :
    decodeMessage config data = some (call.envelope id).joined :=
  decodeMessage_deadLetter hdata

omit [DecidableEq Publisher] [DecidableEq Handler] [DecidableEq Message] in
/-- Whatever carries an envelope was meant by a call. -/
theorem Ledger.of_carries {state : State F Publisher Handler Message}
    (hledger : Ledger config state) {message : Message}
    {carried : Envelope F}
    (hcarries : Carries config state.worker message carried) :
    ∃ publisher call id, Meant config state publisher call id message ∧
      carried = (call.envelope id).joined := by
  obtain ⟨data, hpublished, hdecode⟩ := hcarries
  obtain ⟨publisher, item, hitem, rfl⟩ :=
    hledger.owned message data hpublished
  obtain ⟨call, sent, hmeant, hdata, hheld⟩ := hledger.meant hitem
  obtain rfl : data = sent := by simpa [hpublished] using hheld
  rw [decodeMessage_envelope hdata, Option.some.injEq] at hdecode
  exact ⟨publisher, call, item.1, hmeant, hdecode.symm⟩

variable (config) in
/-- The event channel is faithful: what is in it was meant by one call for one
webhook, a finished call has sent one message to each listener, and what
receivers and dead letters hold is the event of such a call. -/
structure Faithful (state : State F Publisher Handler Message) : Prop where
  decodes : ∀ message data, state.worker.published message = some data →
    ∃ publisher call id, Meant config state publisher call id message ∧
      decodeMessage config data = some (call.envelope id).joined
  kept : ∀ message, state.worker.termed message = false
  once : ∀ publisher other call second id jd message,
    Meant config state publisher call id message →
      Meant config state other second jd message →
        publisher = other ∧ id = jd
  distinct : ∀ publisher, ((state.sent publisher).map Prod.fst).Nodup
  complete : ∀ publisher call, state.phase publisher = .finished call →
    ∀ id, (∃ message, Meant config state publisher call id message) ↔
      ∃ webhook, (id, webhook) ∈ state.found publisher ∧
        lists config call (id, webhook) = some true
  deliveries : ∀ row ∈ state.worker.deliveries,
    ∃ publisher call id message createdAt,
      Meant config state publisher call id message ∧
      Listed config state.worker message (call.envelope id).joined ∧
      row.webhookId = joinPairs id ∧
      loadsBytes config.format row.payload = some (.dict [
        (text "event", .str (call.envelope id).joined.eventName),
        (text "data", .dict (call.envelope id).joined.eventData),
        (text "created_at", .str createdAt)] : Value F Empty)
  deadLetters : ∀ letter ∈ state.worker.deadLetters,
    ∃ publisher call id message,
      Meant config state publisher call id message ∧
      Listed config state.worker message (call.envelope id).joined ∧
      decodeMessage config letter = some (call.envelope id).joined

omit [DecidableEq Publisher] [DecidableEq Handler] [DecidableEq Message] in
/-- No message of a call is one that a worker terminates. -/
theorem Sound.kept {state : State F Publisher Handler Message}
    (hsound : Sound config state) (message : Message) :
    state.worker.termed message = false := by
  by_contra htermed
  rw [Bool.not_eq_false] at htermed
  obtain ⟨data, hpublished, hnone⟩ := hsound.worker.termed message htermed
  obtain ⟨publisher, item, hitem, rfl⟩ :=
    hsound.ledger.owned message data hpublished
  obtain ⟨call, sent, -, hdata, hheld⟩ := hsound.ledger.meant hitem
  obtain rfl : data = sent := by simpa [hpublished] using hheld
  rw [decodeMessage_envelope hdata] at hnone
  simp at hnone

omit [DecidableEq Publisher] [DecidableEq Handler] [DecidableEq Message] in
theorem Ledger.distinct {state : State F Publisher Handler Message}
    (hledger : Ledger config state) (publisher : Publisher) :
    ((state.sent publisher).map Prod.fst).Nodup := by
  have haccount := hledger.accounts publisher
  cases hcall : (state.phase publisher).call with
  | none =>
      have hwaiting : state.phase publisher = .waiting := by
        cases hphase : state.phase publisher <;> simp_all [Phase.call]
      have hempty := haccount.follows
      rw [hwaiting] at hempty
      rw [show (state.sent publisher).map Prod.fst = [] from hempty]
      exact List.nodup_nil
  | some call =>
      have hlisteners : (listeners config call (state.found publisher)).Sublist
          ((state.found publisher).map Prod.fst) :=
        List.filter_sublist.map Prod.fst
      have hleading := haccount.follows.leading hcall
      exact (hleading.sublist.trans hlisteners).nodup haccount.nodup

/-- In every reachable state the event channel is faithful; a SELECT finds
exactly the webhooks that are active at the time; and an event without split
pairs comes out as it went in. -/
theorem events_reach_receivers {state : State F Publisher Handler Message}
    (hreach : (system Publisher Handler Message config).Reachable state) :
    Faithful config state ∧
    (∀ publisher rows next,
      (system Publisher Handler Message config).step state
          (.select publisher (some rows)) = some next →
        next.found publisher = rows ∧ ∀ id webhook, (id, webhook) ∈ rows ↔
          state.worker.webhooks id = some webhook ∧ webhook.active = true) ∧
    ∀ (call : Call F) (id : Text),
      (call.envelope id).joined = call.envelope id ↔
        (call.envelope id).isWhole := by
  have hsound := sound_of_reachable hreach
  have hledger := hsound.ledger
  refine ⟨⟨?_, hsound.kept, ?_, hledger.distinct, ?_, ?_, ?_⟩, ?_,
    Call.joined_eq_iff⟩
  · intro message data hpublished
    obtain ⟨publisher, item, hitem, rfl⟩ :=
      hledger.owned message data hpublished
    obtain ⟨call, sent, hmeant, hdata, hheld⟩ := hledger.meant hitem
    obtain rfl : data = sent := by simpa [hpublished] using hheld
    exact ⟨publisher, call, item.1, hmeant, decodeMessage_envelope hdata⟩
  · intro publisher other call second id jd message hfirst hsecond
    obtain ⟨hsame, hitem⟩ := hledger.unique publisher other _ hfirst.sent _
      hsecond.sent rfl
    exact ⟨hsame, congrArg Prod.fst hitem⟩
  · intro publisher call hphase id
    have hfollows := (hledger.accounts publisher).follows
    rw [hphase] at hfollows
    rw [← mem_listeners, ← show _ = _ from hfollows, List.mem_map]
    constructor
    · rintro ⟨message, hmeant⟩
      exact ⟨(id, message), hmeant.sent, rfl⟩
    · rintro ⟨item, hitem, rfl⟩
      obtain ⟨other, -, hmeant, -, -⟩ := hledger.meant hitem
      have hcall := hmeant.made
      rw [hphase] at hcall
      obtain rfl := Option.some.inj hcall
      exact ⟨item.2, hmeant⟩
  · intro row hrow
    obtain ⟨dispatch, hprepared, hid, hpayload⟩ :=
      hsound.traced.deliveries row hrow
    obtain ⟨publisher, call, id, hmeant, henvelope⟩ :=
      hledger.of_carries hprepared.accepted.carries
    obtain ⟨createdAt, hbody⟩ := hprepared.payload
    have hloads := loads_dispatchPayload hbody
    have hlisted := hprepared.accepted.listed
    rw [henvelope] at hlisted hid
    rw [henvelope, joined_joined, ← hpayload] at hloads
    exact ⟨publisher, call, id, dispatch.message, joinPairs createdAt, hmeant,
      hlisted, hid, hloads⟩
  · intro letter hletter
    obtain ⟨message, carried, haccepted, hdata⟩ :=
      hsound.traced.deadLetters letter hletter
    obtain ⟨publisher, call, id, hmeant, rfl⟩ :=
      hledger.of_carries haccepted.carries
    have hdecode := decodeMessage_deadLetter hdata
    rw [joined_joined] at hdecode
    exact ⟨publisher, call, id, message, hmeant, haccepted.listed, hdecode⟩
  · intro publisher rows next hstep
    have hselect : step config state (.select publisher (some rows)) =
        some next := hstep
    simp only [Events.step] at hselect
    split at hselect
    · next hnone => simp at hnone
    · next call answer hphase hanswer =>
        obtain rfl := Option.some.inj hanswer
        rw [Option.ite_none_right_eq_some, Option.some.injEq] at hselect
        obtain ⟨hrows, rfl⟩ := hselect
        refine ⟨Function.update_self .., fun id webhook => ⟨fun hmem =>
          hrows.sound _ hmem, fun hrow => ?_⟩⟩
        exact hrows.complete id (hledger.known id webhook hrow.1) webhook
          hrow.1 hrow.2
    · simp at hselect

end Receivers

/-! ## One event -/

def oneEvent : Call Empty where
  eventName := text "e"
  data := [(text "k", .str (text "v"))]
  distinct := ⟨List.nodup_singleton _, trivial, trivial⟩

/-- A webhook that was switched off. -/
def silent : Worker.Webhook := { subscriber with active := false }

def noEvents : State Empty Unit Unit Unit :=
  ⟨emptyStream, [], fun _ => .waiting, fun _ => [], fun _ => []⟩

theorem noEvents_init : (system Unit Unit Unit singleAttempt).Init noEvents :=
  ⟨emptyStream_init singleAttempt, rfl, rfl,
    fun _ _ hrow => by simp [noEvents, emptyStream] at hrow,
    fun _ => rfl, fun _ => rfl, fun _ => rfl⟩

/-- One of two webhooks gets the event. -/
def oneDelivered : List (Action Empty Unit Unit Unit) :=
  [.setWebhook (text "w") (some subscriber),
    .setWebhook (text "s") (some silent), .call () oneEvent,
    .select () (some [(text "w", subscriber)]), .publish () () .answered,
    .worker (.deliver () ()),
    .worker (.lookUp () (text "2026-01-01T00:00:00+00:00")),
    .worker (.attempt () (.responded 200)), .worker (.record () .answered),
    .worker (.ack () .answered)]

theorem one_event_reaches_receiver :
    ∃ state ∈ (system Unit Unit Unit singleAttempt).run noEvents oneDelivered,
      state.sent () = [(text "w", ())] ∧
      state.worker.deliveries.length = 1 ∧
      Faithful singleAttempt state := by
  obtain ⟨state, hrun, hsent, hdeliveries⟩ :
      ∃ state ∈ (system Unit Unit Unit singleAttempt).run noEvents
          oneDelivered,
        state.sent () = [(text "w", ())] ∧
        state.worker.deliveries.length = 1 := by
    decide +kernel
  have hreach := System.reachable_of_run noEvents_init hrun
  exact ⟨state, hrun, hsent, hdeliveries,
    (events_reach_receivers hreach).1⟩

end UTTG.Events
