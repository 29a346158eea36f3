import UTTG.Webhooks.Registry

/-!
# Lifecycles of webhook requests

What one step of one request can do to the shared state, and the invariant
that ties the phase of a request to the two stores: the row that a
`create_webhook` request adds is absent until its commit and present
afterwards, and the idempotency key it holds is the one it claimed.
-/

namespace UTTG.Webhooks

open UTTG.Expiring UTTG.Transition

variable {Request Client Id : Type*}
variable [DecidableEq Request] [DecidableEq Client] [DecidableEq Id]
variable {settings : Settings} {environment : Environment Request Id}

/-- The request that takes a step. -/
def Action.request : Action Request Client Id → Option Request
  | .elapse _ => none
  | .create request _ _ _ => some request
  | .change request _ _ _ => some request
  | .validate request _ => some request
  | .count request => some request
  | .claim request _ => some request
  | .commit request => some request
  | .rollback request => some request
  | .unclaim request => some request
  | .select request => some request
  | .describe request => some request
  | .raise request => some request
  | .crash request => some request

/-- The row that the request adds is not in the table. -/
def Absent (environment : Environment Request Id)
    (webhooks : Registry Client Id) (request : Request) : Prop :=
  webhooks.find (environment.webhookId request) = none

/-- What the stores contain, and which steps have failed, when a request is
in a phase. -/
def Fits (settings : Settings) (environment : Environment Request Id)
    (state : State Request Client Id) (request : Request) :
    Phase Client Id → Prop
  | .committing claim webhook _ _ =>
      state.won request = some claim ∧
        Absent environment state.webhooks request ∧
        settings.encrypts = true ∧
        webhook.id = environment.webhookId request ∧ webhook.active = true
  | .rollingBack claim =>
      state.won request = some claim ∧
        Absent environment state.webhooks request ∧
        settings.encrypts = true ∧ environment.commitRaises request = true
  | .unclaiming claim =>
      state.won request = some claim ∧
        Absent environment state.webhooks request ∧
        settings.encrypts = true ∧ environment.commitRaises request = true
  | .describing (some claim) response =>
      state.won request = some claim ∧
        ¬Absent environment state.webhooks request ∧
        settings.encrypts = true ∧
        environment.commitRaises request = false ∧ response.isCreated = true
  | .ended _ => True
  | _ =>
      state.won request = none ∧ Absent environment state.webhooks request

/-- Every request is where the stores say. -/
def Sound (settings : Settings) (environment : Environment Request Id)
    (state : State Request Client Id) : Prop :=
  ∀ request, Fits settings environment state request (state.phase request)

omit [DecidableEq Request] [DecidableEq Client] in
theorem Fits.congr {state next : State Request Client Id}
    {request : Request} {phase : Phase Client Id}
    (hfits : Fits settings environment state request phase)
    (hwon : next.won request = state.won request)
    (habsent : Absent environment next.webhooks request ↔
      Absent environment state.webhooks request) :
    Fits settings environment next request phase := by
  cases phase with
  | describing claim response =>
      cases claim with
      | none => simpa only [Fits, hwon, habsent] using hfits
      | some claim => simpa only [Fits, hwon, habsent] using hfits
  | ended response => trivial
  | _ => simpa only [Fits, hwon, habsent] using hfits

/-! ## One step -/

/-- The shared state after one step of `request`, before its phase changes. -/
inductive Did (environment : Environment Request Id)
    (state : State Request Client Id) (request : Request)
    (action : Action Request Client Id) : State Request Client Id → Prop
  | nothing : Did environment state request action state
  | key (keys : IdempotencyKey Client → Slot Unit ℚ) :
      Did environment state request action { state with keys := keys }
  | claimed (reply : Reply) (keys : IdempotencyKey Client → Slot Unit ℚ)
      (claim : IdempotencyKey Client)
      (haction : action = .claim request reply) :
      Did environment state request action { state with
        keys := keys
        won := Function.update state.won request (some claim) }
  | inserted {claim : IdempotencyKey Client} {webhook : Webhook Client Id}
      {events : List String} {secret : String}
      {webhooks : Registry Client Id}
      (haction : action = .commit request)
      (hphase : state.phase request =
        .committing claim webhook events secret)
      (hinsert : state.webhooks.insert webhook = some webhooks) :
      Did environment state request action { state with webhooks := webhooks }
  | written {row : Webhook Client Id} {assigned : Assigned}
      {response : Response Id} (haction : action = .commit request)
      (hphase : state.phase request = .writing row assigned response) :
      Did environment state request action { state with
        webhooks := writeBack state.webhooks row assigned }

omit [DecidableEq Client] [DecidableEq Id] in
theorem phase_goto (state : State Request Client Id) (request : Request)
    (phase : Phase Client Id) :
    (state.goto request phase).phase request = phase :=
  Function.update_self _ _ _

omit [DecidableEq Client] [DecidableEq Id] in
theorem phase_finish (state : State Request Client Id) (request : Request)
    (response : Response Id) :
    (state.finish request response).phase request = .ended (some response) :=
  phase_goto state request _

/-- The outcomes of a commit. -/
theorem commit_cases {state next : State Request Client Id}
    {request : Request}
    (hstep : step settings environment state (.commit request) = some next) :
    (∃ claim webhook events secret,
      state.phase request = .committing claim webhook events secret ∧
      ((environment.commitRaises request = true ∨
          state.webhooks.insert webhook = none) ∧
        next = state.goto request (.rollingBack claim) ∨
      environment.commitRaises request = false ∧
        ∃ webhooks, state.webhooks.insert webhook = some webhooks ∧
          next = { state with webhooks := webhooks }.goto request
            (.describing (some claim)
              (.created webhook.id webhook.url events webhook.active
                secret)))) ∨
    ∃ row assigned response,
      state.phase request = .writing row assigned response ∧
      (environment.commitRaises request = true ∧
        next = state.finish request .error ∨
      environment.commitRaises request = false ∧
        next = { state with
          webhooks := writeBack state.webhooks row assigned }.goto request
            (.describing none response)) := by
  simp only [step] at hstep
  split at hstep
  case h_1 claim webhook events secret hphase =>
    left
    refine ⟨claim, webhook, events, secret, hphase, ?_⟩
    split at hstep
    case isTrue hraises =>
      exact .inl ⟨.inl hraises, (Option.some.inj hstep).symm⟩
    case isFalse hraises =>
      split at hstep
      case h_1 hinsert =>
        exact .inl ⟨.inr hinsert, (Option.some.inj hstep).symm⟩
      case h_2 webhooks hinsert =>
        exact .inr ⟨by simpa using hraises, webhooks, hinsert,
          (Option.some.inj hstep).symm⟩
  case h_2 row assigned response hphase =>
    right
    refine ⟨row, assigned, response, hphase, ?_⟩
    split at hstep
    case isTrue hraises =>
      exact .inl ⟨hraises, (Option.some.inj hstep).symm⟩
    case isFalse hraises =>
      exact .inr ⟨by simpa using hraises, (Option.some.inj hstep).symm⟩
  case h_3 => simp at hstep

omit [DecidableEq Request] [DecidableEq Id] in
/-- What `SET NX EX` does to an idempotency key. -/
theorem setKey_cases (state : State Request Client Id)
    (claim : IdempotencyKey Client) :
    (state.setKey claim = (true, { state with
        keys := Function.update state.keys claim
          (Slot.set () (state.clock + idempotencySeconds)) })) ∨
      state.setKey claim = (false, state) := by
  rcases Slot.setNx_cases state.clock ()
    (state.clock + idempotencySeconds) (state.keys claim) with
    ⟨-, hset⟩ | ⟨-, hset⟩
  · left
    simp only [State.setKey, hset]
  · right
    simp only [State.setKey, hset, Function.update_eq_self]

variable (settings environment) in
omit [DecidableEq Client] [DecidableEq Id] in
/-- The step of a request that wins its claim. -/
theorem afterClaim_cases (state : State Request Client Id)
    (request : Request) (claim : IdempotencyKey Client)
    (body : WebhookCreate) (url : String) :
    (settings.encrypts = true ∧ ∃ webhook events secret,
      webhook.id = environment.webhookId request ∧ webhook.active = true ∧
      state.afterClaim settings environment request claim body url =
        { state with won := Function.update state.won request (some claim)
          }.goto request (.committing claim webhook events secret)) ∨
    (settings.encrypts = false ∧
      state.afterClaim settings environment request claim body url =
        { state with won := Function.update state.won request (some claim)
          }.finish request .error) := by
  unfold State.afterClaim
  cases hencrypts : settings.encrypts with
  | true => exact .inl ⟨rfl, _, _, _, rfl, rfl, rfl⟩
  | false => exact .inr ⟨rfl, rfl⟩

omit [DecidableEq Request] [DecidableEq Client] in
/-- A row with the id of the request makes it present. -/
theorem present_of_insert {webhooks next : Registry Client Id}
    {webhook : Webhook Client Id} {request : Request}
    (hinsert : webhooks.insert webhook = some next)
    (hid : webhook.id = environment.webhookId request) :
    ¬Absent environment next request := by
  rw [Absent, Table.find_insert hinsert, if_pos hid]
  simp

omit [DecidableEq Request] [DecidableEq Client] in
theorem inserts_of_absent {webhooks : Registry Client Id}
    {webhook : Webhook Client Id} {request : Request}
    (habsent : Absent environment webhooks request)
    (hid : webhook.id = environment.webhookId request) :
    webhooks.insert webhook ≠ none := by
  rw [ne_eq, Table.insert_eq_none_iff, not_not, hid]
  exact habsent

omit [DecidableEq Request] [DecidableEq Client] in
/-- An update neither adds nor removes a row. -/
theorem absent_writeBack (webhooks : Registry Client Id)
    (row : Webhook Client Id) (assigned : Assigned) (request : Request) :
    Absent environment (writeBack webhooks row assigned) request ↔
      Absent environment webhooks request := by
  unfold Absent writeBack
  rw [Table.find_modify]
  split
  · exact Option.map_eq_none_iff
  · exact Iff.rfl

/-- A step belongs to the passage of time or to one request, whose phase stays
in accord with the stores. -/
theorem step_cases {state next : State Request Client Id}
    {action : Action Request Client Id}
    (hstep : step settings environment state action = some next) :
    (action.request = none ∧ next.webhooks = state.webhooks ∧
      next.phase = state.phase ∧ next.won = state.won) ∨
    ∃ request base phase, action.request = some request ∧
      Did environment state request action base ∧
      next = base.goto request phase ∧
      (Fits settings environment state request (state.phase request) →
        Fits settings environment base request phase) := by
  cases action with
  | elapse duration =>
      left
      simp only [step] at hstep
      split at hstep
      · rw [← Option.some.inj hstep]
        exact ⟨rfl, rfl, rfl, rfl⟩
      · simp at hstep
  | create request client key body =>
      right
      simp only [step] at hstep
      split at hstep
      case h_1 hphase =>
        refine ⟨request, state, _, rfl, .nothing,
          (Option.some.inj hstep).symm, ?_⟩
        rw [hphase]
        exact fun hfits => hfits
      case h_2 => simp at hstep
  | change request client id change =>
      right
      simp only [step] at hstep
      split at hstep
      case h_1 hphase =>
        refine ⟨request, state, _, rfl, .nothing,
          (Option.some.inj hstep).symm, ?_⟩
        rw [hphase]
        exact fun hfits => hfits
      case h_2 => simp at hstep
  | validate request url =>
      right
      simp only [step] at hstep
      split at hstep
      case h_1 client key body url hphase =>
        refine ⟨request, state, _, rfl, .nothing,
          (Option.some.inj hstep).symm, ?_⟩
        rw [hphase]
        exact fun hfits => hfits
      case h_2 row patch url hphase =>
        refine ⟨request, state, _, rfl, .nothing,
          (Option.some.inj hstep).symm, ?_⟩
        rw [hphase]
        exact fun hfits => hfits
      case h_3 =>
        exact ⟨request, state, _, rfl, .nothing,
          (Option.some.inj hstep).symm, fun _ => trivial⟩
      case h_4 =>
        exact ⟨request, state, _, rfl, .nothing,
          (Option.some.inj hstep).symm, fun _ => trivial⟩
      case h_5 => simp at hstep
  | count request =>
      right
      simp only [step] at hstep
      split at hstep
      case h_1 client key body url hphase =>
        split at hstep
        · exact ⟨request, state, _, rfl, .nothing,
            (Option.some.inj hstep).symm, fun _ => trivial⟩
        · refine ⟨request, state, _, rfl, .nothing,
            (Option.some.inj hstep).symm, ?_⟩
          rw [hphase]
          exact fun hfits => hfits
      case h_2 => simp at hstep
  | claim request reply =>
      right
      simp only [step] at hstep
      split at hstep
      case h_1 client key body url hphase =>
        rcases setKey_cases state (client, environment.sha256 key) with
          hset | hset
        · rw [hset] at hstep
          cases reply with
          | answered =>
              rw [if_pos rfl] at hstep
              rcases afterClaim_cases settings environment _ request
                (client, environment.sha256 key) body url with
                ⟨hencrypts, webhook, events, secret, hid, hactive, hnext⟩ |
                ⟨-, hnext⟩
              · rw [hnext] at hstep
                refine ⟨request, _, _, rfl, .claimed _ _ _ rfl,
                  (Option.some.inj hstep).symm, ?_⟩
                rw [hphase]
                rintro ⟨-, habsent⟩
                exact ⟨Function.update_self .., habsent, hencrypts, hid, hactive⟩
              · rw [hnext] at hstep
                exact ⟨request, _, _, rfl, .claimed _ _ _ rfl,
                  (Option.some.inj hstep).symm, fun _ => trivial⟩
          | lost =>
              exact ⟨request, _, _, rfl, .key _,
                (Option.some.inj hstep).symm, fun _ => trivial⟩
          | refused =>
              exact ⟨request, state, _, rfl, .nothing,
                (Option.some.inj hstep).symm, fun _ => trivial⟩
        · rw [hset] at hstep
          cases reply with
          | answered =>
              rw [if_neg Bool.false_ne_true] at hstep
              exact ⟨request, state, _, rfl, .nothing,
                (Option.some.inj hstep).symm, fun _ => trivial⟩
          | lost =>
              exact ⟨request, state, _, rfl, .nothing,
                (Option.some.inj hstep).symm, fun _ => trivial⟩
          | refused =>
              exact ⟨request, state, _, rfl, .nothing,
                (Option.some.inj hstep).symm, fun _ => trivial⟩
      case h_2 => simp at hstep
  | commit request =>
      right
      rcases commit_cases hstep with
        ⟨claim, webhook, events, secret, hphase,
          ⟨hrefused, hnext⟩ | ⟨hcommits, webhooks, hinsert, hnext⟩⟩ |
        ⟨row, assigned, response, hphase, ⟨-, hnext⟩ | ⟨-, hnext⟩⟩
      · refine ⟨request, state, _, rfl, .nothing, hnext, ?_⟩
        rw [hphase]
        rintro ⟨hwon, habsent, hencrypts, hid, -⟩
        have hinserts := inserts_of_absent habsent hid
        exact ⟨hwon, habsent, hencrypts, hrefused.resolve_right hinserts⟩
      · refine ⟨request, _, _, rfl, .inserted rfl hphase hinsert, hnext, ?_⟩
        rw [hphase]
        rintro ⟨hwon, -, hencrypts, hid, -⟩
        exact ⟨hwon, present_of_insert hinsert hid, hencrypts, hcommits, rfl⟩
      · exact ⟨request, state, _, rfl, .nothing, hnext, fun _ => trivial⟩
      · refine ⟨request, _, _, rfl, .written rfl hphase, hnext, ?_⟩
        rw [hphase]
        exact fun hfits =>
          ⟨hfits.1, (absent_writeBack _ row assigned request).mpr hfits.2⟩
  | rollback request =>
      right
      simp only [step] at hstep
      split at hstep
      case h_1 claim hphase =>
        refine ⟨request, state, _, rfl, .nothing,
          (Option.some.inj hstep).symm, ?_⟩
        rw [hphase]
        exact fun hfits => hfits
      case h_2 => simp at hstep
  | unclaim request =>
      right
      simp only [step] at hstep
      split at hstep
      case h_1 claim hphase =>
        exact ⟨request, _, _, rfl, .key _,
          (Option.some.inj hstep).symm, fun _ => trivial⟩
      case h_2 => simp at hstep
  | select request =>
      right
      simp only [step] at hstep
      split at hstep
      case h_1 client id change hphase =>
        split at hstep
        · exact ⟨request, state, _, rfl, .nothing,
            (Option.some.inj hstep).symm, fun _ => trivial⟩
        · cases change with
          | delete =>
              refine ⟨request, state, _, rfl, .nothing,
                (Option.some.inj hstep).symm, ?_⟩
              rw [hphase]
              exact fun hfits => hfits
          | patch patch =>
              simp only [State.afterSelect] at hstep
              split at hstep
              · refine ⟨request, state, _, rfl, .nothing,
                  (Option.some.inj hstep).symm, ?_⟩
                rw [hphase]
                exact fun hfits => hfits
              · refine ⟨request, state, _, rfl, .nothing,
                  (Option.some.inj hstep).symm, ?_⟩
                rw [hphase]
                exact fun hfits => hfits
      case h_2 => simp at hstep
  | describe request =>
      right
      simp only [step] at hstep
      split at hstep
      case h_1 claim response hphase =>
        split at hstep
        · exact ⟨request, state, _, rfl, .nothing,
            (Option.some.inj hstep).symm, fun _ => trivial⟩
        · exact ⟨request, state, _, rfl, .nothing,
            (Option.some.inj hstep).symm, fun _ => trivial⟩
      case h_2 => simp at hstep
  | raise request =>
      right
      simp only [step] at hstep
      split at hstep
      case h_5 => simp at hstep
      all_goals
        exact ⟨request, state, _, rfl, .nothing,
          (Option.some.inj hstep).symm, fun _ => trivial⟩
  | crash request =>
      right
      exact ⟨request, state, _, rfl, .nothing,
        (Option.some.inj hstep).symm, fun _ => trivial⟩

/-! ## The invariant -/

omit [DecidableEq Client] in
/-- The step of one request leaves the row of another one absent or
present. -/
theorem Did.frame {state base : State Request Client Id}
    {request other : Request} {action : Action Request Client Id}
    (hdid : Did environment state request action base)
    (hfits : Fits settings environment state request (state.phase request))
    (hother : other ≠ request) :
    base.won other = state.won other ∧
      (Absent environment base.webhooks other ↔
        Absent environment state.webhooks other) := by
  cases hdid with
  | nothing => exact ⟨rfl, Iff.rfl⟩
  | key keys => exact ⟨rfl, Iff.rfl⟩
  | claimed reply keys claim haction => exact ⟨Function.update_of_ne hother _ _, Iff.rfl⟩
  | inserted haction hphase hinsert =>
      rw [hphase] at hfits
      obtain ⟨-, -, -, hid, -⟩ := hfits
      refine ⟨rfl, ?_⟩
      have hne : environment.webhookId request ≠
          environment.webhookId other := fun heq =>
        hother (environment.distinct heq).symm
      rw [Absent, Absent, Table.find_insert hinsert, hid, if_neg hne]
  | written haction hphase => exact ⟨rfl, absent_writeBack _ _ _ other⟩

omit [DecidableEq Client] in
theorem Did.phase {state base : State Request Client Id}
    {request : Request} {action : Action Request Client Id}
    (hdid : Did environment state request action base) :
    base.phase = state.phase := by
  cases hdid <;> rfl

/-- Only its own steps change the phase of a request. -/
theorem request_of_phase_ne {state next : State Request Client Id}
    {action : Action Request Client Id} {request : Request}
    (hstep : step settings environment state action = some next)
    (hne : next.phase request ≠ state.phase request) :
    action.request = some request := by
  rcases step_cases hstep with
    ⟨-, -, hphase, -⟩ | ⟨other, base, phase, hrequest, hdid, rfl, -⟩
  · rw [hphase] at hne
    exact absurd rfl hne
  · by_cases hother : request = other
    · rw [hother]
      exact hrequest
    · simp only [State.goto, Function.update_of_ne hother, hdid.phase] at hne
      exact absurd rfl hne

/-- The steps that change no store. -/
theorem goto_of_step {state next : State Request Client Id}
    {action : Action Request Client Id} {request : Request}
    (hrequest : action.request = some request)
    (hclaim : ∀ reply, action ≠ .claim request reply)
    (hcommit : action ≠ .commit request)
    (hunclaim : action ≠ .unclaim request)
    (hstep : step settings environment state action = some next) :
    ∃ phase, next = state.goto request phase := by
  cases action with
  | elapse duration => simp [Action.request] at hrequest
  | claim other reply =>
      obtain rfl := Option.some.inj hrequest
      exact absurd rfl (hclaim reply)
  | commit other =>
      obtain rfl := Option.some.inj hrequest
      exact absurd rfl hcommit
  | unclaim other =>
      obtain rfl := Option.some.inj hrequest
      exact absurd rfl hunclaim
  | crash other =>
      obtain rfl := Option.some.inj hrequest
      exact ⟨_, (Option.some.inj hstep).symm⟩
  | create other client key body | change other client id change
  | rollback other =>
      obtain rfl := Option.some.inj hrequest
      simp only [step] at hstep
      split at hstep
      · exact ⟨_, (Option.some.inj hstep).symm⟩
      · simp at hstep
  | validate other url | raise other =>
      obtain rfl := Option.some.inj hrequest
      simp only [step] at hstep
      split at hstep
      case h_5 => simp at hstep
      all_goals exact ⟨_, (Option.some.inj hstep).symm⟩
  | count other | describe other =>
      obtain rfl := Option.some.inj hrequest
      simp only [step] at hstep
      split at hstep
      · split at hstep
        · exact ⟨_, (Option.some.inj hstep).symm⟩
        · exact ⟨_, (Option.some.inj hstep).symm⟩
      · simp at hstep
  | select other =>
      obtain rfl := Option.some.inj hrequest
      simp only [step] at hstep
      split at hstep
      · split at hstep
        · exact ⟨_, (Option.some.inj hstep).symm⟩
        · unfold State.afterSelect at hstep
          split at hstep
          · exact ⟨_, (Option.some.inj hstep).symm⟩
          · split at hstep
            · exact ⟨_, (Option.some.inj hstep).symm⟩
            · exact ⟨_, (Option.some.inj hstep).symm⟩
      · simp at hstep

/-- Where a step of its own takes a request. -/
inductive Goes (environment : Environment Request Id)
    (state : State Request Client Id) (request : Request) :
    Action Request Client Id → Phase Client Id → Phase Client Id → Prop
  | create {client : Client} {key : String} {body : WebhookCreate} :
      Goes environment state request (.create request client key body) .idle
        (.validating client key body)
  | change {client : Client} {id : Id} {change : Change} :
      Goes environment state request (.change request client id change) .idle
        (.selecting client id change)
  | validated {client : Client} {key : String} {body : WebhookCreate}
      {url : String} :
      Goes environment state request (.validate request (some url))
        (.validating client key body) (.counting client key body url)
  | validatedPatch {row : Webhook Client Id} {patch : WebhookPatch}
      {url : String} {assigned : Assigned} {response : Response Id} :
      Goes environment state request (.validate request (some url))
        (.validatingPatch row patch) (.writing row assigned response)
  | counted {client : Client} {key : String} {body : WebhookCreate}
      {url : String} :
      Goes environment state request (.count request)
        (.counting client key body url) (.claiming client key body url)
  | claimed {reply : Reply} {client : Client} {key : String}
      {body : WebhookCreate} {url : String} {webhook : Webhook Client Id}
      {events : List String} {secret : String}
      (howner : webhook.ownerIpFingerprint = client) :
      Goes environment state request (.claim request reply)
        (.claiming client key body url)
        (.committing (client, environment.sha256 key) webhook events secret)
  | uncommitted {claim : IdempotencyKey Client} {webhook : Webhook Client Id}
      {events : List String} {secret : String} :
      Goes environment state request (.commit request)
        (.committing claim webhook events secret) (.rollingBack claim)
  | committed {claim : IdempotencyKey Client} {webhook : Webhook Client Id}
      {events : List String} {secret : String} {response : Response Id} :
      Goes environment state request (.commit request)
        (.committing claim webhook events secret)
        (.describing (some claim) response)
  | written {row : Webhook Client Id} {assigned : Assigned}
      {response : Response Id} :
      Goes environment state request (.commit request)
        (.writing row assigned response) (.describing none response)
  | rolledBack {claim : IdempotencyKey Client} :
      Goes environment state request (.rollback request) (.rollingBack claim)
        (.unclaiming claim)
  | selected {client : Client} {id : Id} {change : Change}
      {row : Webhook Client Id} {assigned : Assigned} {response : Response Id}
      (hrow : ownerStatement state.webhooks id client = some row) :
      Goes environment state request (.select request)
        (.selecting client id change) (.writing row assigned response)
  | selectedUrl {client : Client} {id : Id} {change : Change}
      {row : Webhook Client Id} {patch : WebhookPatch}
      (hrow : ownerStatement state.webhooks id client = some row) :
      Goes environment state request (.select request)
        (.selecting client id change) (.validatingPatch row patch)
  | ends {action : Action Request Client Id} {phase : Phase Client Id}
      {response : Option (Response Id)} :
      Goes environment state request action phase (.ended response)

theorem goes_of_step {state next : State Request Client Id}
    {action : Action Request Client Id} {request : Request}
    (hrequest : action.request = some request)
    (hstep : step settings environment state action = some next) :
    Goes environment state request action (state.phase request)
      (next.phase request) := by
  cases action with
  | elapse duration => simp [Action.request] at hrequest
  | create other client key body | change other client id change
  | rollback other =>
      obtain rfl := Option.some.inj hrequest
      simp only [step] at hstep
      split at hstep
      case h_1 hphase =>
        obtain rfl := Option.some.inj hstep
        rw [phase_goto, hphase]
        constructor
      case h_2 => simp at hstep
  | unclaim other =>
      obtain rfl := Option.some.inj hrequest
      simp only [step] at hstep
      split at hstep
      · obtain rfl := Option.some.inj hstep
        rw [phase_finish]
        exact .ends
      · simp at hstep
  | validate other url =>
      obtain rfl := Option.some.inj hrequest
      simp only [step] at hstep
      split at hstep
      case h_1 hphase | h_2 hphase =>
        obtain rfl := Option.some.inj hstep
        rw [phase_goto, hphase]
        constructor
      case h_3 | h_4 =>
        obtain rfl := Option.some.inj hstep
        rw [phase_finish]
        exact .ends
      case h_5 => simp at hstep
  | count other =>
      obtain rfl := Option.some.inj hrequest
      simp only [step] at hstep
      split at hstep
      case h_1 hphase =>
        split at hstep
        · obtain rfl := Option.some.inj hstep
          rw [phase_finish]
          exact .ends
        · obtain rfl := Option.some.inj hstep
          rw [phase_goto, hphase]
          exact .counted
      case h_2 => simp at hstep
  | claim other reply =>
      obtain rfl := Option.some.inj hrequest
      simp only [step] at hstep
      split at hstep
      case h_1 client key body url hphase =>
        cases reply with
        | answered =>
            simp only at hstep
            split at hstep
            · obtain rfl := Option.some.inj hstep
              unfold State.afterClaim
              split
              · rw [phase_goto, hphase]
                exact .claimed rfl
              · rw [phase_finish]
                exact .ends
            · obtain rfl := Option.some.inj hstep
              rw [phase_finish]
              exact .ends
        | lost | refused =>
            obtain rfl := Option.some.inj hstep
            rw [phase_finish]
            exact .ends
      case h_2 => simp at hstep
  | commit other =>
      obtain rfl := Option.some.inj hrequest
      rcases commit_cases hstep with
        ⟨claim, webhook, events, secret, hphase,
          ⟨-, rfl⟩ | ⟨-, webhooks, -, rfl⟩⟩ |
        ⟨row, assigned, response, hphase, ⟨-, rfl⟩ | ⟨-, rfl⟩⟩
      · rw [phase_goto, hphase]
        exact .uncommitted
      · rw [phase_goto, hphase]
        exact .committed
      · rw [phase_finish]
        exact .ends
      · rw [phase_goto, hphase]
        exact .written
  | select other =>
      obtain rfl := Option.some.inj hrequest
      simp only [step] at hstep
      split at hstep
      case h_1 client id change hphase =>
        split at hstep
        case h_1 =>
          obtain rfl := Option.some.inj hstep
          rw [phase_finish]
          exact .ends
        case h_2 row hrow =>
          obtain rfl := Option.some.inj hstep
          unfold State.afterSelect
          split
          · rw [phase_goto, hphase]
            exact .selected hrow
          · split
            · rw [phase_goto, hphase]
              exact .selectedUrl hrow
            · rw [phase_goto, hphase]
              exact .selected hrow
      case h_2 => simp at hstep
  | describe other =>
      obtain rfl := Option.some.inj hrequest
      simp only [step] at hstep
      split at hstep
      · split at hstep
        · obtain rfl := Option.some.inj hstep
          rw [phase_finish]
          exact .ends
        · obtain rfl := Option.some.inj hstep
          rw [phase_finish]
          exact .ends
      · simp at hstep
  | raise other =>
      obtain rfl := Option.some.inj hrequest
      simp only [step] at hstep
      split at hstep
      case h_5 => simp at hstep
      all_goals
        obtain rfl := Option.some.inj hstep
        rw [phase_finish]
        exact .ends
  | crash other =>
      obtain rfl := Option.some.inj hrequest
      obtain rfl := Option.some.inj hstep
      rw [phase_goto]
      exact .ends

theorem Sound.step {state next : State Request Client Id}
    {action : Action Request Client Id} (hsound : Sound settings environment state)
    (hstep : Webhooks.step settings environment state action = some next) :
    Sound settings environment next := by
  intro other
  rcases step_cases hstep with
    ⟨-, hwebhooks, hphase, hwon⟩ |
    ⟨request, base, phase, -, hdid, rfl, hown⟩
  · rw [hphase]
    exact (hsound other).congr (by rw [hwon]) (by rw [hwebhooks])
  · by_cases hother : other = request
    · subst hother
      simp only [State.goto, Function.update_self]
      exact (hown (hsound other)).congr rfl Iff.rfl
    · obtain ⟨hwon, habsent⟩ := hdid.frame (hsound request) hother
      simp only [State.goto, Function.update_of_ne hother, hdid.phase]
      exact (hsound other).congr hwon habsent

theorem sound_init {state : State Request Client Id}
    (hinit : (system Client settings environment).Init state) :
    Sound settings environment state := by
  obtain ⟨hrows, -, hphase, hwon⟩ := hinit
  intro request
  rw [hphase request]
  refine ⟨hwon request, ?_⟩
  rw [Absent, Table.find_eq_none_iff, hrows]
  simp

theorem sound_of_reachable {state : State Request Client Id}
    (hreach : (system Client settings environment).Reachable state) :
    Sound settings environment state :=
  System.Reachable.invariant (Sound settings environment)
    (fun _ hinit => sound_init hinit)
    (fun _ _ _ hsound hstep => hsound.step hstep) hreach

end UTTG.Webhooks
