import UTTG.Webhooks.Registration

/-!
# One webhook for one idempotency key

`create_webhook` claims the key of its client before it commits, and gives the
key back when the commit raises.  A request that may still write or delete, or
that has stored its row, is engaged under the key that it won.  While the key
of an engaged request is set no other request becomes engaged under it, so at
most one request of a client and key ever stores a webhook.
-/

namespace UTTG.Webhooks

open UTTG.Expiring UTTG.Transition

variable {Request Client Id : Type*}
variable [DecidableEq Request] [DecidableEq Client] [DecidableEq Id]
variable {settings : Settings} {environment : Environment Request Id}

/-- The key that a request tries to claim. -/
def Phase.claims (environment : Environment Request Id) :
    Phase Client Id → Option (IdempotencyKey Client)
  | .claiming client key _ _ => some (client, environment.sha256 key)
  | _ => none

/-- The key that a request has won and whose commit is not over. -/
def Phase.pending : Phase Client Id → Option (IdempotencyKey Client)
  | .committing claim _ _ _ | .rollingBack claim | .unclaiming claim =>
      some claim
  | _ => none

/-- The key that a request carries on its way to the claim. -/
def Phase.carried (environment : Environment Request Id) :
    Phase Client Id → Option (IdempotencyKey Client)
  | .validating client key _ | .counting client key _ _
  | .claiming client key _ _ => some (client, environment.sha256 key)
  | _ => none

/-- A request of the run that carries the key. -/
def Carries (environment : Environment Request Id)
    (claim : IdempotencyKey Client)
    (actions : List (Action Request Client Id)) (request : Request) : Prop :=
  ∃ client key body, .create request client key body ∈ actions ∧
    (client, environment.sha256 key) = claim

/-- The claims of one key are sent within the expiry of the key. -/
def ClaimsWithin (environment : Environment Request Id)
    (claim : IdempotencyKey Client) (since : ℚ)
    (state : State Request Client Id) : Action Request Client Id → Prop
  | .claim request _ =>
      (state.phase request).claims environment = some claim →
        since ≤ state.clock ∧ state.clock < since + idempotencySeconds
  | _ => True

instance (environment : Environment Request Id)
    (claim : IdempotencyKey Client) (since : ℚ)
    (state : State Request Client Id) (action : Action Request Client Id) :
    Decidable (ClaimsWithin environment claim since state action) :=
  match action with
  | .claim request _ => inferInstanceAs (Decidable
      ((state.phase request).claims environment = some claim →
        since ≤ state.clock ∧ state.clock < since + idempotencySeconds))
  | .elapse _ | .create _ _ _ _ | .change _ _ _ _ | .validate _ _ | .count _
  | .commit _ | .rollback _ | .unclaim _ | .select _ | .describe _ | .raise _
  | .crash _ => isTrue trivial

/-- The request may still write or delete under the key, or has stored its
row. -/
def Engaged (environment : Environment Request Id)
    (state : State Request Client Id) (claim : IdempotencyKey Client)
    (request : Request) : Prop :=
  (state.phase request).pending = some claim ∨
    state.won request = some claim ∧
      ¬Absent environment state.webhooks request

/-- At most one request is engaged under the key, and while one is the key is
set beyond the time of the claims. -/
structure Reserved (environment : Environment Request Id)
    (claim : IdempotencyKey Client) (since : ℚ)
    (state : State Request Client Id) : Prop where
  sole : ∀ first second, Engaged environment state claim first →
    Engaged environment state claim second → first = second
  held : ∀ request, Engaged environment state claim request →
    ∃ deadline, state.keys claim = Slot.set () deadline ∧
      since + idempotencySeconds ≤ deadline

/-- The request is over without a row. -/
def Fruitless (environment : Environment Request Id)
    (state : State Request Client Id) (request : Request) : Prop :=
  (∃ response, state.phase request = .ended response) ∧
    Absent environment state.webhooks request

/-- A request has not started, or tries or has won only this key. -/
structure Bound (environment : Environment Request Id)
    (claim : IdempotencyKey Client) (state : State Request Client Id)
    (request : Request) : Prop where
  started : state.phase request ≠ .idle
  carried : ∀ other ∈ (state.phase request).carried environment, other = claim
  won : ∀ other ∈ state.won request, other = claim

/-! ## What a step does to a key -/

omit [DecidableEq Client] in
/-- The steps of another request leave what a request has won. -/
theorem Did.won {state base : State Request Client Id}
    {request other : Request} {action : Action Request Client Id}
    (hdid : Did environment state request action base)
    (hother : other ≠ request) : base.won other = state.won other := by
  cases hdid with
  | claimed reply keys claim haction =>
      exact Function.update_of_ne hother _ _
  | nothing | key keys | inserted haction hphase hinsert
  | written haction hphase => rfl

/-- Only its own steps concern a request. -/
theorem frame_of_step {state next : State Request Client Id}
    {action : Action Request Client Id} {other : Request}
    (hstep : step settings environment state action = some next)
    (hother : action.request ≠ some other) :
    next.phase other = state.phase other ∧
      next.won other = state.won other := by
  rcases step_cases hstep with
    ⟨-, -, hphase, hwon⟩ | ⟨request, base, phase, hrequest, hdid, rfl, -⟩
  · exact ⟨congrFun hphase other, congrFun hwon other⟩
  · have hne : other ≠ request := by
      rintro rfl
      exact hother hrequest
    refine ⟨?_, hdid.won hne⟩
    simp only [State.goto, Function.update_of_ne hne, hdid.phase]

/-- A claim finds the key absent and sets it, and the request goes on under it
or ends; or the key stays as it is and the request ends. -/
theorem claim_cases {state next : State Request Client Id}
    {request : Request} {reply : Reply}
    (hstep : step settings environment state (.claim request reply) =
      some next) :
    ∃ claim, (state.phase request).claims environment = some claim ∧
      next.webhooks = state.webhooks ∧
      (next.won request = state.won request ∨
        next.won request = some claim) ∧
      ((state.keys claim).exist state.clock = false ∧
          next.keys = Function.update state.keys claim
            (Slot.set () (state.clock + idempotencySeconds)) ∧
          ((next.phase request).pending = some claim ∨
            ∃ response, next.phase request = .ended response) ∨
        next.keys = state.keys ∧
          ∃ response, next.phase request = .ended response) := by
  simp only [step] at hstep
  split at hstep
  case h_1 client key body url hphase =>
    refine ⟨(client, environment.sha256 key), by rw [hphase]; rfl, ?_⟩
    have hended (base : State Request Client Id) (response : Response Id) :
        ∃ given, (base.finish request response).phase request =
          .ended given :=
      ⟨_, Function.update_self _ _ _⟩
    rcases Slot.setNx_cases state.clock ()
      (state.clock + idempotencySeconds)
      (state.keys (client, environment.sha256 key)) with
      ⟨habsent, hset⟩ | ⟨-, hset⟩
    · have hkey : state.setKey (client, environment.sha256 key) =
          (true, { state with
            keys := Function.update state.keys (client, environment.sha256 key)
              (Slot.set () (state.clock + idempotencySeconds)) }) := by
        simp only [State.setKey, hset]
      rw [hkey] at hstep
      cases reply with
      | answered =>
          rw [if_pos rfl] at hstep
          rcases afterClaim_cases settings environment _ request
            (client, environment.sha256 key) body url with
            ⟨-, webhook, events, secret, -, -, hnext⟩ | ⟨-, hnext⟩
          · obtain rfl := Option.some.inj (hnext ▸ hstep)
            refine ⟨rfl, .inr (Function.update_self _ _ _),
              .inl ⟨habsent, rfl, .inl ?_⟩⟩
            simp [State.goto, Phase.pending]
          · obtain rfl := Option.some.inj (hnext ▸ hstep)
            exact ⟨rfl, .inr (Function.update_self _ _ _),
              .inl ⟨habsent, rfl, .inr (hended _ _)⟩⟩
      | lost =>
          obtain rfl := Option.some.inj hstep
          exact ⟨rfl, .inl rfl, .inl ⟨habsent, rfl, .inr (hended _ _)⟩⟩
      | refused =>
          obtain rfl := Option.some.inj hstep
          exact ⟨rfl, .inl rfl, .inr ⟨rfl, hended _ _⟩⟩
    · have hkey : state.setKey (client, environment.sha256 key) =
          (false, state) := by
        simp only [State.setKey, hset, Function.update_eq_self]
      rw [hkey] at hstep
      cases reply with
      | answered =>
          rw [if_neg Bool.false_ne_true] at hstep
          obtain rfl := Option.some.inj hstep
          exact ⟨rfl, .inl rfl, .inr ⟨rfl, hended _ _⟩⟩
      | lost | refused =>
          obtain rfl := Option.some.inj hstep
          exact ⟨rfl, .inl rfl, .inr ⟨rfl, hended _ _⟩⟩
  case h_2 => simp at hstep

/-- A request that has ended takes no step but the last one of its process. -/
theorem ended_of_step {state next : State Request Client Id}
    {action : Action Request Client Id} {request : Request}
    (hstep : step settings environment state action = some next)
    (hended : ∃ response, state.phase request = .ended response) :
    ∃ response, next.phase request = .ended response := by
  obtain ⟨response, hphase⟩ := hended
  by_cases hrequest : action.request = some request
  · cases action with
    | elapse duration => simp [Action.request] at hrequest
    | crash other =>
        obtain rfl := Option.some.inj hrequest
        obtain rfl := Option.some.inj hstep
        exact ⟨none, Function.update_self _ _ _⟩
    | _ =>
        obtain rfl := Option.some.inj hrequest
        simp [step, hphase] at hstep
  · exact ⟨response, (frame_of_step hstep hrequest).1.trans hphase⟩

/-- A key is claimed, given back by a request whose commit failed, or stays as
it is. -/
theorem keys_of_step {state next : State Request Client Id}
    {action : Action Request Client Id} {claim : IdempotencyKey Client}
    (hstep : step settings environment state action = some next) :
    next.keys claim = state.keys claim ∨
      (∃ request reply, action = .claim request reply ∧
        (state.phase request).claims environment = some claim ∧
        (state.keys claim).exist state.clock = false ∧
        next.keys claim =
          Slot.set () (state.clock + idempotencySeconds)) ∨
      ∃ request, action = .unclaim request ∧
        state.phase request = .unclaiming claim ∧
        ∃ response, next.phase request = .ended response := by
  cases action with
  | claim request reply =>
      obtain ⟨own, hclaims, -, -, ⟨habsent, hkeys, -⟩ | ⟨hkeys, -⟩⟩ :=
        claim_cases hstep
      · by_cases hown : claim = own
        · subst hown
          refine .inr (.inl ⟨request, reply, rfl, hclaims, habsent, ?_⟩)
          rw [hkeys, Function.update_self]
        · left
          rw [hkeys, Function.update_of_ne hown]
      · exact .inl (congrFun hkeys claim)
  | unclaim request =>
      simp only [step] at hstep
      split at hstep
      case h_1 own hphase =>
        obtain rfl := Option.some.inj hstep
        by_cases hown : claim = own
        · subst hown
          exact .inr (.inr ⟨request, rfl, hphase, _,
            Function.update_self _ _ _⟩)
        · exact .inl (Function.update_of_ne hown _ _)
      case h_2 => simp at hstep
  | commit request =>
      left
      rcases commit_cases hstep with
        ⟨own, webhook, events, secret, -, ⟨-, rfl⟩ | ⟨-, webhooks, -, rfl⟩⟩ |
        ⟨row, assigned, response, -, ⟨-, rfl⟩ | ⟨-, rfl⟩⟩ <;> rfl
  | elapse duration =>
      simp only [step] at hstep
      split at hstep
      · obtain rfl := Option.some.inj hstep
        exact .inl rfl
      · simp at hstep
  | _ =>
      obtain ⟨phase, rfl⟩ := goto_of_step rfl (by simp) (by simp) (by simp)
        hstep
      exact .inl rfl

/-- A request comes to hold a key only by a claim that is granted. -/
theorem pending_of_step {state next : State Request Client Id}
    {action : Action Request Client Id} {request : Request}
    {claim : IdempotencyKey Client}
    (hstep : step settings environment state action = some next)
    (hpending : (next.phase request).pending = some claim) :
    (state.phase request).pending = some claim ∨
      ∃ reply, action = .claim request reply ∧
        (state.phase request).claims environment = some claim ∧
        (state.keys claim).exist state.clock = false ∧
        next.keys claim =
          Slot.set () (state.clock + idempotencySeconds) := by
  by_cases hrequest : action.request = some request
  case neg =>
    left
    rw [← (frame_of_step hstep hrequest).1]
    exact hpending
  by_cases hclaim : ∃ reply, action = .claim request reply
  · obtain ⟨reply, rfl⟩ := hclaim
    obtain ⟨own, hclaims, -, -, ⟨habsent, hkeys, hgoes | ⟨_, hended⟩⟩ |
      ⟨-, _, hended⟩⟩ := claim_cases hstep
    · obtain rfl : own = claim :=
        Option.some.inj (hgoes.symm.trans hpending)
      refine .inr ⟨reply, rfl, hclaims, habsent, ?_⟩
      rw [hkeys, Function.update_self]
    · simp [hended, Phase.pending] at hpending
    · simp [hended, Phase.pending] at hpending
  · left
    have hgoes := goes_of_step hrequest hstep
    generalize state.phase request = before at *
    generalize next.phase request = after at *
    cases hgoes with
    | claimed howner => exact absurd ⟨_, rfl⟩ hclaim
    | uncommitted | rolledBack => exact hpending
    | _ => cases hpending

/-! ## Rows -/

/-- A row is stored by the commit of the request that drew its id. -/
theorem absent_of_step {state next : State Request Client Id}
    {action : Action Request Client Id} {request : Request}
    (hsound : Sound settings environment state)
    (hstep : step settings environment state action = some next)
    (habsent : Absent environment state.webhooks request)
    (hpending : ∀ claim webhook events secret, state.phase request ≠
      .committing claim webhook events secret) :
    Absent environment next.webhooks request := by
  rcases step_cases hstep with
    ⟨-, hwebhooks, -, -⟩ | ⟨other, base, phase, -, hdid, rfl, -⟩
  · rw [hwebhooks]
    exact habsent
  · by_cases hother : request = other
    · subst hother
      cases hdid with
      | nothing | key keys | claimed reply keys claim haction => exact habsent
      | inserted haction hphase hinsert =>
          exact absurd hphase (hpending _ _ _ _)
      | written haction hphase => exact (absent_writeBack _ _ _ _).mpr habsent
    · exact (hdid.frame (hsound other) hother).2.mpr habsent

/-- Only the claim sets what a request has won. -/
theorem won_of_step {state next : State Request Client Id}
    {action : Action Request Client Id}
    (hstep : step settings environment state action = some next)
    (request : Request) :
    next.won request = state.won request ∨
      ∃ reply claim, action = .claim request reply ∧
        (state.phase request).claims environment = some claim ∧
        next.won request = some claim := by
  by_cases hclaim : ∃ reply, action = .claim request reply
  · obtain ⟨reply, rfl⟩ := hclaim
    obtain ⟨claim, hclaims, -, hsame | hwon, -⟩ := claim_cases hstep
    · exact .inl hsame
    · exact .inr ⟨reply, claim, rfl, hclaims, hwon⟩
  · left
    rcases step_cases hstep with
      ⟨-, -, -, hwon⟩ | ⟨other, base, phase, -, hdid, rfl, -⟩
    · exact congrFun hwon request
    · by_cases hother : request = other
      · subst hother
        cases hdid with
        | claimed reply keys claim haction =>
            exact absurd ⟨reply, haction⟩ hclaim
        | nothing | key keys | inserted haction hphase hinsert
        | written haction hphase => rfl
      · exact hdid.won hother

omit [DecidableEq Request] [DecidableEq Client] in
/-- A request that is about to claim has stored nothing. -/
theorem absent_of_claims {state : State Request Client Id}
    {request : Request} {claim : IdempotencyKey Client}
    (hfits : Fits settings environment state request (state.phase request))
    (hclaims : (state.phase request).claims environment = some claim) :
    Absent environment state.webhooks request := by
  cases hphase : state.phase request with
  | claiming client key body url =>
      rw [hphase] at hfits
      exact hfits.2
  | _ => simp [hphase, Phase.claims] at hclaims

/-- A request becomes engaged under a key only by a claim that is granted. -/
theorem engaged_of_step {state next : State Request Client Id}
    {action : Action Request Client Id} {request : Request}
    {claim : IdempotencyKey Client}
    (hsound : Sound settings environment state)
    (hstep : step settings environment state action = some next)
    (hengaged : Engaged environment next claim request) :
    Engaged environment state claim request ∨
      ∃ reply, action = .claim request reply ∧
        (state.phase request).claims environment = some claim ∧
        (state.keys claim).exist state.clock = false ∧
        next.keys claim =
          Slot.set () (state.clock + idempotencySeconds) := by
  rcases hengaged with hpending | ⟨hwon, hstored⟩
  · rcases pending_of_step hstep hpending with hbefore | hgranted
    · exact .inl (.inl hbefore)
    · exact .inr hgranted
  · left
    have hfits := hsound request
    by_cases hcommitting : ∃ own webhook events secret,
        state.phase request = .committing own webhook events secret
    · obtain ⟨own, webhook, events, secret, hphase⟩ := hcommitting
      rw [hphase] at hfits
      have hsame : next.won request = state.won request := by
        rcases won_of_step hstep request with
          hsame | ⟨reply, other, -, hclaims, -⟩
        · exact hsame
        · simp [hphase, Phase.claims] at hclaims
      obtain rfl : own = claim := by
        rw [hsame, hfits.1] at hwon
        exact Option.some.inj hwon
      left
      rw [hphase]
      rfl
    · have hbefore : ¬Absent environment state.webhooks request := by
        intro habsent
        refine hstored (absent_of_step hsound hstep habsent ?_)
        exact fun own webhook events secret hphase =>
          hcommitting ⟨own, webhook, events, secret, hphase⟩
      rcases won_of_step hstep request with
        hsame | ⟨reply, other, -, hclaims, -⟩
      · exact .inr ⟨hsame ▸ hwon, hbefore⟩
      · exact absurd (absent_of_claims hfits hclaims) hbefore

/-! ## Exclusion -/

omit [DecidableEq Request] [DecidableEq Client] in
/-- While a request is engaged, a claim within the window finds the key. -/
theorem Reserved.exist {state : State Request Client Id}
    {claim : IdempotencyKey Client} {since : ℚ} {request : Request}
    (hreserved : Reserved environment claim since state)
    (hengaged : Engaged environment state claim request)
    (hclock : state.clock < since + idempotencySeconds) :
    (state.keys claim).exist state.clock = true := by
  obtain ⟨deadline, hkey, hdeadline⟩ := hreserved.held request hengaged
  rw [hkey]
  exact (Slot.exist_some_iff _ _ _).mpr (hclock.trans_le hdeadline)

theorem Reserved.step {state next : State Request Client Id}
    {action : Action Request Client Id} {claim : IdempotencyKey Client}
    {since : ℚ} (hsound : Sound settings environment state)
    (hreserved : Reserved environment claim since state)
    (hstep : Webhooks.step settings environment state action = some next)
    (hwithin : ClaimsWithin environment claim since state action) :
    Reserved environment claim since next := by
  have hgrant : ∀ {request reply}, action = .claim request reply →
      (state.phase request).claims environment = some claim →
      (state.keys claim).exist state.clock = false →
        since ≤ state.clock ∧
          ∀ other, ¬Engaged environment state claim other := by
    rintro request reply rfl hclaims habsent
    obtain ⟨hsince, hclock⟩ := hwithin hclaims
    refine ⟨hsince, fun other hengaged => ?_⟩
    have hpresent := hreserved.exist hengaged hclock
    rw [habsent] at hpresent
    simp at hpresent
  refine ⟨fun first second hfirst hsecond => ?_, fun request hengaged => ?_⟩
  · rcases engaged_of_step hsound hstep hfirst with
      hbefore | ⟨reply, haction, hclaims, habsent, -⟩
    · rcases engaged_of_step hsound hstep hsecond with
        hother | ⟨reply, haction, hclaims, habsent, -⟩
      · exact hreserved.sole first second hbefore hother
      · exact absurd hbefore ((hgrant haction hclaims habsent).2 first)
    · rcases engaged_of_step hsound hstep hsecond with
        hother | ⟨again, hsame, -, -, -⟩
      · exact absurd hother ((hgrant haction hclaims habsent).2 second)
      · rw [haction] at hsame
        exact (Action.claim.inj hsame).1
  · rcases engaged_of_step hsound hstep hengaged with
      hbefore | ⟨reply, haction, hclaims, habsent, hkey⟩
    · have hkeys : next.keys claim = state.keys claim ∨ _ := keys_of_step hstep
      rcases hkeys with
        hsame | ⟨other, reply, haction, hclaims, habsent, -⟩ |
        ⟨other, -, hphase, hended⟩
      · rw [hsame]
        exact hreserved.held request hbefore
      · exact absurd hbefore ((hgrant haction hclaims habsent).2 request)
      · -- the one that gives the key back is the engaged one, and is done
        have hother : Engaged environment state claim other := by
          left
          rw [hphase]
          rfl
        obtain rfl := hreserved.sole request other hbefore hother
        have hfits := hsound request
        rw [hphase] at hfits
        have habsent := absent_of_step hsound hstep hfits.2.1 (by simp [hphase])
        obtain ⟨response, hended⟩ := hended
        rcases hengaged with hpending | ⟨-, hstored⟩
        · simp [hended, Phase.pending] at hpending
        · exact absurd habsent hstored
    · exact ⟨_, hkey, by linarith [(hgrant haction hclaims habsent).1]⟩

theorem Fruitless.step {state next : State Request Client Id}
    {action : Action Request Client Id} {request : Request}
    (hsound : Sound settings environment state)
    (hfruitless : Fruitless environment state request)
    (hstep : Webhooks.step settings environment state action = some next) :
    Fruitless environment next request := by
  obtain ⟨hended, habsent⟩ := hfruitless
  refine ⟨ended_of_step hstep hended, absent_of_step hsound hstep habsent ?_⟩
  obtain ⟨response, hphase⟩ := hended
  simp [hphase]

/-! ## The key of a request -/

/-- A request that has started carries no other key than before. -/
theorem carried_of_step {state next : State Request Client Id}
    {action : Action Request Client Id} {request : Request}
    (hstep : step settings environment state action = some next)
    (hstarted : state.phase request ≠ .idle) :
    next.phase request ≠ .idle ∧
      ∀ claim ∈ (next.phase request).carried environment,
        claim ∈ (state.phase request).carried environment := by
  by_cases hrequest : action.request = some request
  case neg =>
    rw [(frame_of_step hstep hrequest).1]
    exact ⟨hstarted, fun _ hclaim => hclaim⟩
  have hgoes := goes_of_step hrequest hstep
  generalize state.phase request = before at *
  generalize next.phase request = after at *
  cases hgoes with
  | create | change => exact absurd rfl hstarted
  | validated | counted =>
      refine ⟨by simp, fun claim hclaim => hclaim⟩
  | _ => simp [Phase.carried]

theorem Bound.step {state next : State Request Client Id}
    {action : Action Request Client Id} {request : Request}
    {claim : IdempotencyKey Client}
    (hbound : Bound environment claim state request)
    (hstep : Webhooks.step settings environment state action = some next) :
    Bound environment claim next request := by
  obtain ⟨hstarted, hcarried⟩ := carried_of_step hstep hbound.started
  refine ⟨hstarted, fun other hother => hbound.carried other
    (hcarried other hother), fun other hother => ?_⟩
  rcases won_of_step hstep request with
    hsame | ⟨reply, own, -, hclaims, hwon⟩
  · exact hbound.won other (hsame ▸ hother)
  · obtain rfl : own = other := Option.some.inj (hwon.symm.trans hother)
    apply hbound.carried
    cases hphase : state.phase request with
    | claiming client key body url =>
        rw [hphase] at hclaims
        exact hclaims
    | _ => simp [hphase, Phase.claims] at hclaims

/-- A request that starts with a key is bound to it. -/
theorem bound_of_create {state next : State Request Client Id}
    {request : Request} {client : Client} {key : String}
    {body : WebhookCreate}
    (hsound : Sound settings environment state)
    (hstep : step settings environment state
      (.create request client key body) = some next) :
    Bound environment (client, environment.sha256 key) next request := by
  simp only [step] at hstep
  split at hstep
  case h_1 hphase =>
    obtain rfl := Option.some.inj hstep
    have hfits := hsound request
    rw [hphase] at hfits
    refine ⟨by simp [phase_goto], ?_, ?_⟩
    · simp [phase_goto, Phase.carried]
    · simp [State.goto, hfits.1]
  case h_2 => simp at hstep

/-- A row was stored by a request that had won a key. -/
theorem won_of_stored {state : State Request Client Id}
    (hreach : (system Client settings environment).Reachable state) :
    ∀ request, ¬Absent environment state.webhooks request →
      state.won request ≠ none := by
  refine (System.Reachable.invariant (fun state =>
    Sound settings environment state ∧ ∀ request,
      ¬Absent environment state.webhooks request → state.won request ≠ none)
    (fun state hinit => ⟨sound_init hinit, fun request hstored => ?_⟩)
    (fun state action next hinv hstep =>
      ⟨hinv.1.step hstep, fun request hstored => ?_⟩) hreach).2
  · have hfits := sound_init hinit request
    rw [hinit.2.2.1 request] at hfits
    exact absurd hfits.2 hstored
  · obtain ⟨hsound, hwon⟩ := hinv
    have hbefore : state.won request ≠ none := by
      by_cases hcommitting : ∃ own webhook events secret,
          state.phase request = .committing own webhook events secret
      · obtain ⟨own, webhook, events, secret, hphase⟩ := hcommitting
        have hfits := hsound request
        rw [hphase] at hfits
        simp [hfits.1]
      · refine hwon request fun habsent => hstored
          (absent_of_step hsound hstep habsent ?_)
        exact fun own webhook events secret hphase =>
          hcommitting ⟨own, webhook, events, secret, hphase⟩
    rcases won_of_step hstep request with hsame | ⟨_, _, -, -, hnext⟩
    · rw [hsame]
      exact hbefore
    · simp [hnext]

/-! ## Every run -/

theorem reserved_init {state : State Request Client Id}
    (hinit : (system Client settings environment).Init state)
    (claim : IdempotencyKey Client) (since : ℚ) :
    Reserved environment claim since state := by
  have hnone : ∀ request, ¬Engaged environment state claim request := by
    rintro request (hpending | ⟨hwon, -⟩)
    · simp [hinit.2.2.1 request, Phase.pending] at hpending
    · simp [hinit.2.2.2 request] at hwon
  exact ⟨fun first _ hfirst => absurd hfirst (hnone first),
    fun request hengaged => absurd hengaged (hnone request)⟩

/-- A request that was made with the key and has a row is engaged under it. -/
theorem engaged_of_stored {start final : State Request Client Id}
    {actions : List (Action Request Client Id)} {claim : IdempotencyKey Client}
    (hinit : (system Client settings environment).Init start)
    (hrun : (system Client settings environment).run start actions =
      some final) {request : Request}
    (hcarries : Carries environment claim actions request)
    (hstored : ¬Absent environment final.webhooks request) :
    Engaged environment final claim request := by
  have hreach := System.reachable_of_run hinit hrun
  obtain ⟨client, key, body, hcreate, hclaim⟩ := hcarries
  have hbound : Bound environment claim final request := by
    obtain ⟨before, after, rfl⟩ := List.append_of_mem hcreate
    rw [System.run_append] at hrun
    obtain ⟨middle, hbefore, hrest⟩ := Option.bind_eq_some_iff.mp hrun
    obtain ⟨next, hstep, hafter⟩ := Option.bind_eq_some_iff.mp hrest
    have hsound := sound_of_reachable (System.reachable_of_run hinit hbefore)
    have hnext : Bound environment claim next request :=
      hclaim ▸ bound_of_create hsound hstep
    exact System.run_induction (fun _ state =>
      Bound environment claim state request) hnext
      (fun _ _ _ _ hbound _ hstep => hbound.step hstep) hafter
  obtain ⟨won, hwon⟩ :=
    Option.ne_none_iff_exists'.mp (won_of_stored hreach request hstored)
  exact .inr ⟨hbound.won won hwon ▸ hwon, hstored⟩

/-- A request that finds its key claimed is answered without a row. -/
theorem fruitless_of_claimed {state next : State Request Client Id}
    {request : Request} {reply : Reply}
    (hsound : Sound settings environment state)
    (hstep : step settings environment state (.claim request reply) = some next)
    {key : IdempotencyKey Client}
    (hclaims : (state.phase request).claims environment = some key)
    (hexist : (state.keys key).exist state.clock = true) :
    Fruitless environment next request := by
  obtain ⟨own, hown, hwebhooks, -, ⟨habsent, -⟩ | ⟨-, hended⟩⟩ :=
    claim_cases hstep
  · obtain rfl : key = own := Option.some.inj (hclaims.symm.trans hown)
    rw [hexist] at habsent
    simp at habsent
  · refine ⟨hended, ?_⟩
    rw [hwebhooks]
    exact absent_of_claims (hsound request) hclaims

/-- A request that has ended without a row never gets one. -/
theorem Fruitless.run {state final : State Request Client Id}
    {actions : List (Action Request Client Id)} {request : Request}
    (hfruitless : Fruitless environment state request)
    (hsound : Sound settings environment state)
    (hrun : (system Client settings environment).run state actions =
      some final) :
    Fruitless environment final request := by
  have hboth : Sound settings environment final ∧
      Fruitless environment final request :=
    System.run_induction (fun _ reached => Sound settings environment reached ∧
        Fruitless environment reached request)
      ⟨hsound, hfruitless⟩
      (fun _ _ _ _ hinv _ hstep =>
        ⟨hinv.1.step hstep, hinv.2.step hinv.1 hstep⟩) hrun
  exact hboth.2

/-- Of the requests of one client with one idempotency key, whose claims fall
within the expiry of the key, at most one ever has a row, however they
interleave and whichever of their commits raise; and a request that finds the
key claimed never gets one. -/
theorem one_webhook_per_key {start final : State Request Client Id}
    {actions : List (Action Request Client Id)}
    (claim : IdempotencyKey Client) (since : ℚ)
    (hinit : (system Client settings environment).Init start)
    (hwithin : (system Client settings environment).Steps
      (fun state action _ => ClaimsWithin environment claim since state action)
      start actions)
    (hrun : (system Client settings environment).run start actions =
      some final) :
    (∀ first second, Carries environment claim actions first →
      Carries environment claim actions second →
      ¬Absent environment final.webhooks first →
      ¬Absent environment final.webhooks second → first = second) ∧
    ∀ before after request reply state,
      actions = before ++ .claim request reply :: after →
      (system Client settings environment).run start before = some state →
      (∃ key, (state.phase request).claims environment = some key ∧
        (state.keys key).exist state.clock = true) →
      Absent environment final.webhooks request := by
  constructor
  · intro first second hfirst hsecond hstored hother
    have hreserved : Sound settings environment final ∧
        Reserved environment claim since final :=
      (System.ReachableVia.run (.init hinit) hwithin hrun).invariant
        (fun state => Sound settings environment state ∧
          Reserved environment claim since state)
        (fun _ hinit => ⟨sound_init hinit, reserved_init hinit claim since⟩)
        fun _ _ _ hinv hstep hallowed => ⟨hinv.1.step hstep,
          hinv.2.step hinv.1 hstep hallowed⟩
    apply hreserved.2.sole first second
    · exact engaged_of_stored hinit hrun hfirst hstored
    · exact engaged_of_stored hinit hrun hsecond hother
  · rintro before after request reply state rfl hbefore ⟨key, hclaims, hexist⟩
    rw [System.run_append, hbefore, Option.bind_some] at hrun
    obtain ⟨next, hclaim, hafter⟩ := Option.bind_eq_some_iff.mp hrun
    have hsound := sound_of_reachable (System.reachable_of_run hinit hbefore)
    have hstep : step settings environment state (.claim request reply) =
        some next := hclaim
    have hfruitless := fruitless_of_claimed hsound hstep hclaims hexist
    exact (hfruitless.run (hsound.step hstep) hafter).2

/-- The commit of the first request raises. -/
def firstFails : Environment (Fin 3) (Fin 3) :=
  { calm 3 with commitRaises := fun request => request = 0 }

/-- The second request comes to its claim after the first one's. -/
def untilSecondClaim : List (Action (Fin 3) Unit (Fin 3)) :=
  creating 0 "key" ++
    [.create 1 () "key" ⟨"https://example.com/", ["launch.updated"], none⟩,
      .validate 1 (some "https://example.com/"), .count 1]

/-- The first request gives the key back, and a third one comes. -/
def afterSecondClaim : List (Action (Fin 3) Unit (Fin 3)) :=
  [.commit 0, .elapse 60, .rollback 0, .unclaim 0] ++ creating 2 "key" ++
    [.commit 2, .describe 2]

/-- Of three requests with one key only the last one has a row. -/
theorem resubmissions_create_one :
    ∃ final ∈ (system Unit keyed firstFails).run (emptyRegistry 3)
        (untilSecondClaim ++ .claim 1 .answered :: afterSecondClaim),
      ¬Absent firstFails final.webhooks 2 ∧
        Absent firstFails final.webhooks 1 ∧
        ∀ first, Carries firstFails ((), "key")
            (untilSecondClaim ++ .claim 1 .answered :: afterSecondClaim) first →
          ¬Absent firstFails final.webhooks first → first = 2 := by
  obtain ⟨final, hrun, hstored⟩ :
      ∃ final ∈ (system Unit keyed firstFails).run (emptyRegistry 3)
          (untilSecondClaim ++ .claim 1 .answered :: afterSecondClaim),
        ¬Absent firstFails final.webhooks 2 := by
    unfold Absent
    decide +kernel
  obtain ⟨state, hbefore, hexist⟩ :
      ∃ state ∈ (system Unit keyed firstFails).run (emptyRegistry 3)
          untilSecondClaim,
        (state.phase 1).claims firstFails = some ((), "key") ∧
          (state.keys ((), "key")).exist state.clock = true := by
    decide +kernel
  obtain ⟨hsole, hrefused⟩ := one_webhook_per_key ((), "key") 0
    (emptyRegistry_init keyed firstFails) (by decide +kernel) hrun
  have hlast : Carries firstFails ((), "key")
      (untilSecondClaim ++ .claim 1 .answered :: afterSecondClaim) 2 := by
    refine ⟨(), "key", ⟨"https://example.com/", ["launch.updated"], none⟩, ?_,
      rfl⟩
    simp [untilSecondClaim, afterSecondClaim, creating]
  exact ⟨final, hrun, hstored,
    hrefused _ _ 1 .answered state rfl hbefore ⟨_, hexist⟩,
    fun first hfirst hrow => hsole first 2 hfirst hlast hrow hstored⟩

end UTTG.Webhooks
