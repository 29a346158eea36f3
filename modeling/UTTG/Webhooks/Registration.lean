import UTTG.Webhooks.ActiveLimit

/-!
# Registrations that fail after the claim

Between the granted claim and the response of `create_webhook` three steps can
fail: the encryption of the secret, the commit and `build_meta`.  Only a
failing commit is followed by the handler that gives the idempotency key back.
-/

namespace UTTG.Webhooks

open UTTG.Expiring UTTG.Transition

variable {Request Client Id : Type*}
variable [DecidableEq Request] [DecidableEq Client] [DecidableEq Id]
variable {settings : Settings} {environment : Environment Request Id}

/-- Nothing is left of the request: no row of its own, and the key it claimed
is not set. -/
def Clean (environment : Environment Request Id)
    (state : State Request Client Id) (request : Request)
    (claim : IdempotencyKey Client) : Prop :=
  Absent environment state.webhooks request ∧
    (state.keys claim).get state.clock = none

/-- The failures of a request that `create_webhook` copes with: the commit
may raise, the encryption and `build_meta` may not. -/
def Covered (settings : Settings) (environment : Environment Request Id)
    (request : Request) : Prop :=
  settings.encrypts = true ∧
    (environment.commitRaises request = true ∨
      environment.metaRaises request = false)

/-- A key that was just set is present. -/
theorem get_key_of_granted (clock : ℚ) :
    Slot.get clock (Slot.set () (clock + idempotencySeconds)) = some () := by
  have hlive : ¬clock + idempotencySeconds ≤ clock := by
    norm_num [idempotencySeconds]
  rw [Slot.get_set, if_neg hlive]

omit [DecidableEq Client] [DecidableEq Id] in
theorem response_of_finish {state : State Request Client Id}
    {request : Request} {given response : Response Id}
    (hended : (state.finish request given).phase request =
      .ended (some response)) : response = given := by
  simpa [State.finish, State.goto, eq_comm] using hended

/-- A granted claim ends the request only when there is no encryption key,
and leaves the key set. -/
theorem claim_end {state next : State Request Client Id} {request : Request}
    {reply : Reply} {claim : IdempotencyKey Client} {response : Response Id}
    (hfits : Fits settings environment state request (state.phase request))
    (hstep : step settings environment state (.claim request reply) =
      some next)
    (hended : next.phase request = .ended (some response))
    (hwon : next.won request = some claim) :
    settings.encrypts = false ∧ response.isCreated = false ∧
      (next.keys claim).get next.clock = some () := by
  simp only [step] at hstep
  split at hstep
  case h_1 client key body url hphase =>
    rw [hphase] at hfits
    have hnone : state.won request = none := hfits.1
    have hlost : ∀ base : State Request Client Id, base.won = state.won →
        next ≠ base.finish request .error ∧
          next ≠ base.finish request .conflict := by
      intro base hbase
      constructor <;> rintro rfl
      · have hother : base.won request = some claim := hwon
        rw [hbase, hnone] at hother
        simp at hother
      · have hother : base.won request = some claim := hwon
        rw [hbase, hnone] at hother
        simp at hother
    rcases setKey_cases state (client, environment.sha256 key) with
      hset | hset
    · rw [hset] at hstep
      cases reply with
      | answered =>
          rw [if_pos rfl] at hstep
          rcases afterClaim_cases settings environment _ request
            (client, environment.sha256 key) body url with
            ⟨-, webhook, events, secret, -, -, hnext⟩ | ⟨hencrypts, hnext⟩
          · rw [hnext] at hstep
            rw [← Option.some.inj hstep] at hended
            simp [State.goto] at hended
          · rw [hnext] at hstep
            obtain rfl := Option.some.inj hstep
            have hresponse := response_of_finish hended
            have hclaim : (client, environment.sha256 key) = claim := by
              simpa [State.finish, State.goto] using hwon
            refine ⟨hencrypts, by rw [hresponse]; rfl, ?_⟩
            rw [← hclaim]
            simp only [State.finish, State.goto, Function.update_self]
            exact get_key_of_granted state.clock
      | lost =>
          refine absurd (Option.some.inj hstep).symm (hlost _ ?_).1
          rfl
      | refused => exact absurd (Option.some.inj hstep).symm (hlost _ rfl).1
    · rw [hset] at hstep
      cases reply with
      | answered =>
          rw [if_neg Bool.false_ne_true] at hstep
          exact absurd (Option.some.inj hstep).symm (hlost _ rfl).2
      | lost => exact absurd (Option.some.inj hstep).symm (hlost _ rfl).1
      | refused => exact absurd (Option.some.inj hstep).symm (hlost _ rfl).1
  case h_2 => simp at hstep

/-- The handler of a failed commit leaves nothing behind. -/
theorem unclaim_end {state next : State Request Client Id}
    {request : Request} {claim : IdempotencyKey Client}
    (hfits : Fits settings environment state request (state.phase request))
    (hstep : step settings environment state (.unclaim request) = some next)
    (hwon : next.won request = some claim) :
    settings.encrypts = true ∧ environment.commitRaises request = true ∧
      Clean environment next request claim := by
  simp only [step] at hstep
  split at hstep
  case h_1 held hphase =>
    rw [hphase] at hfits
    obtain ⟨hheld, habsent, hencrypts, hraises⟩ := hfits
    obtain rfl := Option.some.inj hstep
    have hother : state.won request = some claim := hwon
    obtain rfl : held = claim := by
      rw [hheld] at hother
      exact Option.some.inj hother
    refine ⟨hencrypts, hraises, habsent, ?_⟩
    simp [State.finish, State.goto]
  case h_2 => simp at hstep

/-- A stored webhook is answered, or stays behind when `build_meta` raises. -/
theorem describe_end {state next : State Request Client Id}
    {request : Request} {claim : IdempotencyKey Client}
    {response : Response Id}
    (hfits : Fits settings environment state request (state.phase request))
    (hstep : step settings environment state (.describe request) = some next)
    (hended : next.phase request = .ended (some response))
    (hwon : next.won request = some claim) :
    settings.encrypts = true ∧ environment.commitRaises request = false ∧
      ¬Absent environment next.webhooks request ∧
      (response.isCreated = true ↔ environment.metaRaises request = false) := by
  simp only [step] at hstep
  split at hstep
  case h_1 held given hphase =>
    rw [hphase] at hfits
    cases held with
    | none =>
        have hnone : state.won request = none := hfits.1
        have hother : state.won request = some claim := by
          split at hstep <;> rw [← Option.some.inj hstep] at hwon <;>
            exact hwon
        rw [hnone] at hother
        simp at hother
    | some held =>
        obtain ⟨-, hpresent, hencrypts, hcommits, hcreated⟩ := hfits
        cases hmeta : environment.metaRaises request with
        | true =>
            rw [hmeta, if_pos rfl] at hstep
            obtain rfl := Option.some.inj hstep
            refine ⟨hencrypts, hcommits, hpresent, ?_⟩
            rw [response_of_finish hended]
            simp [Response.isCreated]
        | false =>
            rw [hmeta, if_neg Bool.false_ne_true] at hstep
            obtain rfl := Option.some.inj hstep
            refine ⟨hencrypts, hcommits, hpresent, ?_⟩
            rw [response_of_finish hended]
            exact iff_of_true hcreated rfl
  case h_2 => simp at hstep

omit [DecidableEq Request] [DecidableEq Client] in
/-- A request that has won its claim and still runs is past the claim. -/
theorem phase_of_won {state : State Request Client Id} {request : Request}
    {claim : IdempotencyKey Client}
    (hfits : Fits settings environment state request (state.phase request))
    (hrunning : ∀ response, state.phase request ≠ .ended response)
    (hwon : state.won request = some claim) :
    (∃ held webhook events secret,
      state.phase request = .committing held webhook events secret) ∨
    (∃ held, state.phase request = .rollingBack held) ∨
    (∃ held, state.phase request = .unclaiming held) ∨
    ∃ held response, state.phase request = .describing (some held) response := by
  have hnot : ¬state.won request = none := by
    rw [hwon]
    simp
  cases hphase : state.phase request with
  | committing held webhook events secret =>
      exact .inl ⟨held, webhook, events, secret, rfl⟩
  | rollingBack held => exact .inr (.inl ⟨held, rfl⟩)
  | unclaiming held => exact .inr (.inr (.inl ⟨held, rfl⟩))
  | ended response => exact absurd hphase (hrunning response)
  | describing held response =>
      cases held with
      | some held => exact .inr (.inr (.inr ⟨held, response, rfl⟩))
      | none =>
          rw [hphase] at hfits
          exact absurd hfits.1 hnot
  | _ =>
      rw [hphase] at hfits
      exact absurd hfits.1 hnot

omit [DecidableEq Client] in
/-- Only the claim sets what a request has won. -/
theorem won_before {state base : State Request Client Id}
    {action : Action Request Client Id} {request : Request}
    {claim : IdempotencyKey Client}
    (hdid : Did environment state request action base)
    (hclaim : ∀ reply, action ≠ .claim request reply)
    (hwon : base.won request = some claim) :
    state.won request = some claim := by
  cases hdid with
  | nothing => exact hwon
  | key keys => exact hwon
  | claimed reply keys won haction => exact absurd haction (hclaim reply)
  | inserted haction hphase hinsert => exact hwon
  | written haction hphase => exact hwon

/-- A request that has won its claim ends with the claim itself, with the
handler of a failed commit, after `build_meta`, or with an exception outside
every handler. -/
theorem ending_action {state next : State Request Client Id}
    {action : Action Request Client Id} {request : Request}
    {claim : IdempotencyKey Client} {response : Response Id}
    (hfits : Fits settings environment state request (state.phase request))
    (hstep : step settings environment state action = some next)
    (hrunning : ∀ given, state.phase request ≠ .ended given)
    (hended : next.phase request = .ended (some response))
    (hwon : next.won request = some claim) :
    (∃ reply, action = .claim request reply) ∨ action = .unclaim request ∨
      action = .describe request ∨ action = .raise request := by
  have hne : next.phase request ≠ state.phase request := by
    rw [hended]
    exact (hrunning _).symm
  have hrequest := request_of_phase_ne hstep hne
  by_cases hclaim : ∃ reply, action = .claim request reply
  · exact .inl hclaim
  have hbefore : state.won request = some claim := by
    rcases step_cases hstep with
      ⟨-, -, -, hsame⟩ | ⟨other, base, phase, hother, hdid, rfl, -⟩
    · rw [← hsame]
      exact hwon
    · obtain rfl : other = request :=
        Option.some.inj (hother.symm.trans hrequest)
      exact won_before hdid (fun reply heq => hclaim ⟨reply, heq⟩) hwon
  have hphases := phase_of_won hfits hrunning hbefore
  cases action with
  | elapse duration => simp [Action.request] at hrequest
  | claim other reply =>
      obtain rfl := Option.some.inj hrequest
      exact absurd ⟨reply, rfl⟩ hclaim
  | unclaim other =>
      obtain rfl := Option.some.inj hrequest
      exact .inr (.inl rfl)
  | describe other =>
      obtain rfl := Option.some.inj hrequest
      exact .inr (.inr (.inl rfl))
  | raise other =>
      obtain rfl := Option.some.inj hrequest
      exact .inr (.inr (.inr rfl))
  | crash other =>
      obtain rfl := Option.some.inj hrequest
      rw [← Option.some.inj hstep] at hended
      simp [State.goto] at hended
  | rollback other =>
      obtain rfl := Option.some.inj hrequest
      rcases hphases with ⟨held, webhook, events, secret, hphase⟩ |
        ⟨held, hphase⟩ | ⟨held, hphase⟩ | ⟨held, given, hphase⟩ <;>
        simp only [step, hphase, Option.some.injEq, reduceCtorEq] at hstep
      rw [← hstep] at hended
      simp [State.goto] at hended
  | commit other =>
      obtain rfl := Option.some.inj hrequest
      rcases commit_cases hstep with
        ⟨held, webhook, events, secret, -,
          ⟨-, rfl⟩ | ⟨-, webhooks, -, rfl⟩⟩ |
        ⟨row, assigned, given, hphase, -⟩
      · simp [State.goto] at hended
      · simp [State.goto] at hended
      · simp [hphase] at hphases
  | _ =>
      obtain rfl := Option.some.inj hrequest
      rcases hphases with ⟨held, webhook, events, secret, hphase⟩ |
        ⟨held, hphase⟩ | ⟨held, hphase⟩ | ⟨held, given, hphase⟩ <;>
        simp [step, hphase] at hstep

/-- A `create_webhook` request that has won its claim and ends by one of the
three later steps leaves nothing behind, unless it answers 201, exactly when
the secret could be encrypted and the step that failed, if any, was the
commit. -/
theorem failed_create_is_clean_iff {state next : State Request Client Id}
    {action : Action Request Client Id} {request : Request}
    {claim : IdempotencyKey Client} {response : Response Id}
    (hreach : (system Client settings environment).Reachable state)
    (hstep : (system Client settings environment).step state action =
      some next)
    (hrunning : ∀ given, state.phase request ≠ .ended given)
    (hended : next.phase request = .ended (some response))
    (hwon : next.won request = some claim)
    (hhandled : action ≠ .raise request) :
    (response.isCreated = false → Clean environment next request claim) ↔
      Covered settings environment request := by
  have hfits := sound_of_reachable hreach request
  rcases ending_action hfits hstep hrunning hended hwon with
    ⟨reply, rfl⟩ | rfl | rfl | hraised
  · obtain ⟨hencrypts, hresponse, hkey⟩ := claim_end hfits hstep hended hwon
    refine iff_of_false (fun hclean => ?_) fun hcovered => ?_
    · have hunset := (hclean hresponse).2
      rw [hkey] at hunset
      simp at hunset
    · rw [hcovered.1] at hencrypts
      simp at hencrypts
  · obtain ⟨hencrypts, hraises, hclean⟩ := unclaim_end hfits hstep hwon
    exact iff_of_true (fun _ => hclean) ⟨hencrypts, .inl hraises⟩
  · obtain ⟨hencrypts, hcommits, hpresent, hresponse⟩ :=
      describe_end hfits hstep hended hwon
    cases hmeta : environment.metaRaises request with
    | false =>
        refine iff_of_true (fun hother => ?_) ⟨hencrypts, .inr hmeta⟩
        rw [hresponse.mpr hmeta] at hother
        simp at hother
    | true =>
        have hother : response.isCreated = false := by
          rw [← Bool.not_eq_true, hresponse, hmeta]
          simp
        refine iff_of_false (fun hclean => hpresent (hclean hother).1) ?_
        rintro ⟨-, hraises | hanswers⟩
        · rw [hcommits] at hraises
          simp at hraises
        · rw [hmeta] at hanswers
          simp at hanswers
  · exact absurd hraised hhandled

/-- Requests whose commits or `build_meta` calls raise. -/
def failing (commits metas : Bool) : Environment (Fin 2) (Fin 2) :=
  { calm 2 with
    commitRaises := fun _ => commits
    metaRaises := fun _ => metas }

def keyless : Settings := ⟨5, none⟩

def keyed : Settings := ⟨5, some "encryption-key"⟩

/-- Without an encryption key the request fails with its key still set, and
when `build_meta` raises its row stays as well; no response shows the
secret. -/
theorem failed_creates_not_clean :
    (∃ state ∈ (system Unit keyless (calm 2)).run (emptyRegistry 2)
        (creating 0 "key-of-first"),
      state.phase 0 = .ended (some .error) ∧
        state.won 0 = some ((), "key-of-first") ∧
        ¬Clean (calm 2) state 0 ((), "key-of-first")) ∧
    ∃ state ∈ (system Unit keyed (failing false true)).run (emptyRegistry 2)
        (creating 0 "key-of-first" ++ [.commit 0, .describe 0]),
      state.phase 0 = .ended (some .error) ∧
        state.won 0 = some ((), "key-of-first") ∧
        ¬Absent (failing false true) state.webhooks 0 ∧
        (state.keys ((), "key-of-first")).get state.clock = some () := by
  unfold Clean Absent
  decide +kernel

/-- A failed commit, its rollback and the removal of the key. -/
theorem failed_commit_is_clean_iff :
    ∃ state ∈ (system Unit keyed (failing true true)).run (emptyRegistry 2)
        (creating 0 "key-of-first" ++ [.commit 0, .rollback 0]),
      ∃ next ∈ (system Unit keyed (failing true true)).step state
          (.unclaim 0),
        ((Response.error : Response (Fin 2)).isCreated = false →
            Clean (failing true true) next 0 ((), "key-of-first")) ↔
          Covered keyed (failing true true) 0 := by
  obtain ⟨state, hrun, next, hstep, hphase, hended, hwon⟩ :
      ∃ state ∈ (system Unit keyed (failing true true)).run (emptyRegistry 2)
          (creating 0 "key-of-first" ++ [.commit 0, .rollback 0]),
        ∃ next ∈ (system Unit keyed (failing true true)).step state
            (.unclaim 0),
          state.phase 0 = .unclaiming ((), "key-of-first") ∧
            next.phase 0 = .ended (some .error) ∧
            next.won 0 = some ((), "key-of-first") := by
    decide +kernel
  have hreach := System.reachable_of_run
    (emptyRegistry_init keyed (failing true true)) hrun
  have hrunning : ∀ given, state.phase 0 ≠ .ended given := by
    simp [hphase]
  exact ⟨state, hrun, next, hstep,
    failed_create_is_clean_iff hreach hstep hrunning hended hwon (by simp)⟩

end UTTG.Webhooks
