import UTTG.Webhooks.Lifecycle

/-!
# The limit on active webhooks

`create_webhook` refuses a client that has `webhook_max_per_ip` active
webhooks.  The check is made once, before the claim and the commit, and by no
other endpoint.  The limit holds throughout a run exactly when the same check
would still pass at every commit that switches a webhook on.
-/

namespace UTTG.Webhooks

open UTTG.Expiring UTTG.Transition

variable {Request Client Id : Type*}
variable [DecidableEq Request] [DecidableEq Client] [DecidableEq Id]
variable {settings : Settings} {environment : Environment Request Id}

/-- No client has more active webhooks than the limit. -/
def WithinLimit (settings : Settings) (webhooks : Registry Client Id) : Prop :=
  ∀ client, activeCount webhooks client ≤ settings.webhookMaxPerIp

/-- The check of `create_webhook` would pass at a commit that switches a
webhook on: the `INSERT` of a new one, or an `UPDATE` that sets `active` on a
row that is inactive. -/
def ActivatesBelowLimit (settings : Settings)
    (environment : Environment Request Id)
    (state : State Request Client Id) : Action Request Client Id → Prop
  | .commit request =>
      environment.commitRaises request = false →
        match state.phase request with
        | .committing _ webhook _ _ =>
            limitReached settings state.webhooks
              webhook.ownerIpFingerprint = false
        | .writing row assigned _ =>
            (assigned.net row).active = some true →
              ∀ current ∈ state.webhooks.find row.id,
                current.active = false →
                  limitReached settings state.webhooks
                    current.ownerIpFingerprint = false
        | _ => True
  | _ => True

omit [DecidableEq Id] in
theorem limitReached_eq_false_iff (webhooks : Registry Client Id)
    (client : Client) :
    limitReached settings webhooks client = false ↔
      activeCount webhooks client < settings.webhookMaxPerIp := by
  simp [limitReached]

theorem activeCount_insert {webhooks next : Registry Client Id}
    {webhook : Webhook Client Id}
    (hinsert : webhooks.insert webhook = some next)
    (hactive : webhook.active = true) (client : Client) :
    activeCount next client = activeCount webhooks client +
      if webhook.ownerIpFingerprint = client then 1 else 0 := by
  rw [activeCount, Table.count_insert hinsert, hactive]
  simp [activeCount]

/-- The limit survives an insert exactly when its owner was below it. -/
theorem withinLimit_insert_iff {webhooks next : Registry Client Id}
    {webhook : Webhook Client Id} (hwithin : WithinLimit settings webhooks)
    (hinsert : webhooks.insert webhook = some next)
    (hactive : webhook.active = true) :
    WithinLimit settings next ↔
      limitReached settings webhooks webhook.ownerIpFingerprint = false := by
  rw [limitReached_eq_false_iff]
  constructor
  · intro hnext
    have howner := hnext webhook.ownerIpFingerprint
    rw [activeCount_insert hinsert hactive, if_pos rfl] at howner
    exact howner
  · intro hbelow client
    rw [activeCount_insert hinsert hactive]
    by_cases howner : webhook.ownerIpFingerprint = client
    · rw [if_pos howner, ← howner]
      exact hbelow
    · rw [if_neg howner]
      exact hwithin client

theorem activeCount_writeBack {webhooks : Registry Client Id}
    {row current : Webhook Client Id} (assigned : Assigned)
    (hfind : webhooks.find row.id = some current) (client : Client) :
    activeCount (writeBack webhooks row assigned) client +
        (if current.ownerIpFingerprint = client ∧ current.active = true
          then 1 else 0) =
      activeCount webhooks client +
        if current.ownerIpFingerprint = client ∧
          (assigned.net row).active.getD current.active = true
        then 1 else 0 := by
  have hmodify := Table.count_modify webhooks (assigned.net row).apply
    (assigned.net row).apply_id hfind
    (fun row => row.ownerIpFingerprint = client && row.active)
  simp only [Bool.and_eq_true, decide_eq_true_eq] at hmodify
  exact hmodify

/-- The limit survives an update exactly when it does not switch on a webhook
of an owner at the limit. -/
theorem withinLimit_writeBack_iff {webhooks : Registry Client Id}
    (row : Webhook Client Id) (assigned : Assigned)
    (hwithin : WithinLimit settings webhooks) :
    WithinLimit settings (writeBack webhooks row assigned) ↔
      ((assigned.net row).active = some true →
        ∀ current ∈ webhooks.find row.id, current.active = false →
          limitReached settings webhooks current.ownerIpFingerprint =
            false) := by
  cases hfind : webhooks.find row.id with
  | none =>
      have hsame : writeBack webhooks row assigned = webhooks :=
        Table.modify_of_absent webhooks _ _ hfind
      rw [hsame]
      exact iff_of_true hwithin (by simp)
  | some current =>
      have hcount := activeCount_writeBack assigned hfind
      simp only [Option.mem_def, Option.some.injEq, forall_eq',
        limitReached_eq_false_iff]
      cases hactive : current.active with
      | true =>
          refine iff_of_true (fun client => ?_) (by simp)
          have howner := hcount client
          have hle := hwithin client
          rw [hactive] at howner
          simp only [and_true] at howner
          split at howner <;> split at howner <;> first | omega | simp_all
      | false =>
          have hbecomes : (assigned.net row).active.getD false = true ↔
              (assigned.net row).active = some true := by
            cases (assigned.net row).active with
            | none => simp
            | some value => simp
          simp only [hactive, Bool.false_eq_true, and_false, if_false,
            add_zero, hbecomes] at hcount
          constructor
          · intro hnext hset _
            have hle := hnext current.ownerIpFingerprint
            rw [hcount, if_pos ⟨rfl, hset⟩] at hle
            exact hle
          · intro hbelow client
            rw [hcount]
            split
            · next hswitched =>
                rw [← hswitched.1]
                exact hbelow hswitched.2 rfl
            · exact hwithin client

/-- In every run the limit holds in all states exactly when no commit
switches a webhook on while its owner is at the limit. -/
theorem active_limit_kept_iff (start : State Request Client Id)
    (actions : List (Action Request Client Id))
    (hinit : (system Client settings environment).Init start) :
    (system Client settings environment).States
        (fun state => WithinLimit settings state.webhooks) start actions ↔
      (system Client settings environment).Steps
        (fun state action _ =>
          ActivatesBelowLimit settings environment state action)
        start actions := by
  refine System.states_iff_steps (Sound settings environment) _
    (fun _ _ _ hsound hstep => hsound.step hstep) ?_ (sound_init hinit) ?_
  · intro state action next hsound hwithin hstep
    change step settings environment state action = some next at hstep
    cases action with
    | commit request =>
        have hfits := hsound request
        rcases commit_cases hstep with
          ⟨claim, webhook, events, secret, hphase, hcases⟩ |
          ⟨row, assigned, response, hphase, hcases⟩
        · rw [hphase] at hfits
          obtain ⟨-, habsent, -, hid, hactive⟩ := hfits
          simp only [ActivatesBelowLimit, hphase]
          rcases hcases with ⟨hrefused, rfl⟩ | ⟨hraises, webhooks, hinsert, rfl⟩
          · have hraises :=
              hrefused.resolve_right (inserts_of_absent habsent hid)
            exact iff_of_true hwithin (by simp [hraises])
          · simp only [hraises, forall_const]
            exact withinLimit_insert_iff hwithin hinsert hactive
        · simp only [ActivatesBelowLimit, hphase]
          rcases hcases with ⟨hraises, rfl⟩ | ⟨hraises, rfl⟩
          · exact iff_of_true hwithin (by simp [hraises])
          · simp only [hraises, forall_const]
            exact withinLimit_writeBack_iff row assigned hwithin
    | _ =>
        refine iff_of_true ?_ trivial
        rcases step_cases hstep with
          ⟨-, hwebhooks, -, -⟩ | ⟨request, base, phase, -, hdid, rfl, -⟩
        · rw [hwebhooks]
          exact hwithin
        · cases hdid with
          | nothing => exact hwithin
          | key keys => exact hwithin
          | claimed reply keys claim haction => exact hwithin
          | inserted haction => simp at haction
          | written haction => simp at haction
  · intro client
    rw [activeCount, Table.count, hinit.1]
    exact Nat.zero_le _

/-! ## Two ways past the limit -/

/-- Requests whose commands all succeed. -/
def calm (requests : ℕ) : Environment (Fin requests) (Fin requests) where
  webhookId := id
  distinct := Function.injective_id
  generatedSecret _ := "generated-signing-secret"
  ciphertext _ := "ciphertext"
  commitRaises _ := false
  metaRaises _ := false
  sha256 text := text
  dumps events := ",".intercalate events

def oneEach : Settings := ⟨1, some "encryption-key"⟩

def emptyRegistry (requests : ℕ) : State (Fin requests) Unit (Fin requests) where
  clock := 0
  webhooks := Table.empty
  keys _ := none
  phase _ := .idle
  won _ := none

theorem emptyRegistry_init {requests : ℕ} (settings : Settings)
    (environment : Environment (Fin requests) (Fin requests)) :
    (system Unit settings environment).Init (emptyRegistry requests) :=
  ⟨rfl, fun _ => rfl, fun _ => rfl, fun _ => rfl⟩

/-- A create up to its commit. -/
def creating {requests : ℕ} (request : Fin requests) (key : String) :
    List (Action (Fin requests) Unit (Fin requests)) :=
  [.create request () key ⟨"https://example.com/", ["launch.updated"], none⟩,
    .validate request (some "https://example.com/"), .count request,
    .claim request .answered]

/-- Delete the first webhook, create a second one, switch the first on. -/
def reactivation : List (Action (Fin 4) Unit (Fin 4)) :=
  creating 0 "key-of-first" ++
    [.commit 0, .change 1 () 0 .delete, .select 1, .commit 1] ++
    creating 2 "key-of-second" ++
    [.commit 2, .change 3 () 0 (.patch ⟨none, none, some true⟩), .select 3,
      .commit 3]

/-- Two creates that both count before either commits. -/
def racingCreates : List (Action (Fin 4) Unit (Fin 4)) :=
  creating 0 "key-of-first" ++ creating 1 "key-of-second" ++
    [.commit 0, .commit 1]

/-- With a limit of one, both runs leave two active webhooks. -/
theorem limit_exceeded :
    (∃ state ∈ (system Unit oneEach (calm 4)).run (emptyRegistry 4)
        reactivation,
      oneEach.webhookMaxPerIp < activeCount state.webhooks ()) ∧
    ∃ state ∈ (system Unit oneEach (calm 4)).run (emptyRegistry 4)
        racingCreates,
      oneEach.webhookMaxPerIp < activeCount state.webhooks () := by
  decide +kernel

theorem reactivation_limit_kept_iff :
    (system Unit oneEach (calm 4)).States
        (fun state => WithinLimit oneEach state.webhooks) (emptyRegistry 4)
        reactivation ↔
      (system Unit oneEach (calm 4)).Steps
        (fun state action _ => ActivatesBelowLimit oneEach (calm 4) state
          action)
        (emptyRegistry 4) reactivation :=
  active_limit_kept_iff (emptyRegistry 4) reactivation
    (emptyRegistry_init oneEach (calm 4))

end UTTG.Webhooks
