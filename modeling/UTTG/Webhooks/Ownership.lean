import UTTG.Webhooks.Lifecycle

/-!
# Whose webhook a request touches

Every endpoint selects by `owner_ip_fingerprint`, and a row keeps its owner.
So the row, the claim and the update that a request carries from one await to
the next belong to the client that sent it, and the registry can be split by
owner: without the rows, the keys and the requests of one client it takes the
same steps.
-/

namespace UTTG.Webhooks

open UTTG.Expiring UTTG.Transition

variable {Request Client Id : Type*}
variable [DecidableEq Request] [DecidableEq Client] [DecidableEq Id]
variable {settings : Settings} {environment : Environment Request Id}

/-- The owner of the webhook with this id. -/
def ownerOf (webhooks : Registry Client Id) (id : Id) : Option Client :=
  (webhooks.find id).map Webhook.ownerIpFingerprint

/-- The webhooks of one client. -/
def webhooksOf (webhooks : Registry Client Id) (client : Client) :
    Registry Client Id :=
  webhooks.filter fun row => row.ownerIpFingerprint = client

/-- A request comes with the fingerprint of the client that sent it. -/
def Authentic (sender : Request → Client) :
    Action Request Client Id → Prop
  | .create request client _ _ | .change request client _ _ =>
      client = sender request
  | _ => True

/-- What a request carries through its awaits belongs to its sender. -/
def Holds (sender : Request → Client) (webhooks : Registry Client Id)
    (request : Request) : Phase Client Id → Prop
  | .validating client _ _ | .counting client _ _ _ | .claiming client _ _ _
  | .selecting client _ _ => client = sender request
  | .committing claim webhook _ _ =>
      claim.1 = sender request ∧ webhook.ownerIpFingerprint = sender request
  | .rollingBack claim | .unclaiming claim => claim.1 = sender request
  | .validatingPatch row _ | .writing row _ _ =>
      ownerOf webhooks row.id = some (sender request)
  | .idle | .describing _ _ | .ended _ => True

/-- Every request acts for its sender, and every row was drawn by a request
of its owner. -/
structure Owned (environment : Environment Request Id)
    (sender : Request → Client) (state : State Request Client Id) :
    Prop where
  holds : ∀ request, Holds sender state.webhooks request (state.phase request)
  drawn : ∀ row ∈ state.webhooks.rows, ∃ request,
    row.id = environment.webhookId request ∧
      row.ownerIpFingerprint = sender request

/-! ## Owners -/

omit [DecidableEq Request] in
theorem ownerOf_of_ownerStatement {webhooks : Registry Client Id} {id : Id}
    {client : Client} {row : Webhook Client Id}
    (hrow : ownerStatement webhooks id client = some row) :
    row.id = id ∧ ownerOf webhooks id = some client := by
  obtain ⟨hfind, howner⟩ := Option.filter_eq_some_iff.mp hrow
  refine ⟨((webhooks.find_eq_some_iff id row).mp hfind).2, ?_⟩
  rw [ownerOf, hfind, Option.map_some]
  exact congrArg some (of_decide_eq_true howner)

/-- A webhook keeps its owner. -/
theorem ownerOf_of_step {state next : State Request Client Id}
    {action : Action Request Client Id} {id : Id} {client : Client}
    (hstep : step settings environment state action = some next)
    (howner : ownerOf state.webhooks id = some client) :
    ownerOf next.webhooks id = some client := by
  rcases step_cases hstep with
    ⟨-, hwebhooks, -, -⟩ | ⟨request, base, phase, -, hdid, rfl, -⟩
  · rw [hwebhooks]
    exact howner
  · cases hdid with
    | nothing | key keys | claimed reply keys claim haction => exact howner
    | inserted haction hphase hinsert =>
        rename_i claim webhook events secret webhooks
        have hother : webhook.id ≠ id := by
          rintro rfl
          have hpresent : state.webhooks.find webhook.id ≠ none := by
            intro hnone
            simp [ownerOf, hnone] at howner
          rw [(Table.insert_eq_none_iff _ _).mpr hpresent] at hinsert
          simp at hinsert
        simp only [State.goto, ownerOf, Table.find_insert hinsert,
          if_neg hother]
        exact howner
    | written haction hphase =>
        simp only [State.goto, ownerOf, writeBack, Table.find_modify]
        split
        · rw [Option.map_map]
          exact howner
        · exact howner

omit [DecidableEq Request] [DecidableEq Client] in
theorem Holds.mono {sender : Request → Client}
    {webhooks later : Registry Client Id} {request : Request}
    {phase : Phase Client Id} (hholds : Holds sender webhooks request phase)
    (hlater : ∀ id client, ownerOf webhooks id = some client →
      ownerOf later id = some client) :
    Holds sender later request phase := by
  cases phase with
  | validatingPatch row patch => exact hlater _ _ hholds
  | writing row assigned response => exact hlater _ _ hholds
  | _ => exact hholds

/-- From one await to the next a request goes on acting for its sender. -/
theorem holds_of_step {sender : Request → Client}
    {state next : State Request Client Id}
    {action : Action Request Client Id} {request : Request}
    (hauthentic : Authentic sender action)
    (hrequest : action.request = some request)
    (hholds : Holds sender state.webhooks request (state.phase request))
    (hstep : step settings environment state action = some next) :
    Holds sender state.webhooks request (next.phase request) := by
  have hgoes := goes_of_step hrequest hstep
  generalize state.phase request = before at *
  generalize next.phase request = after at *
  cases hgoes with
  | create | change => exact hauthentic
  | validated | validatedPatch | counted | rolledBack => exact hholds
  | claimed howner =>
      obtain rfl : _ = sender request := hholds
      exact ⟨rfl, howner⟩
  | uncommitted => exact hholds.1
  | committed | written | ends => trivial
  | selected hrow | selectedUrl hrow =>
      obtain ⟨rfl, howner⟩ := ownerOf_of_ownerStatement hrow
      obtain rfl : _ = sender request := hholds
      exact howner

theorem Owned.step {sender : Request → Client}
    {state next : State Request Client Id}
    {action : Action Request Client Id}
    (howned : Owned environment sender state)
    (hsound : Sound settings environment state)
    (hauthentic : Authentic sender action)
    (hstep : Webhooks.step settings environment state action = some next) :
    Owned environment sender next := by
  constructor
  · intro request
    have hlater : ∀ id client, ownerOf state.webhooks id = some client →
        ownerOf next.webhooks id = some client :=
      fun _ _ => ownerOf_of_step hstep
    by_cases hsame : next.phase request = state.phase request
    · rw [hsame]
      exact (howned.holds request).mono hlater
    · have hrequest := request_of_phase_ne hstep hsame
      exact (holds_of_step hauthentic hrequest (howned.holds request)
        hstep).mono hlater
  · rcases step_cases hstep with
      ⟨-, hwebhooks, -, -⟩ | ⟨request, base, phase, -, hdid, rfl, -⟩
    · rw [hwebhooks]
      exact howned.drawn
    · cases hdid with
      | nothing | key keys | claimed reply keys claim haction =>
          exact howned.drawn
      | inserted haction hphase hinsert =>
          have hfits := hsound request
          have hholds := howned.holds request
          rw [hphase] at hfits hholds
          intro row hrow
          rw [State.goto, Table.rows_of_insert hinsert] at hrow
          rcases List.mem_append.mp hrow with hold | hnew
          · exact howned.drawn row hold
          · rw [List.mem_singleton.mp hnew]
            exact ⟨request, hfits.2.2.2.1, hholds.2⟩
      | written haction hphase =>
          intro row hrow
          obtain ⟨old, hold, rfl⟩ := List.mem_map.mp hrow
          obtain ⟨drawer, hid, howner⟩ := howned.drawn old hold
          refine ⟨drawer, ?_⟩
          split
          · exact ⟨hid, howner⟩
          · exact ⟨hid, howner⟩

theorem owned_init {sender : Request → Client}
    {state : State Request Client Id}
    (hinit : (system Client settings environment).Init state) :
    Owned environment sender state := by
  obtain ⟨hrows, -, hidle, -⟩ := hinit
  constructor
  · intro request
    rw [hidle request]
    trivial
  · simp [hrows]

omit [DecidableEq Request] [DecidableEq Client] in
theorem filter_writeBack (webhooks : Registry Client Id)
    (row : Webhook Client Id) (assigned : Assigned)
    (selected : Client → Bool) :
    (writeBack webhooks row assigned).filter
        (fun row => selected row.ownerIpFingerprint) =
      writeBack (webhooks.filter fun row => selected row.ownerIpFingerprint)
        row assigned :=
  Table.filter_modify webhooks row.id (assigned.net row).apply
    (assigned.net row).apply_id fun _ => rfl

omit [DecidableEq Request] [DecidableEq Client] in
/-- An update of a webhook is not seen among the webhooks of other owners. -/
theorem filter_of_writeBack {webhooks : Registry Client Id}
    {row : Webhook Client Id} (assigned : Assigned) {owner : Client}
    (selected : Client → Bool)
    (howner : ownerOf webhooks row.id = some owner)
    (hdrop : selected owner = false) :
    (writeBack webhooks row assigned).filter
        (fun row => selected row.ownerIpFingerprint) =
      webhooks.filter fun row => selected row.ownerIpFingerprint := by
  rw [filter_writeBack]
  apply Table.modify_of_absent
  obtain ⟨current, hfind, rfl⟩ := Option.map_eq_some_iff.mp howner
  rw [Table.find_filter, hfind]
  simp [hdrop]

/-- A request leaves the webhooks of every client but its sender alone. -/
theorem webhooksOf_of_step {sender : Request → Client}
    {state next : State Request Client Id}
    {action : Action Request Client Id} {request : Request} {client : Client}
    (howned : Owned environment sender state)
    (hrequest : action.request = some request)
    (hclient : sender request ≠ client)
    (hstep : step settings environment state action = some next) :
    webhooksOf next.webhooks client = webhooksOf state.webhooks client := by
  rcases step_cases hstep with
    ⟨hnone, -, -, -⟩ | ⟨other, base, phase, hother, hdid, rfl, -⟩
  · simp [hnone] at hrequest
  · obtain rfl : other = request := Option.some.inj (hother.symm.trans hrequest)
    have hholds := howned.holds other
    cases hdid with
    | nothing | key keys | claimed reply keys claim haction => rfl
    | inserted haction hphase hinsert =>
        rw [hphase] at hholds
        apply Table.filter_of_insert hinsert
        simp [hholds.2, hclient]
    | written haction hphase =>
        rw [hphase] at hholds
        exact filter_of_writeBack _ (· = client) hholds
          (decide_eq_false hclient)

/-! ## The registry without one client -/

section Erase

variable (sender : Request → Client) (hidden : Client)

/-- The webhooks of the other clients. -/
def others (webhooks : Registry Client Id) : Registry Client Id :=
  webhooks.filter fun row => row.ownerIpFingerprint ≠ hidden

/-- The state without the webhooks, the keys and the requests of a client. -/
def State.erase (state : State Request Client Id) :
    State Request Client Id where
  clock := state.clock
  webhooks := others hidden state.webhooks
  keys claim := if claim.1 = hidden then none else state.keys claim
  phase request :=
    if sender request = hidden then .idle else state.phase request
  won request :=
    if sender request = hidden then none else state.won request

variable {sender hidden}

omit [DecidableEq Request] in
theorem ownerStatement_others (webhooks : Registry Client Id) (id : Id)
    {client : Client} (hclient : client ≠ hidden) :
    ownerStatement (others hidden webhooks) id client =
      ownerStatement webhooks id client := by
  rw [ownerStatement, others, Table.find_filter, Option.filter_filter]
  refine congrArg (Option.filter · _) ?_
  funext row
  by_cases howner : row.ownerIpFingerprint = client
  · simp [howner, hclient]
  · simp [howner]

omit [DecidableEq Request] [DecidableEq Id] in
theorem webhooksOf_others (webhooks : Registry Client Id) {client : Client}
    (hclient : client ≠ hidden) :
    webhooksOf (others hidden webhooks) client =
      webhooksOf webhooks client := by
  ext1
  simp only [webhooksOf, others, Table.filter, List.filter_filter]
  apply List.filter_congr
  intro row _
  by_cases howner : row.ownerIpFingerprint = client
  · simp [howner, hclient]
  · simp [howner]

omit [DecidableEq Request] in
theorem find_others {webhooks : Registry Client Id} {id : Id}
    {client : Client} (howner : ownerOf webhooks id = some client)
    (hclient : client ≠ hidden) :
    (others hidden webhooks).find id = webhooks.find id := by
  obtain ⟨row, hfind, rfl⟩ := Option.map_eq_some_iff.mp howner
  rw [others, Table.find_filter, hfind, Option.filter_some]
  exact if_pos (decide_eq_true hclient)

omit [DecidableEq Request] [DecidableEq Id] in
theorem limitReached_others (webhooks : Registry Client Id) {client : Client}
    (hclient : client ≠ hidden) :
    limitReached settings (others hidden webhooks) client =
      limitReached settings webhooks client := by
  rw [limitReached, limitReached, activeCount, activeCount, others,
    Table.count_filter]
  intro row hrow
  rw [Bool.and_eq_true, decide_eq_true_eq] at hrow
  simp [hrow.1, hclient]

omit [DecidableEq Id] in
theorem erase_goto (state : State Request Client Id) {request : Request}
    (hvisible : sender request ≠ hidden) (phase : Phase Client Id) :
    (state.goto request phase).erase sender hidden =
      (state.erase sender hidden).goto request phase := by
  have hphase : (fun other => if sender other = hidden then .idle
        else Function.update state.phase request phase other) =
      Function.update (fun other => if sender other = hidden then .idle
        else state.phase other) request phase := by
    funext other
    by_cases hother : other = request
    · subst hother
      simp [hvisible]
    · simp [hother]
  simp only [State.erase, State.goto, hphase]

omit [DecidableEq Id] in
theorem erase_finish (state : State Request Client Id) {request : Request}
    (hvisible : sender request ≠ hidden) (response : Response Id) :
    (state.finish request response).erase sender hidden =
      (state.erase sender hidden).finish request response :=
  erase_goto state hvisible _

omit [DecidableEq Id] in
/-- The phases of the client are not seen. -/
theorem erase_of_goto (state : State Request Client Id) {request : Request}
    (hhidden : sender request = hidden) (phase : Phase Client Id) :
    (state.goto request phase).erase sender hidden =
      state.erase sender hidden := by
  have hphase : (fun other => if sender other = hidden then .idle
        else Function.update state.phase request phase other) =
      fun other => if sender other = hidden then .idle
        else state.phase other := by
    funext other
    by_cases hother : other = request
    · subst hother
      simp [hhidden]
    · simp [hother]
  simp only [State.erase, State.goto, hphase]

omit [DecidableEq Request] [DecidableEq Id] in
theorem erase_setKey (state : State Request Client Id)
    {claim : IdempotencyKey Client} (hclaim : claim.1 ≠ hidden) :
    (state.erase sender hidden).setKey claim =
      ((state.setKey claim).1,
        (state.setKey claim).2.erase sender hidden) := by
  have hkey : (state.erase sender hidden).keys claim = state.keys claim :=
    if_neg hclaim
  have hclock : (state.erase sender hidden).clock = state.clock := rfl
  rw [State.setKey, hkey, hclock]
  simp only [State.setKey, Prod.mk.injEq, true_and]
  simp only [State.erase, State.mk.injEq, true_and, and_true]
  funext other
  by_cases hother : other = claim
  · subst hother
    simp [hclaim]
  · simp [hother]

omit [DecidableEq Id] in
theorem erase_won (state : State Request Client Id) {request : Request}
    (hvisible : sender request ≠ hidden)
    (claim : Option (IdempotencyKey Client)) :
    State.erase sender hidden { state with
        won := Function.update state.won request claim } =
      { state.erase sender hidden with
        won := Function.update (state.erase sender hidden).won request
          claim } := by
  simp only [State.erase, State.mk.injEq, true_and]
  funext other
  by_cases hother : other = request
  · subst hother
    simp [hvisible]
  · simp [hother]

omit [DecidableEq Id] in
theorem erase_afterClaim (state : State Request Client Id) {request : Request}
    (hvisible : sender request ≠ hidden) (claim : IdempotencyKey Client)
    (body : WebhookCreate) (url : String) :
    (state.afterClaim settings environment request claim body url).erase
        sender hidden =
      (state.erase sender hidden).afterClaim settings environment request
        claim body url := by
  unfold State.afterClaim
  simp only [← erase_won state hvisible]
  split
  · exact erase_goto _ hvisible _
  · exact erase_finish _ hvisible _

omit [DecidableEq Id] in
theorem erase_afterSelect (state : State Request Client Id)
    {request : Request} (hvisible : sender request ≠ hidden)
    (row : Webhook Client Id) (change : Change) :
    (state.afterSelect environment request row change).erase sender hidden =
      (state.erase sender hidden).afterSelect environment request row
        change := by
  unfold State.afterSelect
  split
  · exact erase_goto _ hvisible _
  · split
    · exact erase_goto _ hvisible _
    · exact erase_goto _ hvisible _

omit [DecidableEq Request] [DecidableEq Id] in
theorem erase_unset (state : State Request Client Id)
    {claim : IdempotencyKey Client} (hclaim : claim.1 ≠ hidden) :
    State.erase sender hidden { state with
        keys := Function.update state.keys claim Slot.del } =
      { state.erase sender hidden with
        keys := Function.update (state.erase sender hidden).keys claim
          Slot.del } := by
  simp only [State.erase, State.mk.injEq, true_and, and_true]
  funext other
  by_cases hother : other = claim
  · subst hother
    simp [hclaim]
  · simp [hother]

omit [DecidableEq Request] [DecidableEq Id] in
theorem phase_erase (state : State Request Client Id) {request : Request}
    (hvisible : sender request ≠ hidden) :
    (state.erase sender hidden).phase request = state.phase request :=
  if_neg hvisible

/-- A step of another client, or of time, is the same without the client. -/
theorem step_erase {state next : State Request Client Id}
    {action : Action Request Client Id}
    (hsound : Sound settings environment state)
    (howned : Owned environment sender state)
    (hvisible : ∀ request, action.request = some request →
      sender request ≠ hidden)
    (hstep : step settings environment state action = some next) :
    step settings environment (state.erase sender hidden) action =
      some (next.erase sender hidden) := by
  cases action with
  | elapse duration =>
      simp only [step] at hstep ⊢
      split at hstep
      case isTrue hduration =>
        obtain rfl := Option.some.inj hstep
        exact if_pos hduration
      case isFalse => simp at hstep
  | create request client key body =>
      have hother := hvisible request rfl
      simp only [step, phase_erase state hother] at hstep ⊢
      split at hstep
      · obtain rfl := Option.some.inj hstep
        rw [erase_goto state hother]
      · simp at hstep
  | change request client id change =>
      have hother := hvisible request rfl
      simp only [step, phase_erase state hother] at hstep ⊢
      split at hstep
      · obtain rfl := Option.some.inj hstep
        rw [erase_goto state hother]
      · simp at hstep
  | validate request url =>
      have hother := hvisible request rfl
      simp only [step, phase_erase state hother] at hstep ⊢
      split at hstep
      case h_1 | h_2 =>
        obtain rfl := Option.some.inj hstep
        rw [erase_goto state hother]
      case h_3 | h_4 =>
        obtain rfl := Option.some.inj hstep
        rw [erase_finish state hother]
      case h_5 => simp at hstep
  | count request =>
      have hother := hvisible request rfl
      have hholds := howned.holds request
      simp only [step, phase_erase state hother] at hstep ⊢
      split at hstep
      case h_1 client key body url hphase =>
        rw [hphase] at hholds
        obtain rfl : client = sender request := hholds
        have hlimit : limitReached settings
            (state.erase sender hidden).webhooks (sender request) =
              limitReached settings state.webhooks (sender request) :=
          limitReached_others state.webhooks hother
        rw [hlimit]
        split at hstep
        case isTrue hreached =>
          obtain rfl := Option.some.inj hstep
          rw [if_pos hreached, erase_finish state hother]
        case isFalse hbelow =>
          obtain rfl := Option.some.inj hstep
          rw [if_neg hbelow, erase_goto state hother]
      case h_2 => simp at hstep
  | claim request reply =>
      have hother := hvisible request rfl
      have hholds := howned.holds request
      simp only [step, phase_erase state hother] at hstep ⊢
      split at hstep
      case h_1 client key body url hphase =>
        rw [hphase] at hholds
        obtain rfl : client = sender request := hholds
        have hset : (state.erase sender hidden).setKey
            (sender request, environment.sha256 key) = _ :=
          erase_setKey state hother
        simp only [hset]
        cases reply with
        | answered =>
            simp only at hstep ⊢
            split at hstep
            case isTrue hgranted =>
              obtain rfl := Option.some.inj hstep
              rw [if_pos hgranted, erase_afterClaim _ hother]
            case isFalse hrefused =>
              obtain rfl := Option.some.inj hstep
              rw [if_neg hrefused, erase_finish _ hother]
        | lost | refused =>
            obtain rfl := Option.some.inj hstep
            rw [erase_finish _ hother]
      case h_2 => simp at hstep
  | commit request =>
      have hother := hvisible request rfl
      have hholds := howned.holds request
      have hfits := hsound request
      rcases commit_cases hstep with
        ⟨claim, webhook, events, secret, hphase, hcases⟩ |
        ⟨row, assigned, response, hphase, hcases⟩
      · rw [hphase] at hholds hfits
        simp only [step, phase_erase state hother, hphase]
        rcases hcases with
          ⟨hrefused, rfl⟩ | ⟨hcommits, webhooks, hinsert, rfl⟩
        · have hinserts := inserts_of_absent hfits.2.1 hfits.2.2.2.1
          rw [if_pos (hrefused.resolve_right hinserts), erase_goto _ hother]
        · have hpart : (state.erase sender hidden).webhooks.insert webhook =
              some (others hidden webhooks) :=
            Table.insert_filter hinsert (by simp [hholds.2, hother])
          rw [if_neg (by simp [hcommits]), hpart]
          simp only [erase_goto _ hother]
          rfl
      · simp only [step, phase_erase state hother, hphase]
        rcases hcases with ⟨hraises, rfl⟩ | ⟨hcommits, rfl⟩
        · rw [if_pos hraises, erase_finish _ hother]
        · rw [if_neg (by simp [hcommits]), erase_goto _ hother]
          have hwritten : others hidden
              (writeBack state.webhooks row assigned) =
                writeBack (state.erase sender hidden).webhooks row assigned :=
            filter_writeBack state.webhooks row assigned (· ≠ hidden)
          rw [← hwritten]
          rfl
  | rollback request =>
      have hother := hvisible request rfl
      simp only [step, phase_erase state hother] at hstep ⊢
      split at hstep
      · obtain rfl := Option.some.inj hstep
        rw [erase_goto state hother]
      · simp at hstep
  | unclaim request =>
      have hother := hvisible request rfl
      have hholds := howned.holds request
      simp only [step, phase_erase state hother] at hstep ⊢
      split at hstep
      case h_1 claim hphase =>
        rw [hphase] at hholds
        have hclaim : claim.1 ≠ hidden := hholds ▸ hother
        obtain rfl := Option.some.inj hstep
        rw [erase_finish _ hother, erase_unset state hclaim]
      case h_2 => simp at hstep
  | select request =>
      have hother := hvisible request rfl
      have hholds := howned.holds request
      simp only [step, phase_erase state hother] at hstep ⊢
      split at hstep
      case h_1 client id change hphase =>
        rw [hphase] at hholds
        obtain rfl : client = sender request := hholds
        have hstatement : ownerStatement
            (state.erase sender hidden).webhooks id (sender request) =
              ownerStatement state.webhooks id (sender request) :=
          ownerStatement_others state.webhooks id hother
        rw [hstatement]
        split at hstep
        · obtain rfl := Option.some.inj hstep
          rw [erase_finish _ hother]
        · obtain rfl := Option.some.inj hstep
          rw [erase_afterSelect _ hother]
      case h_2 => simp at hstep
  | describe request =>
      have hother := hvisible request rfl
      simp only [step, phase_erase state hother] at hstep ⊢
      split at hstep
      · split at hstep
        case isTrue hraises =>
          obtain rfl := Option.some.inj hstep
          rw [if_pos hraises, erase_finish state hother]
        case isFalse hanswers =>
          obtain rfl := Option.some.inj hstep
          rw [if_neg hanswers, erase_finish state hother]
      · simp at hstep
  | raise request =>
      have hother := hvisible request rfl
      simp only [step, phase_erase state hother] at hstep ⊢
      split at hstep
      case h_5 => simp at hstep
      all_goals
        obtain rfl := Option.some.inj hstep
        rw [erase_finish state hother]
  | crash request =>
      have hother := hvisible request rfl
      obtain rfl := Option.some.inj hstep
      rw [step, erase_goto state hother]

omit [DecidableEq Request] [DecidableEq Id] in
theorem erase_of_keys (state : State Request Client Id)
    {claim : IdempotencyKey Client} (hclaim : claim.1 = hidden)
    (slot : Slot Unit ℚ) :
    State.erase sender hidden { state with
        keys := Function.update state.keys claim slot } =
      state.erase sender hidden := by
  simp only [State.erase, State.mk.injEq, true_and, and_true]
  funext other
  by_cases hother : other = claim
  · subst hother
    simp [hclaim]
  · simp [hother]

omit [DecidableEq Id] in
theorem erase_of_afterClaim (state : State Request Client Id)
    {request : Request} (hhidden : sender request = hidden)
    (claim : IdempotencyKey Client) (body : WebhookCreate) (url : String) :
    (state.afterClaim settings environment request claim body url).erase
        sender hidden = state.erase sender hidden := by
  have hwon : State.erase sender hidden { state with
      won := Function.update state.won request (some claim) } =
        state.erase sender hidden := by
    simp only [State.erase, State.mk.injEq, true_and]
    funext other
    by_cases hother : other = request
    · subst hother
      simp [hhidden]
    · simp [hother]
  unfold State.afterClaim
  split
  · exact (erase_of_goto _ hhidden _).trans hwon
  · exact (erase_of_goto _ hhidden _).trans hwon

/-- A step of the client is not seen without it. -/
theorem erase_of_step {state next : State Request Client Id}
    {action : Action Request Client Id} {request : Request}
    (howned : Owned environment sender state)
    (hrequest : action.request = some request)
    (hhidden : sender request = hidden)
    (hstep : step settings environment state action = some next) :
    next.erase sender hidden = state.erase sender hidden := by
  have hholds := howned.holds request
  by_cases hcommit : action = .commit request
  · subst hcommit
    rcases commit_cases hstep with
      ⟨claim, webhook, events, secret, hphase, hcases⟩ |
      ⟨row, assigned, response, hphase, hcases⟩
    · rcases hcases with ⟨-, rfl⟩ | ⟨-, webhooks, hinsert, rfl⟩
      · exact erase_of_goto state hhidden _
      · rw [hphase] at hholds
        have hpart : others hidden webhooks = others hidden state.webhooks :=
          Table.filter_of_insert hinsert (by simp [hholds.2, hhidden])
        rw [erase_of_goto _ hhidden]
        simp only [State.erase, hpart]
    · rcases hcases with ⟨-, rfl⟩ | ⟨-, rfl⟩
      · exact erase_of_goto state hhidden _
      · rw [hphase] at hholds
        have hpart : others hidden (writeBack state.webhooks row assigned) =
            others hidden state.webhooks :=
          filter_of_writeBack assigned (· ≠ hidden) hholds (by simp [hhidden])
        rw [erase_of_goto _ hhidden]
        simp only [State.erase, hpart]
  by_cases hunclaim : action = .unclaim request
  · subst hunclaim
    simp only [step] at hstep
    split at hstep
    case h_1 claim hphase =>
      rw [hphase] at hholds
      have hclaim : claim.1 = hidden := hhidden ▸ hholds
      obtain rfl := Option.some.inj hstep
      exact (erase_of_goto _ hhidden _).trans
        (erase_of_keys state hclaim Slot.del)
    case h_2 => simp at hstep
  by_cases hclaim : ∃ reply, action = .claim request reply
  · obtain ⟨reply, rfl⟩ := hclaim
    simp only [step] at hstep
    split at hstep
    case h_1 client key body url hphase =>
      rw [hphase] at hholds
      have hset : (state.setKey (client, environment.sha256 key)).2.erase
          sender hidden = state.erase sender hidden :=
        erase_of_keys state (hholds.trans hhidden) _
      cases reply with
      | answered =>
          simp only at hstep
          split at hstep
          · obtain rfl := Option.some.inj hstep
            exact (erase_of_afterClaim _ hhidden _ _ _).trans hset
          · obtain rfl := Option.some.inj hstep
            exact (erase_of_goto _ hhidden _).trans hset
      | lost =>
          obtain rfl := Option.some.inj hstep
          exact (erase_of_goto _ hhidden _).trans hset
      | refused =>
          obtain rfl := Option.some.inj hstep
          exact erase_of_goto state hhidden _
    case h_2 => simp at hstep
  · obtain ⟨phase, rfl⟩ := goto_of_step hrequest
      (fun reply heq => hclaim ⟨reply, heq⟩) hcommit hunclaim hstep
    exact erase_of_goto state hhidden phase

end Erase

end UTTG.Webhooks
