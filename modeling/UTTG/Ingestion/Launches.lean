import UTTG.Core.Table

/-!
# The launch schedule

`_replace_upcoming_launches` and `_ingest_launches` over the `launches`
table.  Storing a payload is one transaction: an upsert of the listed
launches and a delete of the unlisted ones that still lie ahead.  The job
tries the configured sources in order until one payload has been stored.
-/

namespace UTTG.Launches

/-- Instants in microseconds; aware datetimes compare by instant. -/
abbrev Instant := ℤ

/-- `UpcomingLaunch`. -/
structure UpcomingLaunch where
  id : String
  name : String
  status : Option String
  windowStart : Instant
  windowEnd : Option Instant
  provider : String
  operator : Option String
  vehicle : Option String
  pad : Option String
  location : Option String
  latitude : Option ℚ
  longitude : Option ℚ
  missionDescription : Option String
  weatherSummary : Option String
  infoUrl : Option String
  deriving DecidableEq

/-- A row of `launches`. -/
structure Launch where
  id : String
  name : String
  status : Option String
  windowStart : Option Instant
  windowEnd : Option Instant
  provider : Option String
  operator : Option String
  vehicle : Option String
  pad : Option String
  location : Option String
  latitude : Option ℚ
  longitude : Option ℚ
  missionDescription : Option String
  weatherSummary : Option String
  infoUrl : Option String
  createdAt : Instant
  updatedAt : Instant
  deriving DecidableEq

abbrev Schedule := Table Launch.id

/-- The `SET` clause: every listed column but `id` and `provider`.  The
timestamps of the row are not touched by it. -/
def UpcomingLaunch.setOn (launch : UpcomingLaunch) (row : Launch) : Launch :=
  { row with
    name := launch.name
    status := launch.status
    windowStart := some launch.windowStart
    windowEnd := launch.windowEnd
    operator := launch.operator
    vehicle := launch.vehicle
    pad := launch.pad
    location := launch.location
    latitude := launch.latitude
    longitude := launch.longitude
    missionDescription := launch.missionDescription
    weatherSummary := launch.weatherSummary
    infoUrl := launch.infoUrl }

/-- The row inserted in a transaction that started at `stamp`. -/
def UpcomingLaunch.row (stamp : Instant) (launch : UpcomingLaunch) : Launch where
  id := launch.id
  name := launch.name
  status := launch.status
  windowStart := some launch.windowStart
  windowEnd := launch.windowEnd
  provider := some launch.provider
  operator := launch.operator
  vehicle := launch.vehicle
  pad := launch.pad
  location := launch.location
  latitude := launch.latitude
  longitude := launch.longitude
  missionDescription := launch.missionDescription
  weatherSummary := launch.weatherSummary
  infoUrl := launch.infoUrl
  createdAt := stamp
  updatedAt := stamp

@[simp]
theorem UpcomingLaunch.setOn_id (launch : UpcomingLaunch) (row : Launch) :
    (launch.setOn row).id = row.id := rfl

/-- `Launch.window_start >= now`; a missing window start compares as
unknown. -/
def Launch.ahead (now : Instant) (row : Launch) : Bool :=
  match row.windowStart with
  | none => false
  | some windowStart => now ≤ windowStart

/-- The `WHERE` clause of the delete. -/
def obsolete (now : Instant) (launches : List UpcomingLaunch)
    (row : Launch) : Bool :=
  row.ahead now && !(launches.map UpcomingLaunch.id).contains row.id

/-- `_replace_upcoming_launches`, unless a command raises; `none` when the
upsert is rejected because of a repeated id. -/
def replaceUpcomingLaunches (stamp now : Instant)
    (launches : List UpcomingLaunch) (schedule : Schedule) :
    Option Schedule :=
  (schedule.insertOnConflict (UpcomingLaunch.row stamp) UpcomingLaunch.setOn
    UpcomingLaunch.setOn_id launches).map fun upserted =>
      upserted.filter fun row => !obsolete now launches row

/-- What awaiting the fetch function of a source gives. -/
inductive Fetched where
  | raises (error : String)
  | returns (launches : List UpcomingLaunch)
  deriving DecidableEq

/-- One entry of `_LAUNCH_SOURCES` in one run: whether it is configured, what
its fetch gives, and whether the transaction fails for reasons of its own.
The error texts are those of `_safe_error`. -/
structure Source where
  providerId : String
  configured : Bool
  fetch : Fetched
  storeRaises : Bool
  storeError : String
  deriving DecidableEq

/-- An argument list of `_provider_health`. -/
structure HealthReport where
  providerId : String
  status : String
  error : Option String
  deriving DecidableEq

/-- What a run of the job did. -/
structure Run where
  schedule : Schedule
  fetched : List String
  health : List HealthReport
  /-- The provider and count of `launch.updated`. -/
  published : Option (String × ℕ)
  /-- The message of the `ProviderUnavailableError` that the job raises. -/
  raised : Option String

/-- The body of the `try` block of `_ingest_launches`: the launches and the
schedule after them, or the error. -/
def Source.attempt (stamp now : Instant) (schedule : Schedule)
    (source : Source) : Except String (List UpcomingLaunch × Schedule) :=
  match source.fetch with
  | .raises error => .error error
  | .returns [] => .error ("ProviderUnavailableError: " ++ source.providerId ++
      " returned no upcoming launches")
  | .returns launches =>
      if source.storeRaises then .error source.storeError
      else
        match replaceUpcomingLaunches stamp now launches schedule with
        | none => .error source.storeError
        | some replaced => .ok (launches, replaced)

/-- The message of a job without success. -/
def failureMessage (failures : List String) : String :=
  if failures = [] then "No launch provider is configured"
  else "; ".intercalate failures

/-- The loop of `_ingest_launches` over the remaining sources. -/
def ingestFrom (stamp now : Instant) (schedule : Schedule)
    (failures fetched : List String) (health : List HealthReport) :
    List Source → Run
  | [] => ⟨schedule, fetched, health, none, some (failureMessage failures)⟩
  | source :: rest =>
      if source.configured then
        match source.attempt stamp now schedule with
        | .error error =>
            ingestFrom stamp now schedule
              (failures ++ [source.providerId ++ ": " ++ error])
              (fetched ++ [source.providerId])
              (health ++ [⟨source.providerId, "error", some error⟩]) rest
        | .ok (launches, replaced) =>
            ⟨replaced, fetched ++ [source.providerId],
              health ++ [⟨source.providerId, "active", none⟩],
              some (source.providerId, launches.length), none⟩
      else ingestFrom stamp now schedule failures fetched health rest

/-- `_ingest_launches`. -/
def ingestLaunches (stamp now : Instant) (schedule : Schedule)
    (sources : List Source) : Run :=
  ingestFrom stamp now schedule [] [] [] sources

/-! ## Storing one payload -/

/-- The payload of a source that is configured, answers with a non-empty list
and can store it. -/
def Source.stores (source : Source) : Option (List UpcomingLaunch) :=
  if source.configured then
    match source.fetch with
    | .raises _ => none
    | .returns launches =>
        if launches ≠ [] ∧ source.storeRaises = false ∧
            (launches.map UpcomingLaunch.id).Nodup then some launches
        else none
  else none

/-- The row holds what is listed, up to the provider and the timestamps. -/
def UpcomingLaunch.Listed (launch : UpcomingLaunch) (row : Launch) : Prop :=
  row.id = launch.id ∧ launch.setOn row = row

/-- The schedule after a payload has replaced the launches ahead. -/
structure Replaced (now : Instant) (launches : List UpcomingLaunch)
    (before after : Schedule) : Prop where
  /-- Exactly the listed launches lie ahead. -/
  ahead : ∀ id, (∃ row, after.find id = some row ∧ row.ahead now = true) ↔
    ∃ launch ∈ launches, launch.id = id ∧ now ≤ launch.windowStart
  /-- Every listed launch is present as listed; the provider is the listed one
  unless the id existed. -/
  present : ∀ launch ∈ launches, ∃ row, after.find launch.id = some row ∧
    launch.Listed row ∧
    row.provider = (before.find launch.id).elim (some launch.provider)
      Launch.provider
  /-- Unlisted rows that do not lie ahead are as before. -/
  unchanged : ∀ id row, id ∉ launches.map UpcomingLaunch.id →
    (after.find id = some row ↔
      before.find id = some row ∧ row.ahead now = false)
  /-- Storing the payload again, then or later, changes nothing. -/
  settled : ∀ stamp later, now ≤ later →
    replaceUpcomingLaunches stamp later launches after = some after

theorem ahead_setOn (now : Instant) (launch : UpcomingLaunch) (row : Launch) :
    (launch.setOn row).ahead now = true ↔ now ≤ launch.windowStart := by
  simp [Launch.ahead, UpcomingLaunch.setOn]

theorem setOn_setOn (launch : UpcomingLaunch) (row : Launch) :
    launch.setOn (launch.setOn row) = launch.setOn row := rfl

theorem setOn_row (stamp : Instant) (launch : UpcomingLaunch) :
    launch.setOn (launch.row stamp) = launch.row stamp := rfl

/-- Whether a row lies ahead can only end as time passes. -/
theorem ahead_of_later {now later : Instant} (hle : now ≤ later)
    {row : Launch} (hahead : row.ahead later = true) :
    row.ahead now = true := by
  cases hstart : row.windowStart with
  | none => simp [Launch.ahead, hstart] at hahead
  | some windowStart =>
      simp only [Launch.ahead, hstart, decide_eq_true_eq] at hahead ⊢
      exact hle.trans hahead

theorem not_obsolete_iff (now : Instant) (launches : List UpcomingLaunch)
    (row : Launch) :
    (!obsolete now launches row) = true ↔
      (row.ahead now = false ∨ row.id ∈ launches.map UpcomingLaunch.id) := by
  cases hahead : row.ahead now with
  | false => simp [obsolete, hahead]
  | true => simp [obsolete, hahead]

section Replace

variable {stamp now : Instant} {launches : List UpcomingLaunch}
variable {before after : Schedule}

/-- The upsert is rejected exactly when an id is repeated. -/
theorem replaceUpcomingLaunches_eq_ite (stamp now : Instant)
    (launches : List UpcomingLaunch) (schedule : Schedule) :
    replaceUpcomingLaunches stamp now launches schedule =
      if (launches.map UpcomingLaunch.id).Nodup then
        some ((schedule.upsertAll (UpcomingLaunch.row stamp)
          UpcomingLaunch.setOn UpcomingLaunch.setOn_id launches).filter
            fun row => !obsolete now launches row)
      else none := by
  change Option.map _ (if (launches.map UpcomingLaunch.id).Nodup then _
    else _) = _
  split
  · rfl
  · rfl

/-- A stored payload has distinct ids, and the result is the upsert without
the obsolete rows. -/
theorem replaceUpcomingLaunches_eq
    (hreplace : replaceUpcomingLaunches stamp now launches before =
      some after) :
    (launches.map UpcomingLaunch.id).Nodup ∧
      after = (before.upsertAll (UpcomingLaunch.row stamp)
        UpcomingLaunch.setOn UpcomingLaunch.setOn_id launches).filter
          fun row => !obsolete now launches row := by
  rw [replaceUpcomingLaunches_eq_ite] at hreplace
  split at hreplace
  · next hdistinct => exact ⟨hdistinct, (Option.some.inj hreplace).symm⟩
  · simp at hreplace

/-- The row of a listed launch after the transaction. -/
theorem find_listed
    (hreplace : replaceUpcomingLaunches stamp now launches before =
      some after) {launch : UpcomingLaunch} (hmem : launch ∈ launches) :
    after.find launch.id =
      some ((before.find launch.id).elim (launch.row stamp)
        launch.setOn) := by
  obtain ⟨hdistinct, rfl⟩ := replaceUpcomingLaunches_eq hreplace
  have hkeys : (launches.map fun launch => (launch.row stamp).id).Nodup :=
    hdistinct
  have hupsert : (before.upsertAll (UpcomingLaunch.row stamp)
      UpcomingLaunch.setOn UpcomingLaunch.setOn_id launches).find launch.id =
        some ((before.find launch.id).elim (launch.row stamp)
          launch.setOn) :=
    Table.find_upsertAll_of_mem hkeys hmem before
  have hkeep : (!obsolete now launches ((before.find launch.id).elim
      (launch.row stamp) launch.setOn)) = true := by
    rw [not_obsolete_iff]
    right
    cases hfind : before.find launch.id with
    | none => exact List.mem_map_of_mem hmem
    | some old =>
        have hid : old.id = launch.id :=
          ((Table.find_eq_some_iff _ _ _).mp hfind).2
        change old.id ∈ launches.map UpcomingLaunch.id
        rw [hid]
        exact List.mem_map_of_mem hmem
  rw [Table.find_filter, hupsert, Option.filter_some, if_pos hkeep]

/-- The other rows stay unless they lie ahead. -/
theorem find_unlisted
    (hreplace : replaceUpcomingLaunches stamp now launches before =
      some after) {id : String}
    (hid : id ∉ launches.map UpcomingLaunch.id) :
    after.find id = (before.find id).filter fun row => !row.ahead now := by
  obtain ⟨hdistinct, rfl⟩ := replaceUpcomingLaunches_eq hreplace
  have hkeys : id ∉ launches.map fun launch => (launch.row stamp).id := hid
  have hupsert : (before.upsertAll (UpcomingLaunch.row stamp)
      UpcomingLaunch.setOn UpcomingLaunch.setOn_id launches).find id =
        before.find id :=
    Table.find_upsertAll_of_not_mem hkeys before
  rw [Table.find_filter, hupsert]
  cases hfind : before.find id with
  | none => rfl
  | some row =>
      have hrow : row.id = id := ((Table.find_eq_some_iff _ _ _).mp hfind).2
      have hkeep : (!obsolete now launches row) = !row.ahead now := by
        rw [Bool.eq_iff_iff, not_obsolete_iff, hrow]
        simp [hid]
      rw [Option.filter_some, Option.filter_some, hkeep]

/-- Storing a payload replaces the launches ahead. -/
theorem replaced_of_replaceUpcomingLaunches
    (hreplace : replaceUpcomingLaunches stamp now launches before =
      some after) : Replaced now launches before after := by
  have hlisted : ∀ launch ∈ launches, ∃ row,
      after.find launch.id = some row ∧ launch.Listed row ∧
        row.provider = (before.find launch.id).elim (some launch.provider)
          Launch.provider := by
    intro launch hmem
    refine ⟨_, find_listed hreplace hmem, ?_⟩
    cases hfind : before.find launch.id with
    | none => exact ⟨⟨rfl, setOn_row stamp launch⟩, rfl⟩
    | some old =>
        have hid : old.id = launch.id :=
          ((Table.find_eq_some_iff _ _ _).mp hfind).2
        exact ⟨⟨hid, setOn_setOn launch old⟩, rfl⟩
  have hunlisted : ∀ id row, id ∉ launches.map UpcomingLaunch.id →
      (after.find id = some row ↔
        before.find id = some row ∧ row.ahead now = false) := by
    intro id row hid
    rw [find_unlisted hreplace hid, Option.filter_eq_some_iff]
    simp
  have hahead : ∀ id, (∃ row, after.find id = some row ∧
        row.ahead now = true) →
      ∃ launch ∈ launches, launch.id = id ∧ now ≤ launch.windowStart := by
    rintro id ⟨row, hrow, hrowAhead⟩
    by_cases hid : id ∈ launches.map UpcomingLaunch.id
    · obtain ⟨launch, hmem, rfl⟩ := List.mem_map.mp hid
      obtain ⟨found, hfound, hholds, -⟩ := hlisted launch hmem
      obtain rfl : found = row := by
        rw [hfound] at hrow
        exact Option.some.inj hrow
      rw [← hholds.2, ahead_setOn] at hrowAhead
      exact ⟨launch, hmem, rfl, hrowAhead⟩
    · have hpast := ((hunlisted id row hid).mp hrow).2
      rw [hpast] at hrowAhead
      simp at hrowAhead
  refine ⟨fun id => ⟨hahead id, ?_⟩, hlisted, hunlisted, ?_⟩
  · rintro ⟨launch, hmem, rfl, hstart⟩
    obtain ⟨row, hrow, hholds, -⟩ := hlisted launch hmem
    refine ⟨row, hrow, ?_⟩
    rw [← hholds.2, ahead_setOn]
    exact hstart
  · intro stamp' later hlater
    have hdistinct := (replaceUpcomingLaunches_eq hreplace).1
    have hsame : after.upsertAll (UpcomingLaunch.row stamp')
        UpcomingLaunch.setOn UpcomingLaunch.setOn_id launches = after := by
      refine Table.upsertAll_of_fixed after fun launch hmem => ?_
      obtain ⟨row, hrow, hholds, -⟩ := hlisted launch hmem
      exact ⟨row, hrow, hholds.2⟩
    have hkept : (after.filter fun row => !obsolete later launches row) =
        after := by
      refine Table.filter_of_forall after fun row hmem => ?_
      rw [not_obsolete_iff]
      by_cases hid : row.id ∈ launches.map UpcomingLaunch.id
      · exact .inr hid
      · left
        have hfound : after.find row.id = some row :=
          (Table.find_eq_some_iff _ _ _).mpr ⟨hmem, rfl⟩
        have hpast := ((hunlisted row.id row hid).mp hfound).2
        by_contra hnow
        rw [Bool.not_eq_false] at hnow
        rw [ahead_of_later hlater hnow] at hpast
        simp at hpast
    rw [replaceUpcomingLaunches_eq_ite, if_pos hdistinct, hsame, hkept]

end Replace

/-! ## The job -/

/-- The attempt of a configured source succeeds exactly when it stores its
payload. -/
theorem attempt_of_stores (stamp now : Instant) (schedule : Schedule)
    {source : Source} {launches : List UpcomingLaunch}
    (hstores : source.stores = some launches) :
    source.configured = true ∧ ∃ replaced,
      replaceUpcomingLaunches stamp now launches schedule = some replaced ∧
        source.attempt stamp now schedule = .ok (launches, replaced) := by
  unfold Source.stores at hstores
  split at hstores
  case isFalse => simp at hstores
  case isTrue hconfigured =>
    refine ⟨hconfigured, ?_⟩
    cases hfetch : source.fetch with
    | raises error => simp [hfetch] at hstores
    | returns fetched =>
        rw [hfetch] at hstores
        simp only [Option.ite_none_right_eq_some, Option.some.injEq] at hstores
        obtain ⟨⟨hsome, hstore, hdistinct⟩, rfl⟩ := hstores
        obtain ⟨replaced, hreplaced⟩ : ∃ replaced,
            replaceUpcomingLaunches stamp now fetched schedule =
              some replaced := by
          rw [replaceUpcomingLaunches_eq_ite, if_pos hdistinct]
          exact ⟨_, rfl⟩
        refine ⟨replaced, hreplaced, ?_⟩
        cases fetched with
        | nil => exact absurd rfl hsome
        | cons launch rest =>
            simp [Source.attempt, hfetch, hstore, hreplaced]

/-- A configured source that stores nothing ends its attempt with an
error. -/
theorem attempt_of_not_stores (stamp now : Instant) (schedule : Schedule)
    {source : Source} (hconfigured : source.configured = true)
    (hstores : source.stores = none) :
    ∃ error, source.attempt stamp now schedule = .error error := by
  unfold Source.stores at hstores
  rw [if_pos hconfigured] at hstores
  cases hfetch : source.fetch with
  | raises error =>
      exact ⟨error, by simp [Source.attempt, hfetch]⟩
  | returns launches =>
      cases launches with
      | nil =>
          rw [Source.attempt, hfetch]
          exact ⟨_, rfl⟩
      | cons launch rest =>
          refine ⟨source.storeError, ?_⟩
          cases hraises : source.storeRaises with
          | true => simp [Source.attempt, hfetch, hraises]
          | false =>
              have hrepeated :
                  ¬((launch :: rest).map UpcomingLaunch.id).Nodup := by
                intro hdistinct
                rw [hfetch] at hstores
                dsimp only at hstores
                rw [if_pos ⟨List.cons_ne_nil _ _, hraises, hdistinct⟩]
                  at hstores
                simp at hstores
              have hrejected : replaceUpcomingLaunches stamp now
                  (launch :: rest) schedule = none := by
                rw [replaceUpcomingLaunches_eq_ite, if_neg hrepeated]
              simp [Source.attempt, hfetch, hraises, hrejected]

/-- The loop passes over sources that store nothing: the schedule stays, and
the configured ones have been fetched. -/
theorem ingestFrom_append (stamp now : Instant) (schedule : Schedule)
    {earlier : List Source} (hnone : ∀ source ∈ earlier, source.stores = none)
    (rest : List Source) (failures fetched : List String)
    (health : List HealthReport) :
    ∃ failures' health',
      ingestFrom stamp now schedule failures fetched health (earlier ++ rest) =
        ingestFrom stamp now schedule failures'
          (fetched ++ (earlier.filter Source.configured).map
            Source.providerId) health' rest := by
  induction earlier generalizing failures fetched health with
  | nil => exact ⟨failures, health, by simp⟩
  | cons source earlier ih =>
      have htail := fun other hother =>
        hnone other (List.mem_cons_of_mem source hother)
      cases hconfigured : source.configured with
      | false =>
          obtain ⟨failures', health', htail⟩ :=
            ih htail failures fetched health
          refine ⟨failures', health', ?_⟩
          rw [List.cons_append, ingestFrom, hconfigured,
            if_neg Bool.false_ne_true, htail,
            List.filter_cons_of_neg (by simp [hconfigured])]
      | true =>
          obtain ⟨error, herror⟩ := attempt_of_not_stores stamp now schedule
            hconfigured (hnone source List.mem_cons_self)
          obtain ⟨failures', health', htail⟩ := ih htail
            (failures ++ [source.providerId ++ ": " ++ error])
            (fetched ++ [source.providerId])
            (health ++ [⟨source.providerId, "error", some error⟩])
          refine ⟨failures', health', ?_⟩
          rw [List.cons_append, ingestFrom, hconfigured, if_pos rfl, herror]
          dsimp only
          rw [htail, List.filter_cons_of_pos hconfigured, List.map_cons,
            List.append_assoc, List.singleton_append]

/-- Equal up to the provider and the timestamps. -/
def SameListing (left right : Launch) : Prop :=
  { left with
    provider := right.provider
    createdAt := right.createdAt
    updatedAt := right.updatedAt } = right

theorem sameListing_of_listed {launch : UpcomingLaunch} {left right : Launch}
    (hleft : launch.Listed left) (hright : launch.Listed right) :
    SameListing left right := by
  have hid : left.id = right.id := hleft.1.trans hright.1.symm
  rw [SameListing, ← hleft.2, ← hright.2]
  simp only [UpcomingLaunch.setOn, hid]

/-- What one payload puts ahead does not depend on the schedule before. -/
theorem Replaced.independent {now : Instant} {launches : List UpcomingLaunch}
    {left right leftAfter rightAfter : Schedule}
    (hleft : Replaced now launches left leftAfter)
    (hright : Replaced now launches right rightAfter) {id : String}
    {row : Launch} (hrow : leftAfter.find id = some row)
    (hahead : row.ahead now = true) :
    ∃ other, rightAfter.find id = some other ∧ other.ahead now = true ∧
      SameListing other row := by
  obtain ⟨launch, hmem, rfl, hstart⟩ := (hleft.ahead id).mp ⟨row, hrow, hahead⟩
  obtain ⟨found, hfound, hlisted, -⟩ := hleft.present launch hmem
  obtain rfl : found = row := by
    rw [hfound] at hrow
    exact Option.some.inj hrow
  obtain ⟨other, hother, hotherListed, -⟩ := hright.present launch hmem
  refine ⟨other, hother, ?_, sameListing_of_listed hotherListed hlisted⟩
  rw [← hotherListed.2, ahead_setOn]
  exact hstart

/-- The job stores the payload of the first source that can be stored and
fetches no later one; the launches ahead are then those of the payload,
whatever the schedule was before.  Without such a source the schedule stays
and the job raises. -/
theorem ingest_launches_spec (stamp now : Instant) (schedule : Schedule)
    (sources : List Source) :
    (∀ earlier source later launches, sources = earlier ++ source :: later →
      (∀ other ∈ earlier, other.stores = none) →
      source.stores = some launches →
        (ingestLaunches stamp now schedule sources).raised = none ∧
        (ingestLaunches stamp now schedule sources).fetched =
          (earlier.filter Source.configured).map Source.providerId ++
            [source.providerId] ∧
        Replaced now launches schedule
          (ingestLaunches stamp now schedule sources).schedule ∧
        ∀ prior id row,
          (ingestLaunches stamp now schedule sources).schedule.find id =
            some row → row.ahead now = true →
          ∃ other, (ingestLaunches stamp now prior sources).schedule.find id =
            some other ∧ other.ahead now = true ∧ SameListing other row) ∧
    ((∀ source ∈ sources, source.stores = none) →
      (ingestLaunches stamp now schedule sources).schedule = schedule ∧
      (ingestLaunches stamp now schedule sources).published = none ∧
      (ingestLaunches stamp now schedule sources).raised.isSome) := by
  constructor
  · intro earlier source later launches hsources hnone hstores
    have hrun : ∀ prior : Schedule,
        (ingestLaunches stamp now prior sources).raised = none ∧
        (ingestLaunches stamp now prior sources).fetched =
          (earlier.filter Source.configured).map Source.providerId ++
            [source.providerId] ∧
        Replaced now launches prior
          (ingestLaunches stamp now prior sources).schedule := by
      intro prior
      obtain ⟨failures, health, hloop⟩ := ingestFrom_append stamp now prior
        hnone (source :: later) [] [] []
      obtain ⟨hconfigured, replaced, hreplaced, hattempt⟩ :=
        attempt_of_stores stamp now prior hstores
      rw [ingestLaunches, hsources, hloop, ingestFrom, hconfigured,
        if_pos rfl, hattempt]
      refine ⟨rfl, ?_, replaced_of_replaceUpcomingLaunches hreplaced⟩
      rw [List.nil_append]
    obtain ⟨hraised, hfetched, hreplaced⟩ := hrun schedule
    refine ⟨hraised, hfetched, hreplaced, fun prior id row hrow hahead => ?_⟩
    exact hreplaced.independent (hrun prior).2.2 hrow hahead
  · intro hnone
    obtain ⟨failures, health, hloop⟩ := ingestFrom_append stamp now schedule
      hnone [] [] [] []
    rw [List.append_nil] at hloop
    rw [ingestLaunches, hloop]
    exact ⟨rfl, rfl, rfl⟩

/-! ## A switch of sources -/

/-- A launch of which only the id, the window and the provider matter. -/
def plainLaunch (id : String) (windowStart : Instant) (provider : String) :
    UpcomingLaunch :=
  ⟨id, "Launch " ++ id, none, windowStart, none, provider, none, none, none,
    none, none, none, none, none, none⟩

/-- A past launch, a launch that the new payload lists and one that it
drops. -/
def oldSchedule : Schedule :=
  ⟨[(plainLaunch "past" 5 "the-space-devs").row 0,
    (plainLaunch "kept" 20 "the-space-devs").row 0,
    (plainLaunch "dropped" 30 "the-space-devs").row 0], by decide⟩

def switchedSources : List Source :=
  [⟨"the-space-devs", true, .raises "ProviderUnavailableError: no route",
      false, ""⟩,
    ⟨"rocketlaunch-live", true,
      .returns [plainLaunch "kept" 25 "rocketlaunch-live",
        plainLaunch "new" 40 "rocketlaunch-live"], false, ""⟩]

theorem switched_sources_replaced :
    Replaced 10 [plainLaunch "kept" 25 "rocketlaunch-live",
        plainLaunch "new" 40 "rocketlaunch-live"] oldSchedule
      (ingestLaunches 9 10 oldSchedule switchedSources).schedule ∧
    (ingestLaunches 9 10 oldSchedule switchedSources).schedule.rows.map
        (fun row => (row.id, row.windowStart, row.provider)) =
      [("past", some 5, some "the-space-devs"),
        ("kept", some 25, some "the-space-devs"),
        ("new", some 40, some "rocketlaunch-live")] := by
  constructor
  · exact ((ingest_launches_spec 9 10 oldSchedule switchedSources).1
      [⟨"the-space-devs", true, .raises "ProviderUnavailableError: no route",
        false, ""⟩] _ [] _ rfl (by decide) (by decide)).2.2.1
  · decide +kernel

end UTTG.Launches
