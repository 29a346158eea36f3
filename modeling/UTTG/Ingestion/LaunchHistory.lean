import UTTG.Core.Transition
import UTTG.Ingestion.Launches

/-!
# The launch schedule over time

The launch job runs again and again, at any times that do not go back and with
any outcomes of its sources.  What the schedule holds is then a function of the
payloads that were stored: a launch is there, as it was listed last, exactly if
no later payload listed it and every later one was stored after its window had
begun.  Only its provider comes from the payload that inserted the row.
-/

namespace UTTG.Launches

open UTTG.Transition

/-- A payload that was stored, and the time of the delete. -/
structure Payload where
  now : Instant
  launches : List UpcomingLaunch
  deriving DecidableEq

def Payload.ids (payload : Payload) : List String :=
  payload.launches.map UpcomingLaunch.id

/-- The schedule, the payloads stored so far with the latest one first, and the
time of the last job. -/
structure History where
  schedule : Schedule
  stored : List Payload
  clock : Instant

/-- A run of `_ingest_launches`. -/
structure Job where
  stamp : Instant
  now : Instant
  sources : List Source

/-- What the run stores: the payload of the first source that can be stored. -/
def Job.payload (job : Job) : Option Payload :=
  (job.sources.findSome? Source.stores).map fun launches =>
    ⟨job.now, launches⟩

/-- The jobs of all schedulers, one after the other as the slot of the job
admits them. -/
def launchJobs : System History Job where
  Init history := history.schedule = Table.empty ∧ history.stored = []
  step history job :=
    if history.clock ≤ job.now then
      some ⟨(ingestLaunches job.stamp job.now history.schedule
          job.sources).schedule,
        job.payload.toList ++ history.stored, job.now⟩
    else none

/-- The launches of the payload stored last. -/
def History.latest (history : History) : List UpcomingLaunch :=
  (history.stored.head?.map Payload.launches).getD []

/-- The launch as it was listed last, unless a later payload was stored without
it before its window began. -/
def Remembers (stored : List Payload) (launch : UpcomingLaunch) : Prop :=
  ∃ later payload earlier, stored = later ++ payload :: earlier ∧
    launch ∈ payload.launches ∧
    ∀ other ∈ later, launch.id ∉ other.ids ∧ launch.windowStart < other.now

/-- Some launch with this id is remembered. -/
def Present (stored : List Payload) (id : String) : Prop :=
  ∃ launch, Remembers stored launch ∧ launch.id = id

/-- The provider of the payload that inserted the row: the id was absent before
and has been present ever since. -/
def InsertedBy (stored : List Payload) (id provider : String) : Prop :=
  ∃ later payload earlier, stored = later ++ payload :: earlier ∧
    (∃ launch ∈ payload.launches, launch.id = id ∧
      launch.provider = provider) ∧
    ¬Present earlier id ∧
    ∀ recent, recent <:+ later → Present (recent ++ payload :: earlier) id

/-! ## What a job stores -/

/-- A job without a payload leaves the schedule as it is. -/
theorem ingestLaunches_of_none {job : Job} (hpayload : job.payload = none)
    (schedule : Schedule) :
    (ingestLaunches job.stamp job.now schedule job.sources).schedule =
      schedule := by
  have hnone := List.findSome?_eq_none_iff.mp (Option.map_eq_none_iff.mp hpayload)
  obtain ⟨failures, health, hloop⟩ := ingestFrom_append job.stamp job.now
    schedule hnone [] [] [] []
  rw [List.append_nil] at hloop
  rw [ingestLaunches, hloop]
  rfl

/-- A job stores the payload of the first source that can be stored. -/
theorem ingestLaunches_of_some {job : Job} {payload : Payload}
    (hpayload : job.payload = some payload) (schedule : Schedule) :
    payload.now = job.now ∧
      replaceUpcomingLaunches job.stamp job.now payload.launches schedule =
        some (ingestLaunches job.stamp job.now schedule
          job.sources).schedule := by
  obtain ⟨launches, hfirst, rfl⟩ := Option.map_eq_some_iff.mp hpayload
  obtain ⟨earlier, source, later, hsources, hstores, hnone⟩ :=
    List.findSome?_eq_some_iff.mp hfirst
  obtain ⟨failures, health, hloop⟩ := ingestFrom_append job.stamp job.now
    schedule hnone (source :: later) [] [] []
  obtain ⟨hconfigured, replaced, hreplaced, hattempt⟩ :=
    attempt_of_stores job.stamp job.now schedule hstores
  refine ⟨rfl, hreplaced.trans ?_⟩
  rw [ingestLaunches, hsources, hloop, ingestFrom, hconfigured, if_pos rfl,
    hattempt]

/-- What a step of the history did. -/
theorem launchJobs_step {history next : History} {job : Job}
    (hstep : launchJobs.step history job = some next) :
    history.clock ≤ next.clock ∧
      ((next.schedule = history.schedule ∧ next.stored = history.stored) ∨
        ∃ launches, next.stored = ⟨next.clock, launches⟩ :: history.stored ∧
          replaceUpcomingLaunches job.stamp next.clock launches
            history.schedule = some next.schedule) := by
  simp only [launchJobs, Option.ite_none_right_eq_some,
    Option.some.injEq] at hstep
  obtain ⟨hclock, rfl⟩ := hstep
  refine ⟨hclock, ?_⟩
  cases hpayload : job.payload with
  | none => exact .inl ⟨ingestLaunches_of_none hpayload history.schedule, rfl⟩
  | some payload =>
      obtain ⟨hnow, hreplace⟩ :=
        ingestLaunches_of_some hpayload history.schedule
      refine .inr ⟨payload.launches, ?_, hreplace⟩
      change [payload] ++ history.stored = ⟨job.now, _⟩ :: history.stored
      rw [← hnow]
      rfl

/-! ## Memory, one payload at a time -/

/-- The last payload decides for the launches that it lists, and drops the
others that lie ahead. -/
theorem remembers_cons {payload : Payload} {stored : List Payload}
    {launch : UpcomingLaunch} :
    Remembers (payload :: stored) launch ↔
      launch ∈ payload.launches ∨
        (launch.id ∉ payload.ids ∧ launch.windowStart < payload.now ∧
          Remembers stored launch) := by
  constructor
  · rintro ⟨later, last, earlier, hstored, hmem, hlater⟩
    cases later with
    | nil =>
        obtain ⟨rfl, rfl⟩ := List.cons.inj hstored
        exact .inl hmem
    | cons first rest =>
        obtain ⟨rfl, rfl⟩ := List.cons.inj hstored
        obtain ⟨hunlisted, hbegun⟩ := hlater payload List.mem_cons_self
        exact .inr ⟨hunlisted, hbegun, rest, last, earlier, rfl, hmem,
          fun other hother => hlater other (List.mem_cons_of_mem _ hother)⟩
  · rintro (hmem | ⟨hunlisted, hbegun, later, last, earlier, rfl, hmem, hlater⟩)
    · exact ⟨[], payload, stored, rfl, hmem, by simp⟩
    · exact ⟨payload :: later, last, earlier, rfl, hmem,
        List.forall_mem_cons.mpr ⟨⟨hunlisted, hbegun⟩, hlater⟩⟩

theorem not_remembers_nil (launch : UpcomingLaunch) : ¬Remembers [] launch := by
  rintro ⟨later, payload, earlier, hstored, -, -⟩
  simp at hstored

/-- The provider stays while the id is present. -/
theorem InsertedBy.cons {stored : List Payload} {id provider : String}
    (hinserted : InsertedBy stored id provider) {payload : Payload}
    (hpresent : Present (payload :: stored) id) :
    InsertedBy (payload :: stored) id provider := by
  obtain ⟨later, first, earlier, rfl, hlisted, habsent, hsince⟩ := hinserted
  refine ⟨payload :: later, first, earlier, rfl, hlisted, habsent, ?_⟩
  intro recent hrecent
  obtain rfl | hsuffix := List.suffix_cons_iff.mp hrecent
  · exact hpresent
  · exact hsince recent hsuffix

theorem insertedBy_of_absent {stored : List Payload} {payload : Payload}
    {launch : UpcomingLaunch} (hmem : launch ∈ payload.launches)
    (habsent : ¬Present stored launch.id) :
    InsertedBy (payload :: stored) launch.id launch.provider := by
  refine ⟨[], payload, stored, rfl, ⟨launch, hmem, rfl, rfl⟩, habsent, ?_⟩
  intro recent hrecent
  obtain rfl := List.suffix_nil.mp hrecent
  exact ⟨launch, remembers_cons.mpr (.inl hmem), rfl⟩

/-! ## The schedule and the memory -/

/-- The row shows the launch as it was listed last, under the provider that
inserted it. -/
structure Shows (stored : List Payload) (launch : UpcomingLaunch)
    (row : Launch) : Prop where
  listed : launch.Listed row
  provider : ∃ provider, row.provider = some provider ∧
    InsertedBy stored launch.id provider

/-- The schedule is what the stored payloads make of it. -/
structure Recorded (history : History) : Prop where
  before : ∀ payload ∈ history.stored, payload.now ≤ history.clock
  distinct : ∀ payload ∈ history.stored, payload.ids.Nodup
  shown : ∀ launch, Remembers history.stored launch →
    ∃ row, history.schedule.find launch.id = some row ∧
      Shows history.stored launch row
  remembered : ∀ row ∈ history.schedule.rows,
    ∃ launch, Remembers history.stored launch ∧ launch.id = row.id

theorem recorded_init {history : History} (hinit : launchJobs.Init history) :
    Recorded history := by
  obtain ⟨hschedule, hstored⟩ := hinit
  constructor
  · simp [hstored]
  · simp [hstored]
  · intro launch hremembers
    rw [hstored] at hremembers
    exact absurd hremembers (not_remembers_nil launch)
  · simp [hschedule, Table.empty]

/-- Each id is present exactly if there is a row for it. -/
theorem Recorded.present_iff {history : History} (hrec : Recorded history)
    (id : String) : Present history.stored id ↔
      ∃ row, history.schedule.find id = some row := by
  constructor
  · rintro ⟨launch, hremembers, rfl⟩
    obtain ⟨row, hrow, -⟩ := hrec.shown launch hremembers
    exact ⟨row, hrow⟩
  · rintro ⟨row, hrow⟩
    obtain ⟨hmem, rfl⟩ := (Table.find_eq_some_iff _ _ _).mp hrow
    exact hrec.remembered row hmem

section Step

variable {history next : History} {stamp : Instant}
  {launches : List UpcomingLaunch}

/-- A listed launch is shown after its payload has been stored. -/
theorem Recorded.shows_listed (hrec : Recorded history)
    (hstored : next.stored = ⟨next.clock, launches⟩ :: history.stored)
    (hreplace : replaceUpcomingLaunches stamp next.clock launches
      history.schedule = some next.schedule)
    {launch : UpcomingLaunch} (hmem : launch ∈ launches) :
    ∃ row, next.schedule.find launch.id = some row ∧
      Shows next.stored launch row := by
  refine ⟨_, find_listed hreplace hmem, ?_⟩
  rw [hstored]
  cases hfind : history.schedule.find launch.id with
  | none =>
      refine ⟨⟨rfl, setOn_row stamp launch⟩, launch.provider, rfl, ?_⟩
      refine insertedBy_of_absent hmem fun hpresent => ?_
      obtain ⟨row, hrow⟩ := (hrec.present_iff launch.id).mp hpresent
      simp [hfind] at hrow
  | some old =>
      have hid : old.id = launch.id :=
        ((Table.find_eq_some_iff _ _ _).mp hfind).2
      refine ⟨⟨hid, setOn_setOn launch old⟩, ?_⟩
      obtain ⟨earlier, hremembers, hearlier⟩ :=
        (hrec.present_iff launch.id).mpr ⟨old, hfind⟩
      obtain ⟨row, hrow, hshows⟩ := hrec.shown earlier hremembers
      obtain rfl : old = row := by
        rw [hearlier, hfind] at hrow
        exact Option.some.inj hrow
      obtain ⟨provider, hprovider, hinserted⟩ := hshows.provider
      rw [hearlier] at hinserted
      exact ⟨provider, hprovider, hinserted.cons
        ⟨launch, remembers_cons.mpr (.inl hmem), rfl⟩⟩

/-- A payload leaves an unlisted launch whose window has begun. -/
theorem Recorded.shows_unlisted (hrec : Recorded history)
    (hstored : next.stored = ⟨next.clock, launches⟩ :: history.stored)
    (hreplace : replaceUpcomingLaunches stamp next.clock launches
      history.schedule = some next.schedule)
    {launch : UpcomingLaunch}
    (hunlisted : launch.id ∉ launches.map UpcomingLaunch.id)
    (hbegun : launch.windowStart < next.clock)
    (hremembers : Remembers history.stored launch) :
    ∃ row, next.schedule.find launch.id = some row ∧
      Shows next.stored launch row := by
  obtain ⟨row, hrow, hshows⟩ := hrec.shown launch hremembers
  have hpast : row.ahead next.clock = false := by
    rw [← hshows.listed.2, Bool.eq_false_iff, ne_eq, ahead_setOn]
    exact not_le.mpr hbegun
  refine ⟨row, ?_, hshows.listed, ?_⟩
  · rw [find_unlisted hreplace hunlisted, hrow, Option.filter_some,
      if_pos (by rw [hpast]; rfl)]
  · obtain ⟨provider, hprovider, hinserted⟩ := hshows.provider
    rw [hstored]
    exact ⟨provider, hprovider, hinserted.cons ⟨launch,
      remembers_cons.mpr (.inr ⟨hunlisted, hbegun, hremembers⟩), rfl⟩⟩

/-- Every row after a payload is listed or has been remembered on. -/
theorem Recorded.remembered_next (hrec : Recorded history)
    (hstored : next.stored = ⟨next.clock, launches⟩ :: history.stored)
    (hreplace : replaceUpcomingLaunches stamp next.clock launches
      history.schedule = some next.schedule)
    {row : Launch} (hmem : row ∈ next.schedule.rows) :
    ∃ launch, Remembers next.stored launch ∧ launch.id = row.id := by
  have hfind : next.schedule.find row.id = some row :=
    (Table.find_eq_some_iff _ _ _).mpr ⟨hmem, rfl⟩
  rw [hstored]
  by_cases hlisted : row.id ∈ launches.map UpcomingLaunch.id
  · obtain ⟨launch, hlaunch, hid⟩ := List.mem_map.mp hlisted
    exact ⟨launch, remembers_cons.mpr (.inl hlaunch), hid⟩
  · rw [find_unlisted hreplace hlisted, Option.filter_eq_some_iff] at hfind
    obtain ⟨hold, hpast⟩ := hfind
    obtain ⟨launch, hremembers, hid⟩ := hrec.remembered row
      ((Table.find_eq_some_iff _ _ _).mp hold).1
    obtain ⟨shown, hshown, hshows⟩ := hrec.shown launch hremembers
    obtain rfl : shown = row := by
      rw [hid, hold] at hshown
      exact (Option.some.inj hshown).symm
    refine ⟨launch, remembers_cons.mpr (.inr ⟨?_, ?_, hremembers⟩), hid⟩
    · rw [hid]
      exact hlisted
    · rw [← hshows.listed.2, Bool.not_eq_true', Bool.eq_false_iff, ne_eq,
        ahead_setOn, not_le] at hpast
      exact hpast

end Step

/-- A job keeps the schedule what the payloads make of it. -/
theorem Recorded.step {history next : History} {job : Job}
    (hrec : Recorded history)
    (hstep : launchJobs.step history job = some next) : Recorded next := by
  obtain ⟨hclock, ⟨hschedule, hstored⟩ | ⟨launches, hstored, hreplace⟩⟩ :=
    launchJobs_step hstep
  · refine ⟨?_, ?_, ?_, ?_⟩
    · rw [hstored]
      exact fun payload hpayload =>
        (hrec.before payload hpayload).trans hclock
    · rw [hstored]
      exact hrec.distinct
    · rw [hschedule, hstored]
      exact hrec.shown
    · rw [hschedule, hstored]
      exact hrec.remembered
  · refine ⟨?_, ?_, ?_, ?_⟩
    · rw [hstored, List.forall_mem_cons]
      exact ⟨le_rfl, fun payload hpayload =>
        (hrec.before payload hpayload).trans hclock⟩
    · rw [hstored, List.forall_mem_cons]
      exact ⟨(replaceUpcomingLaunches_eq hreplace).1, hrec.distinct⟩
    · intro launch hremembers
      rw [hstored, remembers_cons] at hremembers
      obtain hmem | ⟨hunlisted, hbegun, hearlier⟩ := hremembers
      · exact hrec.shows_listed hstored hreplace hmem
      · exact hrec.shows_unlisted hstored hreplace hunlisted hbegun hearlier
    · exact fun row hmem => hrec.remembered_next hstored hreplace hmem

/-- In every run the schedule is what the stored payloads make of it. -/
theorem recorded {history : History} (hreach : launchJobs.Reachable history) :
    Recorded history :=
  System.Reachable.invariant Recorded (fun _ => recorded_init)
    (fun _ _ _ hrec hstep => hrec.step hstep) hreach

theorem Recorded.latest_distinct {history : History}
    (hrec : Recorded history) :
    (history.latest.map UpcomingLaunch.id).Nodup := by
  unfold History.latest
  cases hstored : history.stored with
  | nil => exact List.nodup_nil
  | cons payload earlier =>
      exact hrec.distinct payload (by
        rw [hstored]
        exact List.mem_cons_self)

/-- From the last job on, exactly the launches of the last payload lie
ahead. -/
theorem Recorded.ahead_iff {history : History} (hrec : Recorded history)
    {now : Instant} (hnow : history.clock ≤ now) {launch : UpcomingLaunch}
    (hahead : now ≤ launch.windowStart) :
    Remembers history.stored launch ↔ launch ∈ history.latest := by
  unfold History.latest
  cases hstored : history.stored with
  | nil =>
      exact iff_of_false (not_remembers_nil launch) (by simp)
  | cons payload earlier =>
      rw [remembers_cons]
      change _ ↔ launch ∈ payload.launches
      refine or_iff_left fun hdropped => ?_
      have hbefore := hrec.before payload (by
        rw [hstored]
        exact List.mem_cons_self)
      exact absurd (hahead.trans_lt hdropped.2.1)
        (not_lt.mpr (hbefore.trans hnow))

/-! ## One memory of each launch -/

/-- Two places in a history are the same, or one is before the other. -/
theorem stored_split_cases {left right leftEarlier rightEarlier : List Payload}
    {leftPayload rightPayload : Payload}
    (hsplit : left ++ leftPayload :: leftEarlier =
      right ++ rightPayload :: rightEarlier) :
    (leftPayload = rightPayload ∧ leftEarlier = rightEarlier) ∨
      (∃ between, right = left ++ leftPayload :: between ∧
        leftEarlier = between ++ rightPayload :: rightEarlier) ∨
      ∃ between, left = right ++ rightPayload :: between ∧
        rightEarlier = between ++ leftPayload :: leftEarlier := by
  obtain ⟨rest, hright, hrest⟩ | ⟨rest, hleft, hrest⟩ :=
    List.append_eq_append_iff.mp hsplit
  · cases rest with
    | nil =>
        obtain ⟨hpayload, hearlier⟩ := List.cons.inj hrest
        exact .inl ⟨hpayload, hearlier⟩
    | cons first between =>
        obtain ⟨rfl, hearlier⟩ := List.cons.inj hrest
        exact .inr (.inl ⟨between, hright, hearlier⟩)
  · cases rest with
    | nil =>
        obtain ⟨hpayload, hearlier⟩ := List.cons.inj hrest
        exact .inl ⟨hpayload.symm, hearlier.symm⟩
    | cons first between =>
        obtain ⟨rfl, hearlier⟩ := List.cons.inj hrest
        exact .inr (.inr ⟨between, hleft, hearlier⟩)

/-- No payload lists a launch that a later one has taken the place of. -/
theorem Remembers.unique {stored : List Payload}
    (hdistinct : ∀ payload ∈ stored, payload.ids.Nodup)
    {left right : UpcomingLaunch} (hleft : Remembers stored left)
    (hright : Remembers stored right) (hid : left.id = right.id) :
    left = right := by
  obtain ⟨later, payload, earlier, rfl, hmem, hlater⟩ := hleft
  obtain ⟨rightLater, rightPayload, rightEarlier, hsplit, hrightMem,
    hrightLater⟩ := hright
  obtain ⟨rfl, -⟩ | ⟨between, rfl, -⟩ | ⟨between, rfl, -⟩ :=
    stored_split_cases hsplit
  · exact List.inj_on_of_nodup_map (hdistinct payload (by simp)) hmem hrightMem
      hid
  · refine absurd ?_ (hrightLater payload (by simp)).1
    rw [← hid]
    exact List.mem_map_of_mem hmem
  · refine absurd ?_ (hlater rightPayload (by simp)).1
    rw [hid]
    exact List.mem_map_of_mem hrightMem

/-- A payload that inserted an id was not preceded by one that did and has kept
it present. -/
theorem not_insertedBy_between (left : List Payload)
    {between earlier : List Payload} {payload : Payload} {id : String}
    (habsent : ¬Present (between ++ payload :: earlier) id)
    (hsince : ∀ recent, recent <:+ left ++ between →
      Present (recent ++ payload :: earlier) id) : False :=
  habsent (hsince between (List.suffix_append left between))

theorem InsertedBy.unique {stored : List Payload}
    (hdistinct : ∀ payload ∈ stored, payload.ids.Nodup)
    {id left right : String} (hleft : InsertedBy stored id left)
    (hright : InsertedBy stored id right) : left = right := by
  obtain ⟨later, payload, earlier, rfl, ⟨launch, hmem, hid, rfl⟩, habsent,
    hsince⟩ := hleft
  obtain ⟨rightLater, rightPayload, rightEarlier, hsplit,
    ⟨other, hotherMem, hotherId, rfl⟩, hrightAbsent, hrightSince⟩ := hright
  obtain ⟨rfl, -⟩ | ⟨between, rfl, rfl⟩ | ⟨between, rfl, rfl⟩ :=
    stored_split_cases hsplit
  · rw [List.inj_on_of_nodup_map (hdistinct payload (by simp)) hmem hotherMem
      (hid.trans hotherId.symm)]
  · refine (not_insertedBy_between (later ++ [payload]) habsent ?_).elim
    simpa using hrightSince
  · refine (not_insertedBy_between (rightLater ++ [rightPayload])
      hrightAbsent ?_).elim
    simpa using hsince

end UTTG.Launches
