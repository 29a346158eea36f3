import UTTG.Core.Selection
import UTTG.Ingestion.LaunchHistory

/-!
# The launch endpoints

`get_launches_upcoming`, `get_launches`, `get_launch`, `next_launch` and
`launch_calendar` over the schedule.  Whatever the launch jobs did before, the
first, fourth and fifth answer from the payload stored last, and the others from
the launches that are remembered.
-/

namespace UTTG.Launches

open Selection UTTG.Transition

/-- `LaunchResponse`. -/
structure LaunchResponse where
  id : String
  name : String
  status : Option String
  windowStart : Option Instant
  windowEnd : Option Instant
  provider : Option String
  operator : Option String
  vehicle : Option String
  pad : Option String
  location : Option String
  latitude : Option ℚ
  longitude : Option ℚ
  missionDescription : Option String
  weatherSummary : Option String
  infoUrl : Option String
  deriving DecidableEq, Inhabited

/-- `LaunchResponse.model_validate`. -/
def Launch.response (row : Launch) : LaunchResponse where
  id := row.id
  name := row.name
  status := row.status
  windowStart := row.windowStart
  windowEnd := row.windowEnd
  provider := row.provider
  operator := row.operator
  vehicle := row.vehicle
  pad := row.pad
  location := row.location
  latitude := row.latitude
  longitude := row.longitude
  missionDescription := row.missionDescription
  weatherSummary := row.weatherSummary
  infoUrl := row.infoUrl

/-- What is shown of a launch under the name of a provider. -/
def UpcomingLaunch.response (launch : UpcomingLaunch) (provider : String) :
    LaunchResponse :=
  { (launch.row 0).response with provider := some provider }

/-- `ORDER BY window_start`, where a missing one comes last. -/
def ascending (windowStart : Option Instant) : WithTop Instant :=
  windowStart.elim ⊤ WithTop.some

/-- `ORDER BY window_start DESC`, where a missing one comes first. -/
def descending (windowStart : Option Instant) : (WithTop Instant)ᵒᵈ :=
  OrderDual.toDual (ascending windowStart)

/-! ## The statements -/

/-- `Launch.window_start > now`. -/
def isUpcoming (now : Instant) (windowStart : Option Instant) : Bool :=
  windowStart.any fun start => now < start

/-- `Launch.window_start >= now`. -/
def isNext (now : Instant) (windowStart : Option Instant) : Bool :=
  windowStart.any fun start => now ≤ start

/-- `timedelta(days=days)`. -/
def daysSpan (days : ℕ) : ℤ := days * 86400 * 10 ^ 6

/-- `Launch.window_start >= start, Launch.window_start < end`. -/
def inDays (start : Instant) (days : ℕ) (windowStart : Option Instant) :
    Bool :=
  windowStart.any fun begin => start ≤ begin && begin < start + daysSpan days

/-- The data of `get_launches_upcoming`. -/
def GetLaunchesUpcoming (limit : ℕ) (now : Instant) (schedule : Schedule)
    (data : List LaunchResponse) : Prop :=
  ∃ rows, Answers (fun row : Launch => ascending row.windowStart)
      (fun row => isUpcoming now row.windowStart) limit schedule.rows rows ∧
    data = rows.map Launch.response

/-- The data of `get_launches`. -/
def GetLaunches (limit : ℕ) (schedule : Schedule)
    (data : List LaunchResponse) : Prop :=
  ∃ rows, Answers (fun row : Launch => descending row.windowStart)
      (fun _ => true) limit schedule.rows rows ∧
    data = rows.map Launch.response

/-- The data of `get_launch`, or the 404. -/
def getLaunch (launchId : String) (schedule : Schedule) :
    Option LaunchResponse :=
  (schedule.find launchId).map Launch.response

/-- The data of `next_launch`, or the 404. -/
def NextLaunch (now : Instant) (schedule : Schedule)
    (data : Option LaunchResponse) : Prop :=
  ∃ rows, Answers (fun row : Launch => ascending row.windowStart)
      (fun row => isNext now row.windowStart) 1 schedule.rows rows ∧
    data = rows.head?.map Launch.response

/-- An entry of the calendar. -/
structure CalendarEntry where
  id : String
  name : String
  status : Option String
  windowStart : Option Instant
  deriving DecidableEq

def LaunchResponse.calendarEntry (response : LaunchResponse) : CalendarEntry :=
  ⟨response.id, response.name, response.status, response.windowStart⟩

def calendarLimit : ℕ := 1000

/-- The data of `launch_calendar`. -/
def LaunchCalendar (days : ℕ) (start : Instant) (schedule : Schedule)
    (data : List CalendarEntry) : Prop :=
  ∃ rows, Answers (fun row : Launch => ascending row.windowStart)
      (fun row => inDays start days row.windowStart) calendarLimit
      schedule.rows rows ∧
    data = rows.map fun row => row.response.calendarEntry

/-! ## What is shown of a launch -/

/-- The launch under the provider that inserted it. -/
def ShownAs (stored : List Payload) (launch : UpcomingLaunch)
    (response : LaunchResponse) : Prop :=
  ∃ provider, InsertedBy stored launch.id provider ∧
    response = launch.response provider

/-- What `launches` and their responses have to do with each other. -/
def ShownList (stored : List Payload) (launches : List UpcomingLaunch)
    (responses : List LaunchResponse) : Prop :=
  List.Forall₂ (ShownAs stored) launches responses

theorem shownAs_of_shows {stored : List Payload} {launch : UpcomingLaunch}
    {row : Launch} (hshows : Shows stored launch row) :
    ShownAs stored launch row.response := by
  obtain ⟨⟨hid, hlisted⟩, provider, hprovider, hinserted⟩ := hshows
  refine ⟨provider, hinserted, ?_⟩
  rw [← hlisted]
  simp only [Launch.response, UpcomingLaunch.setOn, UpcomingLaunch.response,
    UpcomingLaunch.row, hid, hprovider]

theorem ShownAs.windowStart {stored : List Payload} {launch : UpcomingLaunch}
    {response : LaunchResponse} (hshown : ShownAs stored launch response) :
    response.windowStart = some launch.windowStart := by
  obtain ⟨provider, -, rfl⟩ := hshown
  rfl

theorem ShownAs.id {stored : List Payload} {launch : UpcomingLaunch}
    {response : LaunchResponse} (hshown : ShownAs stored launch response) :
    response.id = launch.id := by
  obtain ⟨provider, -, rfl⟩ := hshown
  rfl

theorem remembers_of_latest {history : History} {launch : UpcomingLaunch}
    (hmem : launch ∈ history.latest) : Remembers history.stored launch := by
  unfold History.latest at hmem
  cases hstored : history.stored with
  | nil => simp [hstored] at hmem
  | cons payload earlier =>
      rw [hstored] at hmem
      exact remembers_cons.mpr (.inl hmem)

section Answered

variable {history : History}

/-- A remembered launch is answered as it is shown. -/
theorem Recorded.exists_response (hrec : Recorded history)
    {launch : UpcomingLaunch} (hremembers : Remembers history.stored launch) :
    ∃ response, getLaunch launch.id history.schedule = some response ∧
      ShownAs history.stored launch response := by
  obtain ⟨row, hrow, hshows⟩ := hrec.shown launch hremembers
  exact ⟨row.response, by rw [getLaunch, hrow]; rfl, shownAs_of_shows hshows⟩

/-- Every row is answered as a remembered launch. -/
theorem Recorded.exists_remembered (hrec : Recorded history) {row : Launch}
    (hmem : row ∈ history.schedule.rows) :
    ∃ launch, Remembers history.stored launch ∧ launch.id = row.id ∧
      ShownAs history.stored launch row.response := by
  obtain ⟨launch, hremembers, hid⟩ := hrec.remembered row hmem
  obtain ⟨found, hfound, hshows⟩ := hrec.shown launch hremembers
  obtain ⟨hfoundMem, hfoundId⟩ := (Table.find_eq_some_iff _ _ _).mp hfound
  obtain rfl : found = row :=
    history.schedule.eq_of_mem hfoundMem hmem (hfoundId.trans hid)
  exact ⟨launch, hremembers, hid, shownAs_of_shows hshows⟩

/-- The rows that lie ahead are shown as the launches of the last payload. -/
theorem Recorded.exists_shownList (hrec : Recorded history) :
    ∃ items, ShownList history.stored history.latest items ∧
      ∀ now, history.clock ≤ now → ∀ wanted : Option Instant → Bool,
        (∀ start, wanted start = true → isNext now start = true) →
        ((history.schedule.rows.filter fun row => wanted row.windowStart).map
          Launch.response).Perm
            (items.filter fun item => wanted item.windowStart) := by
  have hshown : ∀ launch ∈ history.latest, ∃ response,
      getLaunch launch.id history.schedule = some response ∧
        ShownAs history.stored launch response := fun launch hmem =>
    hrec.exists_response (remembers_of_latest hmem)
  choose! item hitem using hshown
  refine ⟨history.latest.map item, ?_, fun now hnow wanted hwanted => ?_⟩
  · rw [ShownList, List.forall₂_map_right_iff, List.forall₂_same]
    exact fun launch hmem => (hitem launch hmem).2
  have hrows : ((history.schedule.rows.filter fun row =>
      wanted row.windowStart).map Launch.response).Nodup := by
    refine List.Nodup.of_map LaunchResponse.id ?_
    rw [List.map_map]
    exact (List.filter_sublist.map Launch.id).nodup history.schedule.distinct
  have hitems : (history.latest.map item).Nodup := by
    refine List.Nodup.of_map LaunchResponse.id ?_
    have hids : (history.latest.map item).map LaunchResponse.id =
        history.latest.map UpcomingLaunch.id := by
      rw [List.map_map]
      exact List.map_congr_left fun launch hmem => (hitem launch hmem).2.id
    rw [hids]
    exact hrec.latest_distinct
  rw [List.perm_ext_iff_of_nodup hrows (hitems.filter _)]
  intro response
  simp only [List.mem_map, List.mem_filter]
  constructor
  · rintro ⟨row, ⟨hmem, hrow⟩, rfl⟩
    obtain ⟨launch, hremembers, hid, hshownAs⟩ := hrec.exists_remembered hmem
    have hahead : now ≤ launch.windowStart := by
      have hnext := hwanted _ hrow
      have hstart : row.windowStart = some launch.windowStart :=
        hshownAs.windowStart
      rw [hstart] at hnext
      simpa [isNext] using hnext
    have hlatest := (hrec.ahead_iff hnow hahead).mp hremembers
    refine ⟨⟨launch, hlatest, ?_⟩, hrow⟩
    have hfind : history.schedule.find launch.id = some row :=
      (Table.find_eq_some_iff _ _ _).mpr ⟨hmem, hid.symm⟩
    have hget := (hitem launch hlatest).1
    rw [getLaunch, hfind] at hget
    exact (Option.some.inj hget).symm
  · rintro ⟨⟨launch, hmem, rfl⟩, hitemWanted⟩
    obtain ⟨row, hfind, hresponse⟩ :=
      Option.map_eq_some_iff.mp (hitem launch hmem).1
    have hrow := ((Table.find_eq_some_iff _ _ _).mp hfind).1
    refine ⟨row, ⟨hrow, ?_⟩, hresponse⟩
    rw [← hresponse] at hitemWanted
    exact hitemWanted

/-- A launch is answered by its id exactly if it is remembered. -/
theorem Recorded.getLaunch_iff (hrec : Recorded history) (id : String)
    (response : LaunchResponse) :
    getLaunch id history.schedule = some response ↔
      ∃ launch, Remembers history.stored launch ∧ launch.id = id ∧
        ShownAs history.stored launch response := by
  constructor
  · intro hget
    obtain ⟨row, hfind, rfl⟩ := Option.map_eq_some_iff.mp hget
    obtain ⟨hmem, rfl⟩ := (Table.find_eq_some_iff _ _ _).mp hfind
    exact hrec.exists_remembered hmem
  · rintro ⟨launch, hremembers, rfl, provider, hinserted, rfl⟩
    obtain ⟨response, hget, found, hfound, rfl⟩ :=
      hrec.exists_response hremembers
    rw [hget, hinserted.unique hrec.distinct hfound]

end Answered

/-! ## What the endpoints answer -/

/-- The answers at this time are those over the items, which stand for the
launches of the last payload. -/
structure AnswersItems (now : Instant) (schedule : Schedule)
    (items : List LaunchResponse) : Prop where
  upcoming : ∀ limit data, GetLaunchesUpcoming limit now schedule data →
    Answers (fun item => ascending item.windowStart)
      (fun item => isUpcoming now item.windowStart) limit items data
  missing : ∀ data, NextLaunch now schedule data →
    (data = none ↔ ∀ item ∈ items, isNext now item.windowStart = false)
  next : ∀ response, NextLaunch now schedule (some response) →
    response ∈ items ∧ isNext now response.windowStart = true ∧
      ∀ item ∈ items, isNext now item.windowStart = true →
        ascending response.windowStart ≤ ascending item.windowStart
  calendar : ∀ days data, LaunchCalendar days now schedule data →
    ∃ answer, Answers (fun item => ascending item.windowStart)
      (fun item => inDays now days item.windowStart) calendarLimit items
        answer ∧
      data = answer.map LaunchResponse.calendarEntry

theorem isNext_of_isUpcoming {now : Instant} {start : Option Instant}
    (hupcoming : isUpcoming now start = true) : isNext now start = true := by
  simp only [isUpcoming, isNext, Option.any_eq_true,
    decide_eq_true_eq] at hupcoming ⊢
  obtain ⟨begin, hbegin, hlt⟩ := hupcoming
  exact ⟨begin, hbegin, hlt.le⟩

theorem isNext_of_inDays {now : Instant} {days : ℕ} {start : Option Instant}
    (hdays : inDays now days start = true) : isNext now start = true := by
  simp only [inDays, isNext, Option.any_eq_true, Bool.and_eq_true,
    decide_eq_true_eq] at hdays ⊢
  obtain ⟨begin, hbegin, hle, -⟩ := hdays
  exact ⟨begin, hbegin, hle⟩

/-- The first row of an answer with `LIMIT 1`. -/
theorem nextLaunch_answers {now : Instant} {schedule : Schedule}
    {items : List LaunchResponse} {data : Option LaunchResponse}
    (hview : ((schedule.rows.filter fun row => isNext now row.windowStart).map
      Launch.response).Perm
        (items.filter fun item => isNext now item.windowStart))
    (hnext : NextLaunch now schedule data) :
    ∃ answer, Answers (fun item : LaunchResponse => ascending item.windowStart)
        (fun item => isNext now item.windowStart) 1 items answer ∧
      data = answer.head? := by
  obtain ⟨rows, hanswers, rfl⟩ := hnext
  refine ⟨rows.map Launch.response, hanswers.map hview fun _ _ _ => rfl, ?_⟩
  rw [List.head?_map]

/-- In every run of launch jobs, from the last job on, the upcoming launches,
the next launch and the calendar are answered from the launches of the payload
stored last, each as it was listed, under the provider that inserted it. -/
theorem latest_launches_answered {history : History}
    (hreach : launchJobs.Reachable history) :
    ∃ items, ShownList history.stored history.latest items ∧
      ∀ now, history.clock ≤ now →
        AnswersItems now history.schedule items := by
  obtain ⟨items, hshown, hview⟩ := (recorded hreach).exists_shownList
  refine ⟨items, hshown, fun now hnow => ?_⟩
  have hviewNext := hview now hnow (isNext now) fun _ => id
  refine ⟨?_, ?_, ?_, ?_⟩
  · rintro limit data ⟨rows, hanswers, rfl⟩
    exact hanswers.map (hview now hnow (isUpcoming now)
      fun _ => isNext_of_isUpcoming) fun _ _ _ => rfl
  · intro data hdata
    obtain ⟨answer, hanswers, rfl⟩ := nextLaunch_answers hviewNext hdata
    rw [List.head?_eq_none_iff]
    exact hanswers.eq_nil_iff one_pos
  · intro response hdata
    obtain ⟨answer, hanswers, hhead⟩ := nextLaunch_answers hviewNext hdata
    obtain ⟨rest, rfl⟩ := List.head?_eq_some_iff.mp hhead.symm
    obtain ⟨hmem, hselected⟩ := hanswers.mem List.mem_cons_self
    refine ⟨hmem, hselected, fun item hitem hitemNext => ?_⟩
    by_cases hin : item ∈ response :: rest
    · obtain rfl | hrest := List.mem_cons.mp hin
      · exact le_rfl
      · exact (List.pairwise_cons.mp hanswers.ascending).1 item hrest
    · exact hanswers.least List.mem_cons_self hitem hitemNext hin
  · rintro days data ⟨rows, hanswers, rfl⟩
    refine ⟨rows.map Launch.response, hanswers.map (hview now hnow
      (inDays now days) fun _ => isNext_of_inDays) fun _ _ _ => rfl, ?_⟩
    rw [List.map_map]
    rfl

/-- No launch has been stored yet. -/
def noLaunches : History := ⟨Table.empty, [], 0⟩

/-- The first payload comes from the first source and the second one, when that
source fails, from another source. -/
def switchedJobs : List Job :=
  [⟨1, 1, [⟨"the-space-devs", true,
      .returns [plainLaunch "flown" 5 "the-space-devs",
        plainLaunch "kept" 20 "the-space-devs",
        plainLaunch "dropped" 30 "the-space-devs"], false, ""⟩]⟩,
    ⟨9, 10, switchedSources⟩]

theorem switched_launches_answered :
    ∃ history ∈ launchJobs.run noLaunches switchedJobs,
      history.latest.map UpcomingLaunch.id = ["kept", "new"] ∧
      ∃ items, ShownList history.stored history.latest items ∧
        ∀ now, history.clock ≤ now →
          AnswersItems now history.schedule items := by
  obtain ⟨history, hrun, hlatest⟩ :
      ∃ history ∈ launchJobs.run noLaunches switchedJobs,
        history.latest.map UpcomingLaunch.id = ["kept", "new"] := by
    decide +kernel
  exact ⟨history, hrun, hlatest, latest_launches_answered
    (System.reachable_of_run ⟨rfl, rfl⟩ hrun)⟩

/-- In every run of launch jobs a launch is answered by its id exactly if it is
remembered: it was listed, and every later payload that was stored did not list
it and came after its window had begun.  The list of all launches has the latest
of the remembered ones. -/
theorem launches_remembered {history : History}
    (hreach : launchJobs.Reachable history) :
    (∀ id response, getLaunch id history.schedule = some response ↔
      ∃ launch, Remembers history.stored launch ∧ launch.id = id ∧
        ShownAs history.stored launch response) ∧
    ∀ limit data, GetLaunches limit history.schedule data →
      data.length = min limit history.schedule.rows.length ∧
      (data.map LaunchResponse.id).Nodup ∧
      (data.Pairwise fun left right =>
        descending left.windowStart ≤ descending right.windowStart) ∧
      (∀ response ∈ data, ∃ launch, Remembers history.stored launch ∧
        ShownAs history.stored launch response) ∧
      ∀ launch, Remembers history.stored launch →
        launch.id ∈ data.map LaunchResponse.id ∨
          ∀ response ∈ data, descending response.windowStart ≤
            descending (some launch.windowStart) := by
  have hrec := recorded hreach
  refine ⟨hrec.getLaunch_iff, ?_⟩
  rintro limit data ⟨rows, hanswers, rfl⟩
  refine ⟨?_, ?_, ?_, ?_, ?_⟩
  · rw [List.length_map, hanswers.length_eq, List.countP_true]
  · rw [List.map_map]
    exact hanswers.nodup_map history.schedule.distinct
  · rw [List.pairwise_map]
    exact hanswers.ascending
  · intro response hresponse
    obtain ⟨row, hrow, rfl⟩ := List.mem_map.mp hresponse
    obtain ⟨launch, hremembers, -, hshown⟩ :=
      hrec.exists_remembered (hanswers.mem hrow).1
    exact ⟨launch, hremembers, hshown⟩
  · intro launch hremembers
    obtain ⟨found, hfound, hshows⟩ := hrec.shown launch hremembers
    obtain ⟨hmem, hid⟩ := (Table.find_eq_some_iff _ _ _).mp hfound
    have hstart : found.windowStart = some launch.windowStart :=
      (shownAs_of_shows hshows).windowStart
    by_cases hin : found ∈ rows
    · left
      rw [List.map_map, ← hid]
      exact List.mem_map_of_mem (f := LaunchResponse.id ∘ Launch.response) hin
    · right
      intro response hresponse
      obtain ⟨row, hrow, rfl⟩ := List.mem_map.mp hresponse
      rw [← hstart]
      exact hanswers.least hrow hmem rfl hin

/-- The launch that had flown is still answered, the dropped one is not, and the
one that both sources list is answered under the first one. -/
theorem switched_launches_remembered :
    ∃ history ∈ launchJobs.run noLaunches switchedJobs,
      (getLaunch "dropped" history.schedule = none ∧
        (getLaunch "kept" history.schedule).map LaunchResponse.provider =
          some (some "the-space-devs")) ∧
      ∃ response, getLaunch "flown" history.schedule = some response ∧
        ∃ launch, Remembers history.stored launch ∧ launch.id = "flown" ∧
          ShownAs history.stored launch response := by
  obtain ⟨history, hrun, hanswered, hflown⟩ :
      ∃ history ∈ launchJobs.run noLaunches switchedJobs,
        (getLaunch "dropped" history.schedule = none ∧
          (getLaunch "kept" history.schedule).map LaunchResponse.provider =
            some (some "the-space-devs")) ∧
        (getLaunch "flown" history.schedule).isSome = true := by
    decide +kernel
  obtain ⟨response, hresponse⟩ := Option.isSome_iff_exists.mp hflown
  exact ⟨history, hrun, hanswered, response, hresponse,
    ((launches_remembered (System.reachable_of_run ⟨rfl, rfl⟩ hrun)).1 "flown"
      response).mp hresponse⟩

end UTTG.Launches
