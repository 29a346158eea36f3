import UTTG.Analytics.Aggregate
import UTTG.Cache.Freshness

/-!
# How the outcome of the cache is reported

An endpoint that reads its data through `cached` leaves the state of the outcome
in the state of the request.  `PrometheusMiddleware` puts it into the header
`X-Cache-State` and counts a hit or a miss, `RequestAnalyticsMiddleware` records
it for `cache_hit_count`.  `build_meta` says "fresh" with age 0, which only two of
the endpoints replace by the outcome.
-/

namespace UTTG.Api.CacheReports

open Python UTTG.Cache UTTG.Transition UTTG.Analytics

/-! ## What a request reports -/

/-- The states of an outcome. -/
inductive Label where
  | fresh
  | stale
  | miss
  deriving DecidableEq

def Label.text : Label → Text
  | fresh => Python.text "fresh"
  | stale => Python.text "stale"
  | miss => Python.text "miss"

/-- The second element of what `cached` returns, as a state. -/
def ofFreshness : Freshness → Label
  | .fresh => .fresh
  | .stale => .stale

/-- The counters of `PrometheusMiddleware`. -/
inductive Counter where
  | hit
  | miss
  deriving DecidableEq

/-- Where a request tells the outcome: the header, `meta.freshness` with its age,
the counter, and `cache_state` in the metric of the request. -/
structure Report where
  header : Option Label
  freshness : Option (Label × ℤ)
  counter : Option Counter
  cacheState : Option Text

/-- What follows the reading of the data: the response is built with its meta, an
exception is turned into a response inside the middlewares, or into one outside
of them. -/
inductive Ending where
  | built
  | refused
  | crashed
  deriving DecidableEq

/-- What the awaits of a request after `cached` come to; `reload` is `none` where
the loader raises. -/
structure Rest (Value : Type*) where
  reload : Option Value
  ending : Ending

/-- The counter that `PrometheusMiddleware` increments. -/
def counterOf (cacheState : Label) : Counter :=
  if cacheState = .fresh then .hit else .miss

/-- A request that ends before it has a cache state. -/
def silent : Report where
  header := none
  freshness := none
  counter := none
  cacheState := none

/-- An endpoint with the durations of its entry; whether it copies the outcome to
its meta, for which data it answers 404, and for which it loads again. -/
structure Endpoint (Value : Type*) where
  ttl : ℤ
  stale : ℤ
  copies : Bool
  missing : Value → Bool
  reloads : Value → Bool
  ttl_pos : 0 < ttl
  copies_of_reloads : ∀ value, reloads value = true → copies = true

namespace Endpoint

variable {Value : Type*} (endpoint : Endpoint Value)

/-- A response passes the middlewares. -/
def sends (value : Value) (ending : Ending) : Bool :=
  endpoint.missing value || ending ≠ .crashed

/-- The response has a meta. -/
def builds (value : Value) (ending : Ending) : Bool :=
  !endpoint.missing value && ending = .built

/-- The rest of the handler and the middlewares, from the data and the outcome. -/
def respond (value : Value) (outcome : Label × ℤ) (ending : Ending) : Report where
  header := if endpoint.sends value ending then some outcome.1 else none
  freshness :=
    if endpoint.builds value ending then
      some (if endpoint.copies then outcome else (.fresh, 0))
    else none
  counter := some (counterOf outcome.1)
  cacheState := some outcome.1.text

/-- What a request reports, from what `cached` comes to. -/
def report (answer : Answer Value) (rest : Rest Value) : Report :=
  match answer with
  | .raised _ => silent
  | .returned value freshness age =>
      if endpoint.reloads value then
        match rest.reload with
        | none => silent
        | some loaded => endpoint.respond loaded (.miss, 0) rest.ending
      else endpoint.respond value (ofFreshness freshness, age) rest.ending

end Endpoint

/-! ## The endpoints -/

section Endpoints

variable {Value : Type*} (isNone truthy : Value → Bool)

/-- An endpoint that leaves the meta as `build_meta` makes it. -/
def plain (ttl stale : ℤ) (hpos : 0 < ttl) (missing : Value → Bool) :
    Endpoint Value where
  ttl := ttl
  stale := stale
  copies := false
  missing := missing
  reloads _ := false
  ttl_pos := hpos
  copies_of_reloads _ hreloads := Bool.noConfusion hreloads

def getOrbitalLatest : Endpoint Value where
  ttl := 3600
  stale := 86400
  copies := true
  missing := isNone
  reloads _ := false
  ttl_pos := by decide
  copies_of_reloads _ _ := rfl

def getLatestTleSets : Endpoint Value where
  ttl := 900
  stale := 7200
  copies := true
  missing _ := false
  reloads value := !truthy value
  ttl_pos := by decide
  copies_of_reloads _ _ := rfl

def getSatellite : Endpoint Value := plain 3600 86400 (by decide) isNone

def getSatellites : Endpoint Value := plain 300 3600 (by decide) fun _ => false

def catalogSummary : Endpoint Value := plain 300 3600 (by decide) fun _ => false

/-- The handlers of `_dimension_route`. -/
def dimensionRoute : Endpoint Value := plain 600 3600 (by decide) fun _ => false

def catalogDecays : Endpoint Value := plain 600 3600 (by decide) fun _ => false

def getSwOverview : Endpoint Value := plain 60 600 (by decide) fun _ => false

end Endpoints

/-! ## Requests over one cache entry -/

/-- How `cached` came to the data it returned: from its own loader, from the entry
that its read script found, or from the entry that it found after waiting.  The
age of an entry is by the clock reading of the call. -/
inductive Delivery where
  | loaded
  | found (age : ℤ)
  | awaited (age : ℤ)
  deriving DecidableEq

variable {Token Value Raw : Type*}

/-- The cache with the requests of one endpoint, whose calls have their tokens.
The readings and the deliveries are only observed. -/
structure Server (Token Value Raw : Type*) where
  cache : State Token Value Raw
  readings : Token → Reading
  deliveries : Token → Option Delivery
  reports : Token → Option Report

inductive Event (Token Value : Type*) where
  | cache (action : Action Token Value)
  /-- The handler goes on with what `cached` came to. -/
  | finish (token : Token) (rest : Rest Value)

section Step

variable [DecidableEq Token] [DecidableEq Value]

namespace Server

variable (server : Server Token Value Raw)

/-- Where the data comes from that a call returns in a step. -/
def delivery (token : Token) : Action Token Value → Option Delivery
  | .read _ _ _ => (server.cache.store.data.get server.cache.clock).map
      fun stored => .found ((server.readings token).now - stored.storedAt)
  | .poll _ _ => (server.cache.store.data.get server.cache.clock).map
      fun stored => .awaited ((server.readings token).now - stored.storedAt)
  | .store _ _ => some .loaded
  | _ => none

/-- The deliveries after a step that leads the cache to `next`. -/
def delivered (action : Action Token Value) (next : State Token Value Raw) :
    Token → Option Delivery := fun token =>
  if next.answer token = server.cache.answer token then server.deliveries token
  else server.delivery token action

end Server

/-- Requests of one endpoint; every call has the durations of the endpoint. -/
def step (config : Config) (codec : Codec Value Raw) (endpoint : Endpoint Value)
    (server : Server Token Value Raw) :
    Event Token Value → Option (Server Token Value Raw)
  | .cache action =>
      if SameDurations endpoint.ttl endpoint.stale action then
        (Cache.step config codec server.cache action).map fun next =>
          { server with
            cache := next
            readings := notice server.cache action server.readings
            deliveries := server.delivered action next }
      else none
  | .finish token rest =>
      match server.cache.answer token, server.reports token with
      | some answer, none =>
          some { server with
            reports := Function.update server.reports token
              (some (endpoint.report answer rest)) }
      | _, _ => none

/-- Runs from a cache whose calls have not started, without any report. -/
def requests (config : Config) (codec : Codec Value Raw)
    (endpoint : Endpoint Value) :
    System (Server Token Value Raw) (Event Token Value) where
  Init server := (observed Token config codec).Init
      (server.cache, server.readings) ∧
    (∀ token, server.deliveries token = none) ∧
      ∀ token, server.reports token = none
  step := step config codec endpoint

end Step

/-! ## What is asked of a report -/

/-- What happened in a request: whether it ran its loader, the age of the entry
that its data comes from, and the outcome. -/
structure Happened where
  ranLoader : Bool
  entryAge : Option ℤ
  outcome : Option (Label × ℤ)

namespace Delivery

/-- The call ran its loader.  One that found an old entry is taken to have done
so, since its read script may have elected it to replace the entry. -/
def ranLoader (ttl : ℤ) : Delivery → Bool
  | loaded => true
  | found age => ttl < age
  | awaited _ => false

def entryAge : Delivery → Option ℤ
  | loaded => none
  | found age => some age
  | awaited age => some age

end Delivery

/-- What happened, from how `cached` came to its answer. -/
def Endpoint.happened (endpoint : Endpoint Value) (delivery : Option Delivery)
    (answer : Answer Value) (rest : Rest Value) : Happened :=
  match answer with
  | .raised _ => ⟨true, none, none⟩
  | .returned value freshness age =>
      if endpoint.reloads value then
        ⟨true, none, rest.reload.map fun _ => (.miss, 0)⟩
      else
        { ranLoader := delivery.any (Delivery.ranLoader endpoint.ttl)
          entryAge := delivery.bind Delivery.entryAge
          outcome := some (ofFreshness freshness, age) }

/-- The header and the meta tell the outcome, data from an entry older than its
`ttl` is not called fresh, and no hit is counted for a request that ran its
loader. -/
structure Tells (ttl : ℤ) (happened : Happened) (report : Report) : Prop where
  agrees : ∀ freshness ∈ report.freshness,
    report.header = some freshness.1 ∧ happened.outcome = some freshness
  honest : ∀ age ∈ happened.entryAge, ttl < age →
    report.header ≠ some .fresh ∧
      ∀ freshness ∈ report.freshness, freshness.1 ≠ .fresh
  counted : happened.ranLoader = true →
    report.counter ≠ some .hit ∧
      ∀ (row : Bucket ℚ) (metric : Metric ℚ),
        metric.cacheState = report.cacheState →
          (row.add metric).cacheHitCount = row.cacheHitCount

/-- A request that finishes in this step tells what happened. -/
def Truthful (endpoint : Endpoint Value) (server : Server Token Value Raw) :
    Event Token Value → Server Token Value Raw → Prop
  | .cache _, _ => True
  | .finish token rest, next =>
      ∀ answer ∈ server.cache.answer token, ∀ report ∈ next.reports token,
        Tells endpoint.ttl
          (endpoint.happened (server.deliveries token) answer rest) report

/-- Which deliveries are told as they were: those of entries, found young enough
after a wait, and found by the read script where the outcome is copied to the
meta, where there is no meta, or where the age is 0. -/
def Endpoint.Allows (endpoint : Endpoint Value) (value : Value)
    (ending : Ending) : Delivery → Prop
  | .loaded => False
  | .found age => endpoint.builds value ending = true →
      endpoint.copies = true ∨ age = 0
  | .awaited age => endpoint.sends value ending = true → age ≤ endpoint.ttl

/-- A request that finishes in this step loads again, or had its data from a
delivery that is told as it was. -/
def Deserved (endpoint : Endpoint Value) (server : Server Token Value Raw) :
    Event Token Value → Server Token Value Raw → Prop
  | .cache _, _ => True
  | .finish token rest, _ =>
      ∀ value freshness age,
        server.cache.answer token = some (.returned value freshness age) →
          endpoint.reloads value = true ∨
            ∀ delivery ∈ server.deliveries token,
              endpoint.Allows value rest.ending delivery

instance (endpoint : Endpoint Value) (value : Value) (ending : Ending) :
    (delivery : Delivery) → Decidable (endpoint.Allows value ending delivery)
  | .loaded => isFalse id
  | .found _ => inferInstanceAs (Decidable (_ → _ ∨ _))
  | .awaited _ => inferInstanceAs (Decidable (_ → _ ≤ _))

instance (endpoint : Endpoint Value) (server next : Server Token Value Raw) :
    (event : Event Token Value) →
      Decidable (Deserved endpoint server event next)
  | .cache _ => isTrue trivial
  | .finish token rest =>
      match hanswer : server.cache.answer token with
      | some (.returned value _ _) =>
          decidable_of_iff
            (endpoint.reloads value = true ∨
              ∀ delivery ∈ server.deliveries token,
                endpoint.Allows value rest.ending delivery)
            (by simp +contextual [Deserved, hanswer])
      | some (.raised _) | none => isTrue (by simp [Deserved, hanswer])

/-! ## One report -/

/-- What `cached` returns for a delivery. -/
def Delivery.Fits (ttl : ℤ) (freshness : Freshness) (age : ℤ) :
    Delivery → Prop
  | .loaded => freshness = .fresh ∧ age = 0
  | .found entryAge => age = entryAge ∧
      freshness = if entryAge ≤ ttl then .fresh else .stale
  | .awaited _ => freshness = .fresh ∧ age = 0

theorem text_eq_fresh_iff (label : Label) :
    label.text = Python.text "fresh" ↔ label = .fresh := by
  cases label <;> decide

/-- A hit is counted for the state "fresh" and no other. -/
theorem not_counted_iff (label : Label) :
    (some (counterOf label) ≠ some Counter.hit ∧
        ∀ (row : Bucket ℚ) (metric : Metric ℚ),
          metric.cacheState = some label.text →
            (row.add metric).cacheHitCount = row.cacheHitCount) ↔
      label ≠ .fresh := by
  constructor
  · rintro ⟨hcounter, -⟩ rfl
    exact hcounter rfl
  · intro hlabel
    constructor
    · simp [counterOf, hlabel]
    · intro row metric hstate
      have hother : metric.cacheState ≠ some (Python.text "fresh") := by
        rw [hstate, ne_eq, Option.some.injEq, text_eq_fresh_iff]
        exact hlabel
      simp [Bucket.add, hother]

theorem tells_silent (ttl : ℤ) (outcome : Option (Label × ℤ)) :
    Tells ttl ⟨true, none, outcome⟩ silent where
  agrees _ hmem := by simp [silent] at hmem
  honest _ hmem := by simp at hmem
  counted _ := by
    refine ⟨by simp [silent], fun row metric hstate => ?_⟩
    have hnone : metric.cacheState = none := hstate
    simp [Bucket.add, hnone]

section Respond

variable {endpoint : Endpoint Value} {value : Value} {ending : Ending}

theorem sends_of_builds (hbuilds : endpoint.builds value ending = true) :
    endpoint.sends value ending = true := by
  obtain ⟨-, hbuilt⟩ := Bool.and_eq_true_iff.mp hbuilds
  obtain rfl := of_decide_eq_true hbuilt
  exact Bool.or_true _

theorem mem_freshness_iff {outcome freshness : Label × ℤ} :
    freshness ∈ (endpoint.respond value outcome ending).freshness ↔
      endpoint.builds value ending = true ∧
        (if endpoint.copies then outcome else (.fresh, 0)) = freshness := by
  simp [Endpoint.respond, Option.mem_def]

/-- Where the meta is right, the header agrees with it. -/
theorem agrees_of_meta {outcome : Label × ℤ}
    (hmeta : endpoint.builds value ending = true →
      endpoint.copies = true ∨ outcome = (.fresh, 0)) :
    ∀ freshness ∈ (endpoint.respond value outcome ending).freshness,
      (endpoint.respond value outcome ending).header = some freshness.1 ∧
        some outcome = some freshness := by
  intro freshness hmem
  obtain ⟨hbuilds, hsame⟩ := mem_freshness_iff.mp hmem
  have houtcome : outcome = freshness := by
    rcases hmeta hbuilds with hcopies | hfresh
    · rwa [if_pos hcopies] at hsame
    · rw [hfresh, ite_self] at hsame
      exact hfresh.trans hsame
  rw [← houtcome]
  exact ⟨if_pos (sends_of_builds hbuilds), rfl⟩

variable {freshness : Freshness} {age : ℤ}

theorem not_tells_loaded :
    ¬Tells endpoint.ttl ⟨true, none, some (ofFreshness .fresh, 0)⟩
      (endpoint.respond value (ofFreshness .fresh, 0) ending) :=
  fun htells => (htells.counted rfl).1 rfl

theorem tells_awaited_iff {entryAge : ℤ} :
    Tells endpoint.ttl ⟨false, some entryAge, some (ofFreshness .fresh, 0)⟩
        (endpoint.respond value (ofFreshness .fresh, 0) ending) ↔
      (endpoint.sends value ending = true → entryAge ≤ endpoint.ttl) := by
  constructor
  · intro htells hsends
    by_contra hold
    exact (htells.honest entryAge rfl (not_le.mp hold)).1 (if_pos hsends)
  · intro hyoung
    refine
      { agrees := agrees_of_meta fun _ => .inr rfl
        honest := fun other hother hold => ?_
        counted := fun hran => Bool.noConfusion hran }
    obtain rfl := Option.some.inj hother
    have hunsent : ¬endpoint.sends value ending = true :=
      fun hsends => absurd (hyoung hsends) (not_le.mpr hold)
    constructor
    · simp [Endpoint.respond, hunsent]
    · intro freshness hmem
      exact absurd (sends_of_builds (mem_freshness_iff.mp hmem).1) hunsent

theorem tells_found_iff {entryAge : ℤ}
    (hfreshness : freshness = if entryAge ≤ endpoint.ttl then .fresh else .stale) :
    Tells endpoint.ttl
        ⟨endpoint.ttl < entryAge, some entryAge,
          some (ofFreshness freshness, entryAge)⟩
        (endpoint.respond value (ofFreshness freshness, entryAge) ending) ↔
      (endpoint.builds value ending = true →
        endpoint.copies = true ∨ entryAge = 0) := by
  have hold (hlt : endpoint.ttl < entryAge) : ofFreshness freshness = .stale := by
    rw [hfreshness, if_neg (not_le.mpr hlt)]
    rfl
  constructor
  · intro htells hbuilds
    obtain ⟨-, houtcome⟩ :=
      htells.agrees _ (mem_freshness_iff.mpr ⟨hbuilds, rfl⟩)
    by_cases hcopies : endpoint.copies = true
    · exact .inl hcopies
    · rw [if_neg hcopies] at houtcome
      exact .inr (Prod.mk.inj (Option.some.inj houtcome)).2
  · intro hmeta
    have hpos := endpoint.ttl_pos
    refine
      { agrees := agrees_of_meta fun hbuilds => (hmeta hbuilds).imp_right ?_
        honest := ?_
        counted := ?_ }
    · rintro rfl
      rw [hfreshness, if_pos hpos.le]
      rfl
    · intro age hage hlt
      obtain rfl : entryAge = age := Option.some.inj hage
      constructor
      · simp [Endpoint.respond, hold hlt]
      · intro told hmem
        obtain ⟨hbuilds, hsame⟩ := mem_freshness_iff.mp hmem
        have hcopies := (hmeta hbuilds).resolve_right (by omega)
        rw [if_pos hcopies, hold hlt] at hsame
        rw [← hsame]
        exact Label.noConfusion
    · intro hran
      refine (not_counted_iff _).mpr ?_
      rw [hold (of_decide_eq_true hran)]
      exact Label.noConfusion

/-- A report tells what happened exactly for the deliveries that are allowed. -/
theorem tells_iff_allows {delivery : Delivery}
    (hfits : delivery.Fits endpoint.ttl freshness age) :
    Tells endpoint.ttl
        ⟨delivery.ranLoader endpoint.ttl, delivery.entryAge,
          some (ofFreshness freshness, age)⟩
        (endpoint.respond value (ofFreshness freshness, age) ending) ↔
      endpoint.Allows value ending delivery := by
  cases delivery with
  | loaded =>
      obtain ⟨rfl, rfl⟩ := hfits
      exact iff_of_false not_tells_loaded id
  | found entryAge =>
      obtain ⟨rfl, hfreshness⟩ := hfits
      exact tells_found_iff hfreshness
  | awaited entryAge =>
      obtain ⟨rfl, rfl⟩ := hfits
      exact tells_awaited_iff

/-- A request that loads again tells that it did. -/
theorem tells_reloaded (hcopies : endpoint.copies = true) (loaded : Value) :
    Tells endpoint.ttl ⟨true, none, some (.miss, 0)⟩
      (endpoint.respond loaded (.miss, 0) ending) where
  agrees := agrees_of_meta fun _ => .inl hcopies
  honest _ hmem := by simp at hmem
  counted _ := (not_counted_iff .miss).mpr Label.noConfusion

end Respond

/-! ## Every run -/

variable [DecidableEq Token] [DecidableEq Value] {config : Config}
  {codec : Codec Value Raw} {endpoint : Endpoint Value}

/-- What is known of the calls: the readings of those that are about to read, and
where the data comes from that the others returned. -/
structure Tracked (endpoint : Endpoint Value) (server : Server Token Value Raw) :
    Prop where
  reads : ReadsKnown endpoint.ttl endpoint.stale (server.cache, server.readings)
  fits : ∀ token value freshness age,
    server.cache.answer token = some (.returned value freshness age) →
      ∃ delivery, server.deliveries token = some delivery ∧
        delivery.Fits endpoint.ttl freshness age

theorem Tracked.init {server : Server Token Value Raw}
    (hinit : (requests config codec endpoint).Init server) :
    Tracked endpoint server := by
  obtain ⟨⟨⟨-, hidle, hanswers, -⟩, -⟩, -⟩ := hinit
  constructor
  · intro token given limit now hcall
    rw [hidle token] at hcall
    cases hcall
  · intro token value freshness age hanswer
    rw [hanswers token] at hanswer
    cases hanswer

omit [DecidableEq Token] [DecidableEq Value] in
/-- The delivery of a call that returns in this step. -/
theorem Tracked.delivery {server : Server Token Value Raw}
    {action : Action Token Value} {token : Token} {value : Value}
    {freshness : Freshness} {age : ℤ} (htracked : Tracked endpoint server)
    (hanswers : Answers codec server.cache token value freshness age action) :
    ∃ delivery, server.delivery token action = some delivery ∧
      delivery.Fits endpoint.ttl freshness age := by
  cases hanswers with
  | @read full ttl stale now stored hcall hget hloads hage hfreshness =>
      obtain ⟨rfl, -, hnow⟩ := htracked.reads token ttl stale now hcall
      have hentry : (server.readings token).now - stored.storedAt = age := by
        rw [← hage]
        exact congrArg (· - stored.storedAt) hnow
      refine ⟨.found age, ?_, rfl, hfreshness.symm⟩
      rw [Server.delivery, hget, Option.map_some, hentry]
  | @poll deadline wake stored hcall hget hloads hage hfreshness =>
      refine ⟨.awaited ((server.readings token).now - stored.storedAt), ?_,
        hfreshness.symm, hage.symm⟩
      rw [Server.delivery, hget, Option.map_some]
  | load hcall hage hfreshness =>
      exact ⟨.loaded, rfl, hfreshness.symm, hage.symm⟩

theorem Tracked.step {server next : Server Token Value Raw}
    {event : Event Token Value} (htracked : Tracked endpoint server)
    (hstep : step config codec endpoint server event = some next) :
    Tracked endpoint next := by
  cases event with
  | cache action =>
      obtain ⟨hsame, hnext⟩ := Option.ite_none_right_eq_some.mp hstep
      obtain ⟨cache, hcache, rfl⟩ := Option.map_eq_some_iff.mp hnext
      refine ⟨htracked.reads.step hcache hsame, ?_⟩
      intro token value freshness age hanswer
      by_cases hkept : cache.answer token = server.cache.answer token
      · obtain ⟨delivery, hdelivery, hfits⟩ :=
          htracked.fits token value freshness age (hkept.symm.trans hanswer)
        exact ⟨delivery, (if_pos hkept).trans hdelivery, hfits⟩
      · have hnew : server.cache.answer token ≠
            some (.returned value freshness age) :=
          fun hold => hkept (hanswer.trans hold.symm)
        obtain ⟨delivery, hdelivery, hfits⟩ :=
          htracked.delivery (answers_of_step hcache hanswer hnew)
        exact ⟨delivery, (if_neg hkept).trans hdelivery, hfits⟩
  | finish token rest =>
      simp only [CacheReports.step] at hstep
      split at hstep
      · obtain rfl := Option.some.inj hstep
        exact ⟨htracked.reads, htracked.fits⟩
      · cases hstep

/-- A request tells what happened exactly when it loads again or its delivery is
allowed. -/
theorem Tracked.truthful_iff {server next : Server Token Value Raw}
    {event : Event Token Value} (htracked : Tracked endpoint server)
    (hstep : CacheReports.step config codec endpoint server event = some next) :
    Truthful endpoint server event next ↔ Deserved endpoint server event next := by
  cases event with
  | cache action => exact Iff.rfl
  | finish token rest =>
      simp only [CacheReports.step] at hstep
      split at hstep
      case h_1 answer hanswer hreport =>
        obtain rfl := Option.some.inj hstep
        simp only [Truthful, Deserved, hanswer, Function.update_self,
          Option.mem_def, Option.some.injEq, forall_eq']
        cases answer with
        | raised failure =>
            exact iff_of_true (tells_silent _ _) fun _ _ _ hreturned => by
              cases hreturned
        | returned value freshness age =>
            by_cases hreloads : endpoint.reloads value = true
            · refine iff_of_true ?_ fun _ _ _ hreturned => ?_
              · simp only [Endpoint.happened, Endpoint.report, if_pos hreloads]
                cases rest.reload with
                | none => exact tells_silent _ _
                | some loaded =>
                    exact tells_reloaded
                      (endpoint.copies_of_reloads value hreloads) loaded
              · cases hreturned
                exact .inl hreloads
            · obtain ⟨delivery, hdelivery, hfits⟩ :=
                htracked.fits token value freshness age hanswer
              simp only [Endpoint.happened, Endpoint.report, if_neg hreloads,
                hdelivery, Option.any_some, Option.bind_some]
              refine (tells_iff_allows hfits).trans ⟨?_, fun hdeserved => ?_⟩
              · rintro hallows _ _ _ hreturned
                cases hreturned
                refine .inr fun other hother => ?_
                obtain rfl := Option.some.inj hother
                exact hallows
              · exact (hdeserved value freshness age rfl).resolve_left hreloads
                  delivery rfl
      case h_2 => cases hstep

/-- In every run the requests tell what happened exactly when each of them loads
again or has its data from a delivery that is told as it was. -/
theorem reports_truthful_iff {start : Server Token Value Raw}
    (hinit : (requests config codec endpoint).Init start)
    (events : List (Event Token Value)) :
    (requests config codec endpoint).Steps (Truthful endpoint) start events ↔
      (requests config codec endpoint).Steps (Deserved endpoint) start
        events := by
  apply System.steps_iff_of_invariant (Tracked endpoint)
  · intro server event next htracked hstep _
    exact htracked.step hstep
  · intro server event next htracked hstep
    exact htracked.truthful_iff hstep
  · exact .init hinit

/-! ## Runs of two endpoints -/

/-- The server before any request. -/
def unasked : Server (Fin 3) ℤ ℤ where
  cache := unread.1
  readings := unread.2
  deliveries _ := none
  reports _ := none

theorem unasked_init (endpoint : Endpoint ℤ) :
    (requests plainConfig plainCodec endpoint).Init unasked :=
  ⟨unread_init, fun _ => rfl, fun _ => rfl⟩

/-- After a request that loads, two requests finish that find the entry, one of
them fresh and the other one stale. -/
def orbitalRequests : List (Event (Fin 3) ℤ) :=
  [.cache (.begin 0 3600 86400 100), .cache (.read 0 false .answered),
    .cache (.compute 0 5 100), .cache (.store 0 .answered),
    .cache (.elapse 40), .cache (.begin 1 3600 86400 140),
    .cache (.read 1 false .answered), .finish 1 ⟨none, .built⟩,
    .cache (.elapse 4000), .cache (.begin 2 3600 86400 4140),
    .cache (.read 2 false .answered), .finish 2 ⟨none, .built⟩]

theorem orbital_latest_truthful :
    ((requests plainConfig plainCodec (getOrbitalLatest fun _ => false)).run
        unasked orbitalRequests).isSome = true ∧
      (requests plainConfig plainCodec (getOrbitalLatest fun _ => false)).Steps
        (Truthful (getOrbitalLatest fun _ => false)) unasked orbitalRequests :=
  ⟨by decide +kernel,
    (reports_truthful_iff (unasked_init _) _).mpr (by decide +kernel)⟩

/-- The first request finds no entry and loads. -/
def firstRequest : List (Event (Fin 3) ℤ) :=
  [.cache (.begin 0 300 3600 100), .cache (.read 0 false .answered),
    .cache (.compute 0 5 100), .cache (.store 0 .answered)]

/-- The second request comes 400 seconds later and finds the entry of the first
one, which is stale. -/
def laterRequest : List (Event (Fin 3) ℤ) :=
  firstRequest ++ [.cache (.elapse 400), .cache (.begin 1 300 3600 500),
    .cache (.read 1 false .answered)]

/-- The first request is counted as a hit, though it ran its loader.  The header
of the second one says "stale", and its meta says "fresh" with age 0. -/
theorem loaded_counted_and_stale_fresh :
    ¬(requests plainConfig plainCodec getSatellites).Steps
        (Truthful getSatellites) unasked
        (firstRequest ++ [.finish 0 ⟨none, .built⟩]) ∧
      ¬(requests plainConfig plainCodec getSatellites).Steps
        (Truthful getSatellites) unasked
        (laterRequest ++ [.finish 1 ⟨none, .built⟩]) := by
  constructor
  · intro hsteps
    obtain ⟨before, hrun, after, hstep, hanswer, hdelivery, report, hreport,
        hcounter⟩ :
        ∃ before ∈ (requests plainConfig plainCodec getSatellites).run unasked
            firstRequest,
          ∃ after ∈ (requests plainConfig plainCodec getSatellites).step before
              (.finish 0 ⟨none, .built⟩),
            before.cache.answer 0 = some (.returned 5 .fresh 0) ∧
              before.deliveries 0 = some .loaded ∧
              ∃ report ∈ after.reports 0, report.counter = some .hit := by
      decide +kernel
    have htells := hsteps.of_run hrun hstep _ hanswer report hreport
    rw [hdelivery] at htells
    exact (htells.counted rfl).1 hcounter
  · intro hsteps
    obtain ⟨before, hrun, after, hstep, hanswer, hdelivery, report, hreport,
        hmeta⟩ :
        ∃ before ∈ (requests plainConfig plainCodec getSatellites).run unasked
            laterRequest,
          ∃ after ∈ (requests plainConfig plainCodec getSatellites).step before
              (.finish 1 ⟨none, .built⟩),
            before.cache.answer 1 = some (.returned 5 .stale 400) ∧
              before.deliveries 1 = some (.found 400) ∧
              ∃ report ∈ after.reports 1,
                report.freshness = some (.fresh, 0) := by
      decide +kernel
    have htells := hsteps.of_run hrun hstep _ hanswer report hreport
    rw [hdelivery] at htells
    have hhonest := htells.honest 400 rfl (by decide)
    exact hhonest.2 _ hmeta rfl

end UTTG.Api.CacheReports
