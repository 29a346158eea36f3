import UTTG.Web.Polling

/-!
# Data without a network

The components of the demo that poll share the local storage, where `fetchApi`
writes every good response, and a service worker, which answers from its own
cache where the network fails.  The hook does not see who has answered: a body
from the cache of the worker is stamped with the present time and shown as live.
This module follows the bodies from the answers of the network to the components.
`Date.now` and `performance.now` are one clock in whole milliseconds that does not
go back.
-/

namespace UTTG.Web.Offline

open Polling UTTG.Transition

section Model

variable (Component Path Content Body : Type)

/-- The interval of each path, which bodies are truthy, and `response.json()`,
`none` where it throws. -/
structure Config where
  intervalMs : Path → ℕ
  truthy : Body → Bool
  json : Content → Option Body

/-- A good response for a path, with the time it came. -/
structure Answer where
  path : Path
  content : Content
  time : ℕ
  deriving DecidableEq

/-- A call of `fetchApi`, with the content of a good response. -/
structure Fetch where
  startedAt : ℕ
  response : Option Content

/-- A component with its path, its hook and the calls of the hook. -/
structure Page where
  path : Path
  hook : Hook Body
  fetches : ℕ → Option (Fetch Content)

/-- One browser.  `puts` are the calls of `cache.put` that are under way.  As
observed histories it has the good answers of the network, and those that the
service worker gave from its cache. -/
structure Browser where
  clock : ℕ
  storage : Path → Option (Entry Body)
  dataCache : Path → Option Content
  puts : List (Path × Content)
  pages : Component → Option (Page Path Content Body)
  answers : List (Answer Path Content)
  fallbacks : List (Answer Path Content)

inductive Action where
  | elapse (duration : ℕ)
  | mount (component : Component) (path : Path)
  /-- An event that brings no data. -/
  | react (component : Component) (event : Event Body)
  /-- The network answers a call, through the service worker or not. -/
  | answer (component : Component) (call status : ℕ) (content : Content)
    (controlled : Bool)
  /-- The network answers the service worker for a request that nobody waits for
  any more. -/
  | serve (path : Path) (content : Content)
  /-- The network fails, and the service worker has a response. -/
  | fallback (component : Component) (call : ℕ)
  /-- The body of a response is read; the local storage takes it or not. -/
  | read (component : Component) (call : ℕ) (written : Bool)
  /-- A call of `cache.put` ends. -/
  | put (index : ℕ) (stored : Bool)
  /-- The local storage, or the cache of the worker, loses a path. -/
  | clear (path : Path)
  | evict (path : Path)

end Model

section Step

variable {Component Path Content Body : Type}

/-- The events of a hook that bring no data. -/
def bringsNothing : Event Body → Bool
  | .online | .unmount | .expire _ | .timeout _ | .fail _ | .abort _ => true
  | .respond _ _ | .read _ _ | .store _ => false

/-- The value of a hook before its first request is over. -/
def loading : View Body := ⟨.loading, none, false, none⟩

namespace Page

variable (page : Page Path Content Body)

/-- The hook finds the local storage as it is. -/
def reading (storage : Path → Option (Entry Body)) : Hook Body :=
  { page.hook with stored := storage page.path }

/-- The calls of a hook after an event: a new one starts now. -/
def started (clock : ℕ) (next : Hook Body) : ℕ → Option (Fetch Content) :=
  if next.nextCall = page.hook.nextCall then page.fetches
  else Function.update page.fetches page.hook.nextCall (some ⟨clock, none⟩)

/-- A call has a good response. -/
def answered (call : ℕ) (fetch : Fetch Content) (content : Content) :
    ℕ → Option (Fetch Content) :=
  Function.update page.fetches call
    (some { fetch with response := some content })

end Page

/-- `response.ok`. -/
def isOk (status : ℕ) : Bool := 200 ≤ status && status < 300

variable [DecidableEq Component] [DecidableEq Path]

/-- Another page of a component. -/
def Browser.setPage (browser : Browser Component Path Content Body)
    (component : Component) (page : Page Path Content Body) :
    Browser Component Path Content Body :=
  { browser with
    pages := Function.update browser.pages component (some page) }

def Config.parameters (config : Config Path Content Body) (path : Path) :
    Parameters Body :=
  ⟨config.intervalMs path, config.truthy⟩

/-- A step of the browser. -/
def step (config : Config Path Content Body)
    (browser : Browser Component Path Content Body) :
    Action Component Path Content Body →
      Option (Browser Component Path Content Body)
  | .elapse duration =>
      some { browser with clock := browser.clock + duration }
  | .mount component path =>
      match browser.pages component with
      | some _ => none
      | none =>
          some (browser.setPage component
            { path := path
              hook := Polling.mount 0 loading (browser.storage path)
              fetches := Function.update (fun _ => none) 0
                (some ⟨browser.clock, none⟩) })
  | .react component event => do
      let page ← browser.pages component
      if bringsNothing event then
        let next ← Polling.step (config.parameters page.path)
          (page.reading browser.storage) event
        return browser.setPage component
          { page with
            hook := next
            fetches := page.started browser.clock next }
      else none
  | .answer component call status content controlled => do
      let page ← browser.pages component
      let fetch ← page.fetches call
      let next ← Polling.step (config.parameters page.path)
        (page.reading browser.storage) (.respond call status)
      if isOk status then
        return { browser.setPage component
            { page with
              hook := next
              fetches := page.answered call fetch content } with
          puts :=
            if controlled then browser.puts ++ [(page.path, content)]
            else browser.puts
          answers :=
            browser.answers ++ [⟨page.path, content, browser.clock⟩] }
      else return browser.setPage component { page with hook := next }
  | .serve path content =>
      some { browser with
        puts := browser.puts ++ [(path, content)]
        answers := browser.answers ++ [⟨path, content, browser.clock⟩] }
  | .fallback component call => do
      let page ← browser.pages component
      let fetch ← page.fetches call
      let content ← browser.dataCache page.path
      -- only good responses are in the cache
      let next ← Polling.step (config.parameters page.path)
        (page.reading browser.storage) (.respond call 200)
      return { browser.setPage component
          { page with
            hook := next
            fetches := page.answered call fetch content } with
        fallbacks :=
          browser.fallbacks ++ [⟨page.path, content, browser.clock⟩] }
  | .read component call written => do
      let page ← browser.pages component
      let fetch ← page.fetches call
      let content ← fetch.response
      let body ← config.json content
      let entry : Entry Body :=
        ⟨body, browser.clock, browser.clock - fetch.startedAt⟩
      let next ← Polling.step (config.parameters page.path)
        (page.reading browser.storage) (.read call entry)
      return { browser.setPage component { page with hook := next } with
        storage :=
          if written then Function.update browser.storage page.path (some entry)
          else browser.storage }
  | .put index stored => do
      let (path, content) ← browser.puts[index]?
      return { browser with
        puts := browser.puts.eraseIdx index
        dataCache :=
          if stored then Function.update browser.dataCache path (some content)
          else browser.dataCache }
  | .clear path =>
      some { browser with
        storage := Function.update browser.storage path none }
  | .evict path =>
      some { browser with
        dataCache := Function.update browser.dataCache path none }

variable (Component) in
/-- A browser that knows nothing. -/
def system (config : Config Path Content Body) :
    System (Browser Component Path Content Body)
      (Action Component Path Content Body) where
  Init browser := (∀ path, browser.storage path = none) ∧
    (∀ path, browser.dataCache path = none) ∧ browser.puts = [] ∧
    (∀ component, browser.pages component = none) ∧ browser.answers = [] ∧
    browser.fallbacks = []
  step := step config

end Step

/-! ## What a stamp promises -/

section Promises

variable {Component Path Content Body : Type}
  (config : Config Path Content Body)
  (browser : Browser Component Path Content Body)

/-- A content came for a path at some time: from the network, or from the worker,
which had it from the network before. -/
structure Came (path : Path) (content : Content) (received : ℕ) : Prop where
  answered : ∃ time, ⟨path, content, time⟩ ∈ browser.answers ∧ time ≤ received
  source : ⟨path, content, received⟩ ∈ browser.answers ∨
    ⟨path, content, received⟩ ∈ browser.fallbacks

/-- The body of an entry came within the time that its stamp tells. -/
def Vouched (path : Path) (entry : Entry Body) : Prop :=
  ∃ content received, config.json content = some entry.body ∧
    Came browser path content received ∧ received ≤ entry.fetchedAt ∧
    entry.fetchedAt ≤ received + entry.latencyMs

/-- The network has answered a path with a content. -/
def Known (path : Path) (content : Content) : Prop :=
  ∃ time, ⟨path, content, time⟩ ∈ browser.answers ∧ time ≤ browser.clock

/-- A call has started in the past, and its response came since. -/
structure Fetch.Sound (path : Path) (fetch : Fetch Content) : Prop where
  started : fetch.startedAt ≤ browser.clock
  came : ∀ content, fetch.response = some content → ∃ received,
    Came browser path content received ∧ fetch.startedAt ≤ received ∧
      received ≤ browser.clock

/-- What holds of a component: its calls, the body that it shows, and that its
hook runs as the hook alone may run. -/
structure Page.Sound (page : Page Path Content Body) : Prop where
  fetches : ∀ call fetch, page.fetches call = some fetch →
    fetch.Sound browser page.path
  shown : ∀ entry, page.hook.view.entry = some entry →
    Vouched config browser page.path entry ∧ entry.fetchedAt ≤ browser.clock
  hook : (polling ⟨config.intervalMs page.path, config.truthy⟩).Reachable
    page.hook

/-- Whatever the browser keeps was once answered by the network. -/
structure Sound : Prop where
  answers : ∀ answer ∈ browser.answers, answer.time ≤ browser.clock
  storage : ∀ path entry, browser.storage path = some entry →
    Vouched config browser path entry ∧ entry.fetchedAt ≤ browser.clock
  dataCache : ∀ path content, browser.dataCache path = some content →
    Known browser path content
  puts : ∀ put ∈ browser.puts, Known browser put.1 put.2
  pages : ∀ component page, browser.pages component = some page →
    page.Sound config browser

end Promises

/-! ## The logs only grow -/

section Grows

variable {Component Path Content Body : Type}
  {config : Config Path Content Body}
  {browser next : Browser Component Path Content Body}

/-- Time goes on and the logs grow. -/
structure Grows (browser next : Browser Component Path Content Body) :
    Prop where
  clock : browser.clock ≤ next.clock
  answers : browser.answers ⊆ next.answers
  fallbacks : browser.fallbacks ⊆ next.fallbacks

theorem Came.grows {path : Path} {content : Content} {received : ℕ}
    (hcame : Came browser path content received) (hgrows : Grows browser next) :
    Came next path content received where
  answered := by
    obtain ⟨time, hmem, htime⟩ := hcame.answered
    exact ⟨time, hgrows.answers hmem, htime⟩
  source := hcame.source.imp (@hgrows.answers _) (@hgrows.fallbacks _)

theorem Vouched.grows {path : Path} {entry : Entry Body}
    (hvouched : Vouched config browser path entry)
    (hgrows : Grows browser next) : Vouched config next path entry := by
  obtain ⟨content, received, hjson, hcame, hbefore, hwithin⟩ := hvouched
  exact ⟨content, received, hjson, hcame.grows hgrows, hbefore, hwithin⟩

theorem Known.grows {path : Path} {content : Content}
    (hknown : Known browser path content) (hgrows : Grows browser next) :
    Known next path content := by
  obtain ⟨time, hmem, htime⟩ := hknown
  exact ⟨time, hgrows.answers hmem, htime.trans hgrows.clock⟩

theorem Fetch.Sound.grows {path : Path} {fetch : Fetch Content}
    (hsound : fetch.Sound browser path) (hgrows : Grows browser next) :
    fetch.Sound next path where
  started := hsound.started.trans hgrows.clock
  came content hresponse := by
    obtain ⟨received, hcame, hstarted, hreceived⟩ :=
      hsound.came content hresponse
    exact ⟨received, hcame.grows hgrows, hstarted,
      hreceived.trans hgrows.clock⟩

theorem Page.Sound.grows {page : Page Path Content Body}
    (hsound : page.Sound config browser) (hgrows : Grows browser next) :
    page.Sound config next where
  fetches call fetch hfetch := (hsound.fetches call fetch hfetch).grows hgrows
  shown entry hentry := by
    obtain ⟨hvouched, htime⟩ := hsound.shown entry hentry
    exact ⟨hvouched.grows hgrows, htime.trans hgrows.clock⟩
  hook := hsound.hook

/-- The browser after a step in which everything that it keeps is accounted
for. -/
theorem Sound.grows (hsound : Sound config browser)
    (hgrows : Grows browser next)
    (hanswers : ∀ answer ∈ next.answers,
      answer ∈ browser.answers ∨ answer.time ≤ next.clock)
    (hstorage : ∀ path entry, next.storage path = some entry →
      browser.storage path = some entry ∨
        Vouched config next path entry ∧ entry.fetchedAt ≤ next.clock)
    (hcache : ∀ path content, next.dataCache path = some content →
      browser.dataCache path = some content ∨ Known next path content)
    (hputs : ∀ put ∈ next.puts, put ∈ browser.puts ∨ Known next put.1 put.2)
    (hpages : ∀ component page, next.pages component = some page →
      browser.pages component = some page ∨ page.Sound config next) :
    Sound config next where
  answers answer hanswer := by
    rcases hanswers answer hanswer with hold | hnew
    · exact (hsound.answers answer hold).trans hgrows.clock
    · exact hnew
  storage path entry hentry := by
    rcases hstorage path entry hentry with hold | hnew
    · obtain ⟨hvouched, htime⟩ := hsound.storage path entry hold
      exact ⟨hvouched.grows hgrows, htime.trans hgrows.clock⟩
    · exact hnew
  dataCache path content hcontent := by
    rcases hcache path content hcontent with hold | hnew
    · exact (hsound.dataCache path content hold).grows hgrows
    · exact hnew
  puts put hput := by
    rcases hputs put hput with hold | hnew
    · exact (hsound.puts put hold).grows hgrows
    · exact hnew
  pages component page hpage := by
    rcases hpages component page hpage with hold | hnew
    · exact (hsound.pages component page hold).grows hgrows
    · exact hnew

end Grows

/-! ## What a hook shows after an event -/

section Shows

variable {Body : Type} {parameters : Parameters Body} {hook next : Hook Body}

/-- A hook shows what it has shown before, or what the local storage has. -/
def ShowsOld (hook next : Hook Body) : Prop :=
  next.view.entry = hook.view.entry ∨
    ∃ entry, hook.stored = some entry ∧ next.view.entry = some entry

theorem showsOld_settle (id : ℕ) (error : FetchError) :
    ShowsOld hook (hook.settle parameters id (.error error)) := by
  have hstored : (hook.endCall id).stored = hook.stored := rfl
  simp only [Hook.settle, fetchWithFallback, hstored]
  split
  · next result hresult =>
      split at hresult
      · simp at hresult
      · cases hentry : hook.stored with
        | none => simp [hentry] at hresult
        | some entry =>
            rw [hentry] at hresult
            obtain rfl := Except.ok.inj hresult
            exact .inr ⟨entry, hentry, rfl⟩
  · split
    · exact .inl rfl
    · exact .inl rfl

/-- No event but the reading of a body brings something new. -/
theorem showsOld_of_step {event : Event Body}
    (hstep : Polling.step parameters hook event = some next)
    (hevent : ∀ id entry, event ≠ .read id entry) : ShowsOld hook next := by
  cases event with
  | online =>
      obtain rfl := Option.some.inj hstep
      left
      rw [Hook.onOnline]
      split <;> rfl
  | unmount =>
      obtain ⟨-, hnext⟩ := Option.ite_none_right_eq_some.mp hstep
      obtain rfl := Option.some.inj hnext
      exact .inl rfl
  | expire handle =>
      obtain ⟨-, hnext⟩ := Option.ite_none_right_eq_some.mp hstep
      obtain rfl := Option.some.inj hnext
      exact .inl rfl
  | timeout id =>
      obtain ⟨call, -, hnext⟩ := Option.bind_eq_some_iff.mp hstep
      obtain rfl := Option.some.inj hnext
      exact .inl rfl
  | respond id status =>
      obtain ⟨call, -, hnext⟩ := Option.bind_eq_some_iff.mp hstep
      obtain ⟨-, hnext⟩ := Option.ite_none_right_eq_some.mp hnext
      split_ifs at hnext
      · obtain rfl := Option.some.inj hnext
        exact .inl rfl
      · obtain rfl := Option.some.inj hnext
        exact showsOld_settle id _
  | read id entry => exact absurd rfl (hevent id entry)
  | fail id =>
      obtain ⟨call, -, hnext⟩ := Option.bind_eq_some_iff.mp hstep
      obtain ⟨-, hnext⟩ := Option.ite_none_left_eq_some.mp hnext
      obtain rfl := Option.some.inj hnext
      exact showsOld_settle id _
  | abort id =>
      obtain ⟨call, -, hnext⟩ := Option.bind_eq_some_iff.mp hstep
      obtain ⟨-, hnext⟩ := Option.ite_none_right_eq_some.mp hnext
      obtain rfl := Option.some.inj hnext
      exact showsOld_settle id _
  | store entry =>
      obtain rfl := Option.some.inj hstep
      exact .inl rfl

/-- A body that is read is shown. -/
theorem entry_of_read {id : ℕ} {entry : Entry Body}
    (hstep : Polling.step parameters hook (.read id entry) = some next) :
    next.view.entry = some entry := by
  obtain ⟨call, -, hnext⟩ := Option.bind_eq_some_iff.mp hstep
  obtain ⟨-, hnext⟩ := Option.ite_none_right_eq_some.mp hnext
  obtain rfl := Option.some.inj hnext
  rfl

/-- The hook of a component moves as it may move alone. -/
theorem reachable_reading {event : Event Body}
    (hreach : (polling parameters).Reachable hook)
    (stored : Option (Entry Body))
    (hstep : Polling.step parameters { hook with stored := stored } event =
      some next) : (polling parameters).Reachable next := by
  have hstore : (polling parameters).step hook (.store stored) =
      some { hook with stored := stored } := rfl
  exact .step (.step hreach hstore trivial) hstep trivial

end Shows

/-! ## Every step keeps the account -/

section Account

variable {Component Path Content Body : Type}
  {config : Config Path Content Body}
  {browser next : Browser Component Path Content Body}
  {page : Page Path Content Body}

/-- What a page shows after an event without data. -/
theorem Page.Sound.shown_of_old (hsound : page.Sound config browser)
    (hstorage : ∀ path entry, browser.storage path = some entry →
      Vouched config browser path entry ∧ entry.fetchedAt ≤ browser.clock)
    {hook : Hook Body} (hold : ShowsOld (page.reading browser.storage) hook)
    {entry : Entry Body} (hentry : hook.view.entry = some entry) :
    Vouched config browser page.path entry ∧
      entry.fetchedAt ≤ browser.clock := by
  rcases hold with hsame | ⟨stored, hstored, hshown⟩
  · exact hsound.shown entry (hsame.symm.trans hentry)
  · obtain rfl := Option.some.inj (hshown.symm.trans hentry)
    exact hstorage page.path _ hstored

/-- A page after an event without data. -/
theorem Page.Sound.react (hsound : page.Sound config browser)
    (hstorage : ∀ path entry, browser.storage path = some entry →
      Vouched config browser path entry ∧ entry.fetchedAt ≤ browser.clock)
    {event : Event Body} {hook : Hook Body}
    (hstep : Polling.step (config.parameters page.path)
      (page.reading browser.storage) event = some hook)
    (hevent : ∀ id entry, event ≠ .read id entry)
    {fetches : ℕ → Option (Fetch Content)}
    (hfetches : ∀ call fetch, fetches call = some fetch →
      fetch.Sound browser page.path) :
    Page.Sound config browser
      { page with hook := hook, fetches := fetches } where
  fetches := hfetches
  shown _ hentry :=
    hsound.shown_of_old hstorage (showsOld_of_step hstep hevent) hentry
  hook := reachable_reading hsound.hook _ hstep

theorem Page.Sound.started (hsound : page.Sound config browser)
    (hook : Hook Body) {call : ℕ} {fetch : Fetch Content}
    (hfetch : page.started browser.clock hook call = some fetch) :
    fetch.Sound browser page.path := by
  rw [Page.started] at hfetch
  split at hfetch
  · exact hsound.fetches call fetch hfetch
  · rw [Function.update_apply] at hfetch
    split at hfetch
    · obtain rfl := Option.some.inj hfetch
      exact ⟨le_rfl, nofun⟩
    · exact hsound.fetches call fetch hfetch

/-- A call gets its response. -/
theorem Page.Sound.answered (hsound : page.Sound config browser) {call : ℕ}
    {fetch : Fetch Content} (hfetch : page.fetches call = some fetch)
    {content : Content}
    (hcame : Came browser page.path content browser.clock) {other : ℕ}
    {found : Fetch Content}
    (hfound : page.answered call fetch content other = some found) :
    found.Sound browser page.path := by
  have hbefore := hsound.fetches call fetch hfetch
  rw [Page.answered, Function.update_apply] at hfound
  split at hfound
  · obtain rfl := Option.some.inj hfound
    refine ⟨hbefore.started, fun received hreceived => ?_⟩
    obtain rfl := Option.some.inj hreceived
    exact ⟨browser.clock, hcame, hbefore.started, le_rfl⟩
  · exact hsound.fetches other found hfound

/-- The entry of a body that is read now. -/
theorem vouched_read (hsound : page.Sound config browser) {call : ℕ}
    {fetch : Fetch Content} (hfetch : page.fetches call = some fetch)
    {content : Content} (hresponse : fetch.response = some content)
    {body : Body} (hjson : config.json content = some body) :
    Vouched config browser page.path
      ⟨body, browser.clock, browser.clock - fetch.startedAt⟩ := by
  have hbefore := hsound.fetches call fetch hfetch
  obtain ⟨received, hcame, hstarted, hreceived⟩ :=
    hbefore.came content hresponse
  refine ⟨content, received, hjson, hcame, hreceived, ?_⟩
  have hclock := hbefore.started
  change browser.clock ≤ received + (browser.clock - fetch.startedAt)
  omega

theorem came_of_answered {path : Path} {content : Content}
    (hmem : ⟨path, content, browser.clock⟩ ∈ browser.answers) :
    Came browser path content browser.clock :=
  ⟨⟨browser.clock, hmem, le_rfl⟩, .inl hmem⟩

variable [DecidableEq Component]

theorem pages_setPage {component other : Component}
    {found : Page Path Content Body}
    (hfound : (browser.setPage component page).pages other = some found) :
    browser.pages other = some found ∨ found = page := by
  change Function.update browser.pages component (some page) other = _ at hfound
  rw [Function.update_apply] at hfound
  split at hfound
  · exact .inr (Option.some.inj hfound).symm
  · exact .inl hfound

/-- One component changes, and nothing else. -/
theorem Sound.setPage (hsound : Sound config browser)
    (hpage : page.Sound config browser) (component : Component) :
    Sound config (browser.setPage component page) := by
  have hgrows : Grows browser (browser.setPage component page) :=
    ⟨le_rfl, fun _ => id, fun _ => id⟩
  apply hsound.grows hgrows
  · exact fun answer hanswer => .inl hanswer
  · exact fun path entry hentry => .inl hentry
  · exact fun path content hcontent => .inl hcontent
  · exact fun put hput => .inl hput
  · intro other found hfound
    rcases pages_setPage hfound with hold | rfl
    · exact .inl hold
    · exact .inr (hpage.grows hgrows)

/-- A component comes in. -/
theorem Sound.mount (hsound : Sound config browser) (component : Component)
    (path : Path) :
    Sound config (browser.setPage component
      { path := path
        hook := Polling.mount 0 loading (browser.storage path)
        fetches := Function.update (fun _ => none) 0
          (some ⟨browser.clock, none⟩) }) := by
  apply hsound.setPage
  refine ⟨fun call fetch hfetch => ?_, nofun, .init ⟨0, _, _, rfl⟩⟩
  change Function.update (fun _ => none) 0 (some _) call = some fetch at hfetch
  rw [Function.update_apply] at hfetch
  split at hfetch
  · obtain rfl := Option.some.inj hfetch
    exact ⟨le_rfl, nofun⟩
  · simp at hfetch

/-- A good response comes for a call, and is noted in one of the logs. -/
theorem Sound.respond (hsound : Sound config browser) {component : Component}
    (hpage : browser.pages component = some page) {call status : ℕ}
    {fetch : Fetch Content} (hfetch : page.fetches call = some fetch)
    {content : Content} {hook : Hook Body}
    (hstep : Polling.step (config.parameters page.path)
      (page.reading browser.storage) (.respond call status) = some hook)
    (hgrows : Grows browser next)
    (hstorage : next.storage = browser.storage)
    (hcache : next.dataCache = browser.dataCache)
    (hpages : next.pages = (browser.setPage component { page with
      hook := hook
      fetches := page.answered call fetch content }).pages)
    (hanswers : ∀ answer ∈ next.answers,
      answer ∈ browser.answers ∨ answer.time ≤ next.clock)
    (hputs : ∀ put ∈ next.puts, put ∈ browser.puts ∨ Known next put.1 put.2)
    (hcame : Came next page.path content next.clock) :
    Sound config next := by
  apply hsound.grows hgrows hanswers
  · intro path entry hentry
    rw [hstorage] at hentry
    exact .inl hentry
  · intro path cached hcached
    rw [hcache] at hcached
    exact .inl hcached
  · exact hputs
  · intro other found hfound
    rw [hpages] at hfound
    rcases pages_setPage hfound with hold | rfl
    · exact .inl hold
    · right
      have hbefore := (hsound.pages component page hpage).grows hgrows
      have hkept : ∀ path entry, next.storage path = some entry →
          Vouched config next path entry ∧ entry.fetchedAt ≤ next.clock := by
        intro path entry hentry
        rw [hstorage] at hentry
        obtain ⟨hvouched, htime⟩ := hsound.storage path entry hentry
        exact ⟨hvouched.grows hgrows, htime.trans hgrows.clock⟩
      rw [← hstorage] at hstep
      exact hbefore.react hkept hstep (by simp) fun other found hfound =>
        hbefore.answered hfetch hcame hfound

variable [DecidableEq Path]

/-- A body is read. -/
theorem Sound.read (hsound : Sound config browser) {component : Component}
    (hpage : browser.pages component = some page) {call : ℕ}
    {fetch : Fetch Content} (hfetch : page.fetches call = some fetch)
    {content : Content} (hresponse : fetch.response = some content)
    {body : Body} (hjson : config.json content = some body) {hook : Hook Body}
    (hstep : Polling.step (config.parameters page.path)
      (page.reading browser.storage) (.read call
        ⟨body, browser.clock, browser.clock - fetch.startedAt⟩) = some hook)
    (written : Bool) :
    Sound config { browser.setPage component { page with hook := hook } with
      storage :=
        if written then Function.update browser.storage page.path
          (some ⟨body, browser.clock, browser.clock - fetch.startedAt⟩)
        else browser.storage } := by
  have hbefore := hsound.pages component page hpage
  have hvouched := vouched_read hbefore hfetch hresponse hjson
  have hafter : Page.Sound config browser { page with hook := hook } := by
    refine ⟨hbefore.fetches, fun entry hentry => ?_,
      reachable_reading hbefore.hook _ hstep⟩
    obtain rfl := Option.some.inj ((entry_of_read hstep).symm.trans hentry)
    exact ⟨hvouched, le_rfl⟩
  have hgrows : Grows browser
      { browser.setPage component { page with hook := hook } with
        storage :=
          if written then Function.update browser.storage page.path
            (some ⟨body, browser.clock, browser.clock - fetch.startedAt⟩)
          else browser.storage } :=
    ⟨le_rfl, fun _ => id, fun _ => id⟩
  apply hsound.grows hgrows
  · exact fun answer hanswer => .inl hanswer
  · intro path entry hentry
    change (if written then Function.update browser.storage page.path _
      else browser.storage) path = some entry at hentry
    split at hentry
    · rw [Function.update_apply] at hentry
      split at hentry
      · next hpath =>
          obtain rfl := Option.some.inj hentry
          rw [hpath]
          exact .inr ⟨hvouched.grows hgrows, le_rfl⟩
      · exact .inl hentry
    · exact .inl hentry
  · exact fun path cached hcached => .inl hcached
  · exact fun put hput => .inl hput
  · intro other found hfound
    rcases pages_setPage hfound with hold | rfl
    · exact .inl hold
    · exact .inr (hafter.grows hgrows)

/-- Every step keeps the account. -/
theorem Sound.step {action : Action Component Path Content Body}
    (hsound : Sound config browser)
    (hstep : step config browser action = some next) : Sound config next := by
  cases action with
  | elapse duration =>
      obtain rfl := Option.some.inj hstep
      exact hsound.grows ⟨Nat.le_add_right _ _, fun _ => id, fun _ => id⟩
        (fun _ => .inl) (fun _ _ => .inl) (fun _ _ => .inl) (fun _ => .inl)
        fun _ _ => .inl
  | mount component path =>
      simp only [Offline.step] at hstep
      split at hstep
      · simp at hstep
      · obtain rfl := Option.some.inj hstep
        exact hsound.mount component path
  | react component event =>
      obtain ⟨page, hpage, hnext⟩ := Option.bind_eq_some_iff.mp hstep
      obtain ⟨hquiet, hnext⟩ := Option.ite_none_right_eq_some.mp hnext
      obtain ⟨hook, hhook, hnext⟩ := Option.bind_eq_some_iff.mp hnext
      obtain rfl := Option.some.inj hnext
      have hbefore := hsound.pages component page hpage
      have hevent : ∀ id entry, event ≠ .read id entry := by
        rintro id entry rfl
        exact Bool.noConfusion hquiet
      exact hsound.setPage (hbefore.react hsound.storage hhook hevent
        fun _ _ => hbefore.started hook) component
  | answer component call status content controlled =>
      obtain ⟨page, hpage, hnext⟩ := Option.bind_eq_some_iff.mp hstep
      obtain ⟨fetch, hfetch, hnext⟩ := Option.bind_eq_some_iff.mp hnext
      obtain ⟨hook, hhook, hnext⟩ := Option.bind_eq_some_iff.mp hnext
      split at hnext
      · obtain rfl := Option.some.inj hnext
        have hnew : ⟨page.path, content, browser.clock⟩ ∈
            browser.answers ++ [⟨page.path, content, browser.clock⟩] :=
          List.mem_append_right _ (List.mem_singleton.mpr rfl)
        refine hsound.respond hpage hfetch hhook
          ⟨le_rfl, List.subset_append_left _ _, fun _ => id⟩ rfl rfl rfl ?_ ?_
          (came_of_answered hnew)
        · intro answer hanswer
          rcases List.mem_append.mp hanswer with hold | hlast
          · exact .inl hold
          · rw [List.mem_singleton.mp hlast]
            exact .inr le_rfl
        · intro put hput
          change put ∈ (if controlled then browser.puts ++ _ else browser.puts)
            at hput
          split at hput
          · rcases List.mem_append.mp hput with hold | hlast
            · exact .inl hold
            · rw [List.mem_singleton.mp hlast]
              exact .inr ⟨browser.clock, hnew, le_rfl⟩
          · exact .inl hput
      · obtain rfl := Option.some.inj hnext
        have hbefore := hsound.pages component page hpage
        exact hsound.setPage
          (hbefore.react hsound.storage hhook (by simp) hbefore.fetches)
          component
  | serve path content =>
      obtain rfl := Option.some.inj hstep
      have hnew : ⟨path, content, browser.clock⟩ ∈
          browser.answers ++ [⟨path, content, browser.clock⟩] :=
        List.mem_append_right _ (List.mem_singleton.mpr rfl)
      refine hsound.grows ⟨le_rfl, List.subset_append_left _ _, fun _ => id⟩
        ?_ (fun _ _ => .inl) (fun _ _ => .inl) ?_ fun _ _ => .inl
      · intro answer hanswer
        rcases List.mem_append.mp hanswer with hold | hlast
        · exact .inl hold
        · rw [List.mem_singleton.mp hlast]
          exact .inr le_rfl
      · intro put hput
        rcases List.mem_append.mp hput with hold | hlast
        · exact .inl hold
        · rw [List.mem_singleton.mp hlast]
          exact .inr ⟨browser.clock, hnew, le_rfl⟩
  | fallback component call =>
      obtain ⟨page, hpage, hnext⟩ := Option.bind_eq_some_iff.mp hstep
      obtain ⟨fetch, hfetch, hnext⟩ := Option.bind_eq_some_iff.mp hnext
      obtain ⟨content, hcontent, hnext⟩ := Option.bind_eq_some_iff.mp hnext
      obtain ⟨hook, hhook, hnext⟩ := Option.bind_eq_some_iff.mp hnext
      obtain rfl := Option.some.inj hnext
      exact hsound.respond hpage hfetch hhook
        ⟨le_rfl, fun _ => id, List.subset_append_left _ _⟩ rfl rfl rfl
        (fun _ => .inl) (fun _ => .inl)
        ⟨hsound.dataCache page.path content hcontent,
          .inr (List.mem_append_right _ (List.mem_singleton.mpr rfl))⟩
  | read component call written =>
      obtain ⟨page, hpage, hnext⟩ := Option.bind_eq_some_iff.mp hstep
      obtain ⟨fetch, hfetch, hnext⟩ := Option.bind_eq_some_iff.mp hnext
      obtain ⟨content, hresponse, hnext⟩ := Option.bind_eq_some_iff.mp hnext
      obtain ⟨body, hjson, hnext⟩ := Option.bind_eq_some_iff.mp hnext
      obtain ⟨hook, hhook, hnext⟩ := Option.bind_eq_some_iff.mp hnext
      obtain rfl := Option.some.inj hnext
      exact hsound.read hpage hfetch hresponse hjson hhook written
  | put index stored =>
      obtain ⟨⟨path, content⟩, hput, hnext⟩ := Option.bind_eq_some_iff.mp hstep
      obtain rfl := Option.some.inj hnext
      have hknown := hsound.puts _ (List.mem_of_getElem? hput)
      refine hsound.grows ⟨le_rfl, fun _ => id, fun _ => id⟩ (fun _ => .inl)
        (fun _ _ => .inl) ?_ ?_ fun _ _ => .inl
      · intro other cached hcached
        change (if stored then Function.update browser.dataCache path _
          else browser.dataCache) other = some cached at hcached
        split at hcached
        · rw [Function.update_apply] at hcached
          split at hcached
          · next hsame =>
              obtain rfl := Option.some.inj hcached
              rw [hsame]
              exact .inr hknown
          · exact .inl hcached
        · exact .inl hcached
      · exact fun put hmem => .inl (List.mem_of_mem_eraseIdx hmem)
  | clear path =>
      obtain rfl := Option.some.inj hstep
      refine hsound.grows ⟨le_rfl, fun _ => id, fun _ => id⟩ (fun _ => .inl) ?_
        (fun _ _ => .inl) (fun _ => .inl) fun _ _ => .inl
      intro other entry hentry
      change Function.update browser.storage path none other = _ at hentry
      rw [Function.update_apply] at hentry
      split at hentry
      · simp at hentry
      · exact .inl hentry
  | evict path =>
      obtain rfl := Option.some.inj hstep
      refine hsound.grows ⟨le_rfl, fun _ => id, fun _ => id⟩ (fun _ => .inl)
        (fun _ _ => .inl) ?_ (fun _ => .inl) fun _ _ => .inl
      intro other content hcontent
      change Function.update browser.dataCache path none other = _ at hcontent
      rw [Function.update_apply] at hcontent
      split at hcontent
      · simp at hcontent
      · exact .inl hcontent

theorem sound_of_reachable
    (hreach : (system Component config).Reachable browser) :
    Sound config browser := by
  apply System.Reachable.invariant (Sound config) _ _ hreach
  · rintro start ⟨hstorage, hcache, hputs, hpages, hanswers, -⟩
    constructor
    · simp [hanswers]
    · simp [hstorage]
    · simp [hcache]
    · simp [hputs]
    · simp [hpages]
  · exact fun _ _ _ hbefore hstep => hbefore.step hstep

end Account

/-! ## What is shown does not get older -/

section Ages

variable {Component Path Content Body : Type}
  {config : Config Path Content Body}
  {browser next : Browser Component Path Content Body}

/-- The local storage takes every entry. -/
def Writes (_ : Browser Component Path Content Body)
    (action : Action Component Path Content Body)
    (_ : Browser Component Path Content Body) : Prop :=
  ∀ component call, action ≠ .read component call false

/-- What a component shows is not newer than what is stored for its path. -/
def StoresNewest (browser : Browser Component Path Content Body) : Prop :=
  ∀ component page shown stored, browser.pages component = some page →
    page.hook.view.entry = some shown →
      browser.storage page.path = some stored →
        shown.fetchedAt ≤ stored.fetchedAt

/-- A component goes on to show something, by its stamp not older. -/
def KeepsShowing (browser next : Browser Component Path Content Body) : Prop :=
  ∀ component page shown, browser.pages component = some page →
    page.hook.view.entry = some shown →
      ∃ later entry, next.pages component = some later ∧
        later.hook.view.entry = some entry ∧
        shown.fetchedAt ≤ entry.fetchedAt

/-- Where no page changes and nothing new is stored. -/
theorem newest_of_same (hnewest : StoresNewest browser)
    (hpages : next.pages = browser.pages)
    (hstorage : ∀ path entry, next.storage path = some entry →
      browser.storage path = some entry) :
    StoresNewest next ∧ KeepsShowing browser next := by
  constructor
  · intro component page shown stored hpage hshown hstored
    rw [hpages] at hpage
    exact hnewest component page shown stored hpage hshown
      (hstorage _ _ hstored)
  · intro component page shown hpage hshown
    exact ⟨page, shown, by rw [hpages, hpage], hshown, le_rfl⟩

variable [DecidableEq Component]

/-- Where one component shows what it has shown or what is stored. -/
theorem newest_of_old (hnewest : StoresNewest browser)
    {component : Component} {page : Page Path Content Body}
    (hpage : browser.pages component = some page) {hook : Hook Body}
    (hold : ShowsOld (page.reading browser.storage) hook)
    (fetches : ℕ → Option (Fetch Content))
    (hstorage : next.storage = browser.storage)
    (hpages : next.pages = (browser.setPage component
      { page with hook := hook, fetches := fetches }).pages) :
    StoresNewest next ∧ KeepsShowing browser next := by
  constructor
  · intro other found shown stored hfound hshown hstored
    rw [hstorage] at hstored
    rw [hpages] at hfound
    rcases pages_setPage hfound with hbefore | rfl
    · exact hnewest other found shown stored hbefore hshown hstored
    · rcases hold with hsame | ⟨entry, hentry, hnow⟩
      · exact hnewest component page shown stored hpage
          (hsame.symm.trans hshown) hstored
      · obtain rfl := Option.some.inj (hnow.symm.trans hshown)
        obtain rfl := Option.some.inj (hentry.symm.trans hstored)
        exact le_rfl
  · intro other found shown hfound hshown
    rw [hpages]
    by_cases hother : other = component
    · subst hother
      obtain rfl := Option.some.inj (hpage.symm.trans hfound)
      rcases hold with hsame | ⟨entry, hentry, hnow⟩
      · exact ⟨_, shown, Function.update_self .., hsame.trans hshown, le_rfl⟩
      · exact ⟨_, entry, Function.update_self .., hnow,
          hnewest other page shown entry hpage hshown hentry⟩
    · refine ⟨found, shown, ?_, hshown, le_rfl⟩
      exact (Function.update_of_ne hother ..).trans hfound

variable [DecidableEq Path]

/-- A body that is read is shown and stored with the present time. -/
theorem newest_of_read (hsound : Sound config browser)
    (hnewest : StoresNewest browser) {component : Component}
    {page : Page Path Content Body}
    (hpage : browser.pages component = some page) {hook : Hook Body}
    {entry : Entry Body} (hentry : hook.view.entry = some entry)
    (hnow : entry.fetchedAt = browser.clock)
    (hstorage : next.storage =
      Function.update browser.storage page.path (some entry))
    (hpages : next.pages =
      (browser.setPage component { page with hook := hook }).pages) :
    StoresNewest next ∧ KeepsShowing browser next := by
  constructor
  · intro other found shown stored hfound hshown hstored
    rw [hstorage, Function.update_apply] at hstored
    rw [hpages] at hfound
    rcases pages_setPage hfound with hbefore | rfl
    · split at hstored
      · obtain rfl := Option.some.inj hstored
        rw [hnow]
        exact ((hsound.pages other found hbefore).shown shown hshown).2
      · exact hnewest other found shown stored hbefore hshown hstored
    · rw [if_pos rfl] at hstored
      obtain rfl := Option.some.inj (hentry.symm.trans hshown)
      obtain rfl := Option.some.inj hstored
      exact le_rfl
  · intro other found shown hfound hshown
    rw [hpages]
    by_cases hother : other = component
    · subst hother
      refine ⟨_, entry, Function.update_self .., hentry, ?_⟩
      rw [hnow]
      exact ((hsound.pages other found hfound).shown shown hshown).2
    · refine ⟨found, shown, ?_, hshown, le_rfl⟩
      exact (Function.update_of_ne hother ..).trans hfound

theorem newest_step {action : Action Component Path Content Body}
    (hsound : Sound config browser) (hnewest : StoresNewest browser)
    (hstep : step config browser action = some next)
    (hwrites : Writes browser action next) :
    StoresNewest next ∧ KeepsShowing browser next := by
  cases action with
  | elapse duration =>
      obtain rfl := Option.some.inj hstep
      exact newest_of_same hnewest rfl fun _ _ => id
  | mount component path =>
      simp only [Offline.step] at hstep
      split at hstep
      · simp at hstep
      · next habsent =>
          obtain rfl := Option.some.inj hstep
          constructor
          · intro other found shown stored hfound hshown hstored
            rcases pages_setPage hfound with hbefore | rfl
            · exact hnewest other found shown stored hbefore hshown hstored
            · simp [Polling.mount, Hook.start, loading] at hshown
          · intro other found shown hfound hshown
            have hother : other ≠ component := by
              rintro rfl
              rw [habsent] at hfound
              simp at hfound
            refine ⟨found, shown, ?_, hshown, le_rfl⟩
            exact (Function.update_of_ne hother ..).trans hfound
  | react component event =>
      obtain ⟨page, hpage, hnext⟩ := Option.bind_eq_some_iff.mp hstep
      obtain ⟨hquiet, hnext⟩ := Option.ite_none_right_eq_some.mp hnext
      obtain ⟨hook, hhook, hnext⟩ := Option.bind_eq_some_iff.mp hnext
      obtain rfl := Option.some.inj hnext
      have hold := showsOld_of_step hhook (by
        rintro id entry rfl
        exact Bool.noConfusion hquiet)
      exact newest_of_old hnewest hpage hold _ rfl rfl
  | answer component call status content controlled =>
      obtain ⟨page, hpage, hnext⟩ := Option.bind_eq_some_iff.mp hstep
      obtain ⟨fetch, -, hnext⟩ := Option.bind_eq_some_iff.mp hnext
      obtain ⟨hook, hhook, hnext⟩ := Option.bind_eq_some_iff.mp hnext
      have hold := showsOld_of_step hhook (by simp)
      split at hnext
      · obtain rfl := Option.some.inj hnext
        exact newest_of_old hnewest hpage hold _ rfl rfl
      · obtain rfl := Option.some.inj hnext
        exact newest_of_old hnewest hpage hold page.fetches rfl rfl
  | serve path content =>
      obtain rfl := Option.some.inj hstep
      exact newest_of_same hnewest rfl fun _ _ => id
  | fallback component call =>
      obtain ⟨page, hpage, hnext⟩ := Option.bind_eq_some_iff.mp hstep
      obtain ⟨fetch, -, hnext⟩ := Option.bind_eq_some_iff.mp hnext
      obtain ⟨content, -, hnext⟩ := Option.bind_eq_some_iff.mp hnext
      obtain ⟨hook, hhook, hnext⟩ := Option.bind_eq_some_iff.mp hnext
      obtain rfl := Option.some.inj hnext
      have hold := showsOld_of_step hhook (by simp)
      exact newest_of_old hnewest hpage hold _ rfl rfl
  | read component call written =>
      obtain ⟨page, hpage, hnext⟩ := Option.bind_eq_some_iff.mp hstep
      obtain ⟨fetch, -, hnext⟩ := Option.bind_eq_some_iff.mp hnext
      obtain ⟨content, -, hnext⟩ := Option.bind_eq_some_iff.mp hnext
      obtain ⟨body, -, hnext⟩ := Option.bind_eq_some_iff.mp hnext
      obtain ⟨hook, hhook, hnext⟩ := Option.bind_eq_some_iff.mp hnext
      obtain rfl := Option.some.inj hnext
      cases written with
      | false => exact absurd rfl (hwrites component call)
      | true =>
          exact newest_of_read hsound hnewest hpage (entry_of_read hhook) rfl
            rfl rfl
  | put index stored =>
      obtain ⟨put, -, hnext⟩ := Option.bind_eq_some_iff.mp hstep
      obtain rfl := Option.some.inj hnext
      exact newest_of_same hnewest rfl fun _ _ => id
  | clear path =>
      obtain rfl := Option.some.inj hstep
      refine newest_of_same hnewest rfl fun other entry hentry => ?_
      change Function.update browser.storage path none other = _ at hentry
      rw [Function.update_apply] at hentry
      split at hentry
      · simp at hentry
      · exact hentry
  | evict path =>
      obtain rfl := Option.some.inj hstep
      exact newest_of_same hnewest rfl fun _ _ => id

theorem newest_of_reachable
    (hreach : (system Component config).ReachableVia Writes browser) :
    StoresNewest browser := by
  induction hreach with
  | init hinit =>
      intro component page shown stored hpage
      rw [hinit.2.2.2.1] at hpage
      simp at hpage
  | step hbefore hstep hwrites ih =>
      exact (newest_step (sound_of_reachable hbefore.reachable) ih hstep
        hwrites).1

end Ages

section Result

variable {Component Path Content Body : Type} [DecidableEq Component]
  [DecidableEq Path] {config : Config Path Content Body}
  {browser : Browser Component Path Content Body}

/-- In every run whatever is shown, stored or cached for a path was once a good
answer of the network for it, and came within the time that its stamp tells:
from the network itself, unless the service worker has answered the path from
its cache.  As long as the local storage takes every entry, a component that
shows something goes on to show something, and nothing that has an older
stamp. -/
theorem shown_data_vouched
    (hreach : (system Component config).Reachable browser) :
    Sound config browser ∧
    (∀ component page entry, browser.pages component = some page →
      page.hook.view.entry = some entry →
      (∀ fallback ∈ browser.fallbacks, fallback.path ≠ page.path) →
        ∃ answer ∈ browser.answers, answer.path = page.path ∧
          config.json answer.content = some entry.body ∧
          answer.time ≤ entry.fetchedAt ∧
          entry.fetchedAt ≤ answer.time + entry.latencyMs) ∧
    ((system Component config).ReachableVia Writes browser →
      ∀ action next, step config browser action = some next →
        Writes browser action next → KeepsShowing browser next) := by
  have hsound := sound_of_reachable hreach
  refine ⟨hsound, ?_, ?_⟩
  · intro component page entry hpage hentry hnever
    obtain ⟨⟨content, received, hjson, hcame, hbefore, hwithin⟩, -⟩ :=
      (hsound.pages component page hpage).shown entry hentry
    rcases hcame.source with hanswer | hfallback
    · exact ⟨_, hanswer, rfl, hjson, hbefore, hwithin⟩
    · exact absurd rfl (hnever _ hfallback)
  · intro hwritten action next hstep hwrites
    exact (newest_step hsound (newest_of_reachable hwritten) hstep hwrites).2

def unitConfig : Config Unit ℕ ℕ where
  intervalMs _ := 15000
  truthy _ := true
  json := some

def firstVisit : Browser Unit Unit ℕ ℕ where
  clock := 0
  storage _ := none
  dataCache _ := none
  puts := []
  pages _ := none
  answers := []
  fallbacks := []

/-- The network fails after the first request. -/
def networkLost : List (Action Unit Unit ℕ ℕ) :=
  [.mount () (), .answer () 0 200 1 true, .put 0 true, .read () 0 true,
    .elapse 15000, .react () (.expire 0), .fallback () 1, .read () 1 true]

/-- The body of the first request is shown as live, with the time of the
second. -/
theorem network_lost_shown_live :
    ∃ browser ∈ (system Unit unitConfig).run firstVisit networkLost,
      (browser.pages ()).map (fun page =>
        (page.hook.view.live, page.hook.view.entry.map Entry.fetchedAt)) =
          some (true, some 15000) ∧
      browser.answers.map Answer.time = [0] ∧
      Sound unitConfig browser := by
  obtain ⟨browser, hrun, hshown, hanswers⟩ :
      ∃ browser ∈ (system Unit unitConfig).run firstVisit networkLost,
        (browser.pages ()).map (fun page =>
          (page.hook.view.live, page.hook.view.entry.map Entry.fetchedAt)) =
            some (true, some 15000) ∧
        browser.answers.map Answer.time = [0] := by
    decide +kernel
  have hinit : (system Unit unitConfig).Init firstVisit :=
    ⟨fun _ => rfl, fun _ => rfl, rfl, fun _ => rfl, rfl, rfl⟩
  exact ⟨browser, hrun, hshown, hanswers,
    (shown_data_vouched (System.reachable_of_run hinit hrun)).1⟩

end Result

end UTTG.Web.Offline
