import UTTG.Providers.Circuit

/-!
# The rounds of a request

`get_bytes` makes up to three rounds.  A round tries the clients in order and
goes to the next one only where a client does not reach the provider.  What a
call does is kept as the list of its events, so that the rounds, the failures
that are recorded and what ends the call can be read off.
-/

namespace UTTG.Rounds

open UTTG.Circuit

/-! ## One request -/

/-- The exceptions of `httpx` that the code names, and the others of their
classes. -/
inductive HttpxError where
  | connectError
  | connectTimeout
  | proxyError
  /-- `ReadTimeout`, `WriteTimeout` or `PoolTimeout`. -/
  | otherTimeout
  /-- `ReadError`, `WriteError` or `CloseError`. -/
  | otherNetworkError
  | remoteProtocolError
  deriving DecidableEq

/-- What `_read` raises. -/
inductive Raised where
  | httpx (error : HttpxError)
  | providerUnavailable (message : String)
  | providerQuota (message : String)
  | providerRequest (message : String)
  | providerResponseTooLarge (message : String)
  deriving DecidableEq

abbrev Bytes := List UInt8

/-- A response: its body comes in chunks, and may break off. -/
structure Response where
  status : ℕ
  /-- `int(response.headers.get("Content-Length"))`, where it is not empty. -/
  contentLength : Option ℤ
  chunks : List Bytes
  broken : Option HttpxError

/-- What `client.stream` meets. -/
inductive Exchange where
  | failed (error : HttpxError)
  | answered (response : Response)

/-- `ProviderTransport`; `__init__` makes one or two clients. -/
structure ProviderTransport (Client : Type*) where
  providerId : String
  maximumResponseBytes : ℕ
  clients : List Client
  nonempty : clients ≠ []

/-- `self._clients[-1]`. -/
def ProviderTransport.lastClient {Client : Type*}
    (transport : ProviderTransport Client) : Client :=
  transport.clients.getLast transport.nonempty

/-- The loop over the chunks. -/
def readChunks (maximum : ℕ) (tooLarge : Raised) (broken : Option HttpxError) :
    Bytes → List Bytes → Except Raised Bytes
  | buffer, [] =>
      match broken with
      | none => .ok buffer
      | some error => .error (.httpx error)
  | buffer, chunk :: rest =>
      if maximum < (buffer ++ chunk).length then .error tooLarge
      else readChunks maximum tooLarge broken (buffer ++ chunk) rest

section Model

variable {Client : Type*} (transport : ProviderTransport Client)

/-- `_read`. -/
def read : Exchange → Except Raised Bytes
  | .failed error => .error (.httpx error)
  | .answered response =>
      if response.status = 429 then
        .error (.providerQuota
          ("Provider quota exceeded: " ++ transport.providerId))
      else if 500 ≤ response.status then
        .error (.providerUnavailable ("Provider temporarily failed: " ++
          transport.providerId ++ " (" ++ toString response.status ++ ")"))
      else if 400 ≤ response.status then
        .error (.providerRequest ("Provider rejected request: " ++
          transport.providerId ++ " (" ++ toString response.status ++ ")"))
      else if response.contentLength.any fun length =>
          decide ((transport.maximumResponseBytes : ℤ) < length) then
        .error (.providerResponseTooLarge transport.providerId)
      else
        readChunks transport.maximumResponseBytes
          (.providerResponseTooLarge transport.providerId) response.broken []
          response.chunks

/-! ## One round -/

/-- `except (httpx.ConnectError, httpx.ConnectTimeout, httpx.ProxyError)`. -/
def Raised.fallsBack : Raised → Bool
  | .httpx .connectError | .httpx .connectTimeout | .httpx .proxyError => true
  | _ => false

/-- `except (httpx.TimeoutException, httpx.NetworkError,
httpx.RemoteProtocolError, ProviderUnavailableError)`. -/
def Raised.retried : Raised → Bool
  | .httpx .connectTimeout | .httpx .otherTimeout => true
  | .httpx .connectError | .httpx .otherNetworkError => true
  | .httpx .remoteProtocolError => true
  | .providerUnavailable _ => true
  | _ => false

/-- `except (ProviderQuotaError, ProviderRequestError)`. -/
def Raised.rejected : Raised → Bool
  | .providerQuota _ | .providerRequest _ => true
  | _ => false

/-- A request through a client, and how its `_read` ended. -/
abbrev Send (Client : Type*) := Client × Except Raised Bytes

variable (exchange : ℕ → Client → Exchange)

/-- The loop of `_read_with_fallback`, when the call has sent this many
requests. -/
def tryClients [DecidableEq Client] :
    ℕ → List Client → List (Send Client) × Except Raised Bytes
  | _, [] => ([], .error (.providerUnavailable
      ("No transport configured: " ++ transport.providerId)))
  | sent, client :: rest =>
      match read transport (exchange sent client) with
      | .ok payload => ([(client, .ok payload)], .ok payload)
      | .error raised =>
          if raised.fallsBack then
            if client = transport.lastClient then
              ([(client, .error raised)], .error raised)
            else
              let (sends, result) := tryClients (sent + 1) rest
              ((client, .error raised) :: sends, result)
          else ([(client, .error raised)], .error raised)

/-- `_read_with_fallback`. -/
def readWithFallback [DecidableEq Client] (sent : ℕ) :
    List (Send Client) × Except Raised Bytes :=
  tryClients transport exchange sent transport.clients

/-! ## The call -/

/-- What a call does. -/
inductive Event (Client : Type*) where
  | sent (send : Send Client)
  | slept (seconds : ℚ)
  /-- It calls `_record_failure`. -/
  | recorded
  /-- It calls `_clear_failures`. -/
  | cleared

/-- The loop `for attempt in range(3)`, with this many attempts left. -/
def attemptsFrom [DecidableEq Client] :
    ℕ → ℕ → ℕ → List (Event Client) × Except Raised Bytes
  | 0, _, _ => ([], .error (.providerUnavailable
      ("Provider request failed: " ++ transport.providerId)))
  | left + 1, attempt, sent =>
      let (sends, result) := readWithFallback transport exchange sent
      let events := sends.map .sent
      match result with
      | .ok payload => (events ++ [.cleared], .ok payload)
      | .error raised =>
          if raised.retried then
            if attempt = 2 then (events ++ [.recorded], .error raised)
            else
              let (later, final) :=
                attemptsFrom left (attempt + 1) (sent + sends.length)
              (events ++ .slept (1 / 2 * 2 ^ attempt) :: later, final)
          else if raised.rejected then (events ++ [.recorded], .error raised)
          else (events, .error raised)

/-- `get_bytes`. -/
def getBytes [DecidableEq Client] (circuitIsOpen : Bool) :
    List (Event Client) × Except Raised Bytes :=
  if circuitIsOpen then
    ([], .error (.providerUnavailable
      ("Provider circuit is open: " ++ transport.providerId)))
  else attemptsFrom transport exchange 3 0 0

/-! ## What a round does -/

/-- The request raised an exception that falls back. -/
def FellBack (send : Send Client) : Prop :=
  ∃ raised, send.2 = .error raised ∧ raised.fallsBack = true

/-- A round goes through the first of the clients, ends with its result, and
goes from one client to the next only after an exception that falls back; it
ends with such an exception only at the last client. -/
structure Round (clients : List Client) (sent : ℕ)
    (out : List (Send Client) × Except Raised Bytes) : Prop where
  ends : ∃ earlier client, out.1 = earlier ++ [(client, out.2)] ∧
    (∀ send ∈ earlier, FellBack send) ∧
      ∀ raised, out.2 = .error raised → raised.fallsBack = true →
        client = transport.lastClient
  clients : out.1.map Prod.fst <+: clients
  answered : ∀ index send, out.1[index]? = some send →
    send.2 = read transport (exchange (sent + index) send.1)

variable {transport exchange}

theorem Round.single {client : Client} {rest : List Client} {sent : ℕ}
    {result : Except Raised Bytes}
    (hread : read transport (exchange sent client) = result)
    (hlast : ∀ raised, result = .error raised → raised.fallsBack = true →
      client = transport.lastClient) :
    Round transport exchange (client :: rest) sent
      ([(client, result)], result) where
  ends := ⟨[], client, rfl, by simp, hlast⟩
  clients := List.singleton_prefix_cons_iff.mpr rfl
  answered index send hsend := by
    cases index with
    | zero =>
        obtain rfl := Option.some.inj hsend
        exact hread.symm
    | succ index => cases hsend

theorem Round.cons {client : Client} {rest : List Client} {sent : ℕ}
    {raised : Raised}
    (hread : read transport (exchange sent client) = .error raised)
    (hfalls : raised.fallsBack = true)
    {out : List (Send Client) × Except Raised Bytes}
    (hround : Round transport exchange rest (sent + 1) out) :
    Round transport exchange (client :: rest) sent
      ((client, .error raised) :: out.1, out.2) where
  ends := by
    obtain ⟨earlier, last, hsends, hearlier, hlast⟩ := hround.ends
    refine ⟨(client, .error raised) :: earlier, last, ?_, ?_, hlast⟩
    · rw [hsends, List.cons_append]
    · exact List.forall_mem_cons.mpr ⟨⟨raised, rfl, hfalls⟩, hearlier⟩
  clients := List.cons_prefix_cons.mpr ⟨rfl, hround.clients⟩
  answered index send hsend := by
    cases index with
    | zero =>
        obtain rfl := Option.some.inj hsend
        exact hread.symm
    | succ index =>
        rw [hround.answered index send hsend, Nat.add_right_comm, Nat.add_assoc]

theorem tryClients_round [DecidableEq Client] {clients : List Client}
    (hlast : clients.getLast? = some transport.lastClient) (sent : ℕ) :
    Round transport exchange clients sent
      (tryClients transport exchange sent clients) := by
  induction clients generalizing sent with
  | nil => cases hlast
  | cons client rest ih =>
      cases hread : read transport (exchange sent client) with
      | ok payload =>
          have heq : tryClients transport exchange sent (client :: rest) =
              ([(client, .ok payload)], .ok payload) := by
            simp [tryClients, hread]
          rw [heq]
          exact .single hread (by simp)
      | error raised =>
          by_cases hstays : raised.fallsBack = true →
              client = transport.lastClient
          · have heq : tryClients transport exchange sent (client :: rest) =
                ([(client, .error raised)], .error raised) := by
              cases hfalls : raised.fallsBack with
              | false => simp [tryClients, hread, hfalls]
              | true =>
                  have hclient := hstays hfalls
                  simp only [tryClients, hread, hfalls, if_pos hclient,
                    if_true]
            rw [heq]
            refine .single hread fun other hother hback => hstays ?_
            obtain rfl := Except.error.inj hother
            exact hback
          · obtain ⟨hfalls, hclient⟩ := not_forall.mp hstays
            have heq : tryClients transport exchange sent (client :: rest) =
                ((client, .error raised) ::
                    (tryClients transport exchange (sent + 1) rest).1,
                  (tryClients transport exchange (sent + 1) rest).2) := by
              simp [tryClients, hread, hfalls, hclient]
            rw [heq]
            refine .cons hread hfalls (ih ?_ (sent + 1))
            cases rest with
            | nil => exact absurd (Option.some.inj hlast) hclient
            | cons next others => exact hlast

theorem readWithFallback_round [DecidableEq Client] (sent : ℕ) :
    Round transport exchange transport.clients sent
      (readWithFallback transport exchange sent) :=
  tryClients_round (List.getLast?_eq_some_getLast transport.nonempty) sent

/-! ## What a call does -/

/-- The requests among the events. -/
def sendsOf (events : List (Event Client)) : List (Send Client) :=
  events.filterMap fun
    | .sent send => some send
    | _ => none

def Event.isSlept : Event Client → Bool
  | .slept _ => true
  | _ => false

/-- The requests of each round; a sleep separates two rounds. -/
def roundsOf (events : List (Event Client)) : List (List (Send Client)) :=
  (events.splitOnP Event.isSlept).map sendsOf

/-- A call goes on after this event: a sleep, or a request with an exception
that falls back or is retried. -/
def Event.Passing : Event Client → Prop
  | .slept _ => True
  | .sent (_, .error raised) =>
      raised.fallsBack = true ∨ raised.retried = true
  | _ => False

/-- What a call does after its last request: a payload clears the failures, an
exception is recorded once, and an oversized body not at all. -/
def closing : Except Raised Bytes → List (Event Client)
  | .ok _ => [.cleared]
  | .error (.providerResponseTooLarge _) => []
  | .error _ => [.recorded]

variable (transport exchange) in
/-- A call of up to so many rounds, in each of which it moves to the next client
only after an exception that falls back; it ends with its first request that is
not passed over, and what follows that. -/
structure Course (left sent : ℕ)
    (out : List (Event Client) × Except Raised Bytes) : Prop where
  rounds_le : (roundsOf out.1).length ≤ left
  rounds : ∀ round ∈ roundsOf out.1,
    round ≠ [] ∧ round.map Prod.fst <+: transport.clients ∧
      ∀ send ∈ round.dropLast, FellBack send
  ends : ∃ earlier client,
    out.1 = earlier ++ .sent (client, out.2) :: closing out.2 ∧
      ∀ event ∈ earlier, event.Passing
  answered : ∀ index send, (sendsOf out.1)[index]? = some send →
    send.2 = read transport (exchange (sent + index) send.1)

theorem sendsOf_map_sent (sends : List (Send Client))
    (events : List (Event Client)) :
    sendsOf (sends.map .sent ++ events) = sends ++ sendsOf events := by
  rw [sendsOf, List.filterMap_append, List.filterMap_map]
  exact congrArg (· ++ sendsOf events) (List.filterMap_some)

theorem sendsOf_closing (result : Except Raised Bytes) :
    sendsOf (closing result : List (Event Client)) = [] := by
  cases result with
  | ok payload => rfl
  | error raised => cases raised <;> rfl

theorem isSlept_closing (result : Except Raised Bytes) :
    ∀ event ∈ (closing result : List (Event Client)),
      event.isSlept = false := by
  cases result with
  | ok payload => simp [closing, Event.isSlept]
  | error raised => cases raised <;> simp [closing, Event.isSlept]

/-- A round stands between two sleeps. -/
theorem roundsOf_append_slept (sends : List (Send Client)) (seconds : ℚ)
    (later : List (Event Client)) :
    roundsOf (sends.map .sent ++ .slept seconds :: later) =
      sends :: roundsOf later := by
  rw [roundsOf, List.splitOnP_append_cons_of_forall_mem
    (List.forall_mem_map.mpr fun _ _ => rfl) _ rfl, List.map_cons]
  have hsends := sendsOf_map_sent sends []
  rw [List.append_nil] at hsends
  rw [hsends]
  exact congrArg (· :: roundsOf later) (List.append_nil sends)

theorem roundsOf_append_closing (sends : List (Send Client))
    (result : Except Raised Bytes) :
    roundsOf (sends.map .sent ++ closing result) = [sends] := by
  rw [roundsOf, List.splitOnP_eq_singleton, List.map_singleton,
    sendsOf_map_sent, sendsOf_closing, List.append_nil]
  intro event hevent
  rcases List.mem_append.mp hevent with hsent | hclosing
  · obtain ⟨send, -, rfl⟩ := List.mem_map.mp hsent
    rfl
  · exact isSlept_closing result event hclosing

theorem Round.isRound {sent : ℕ}
    {out : List (Send Client) × Except Raised Bytes}
    (hround : Round transport exchange transport.clients sent out) :
    out.1 ≠ [] ∧ out.1.map Prod.fst <+: transport.clients ∧
      ∀ send ∈ out.1.dropLast, FellBack send := by
  obtain ⟨earlier, client, hsends, hearlier, -⟩ := hround.ends
  refine ⟨?_, hround.clients, ?_⟩
  · rw [hsends]
    exact List.append_ne_nil_of_right_ne_nil _ (List.cons_ne_nil _ _)
  · rw [hsends, List.dropLast_concat]
    exact hearlier

theorem passing_of_fellBack {sends : List (Send Client)}
    (hsends : ∀ send ∈ sends, FellBack send) :
    ∀ event ∈ sends.map Event.sent, event.Passing := by
  rw [List.forall_mem_map]
  intro send hsend
  obtain ⟨raised, hraised, hback⟩ := hsends send hsend
  obtain ⟨client, result⟩ := send
  subst hraised
  exact Or.inl hback

/-- The result of a round ends the call. -/
theorem Course.last {sent : ℕ}
    {out : List (Send Client) × Except Raised Bytes}
    (hround : Round transport exchange transport.clients sent out) (left : ℕ) :
    Course transport exchange (left + 1) sent
      (out.1.map .sent ++ closing out.2, out.2) where
  rounds_le := by
    rw [roundsOf_append_closing]
    exact Nat.le_add_left 1 left
  rounds := by
    rw [roundsOf_append_closing]
    exact List.forall_mem_singleton.mpr hround.isRound
  ends := by
    obtain ⟨earlier, client, hsends, hearlier, -⟩ := hround.ends
    refine ⟨earlier.map .sent, client, ?_, passing_of_fellBack hearlier⟩
    rw [hsends, List.map_append, List.append_assoc]
    rfl
  answered := by
    rw [sendsOf_map_sent, sendsOf_closing, List.append_nil]
    exact hround.answered

/-- A round whose result is retried goes before the others. -/
theorem Course.slept {sent left : ℕ} {seconds : ℚ}
    {out : List (Send Client) × Except Raised Bytes}
    (hround : Round transport exchange transport.clients sent out)
    {raised : Raised} (hraised : out.2 = .error raised)
    (hretried : raised.retried = true)
    {later : List (Event Client) × Except Raised Bytes}
    (hlater : Course transport exchange left (sent + out.1.length) later) :
    Course transport exchange (left + 1) sent
      (out.1.map .sent ++ .slept seconds :: later.1, later.2) where
  rounds_le := by
    rw [roundsOf_append_slept]
    exact Nat.succ_le_succ hlater.rounds_le
  rounds := by
    rw [roundsOf_append_slept]
    exact List.forall_mem_cons.mpr ⟨hround.isRound, hlater.rounds⟩
  ends := by
    obtain ⟨earlier, client, hsends, hearlier, -⟩ := hround.ends
    obtain ⟨before, last, hevents, hbefore⟩ := hlater.ends
    refine ⟨out.1.map .sent ++ .slept seconds :: before, last, ?_, ?_⟩
    · rw [hevents, List.append_assoc, List.cons_append]
    · rw [hsends, List.map_append]
      intro event hevent
      simp only [List.mem_append, List.mem_cons, List.map_cons,
        List.map_nil, List.not_mem_nil, or_false] at hevent
      rcases hevent with (hevent | rfl) | rfl | hevent
      · exact passing_of_fellBack hearlier event hevent
      · rw [hraised]
        exact Or.inr hretried
      · trivial
      · exact hbefore event hevent
  answered := by
    change ∀ index send, (sendsOf (out.1.map .sent ++ _))[index]? = some send →
      _
    rw [sendsOf_map_sent]
    change ∀ index send, (out.1 ++ sendsOf later.1)[index]? = some send → _
    intro index send hsend
    rcases lt_or_ge index out.1.length with hlt | hge
    · rw [List.getElem?_append_left hlt] at hsend
      exact hround.answered index send hsend
    · rw [List.getElem?_append_right hge] at hsend
      rw [hlater.answered _ send hsend, Nat.add_assoc,
        Nat.add_sub_cancel' hge]

/-- No round ends with an exception of a proxy when the last client has
none. -/
theorem Round.ne_proxyError
    (hproxy : ∀ sent, read transport (exchange sent transport.lastClient) ≠
      .error (.httpx .proxyError)) {sent : ℕ}
    {out : List (Send Client) × Except Raised Bytes}
    (hround : Round transport exchange transport.clients sent out) :
    out.2 ≠ .error (.httpx .proxyError) := by
  intro hraised
  obtain ⟨earlier, client, hsends, -, hlast⟩ := hround.ends
  have hread := hround.answered earlier.length (client, out.2) (by
    rw [hsends, List.getElem?_append_right le_rfl, Nat.sub_self]
    rfl)
  rw [hlast _ hraised rfl] at hread
  exact hproxy _ (hread.symm.trans hraised)

theorem closing_of_recorded {raised : Raised}
    (hrecorded : raised.retried = true ∨ raised.rejected = true) :
    (closing (.error raised) : List (Event Client)) = [.recorded] := by
  cases raised with
  | providerResponseTooLarge message =>
      rcases hrecorded with hretried | hrejected
      · cases hretried
      · cases hrejected
  | _ => rfl

/-- An exception that is not recorded comes from an oversized body or from a
proxy. -/
theorem closing_of_escaped {raised : Raised}
    (hretried : raised.retried = false) (hrejected : raised.rejected = false)
    (hproxy : raised ≠ .httpx .proxyError) :
    (closing (.error raised) : List (Event Client)) = [] := by
  cases raised with
  | httpx error =>
      cases error with
      | proxyError => exact absurd rfl hproxy
      | _ => cases hretried
  | providerUnavailable message => cases hretried
  | providerQuota message => cases hrejected
  | providerRequest message => cases hrejected
  | providerResponseTooLarge message => rfl

section Attempts

variable [DecidableEq Client]
  (hproxy : ∀ sent, read transport (exchange sent transport.lastClient) ≠
    .error (.httpx .proxyError))
include hproxy

/-- One attempt, before those that are left. -/
theorem attempt_course {left attempt sent : ℕ} (hleft : left + attempt = 2)
    (hlater : ∀ next sent, left = next + 1 →
      Course transport exchange (next + 1) sent
        (attemptsFrom transport exchange (next + 1) (attempt + 1) sent)) :
    Course transport exchange (left + 1) sent
      (attemptsFrom transport exchange (left + 1) attempt sent) := by
  have hround : Round transport exchange transport.clients sent
      (readWithFallback transport exchange sent) := readWithFallback_round sent
  have hlast := Course.last hround left
  have hnot := hround.ne_proxyError hproxy
  rw [attemptsFrom]
  generalize readWithFallback transport exchange sent = out at *
  obtain ⟨sends, result⟩ := out
  cases result with
  | ok payload => exact hlast
  | error raised =>
      cases hretried : raised.retried with
      | true =>
          simp only [hretried, if_true]
          by_cases hattempt : attempt = 2
          · rw [if_pos hattempt]
            rwa [closing_of_recorded (Or.inl hretried)] at hlast
          · rw [if_neg hattempt]
            obtain ⟨next, rfl⟩ : ∃ next, left = next + 1 :=
              ⟨left - 1, by omega⟩
            exact Course.slept hround rfl hretried (hlater next _ rfl)
      | false =>
          simp only [hretried, Bool.false_eq_true, if_false]
          cases hrejected : raised.rejected with
          | true =>
              simp only [if_true]
              rwa [closing_of_recorded (Or.inr hrejected)] at hlast
          | false =>
              simp only [Bool.false_eq_true, if_false]
              rwa [closing_of_escaped hretried hrejected fun heq =>
                hnot (congrArg Except.error heq), List.append_nil] at hlast

/-- The attempts that are left make a call of as many rounds. -/
theorem attemptsFrom_course (left attempt sent : ℕ)
    (hleft : left + attempt = 2) :
    Course transport exchange (left + 1) sent
      (attemptsFrom transport exchange (left + 1) attempt sent) := by
  induction left generalizing attempt sent with
  | zero => exact attempt_course hproxy hleft (by simp)
  | succ left ih =>
      refine attempt_course hproxy hleft fun next later hnext => ?_
      obtain rfl : left = next := by omega
      exact ih (attempt + 1) later (by omega)

end Attempts

/-! ## The failures that are recorded -/

/-- What an event does to the keys of the circuit. -/
def Event.effect (now : ℚ) (keys : Keys) : Event Client → Keys
  | .recorded => (recordFailure now keys).2
  | .cleared => clearFailures keys
  | _ => keys

/-- The keys after the events of a call. -/
def keysAfter (now : ℚ) (keys : Keys) (events : List (Event Client)) : Keys :=
  events.foldl (Event.effect now) keys

theorem keysAfter_passing (now : ℚ) (keys : Keys)
    {events : List (Event Client)} (hevents : ∀ event ∈ events, event.Passing) :
    keysAfter now keys events = keys := by
  induction events with
  | nil => rfl
  | cons event rest ih =>
      rw [List.forall_mem_cons] at hevents
      have hkeys : event.effect now keys = keys := by
        cases event with
        | sent send => rfl
        | slept seconds => rfl
        | recorded => exact hevents.1.elim
        | cleared => exact hevents.1.elim
      rw [keysAfter, List.foldl_cons, hkeys]
      exact ih hevents.2

/-- A payload clears the failures; an exception counts as one failure, unless
the body was too large. -/
def keysOf (now : ℚ) (keys : Keys) : Except Raised Bytes → Keys
  | .ok _ => clearFailures keys
  | .error (.providerResponseTooLarge _) => keys
  | .error _ => (recordFailure now keys).2

theorem keysAfter_closing (now : ℚ) (keys : Keys)
    (result : Except Raised Bytes) :
    keysAfter now keys (closing result : List (Event Client)) =
      keysOf now keys result := by
  cases result with
  | ok payload => rfl
  | error raised => cases raised <;> rfl

theorem Course.keys {left sent : ℕ}
    {out : List (Event Client) × Except Raised Bytes}
    (hcourse : Course transport exchange left sent out) (now : ℚ)
    (keys : Keys) :
    keysAfter now keys out.1 = keysOf now keys out.2 := by
  obtain ⟨earlier, client, hevents, hearlier⟩ := hcourse.ends
  rw [hevents, keysAfter, List.foldl_append]
  change keysAfter now (keysAfter now keys earlier) (closing out.2) = _
  rw [keysAfter_passing now keys hearlier, keysAfter_closing]

/-! ## How a call ends -/

/-- A request that the call does not pass over is its last event but for what
closes it. -/
theorem Course.eq_last {left sent : ℕ}
    {out : List (Event Client) × Except Raised Bytes}
    (hcourse : Course transport exchange left sent out)
    {before after : List (Event Client)} {send : Send Client}
    (hevents : out.1 = before ++ .sent send :: after)
    (hnot : ¬(Event.sent send).Passing) :
    send.2 = out.2 ∧ after = closing out.2 := by
  obtain ⟨earlier, client, hends, hearlier⟩ := hcourse.ends
  have hclosing : ∀ others, closing out.2 ≠ others ++ .sent send :: after := by
    intro others heq
    have hmem : send ∈ sendsOf (closing out.2 : List (Event Client)) :=
      List.mem_filterMap.mpr ⟨.sent send, by rw [heq]; simp, rfl⟩
    rw [sendsOf_closing] at hmem
    exact List.not_mem_nil hmem
  rcases List.append_eq_append_iff.mp (hends.symm.trans hevents) with
    ⟨others, -, hrest⟩ | ⟨others, hsame, hrest⟩
  · cases others with
    | nil =>
        obtain ⟨hsend, hafter⟩ := List.cons.inj hrest
        exact ⟨by rw [← Event.sent.inj hsend], hafter.symm⟩
    | cons other others => exact absurd (List.cons.inj hrest).2 (hclosing _)
  · cases others with
    | nil =>
        obtain ⟨hsend, hafter⟩ := List.cons.inj hrest
        exact ⟨by rw [Event.sent.inj hsend], hafter⟩
    | cons other others =>
        obtain ⟨rfl, -⟩ := List.cons.inj hrest
        exact absurd (hearlier _ (by rw [hsame]; simp)) hnot

/-- `ProviderResponseTooLargeError`. -/
def Raised.isTooLarge : Raised → Bool
  | .providerResponseTooLarge _ => true
  | _ => false

def Event.isRecorded : Event Client → Bool
  | .recorded => true
  | _ => false

def Event.isCleared : Event Client → Bool
  | .cleared => true
  | _ => false

theorem Event.Passing.not_recorded {event : Event Client}
    (hpassing : event.Passing) :
    event.isRecorded = false ∧ event.isCleared = false := by
  cases event with
  | sent send => exact ⟨rfl, rfl⟩
  | slept seconds => exact ⟨rfl, rfl⟩
  | recorded => exact hpassing.elim
  | cleared => exact hpassing.elim

/-- A call counts the events that close it. -/
theorem Course.countP {left sent : ℕ}
    {out : List (Event Client) × Except Raised Bytes}
    (hcourse : Course transport exchange left sent out)
    (counts : Event Client → Bool)
    (hpassing : ∀ event : Event Client, event.Passing →
      counts event = false)
    (hsent : ∀ send : Send Client, counts (.sent send) = false) :
    out.1.countP counts = (closing out.2).countP counts := by
  obtain ⟨earlier, client, hends, hearlier⟩ := hcourse.ends
  have hnone : earlier.countP counts = 0 := by
    rw [List.countP_eq_zero]
    intro event hevent
    rw [hpassing event (hearlier event hevent)]
    exact Bool.false_ne_true
  rw [hends, List.countP_append, hnone, Nat.zero_add,
    List.countP_cons_of_neg (by rw [hsent]; exact Bool.false_ne_true)]

theorem not_retried_of_stops {raised : Raised}
    (hstops : raised.rejected = true ∨ raised.isTooLarge = true) :
    raised.fallsBack = false ∧ raised.retried = false := by
  cases raised with
  | httpx error => rcases hstops with hfalse | hfalse <;> cases hfalse
  | providerUnavailable message =>
      rcases hstops with hfalse | hfalse <;> cases hfalse
  | _ => exact ⟨rfl, rfl⟩

/-- What a call that finds the circuit closed does. -/
structure Accounted (transport : ProviderTransport Client)
    (exchange : ℕ → Client → Exchange)
    (out : List (Event Client) × Except Raised Bytes) : Prop where
  rounds_le : (roundsOf out.1).length ≤ 3
  /-- It moves to the next client only after a connect or proxy error. -/
  rounds : ∀ round ∈ roundsOf out.1,
    round ≠ [] ∧ round.map Prod.fst <+: transport.clients ∧
      ∀ send ∈ round.dropLast, FellBack send
  answered : ∀ index send, (sendsOf out.1)[index]? = some send →
    send.2 = read transport (exchange index send.1)
  /-- It returns the first payload, and clears the failures then. -/
  returned : ∀ before client payload after,
    out.1 = before ++ .sent (client, .ok payload) :: after →
      out.2 = .ok payload ∧ after = [.cleared]
  /-- It sends nothing after a 429, a 4xx or an oversized body. -/
  stopped : ∀ before client raised after,
    out.1 = before ++ .sent (client, .error raised) :: after →
      raised.rejected = true ∨ raised.isTooLarge = true → sendsOf after = []
  /-- What it returns is a payload that it received. -/
  payload : ∀ payload, out.2 = .ok payload →
    (∃ client, .sent (client, .ok payload) ∈ out.1) ∧
      out.1.countP Event.isCleared = 1 ∧ out.1.countP Event.isRecorded = 0
  /-- It raises what a request raised, and records it once or not at all. -/
  raised : ∀ raised, out.2 = .error raised →
    (∃ client, .sent (client, .error raised) ∈ out.1) ∧
      out.1.countP Event.isCleared = 0 ∧
        out.1.countP Event.isRecorded = if raised.isTooLarge then 0 else 1
  keys : ∀ now keys, keysAfter now keys out.1 = keysOf now keys out.2

theorem Course.accounted
    {out : List (Event Client) × Except Raised Bytes}
    (hcourse : Course transport exchange 3 0 out) :
    Accounted transport exchange out where
  rounds_le := hcourse.rounds_le
  rounds := hcourse.rounds
  answered index send hsend := by
    rw [hcourse.answered index send hsend, Nat.zero_add]
  returned before client payload after hevents := by
    obtain ⟨hresult, hafter⟩ := hcourse.eq_last hevents id
    rw [← hresult] at hafter
    exact ⟨hresult.symm, hafter⟩
  stopped before client raised after hevents hstops := by
    have hnot : ¬(Event.sent (client, .error raised)).Passing := by
      obtain ⟨hback, hretried⟩ := not_retried_of_stops hstops
      rintro (htrue | htrue)
      · exact absurd (hback.symm.trans htrue) Bool.false_ne_true
      · exact absurd (hretried.symm.trans htrue) Bool.false_ne_true
    rw [(hcourse.eq_last hevents hnot).2, sendsOf_closing]
  payload payload hpayload := by
    obtain ⟨earlier, client, hends, -⟩ := hcourse.ends
    refine ⟨⟨client, by rw [hends, hpayload]; simp⟩, ?_, ?_⟩
    · rw [hcourse.countP _ (fun _ hevent => hevent.not_recorded.2)
        fun _ => rfl, hpayload]
      rfl
    · rw [hcourse.countP _ (fun _ hevent => hevent.not_recorded.1)
        fun _ => rfl, hpayload]
      rfl
  raised raised hraised := by
    obtain ⟨earlier, client, hends, -⟩ := hcourse.ends
    refine ⟨⟨client, by rw [hends, hraised]; simp⟩, ?_, ?_⟩
    · rw [hcourse.countP _ (fun _ hevent => hevent.not_recorded.2)
        fun _ => rfl, hraised]
      cases raised <;> rfl
    · rw [hcourse.countP _ (fun _ hevent => hevent.not_recorded.1)
        fun _ => rfl, hraised]
      cases raised <;> rfl
  keys := hcourse.keys

/-- Where the last client has no proxy, every call that finds the circuit closed
is accounted for. -/
theorem getBytes_accounted [DecidableEq Client]
    (transport : ProviderTransport Client) (exchange : ℕ → Client → Exchange)
    (hproxy : ∀ sent, read transport (exchange sent transport.lastClient) ≠
      .error (.httpx .proxyError)) :
    Accounted transport exchange (getBytes transport exchange false) :=
  Course.accounted (attemptsFrom_course hproxy 2 0 0 rfl)

end Model

/-- A transport with a proxy client and a direct one. -/
def proxiedTransport : ProviderTransport Bool where
  providerId := "noaa-swpc"
  maximumResponseBytes := 8000000
  clients := [true, false]
  nonempty := by decide

/-- The proxy fails, and the direct client gets a body of one byte. -/
def failingProxy (_ : ℕ) : Bool → Exchange
  | true => .failed .proxyError
  | false => .answered ⟨200, none, [[7]], none⟩

theorem failingProxy_accounted :
    Accounted proxiedTransport failingProxy
        (getBytes proxiedTransport failingProxy false) ∧
      getBytes proxiedTransport failingProxy false =
        ([.sent (true, .error (.httpx .proxyError)), .sent (false, .ok [7]),
          .cleared], .ok [7]) := by
  refine ⟨getBytes_accounted proxiedTransport failingProxy fun sent heq => ?_,
    rfl⟩
  cases heq

end UTTG.Rounds
