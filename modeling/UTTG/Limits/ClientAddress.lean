import UTTG.Python.Whitespace
import UTTG.Webhooks.Ssrf

/-!
# The address of a client

`_resolve_client_ip` decides which address a request counts for.  Rate limits
and the ownership of webhooks hang on its fingerprint.  A request from a trusted
proxy counts for the first entry of its `X-Forwarded-For` header, while a proxy
that appends the address of its peer writes at the end.
-/

namespace UTTG.ClientAddress

open Python Ssrf

/-- `ipaddress.ip_address` and `ipaddress.ip_network`, which is called with
`strict=False`; `none` is a `ValueError`. -/
structure IpLibrary where
  ipAddress : Text → Option Address
  ipNetwork : Text → Option Network

/-- What the code reads of a request: the host of its peer and the first
`X-Forwarded-For` line of its headers. -/
structure Request where
  client : Option Text
  forwarded : Option Text

/-- `value.split(",")`. -/
def entries (value : Text) : List Text := value.splitOn (point 0x2C)

/-- The header with these entries. -/
def header (values : List Text) : Text := [point 0x2C].intercalate values

/-- The entries of `settings.trusted_proxies`. -/
def trustedProxies (setting : Text) : List Text :=
  ((entries setting).map strip).filter (· ≠ [])

/-- `_trusted_proxy`. -/
def trustedProxy (library : IpLibrary) (address : Text)
    (trusted : List Text) : Bool :=
  match library.ipAddress address with
  | none => decide (address ∈ trusted)
  | some clientAddress => trusted.any fun value =>
      match library.ipNetwork value with
      | some network => network.contains clientAddress
      | none => address == value

/-- `direct`. -/
def Request.direct (request : Request) : Text :=
  request.client.getD (text "unknown")

/-- `candidate`. -/
def Request.candidate (request : Request) : Text :=
  strip ((entries (request.forwarded.getD [])).headD [])

/-- `_resolve_client_ip`. -/
def resolveClientIp (library : IpLibrary) (setting : Text)
    (request : Request) : Text :=
  if trustedProxy library request.direct (trustedProxies setting) then
    if request.candidate ≠ [] then request.candidate else request.direct
  else request.direct

/-- `get_current_client`: the fingerprint that the request state holds, or that
of the address. -/
def getCurrentClient (fingerprint : Text → Text) (library : IpLibrary)
    (setting : Text) (request : Request) (cached : Option Text) : Text :=
  cached.getD (fingerprint (resolveClientIp library setting request))

/-! ## Headers -/

/-- The entry at the left end decides. -/
theorem candidate_append {chosen : Text} (hcomma : point 0x2C ∉ chosen)
    (client : Option Text) (rest : Text) :
    Request.candidate ⟨client, some (chosen ++ point 0x2C :: rest)⟩ =
      strip chosen := by
  rw [Request.candidate, Option.getD_some, entries,
    List.splitOn_append_cons_self_of_not_mem hcomma, List.headD_cons]

theorem header_cons_cons (first second : Text) (later : List Text) :
    header (first :: second :: later) =
      first ++ point 0x2C :: header (second :: later) := by
  rw [header, List.intercalate_cons_cons, List.append_assoc]
  rfl

theorem resolveClientIp_of_untrusted {library : IpLibrary} {setting : Text}
    {request : Request} (huntrusted : trustedProxy library request.direct
      (trustedProxies setting) = false) :
    resolveClientIp library setting request = request.direct := by
  rw [resolveClientIp, huntrusted]
  rfl

/-- Behind a trusted proxy that appends to the header a client has the address
that it writes into the header it sends. -/
theorem resolveClientIp_chosen {library : IpLibrary} {setting : Text}
    {client : Option Text} {chosen : Text}
    (htrusted : trustedProxy library (Request.direct ⟨client, none⟩)
      (trustedProxies setting) = true)
    (hcomma : point 0x2C ∉ chosen) (hchosen : strip chosen ≠ [])
    (appended : Text) (later : List Text) :
    resolveClientIp library setting
      ⟨client, some (header (chosen :: appended :: later))⟩ =
        strip chosen := by
  have hdirect : Request.direct
      ⟨client, some (header (chosen :: appended :: later))⟩ =
        Request.direct ⟨client, none⟩ := rfl
  rw [resolveClientIp, hdirect, if_pos htrusted, header_cons_cons,
    candidate_append hcomma, if_pos hchosen]

/-- Such a client has the identity of the one that connects from the address
itself. -/
theorem getCurrentClient_chosen {library : IpLibrary} {setting : Text}
    {client : Option Text} {chosen : Text} (fingerprint : Text → Text)
    (htrusted : trustedProxy library (Request.direct ⟨client, none⟩)
      (trustedProxies setting) = true)
    (hcomma : point 0x2C ∉ chosen) (hchosen : strip chosen ≠ [])
    (hvictim : trustedProxy library (strip chosen)
      (trustedProxies setting) = false)
    (appended : Text) (later : List Text) (forwarded : Option Text) :
    getCurrentClient fingerprint library setting
        ⟨client, some (header (chosen :: appended :: later))⟩ none =
      getCurrentClient fingerprint library setting
        ⟨some (strip chosen), forwarded⟩ none := by
  have hdirect : Request.direct ⟨some (strip chosen), forwarded⟩ =
      strip chosen := rfl
  rw [getCurrentClient, getCurrentClient, Option.getD_none,
    Option.getD_none, resolveClientIp_chosen htrusted hcomma hchosen,
    resolveClientIp_of_untrusted (by rw [hdirect]; exact hvictim), hdirect]

/-- The rightmost element with a property. -/
theorem exists_rightmost {α : Type*} {bad : α → Prop} {values : List α}
    (hexists : ∃ value ∈ values, bad value) :
    ∃ left value right, values = left ++ value :: right ∧ bad value ∧
      ∀ later ∈ right, ¬bad later := by
  induction values with
  | nil => simp at hexists
  | cons first rest ih =>
      by_cases hrest : ∃ value ∈ rest, bad value
      · rcases ih hrest with ⟨left, value, right, rfl, hvalue, hright⟩
        exact ⟨first :: left, value, right, rfl, hvalue, hright⟩
      · rcases hexists with ⟨value, hvalue, hbad⟩
        have hnone : ∀ later ∈ rest, ¬bad later := fun later hlater hbad =>
          hrest ⟨later, hlater, hbad⟩
        rcases List.mem_cons.mp hvalue with rfl | hlater
        · exact ⟨[], value, rest, rfl, hbad, hnone⟩
        · exact absurd hbad (hnone value hlater)

/-! ## What the result depends on -/

variable (library : IpLibrary) (setting : Text)

/-- An entry of the header that is itself a trusted proxy. -/
def Trusted (entry : Text) : Prop :=
  trustedProxy library (strip entry) (trustedProxies setting) = true

/-- The peer is a trusted proxy. -/
def PeerTrusted (client : Option Text) : Prop :=
  trustedProxy library (Request.direct ⟨client, none⟩)
    (trustedProxies setting) = true

/-- The result does not depend on the header. -/
def HeaderIgnored (client : Option Text) (value : Text) : Prop :=
  ∀ other : Option Text,
    resolveClientIp library setting ⟨client, other⟩ =
      resolveClientIp library setting ⟨client, some value⟩

/-- The result does not depend on the entries to the left of the rightmost entry
that is not itself a trusted proxy. -/
def LeftEntriesIgnored (client : Option Text) (value : Text) : Prop :=
  ∀ left entry right, entries value = left ++ entry :: right →
    ¬Trusted library setting entry →
    (∀ later ∈ right, Trusted library setting later) →
    ∀ replaced : List Text, (∀ other ∈ replaced, point 0x2C ∉ other) →
      resolveClientIp library setting
          ⟨client, some (header (replaced ++ entry :: right))⟩ =
        resolveClientIp library setting ⟨client, some value⟩

theorem headerIgnored_of_untrusted {client : Option Text}
    (hpeer : ¬PeerTrusted library setting client) (value : Text) :
    HeaderIgnored library setting client value := by
  intro other
  have huntrusted := Bool.eq_false_of_not_eq_true hpeer
  have hother : resolveClientIp library setting ⟨client, other⟩ =
      Request.direct ⟨client, other⟩ :=
    resolveClientIp_of_untrusted huntrusted
  have hvalue : resolveClientIp library setting ⟨client, some value⟩ =
      Request.direct ⟨client, some value⟩ :=
    resolveClientIp_of_untrusted huntrusted
  exact hother.trans hvalue.symm

/-- An untrusted entry lets the entries before it decide: two texts written there
would give two results. -/
theorem trusted_of_leftEntriesIgnored {client : Option Text} {value : Text}
    (hpeer : PeerTrusted library setting client)
    (hignored : LeftEntriesIgnored library setting client value) :
    ∀ entry ∈ entries value, Trusted library setting entry := by
  by_contra hsome
  push Not at hsome
  rcases exists_rightmost hsome with
    ⟨left, entry, right, hentries, huntrusted, hright⟩
  have hsame : ∀ chosen : Text, point 0x2C ∉ chosen → strip chosen ≠ [] →
      strip chosen =
        resolveClientIp library setting ⟨client, some value⟩ := by
    intro chosen hcomma hchosen
    rw [← hignored left entry right hentries huntrusted
      (fun later hlater => not_not.mp (hright later hlater)) [chosen]
      (by simpa using hcomma)]
    exact (resolveClientIp_chosen hpeer hcomma hchosen entry right).symm
  have hfirst := hsame (text "198.51.100.1") (by decide) (by decide)
  have hsecond := hsame (text "198.51.100.2") (by decide) (by decide)
  exact absurd (hfirst.trans hsecond.symm) (by decide)

/-- The address of a client does not depend on a header from an untrusted peer.
From a trusted peer it is free of the entries that the client wrote exactly when
all entries of the header are trusted proxies; otherwise the client can take the
identity of another (`getCurrentClient_chosen`). -/
theorem resolveClientIp_independent_iff (client : Option Text)
    (value : Text) :
    ((¬PeerTrusted library setting client →
        HeaderIgnored library setting client value) ∧
      (PeerTrusted library setting client →
        LeftEntriesIgnored library setting client value)) ↔
      (¬PeerTrusted library setting client ∨
        ∀ entry ∈ entries value, Trusted library setting entry) := by
  constructor
  · rintro ⟨-, hleft⟩
    by_cases hpeer : PeerTrusted library setting client
    · exact .inr (trusted_of_leftEntriesIgnored library setting hpeer
        (hleft hpeer))
    · exact .inl hpeer
  · intro hcondition
    refine ⟨fun hpeer => headerIgnored_of_untrusted library setting hpeer
      value, fun hpeer left entry right hentries huntrusted => ?_⟩
    rcases hcondition with hnot | htrusted
    · exact absurd hpeer hnot
    · have hmem : entry ∈ entries value := by
        rw [hentries]
        simp
      exact absurd (htrusted entry hmem) huntrusted

/-- `ipaddress` on three addresses and one network. -/
def sampleLibrary : IpLibrary where
  ipAddress address :=
    if address = text "10.0.0.7" then some (.v4 (dotted 10 0 0 7))
    else if address = text "192.0.2.66" then some (.v4 (dotted 192 0 2 66))
    else if address = text "198.51.100.1" then
      some (.v4 (dotted 198 51 100 1))
    else none
  ipNetwork value :=
    if value = text "10.0.0.0/8" then some (.v4 (dotted 10 0 0 0) 8)
    else none

/-- A client of a trusted proxy sends a header, the proxy appends the address of
the client, and the client counts as the address that it sent. -/
theorem forwarded_entry_chosen :
    resolveClientIp sampleLibrary (text "10.0.0.0/8")
        ⟨some (text "10.0.0.7"), some (text "192.0.2.66")⟩ =
      text "192.0.2.66" ∧
    resolveClientIp sampleLibrary (text "10.0.0.0/8")
        ⟨some (text "10.0.0.7"), some (text "198.51.100.1, 192.0.2.66")⟩ =
      text "198.51.100.1" ∧
    PeerTrusted sampleLibrary (text "10.0.0.0/8")
      (some (text "10.0.0.7")) ∧
    ¬LeftEntriesIgnored sampleLibrary (text "10.0.0.0/8")
      (some (text "10.0.0.7")) (text "192.0.2.66") := by
  have hpeer : PeerTrusted sampleLibrary (text "10.0.0.0/8")
      (some (text "10.0.0.7")) := by
    unfold PeerTrusted
    decide
  refine ⟨by decide, by decide, hpeer, fun hignored => ?_⟩
  have htrusted := trusted_of_leftEntriesIgnored sampleLibrary _ hpeer
    hignored (text "192.0.2.66") (by decide)
  unfold Trusted at htrusted
  exact absurd htrusted (by decide)

end UTTG.ClientAddress
