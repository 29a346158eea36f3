import UTTG.Python.Text

/-!
# Where a delivery connects to

`validate_webhook_url` looks up the host of a webhook and rejects addresses of
`_BLOCKED_NETWORKS`.  `_deliver_once` calls it before it posts, and the HTTP
client then looks the host up again.  The resolver may answer each lookup as it
likes.
-/

namespace UTTG.Ssrf

open Python

/-! ## Addresses and networks -/

/-- `IPv4Address` or `IPv6Address`. -/
inductive Address where
  | v4 (value : BitVec 32)
  | v6 (value : BitVec 128)
  deriving DecidableEq

/-- `IPv4Network` or `IPv6Network`. -/
inductive Network where
  | v4 (base : BitVec 32) (prefixLength : ℕ)
  | v6 (base : BitVec 128) (prefixLength : ℕ)
  deriving DecidableEq

/-- `address in network`: the versions agree and so do the leading bits. -/
def Network.contains : Network → Address → Bool
  | .v4 base prefixLength, .v4 value =>
      value &&& (BitVec.allOnes 32 <<< (32 - prefixLength)) == base
  | .v6 base prefixLength, .v6 value =>
      value &&& (BitVec.allOnes 128 <<< (128 - prefixLength)) == base
  | _, _ => false

/-- A dotted address. -/
def dotted (first second third fourth : BitVec 8) : BitVec 32 :=
  first ++ second ++ third ++ fourth

/-- An IPv6 address with these first 16 bits and zeros after them. -/
def leading (bits : BitVec 16) : BitVec 128 := bits ++ (0 : BitVec 112)

/-- `_BLOCKED_NETWORKS`. -/
def blockedNetworks : List Network :=
  [.v4 (dotted 0 0 0 0) 8,
    .v4 (dotted 10 0 0 0) 8,
    .v4 (dotted 100 64 0 0) 10,
    .v4 (dotted 127 0 0 0) 8,
    .v4 (dotted 169 254 0 0) 16,
    .v4 (dotted 172 16 0 0) 12,
    .v4 (dotted 192 0 0 0) 24,
    .v4 (dotted 192 0 2 0) 24,
    .v4 (dotted 192 168 0 0) 16,
    .v4 (dotted 198 18 0 0) 15,
    .v4 (dotted 198 51 100 0) 24,
    .v4 (dotted 203 0 113 0) 24,
    .v4 (dotted 224 0 0 0) 4,
    .v4 (dotted 240 0 0 0) 4,
    .v6 0 128,
    .v6 1 128,
    .v6 (leading 0xFC00) 7,
    .v6 (leading 0xFE80) 10,
    .v6 (leading 0xFF00) 8]

/-- `_blocked`. -/
def blocked (address : Address) : Bool :=
  blockedNetworks.any fun network => network.contains address

example : blocked (.v4 (dotted 169 254 169 254)) = true ∧
    blocked (.v6 (leading 0xFC00 + 1)) = true ∧
    blocked (.v4 (dotted 1 1 1 1)) = false := by
  decide

/-! ## URLs and lookups -/

/-- What the code reads of an `httpx.URL`.  The host stands for the name that the
check looks up and for the name that the client connects to, which may differ for
an internationalised one. -/
structure Url where
  scheme : Text
  userinfo : Text
  host : Text
  port : Option ℕ
  deriving DecidableEq

/-- `httpx.URL` and `str`; parsing is `none` where it raises, and a parsed URL
is read again from its text. -/
structure UrlLibrary where
  parse : Text → Option Url
  render : Url → Text
  parse_render : ∀ {string url}, parse string = some url →
    parse (render url) = some url

/-- A call of `getaddrinfo`. -/
inductive Lookup where
  | answered (addresses : List Address)
  /-- An `OSError`. -/
  | unresolved
  /-- A `UnicodeError`, which is a `ValueError`, for a name it cannot encode. -/
  | unencodable (reason : Text)

/-- The addresses of an answer; none where the lookup raises. -/
def Lookup.addresses : Lookup → List Address
  | .answered addresses => addresses
  | .unresolved | .unencodable _ => []

/-- What lookups of a host and port answer at one time. -/
abbrev Resolver := Text → ℕ → Lookup

/-- `parsed.port or (443 if parsed.scheme == "https" else 80)`, which is also
the port that the HTTP client connects to. -/
def Url.effectivePort (url : Url) : ℕ :=
  match url.port with
  | some (port + 1) => port + 1
  | _ => if url.scheme = text "https" then 443 else 80

def Url.lookUp (url : Url) (resolver : Resolver) : Lookup :=
  resolver url.host url.effectivePort

/-- How `validate_webhook_url` ends: with its result, with a `ValueError`, or
with another exception. -/
inductive Validation where
  | accepted (url : Text)
  | rejected (reason : Text)
  | raised
  deriving DecidableEq

/-- `validate_webhook_url`. -/
def validateWebhookUrl (library : UrlLibrary) (resolver : Resolver)
    (url : Text) : Validation :=
  match library.parse url with
  | none => .raised
  | some parsed =>
      if ¬(parsed.scheme = text "http" ∨ parsed.scheme = text "https") then
        .rejected (text "Webhook URL must use HTTP or HTTPS")
      else if parsed.userinfo ≠ [] then
        .rejected (text "Webhook URL credentials are forbidden")
      else if ¬(parsed.port = none ∨ parsed.port = some 80 ∨
          parsed.port = some 443) then
        .rejected (text "Webhook URL port must be 80 or 443")
      else if parsed.host = [] then
        .rejected (text "Webhook URL host is required")
      else
        match parsed.lookUp resolver with
        | .unresolved =>
            .rejected (text "Webhook hostname cannot be resolved")
        | .unencodable reason => .rejected reason
        | .answered addresses =>
            if addresses = [] ∨ addresses.any blocked then
              .rejected (text "Webhook URL resolves to a blocked network")
            else .accepted (library.render parsed)

/-! ## Deliveries -/

/-- How `decrypt_webhook_secret` ends. -/
inductive Decryption where
  | secret (value : Text)
  /-- A `ValueError`. -/
  | invalid
  /-- The `RuntimeError` for want of a key. -/
  | unconfigured

/-- An attempt of a delivery: when the host is looked up for the check, how the
secret is read, and when the host is looked up for the connection. -/
structure Attempt (Time : Type*) where
  checkedAt : Time
  decryption : Decryption
  connectedAt : Time

/-- What `_deliver_once` does about the connection. -/
inductive Delivery where
  /-- The `except` branch records the attempt without a request. -/
  | rejected
  | raised
  /-- The client tries to connect to these addresses. -/
  | posted (targets : List Address)

/-- `_deliver_once` up to the connection. -/
def deliverOnce {Time : Type*} (library : UrlLibrary)
    (resolver : Time → Resolver) (attempt : Attempt Time) (url : Text) :
    Delivery :=
  match validateWebhookUrl library (resolver attempt.checkedAt) url with
  | .raised => .raised
  | .rejected _ => .rejected
  | .accepted accepted =>
      match attempt.decryption with
      | .unconfigured => .raised
      | .invalid => .rejected
      | .secret _ =>
          match library.parse accepted with
          | none => .raised
          | some parsed =>
              .posted (parsed.lookUp
                (resolver attempt.connectedAt)).addresses

def Delivery.targets : Delivery → List Address
  | .posted targets => targets
  | .rejected | .raised => []

/-! ## The check -/

/-- A URL that passes the tests before the lookup. -/
structure Url.Permitted (url : Url) : Prop where
  scheme : url.scheme = text "http" ∨ url.scheme = text "https"
  userinfo : url.userinfo = []
  port : url.port = none ∨ url.port = some 80 ∨ url.port = some 443
  host : url.host ≠ []

/-- An answer that passes the test after the lookup. -/
def Lookup.Public (lookup : Lookup) : Prop :=
  lookup.addresses ≠ [] ∧ ∀ address ∈ lookup.addresses,
    blocked address = false

/-- The test after the lookup. -/
theorem accepted_lookUp_iff (lookup : Lookup) (rendered accepted : Text) :
    (match lookup with
      | .unresolved => Validation.rejected
          (text "Webhook hostname cannot be resolved")
      | .unencodable reason => .rejected reason
      | .answered addresses =>
          if addresses = [] ∨ addresses.any blocked then
            .rejected (text "Webhook URL resolves to a blocked network")
          else .accepted rendered) = .accepted accepted ↔
      lookup.Public ∧ rendered = accepted := by
  cases lookup with
  | unresolved => simp [Lookup.Public, Lookup.addresses]
  | unencodable reason => simp [Lookup.Public, Lookup.addresses]
  | answered addresses =>
      have hpublic : (Lookup.answered addresses).Public ↔
          ¬(addresses = [] ∨ addresses.any blocked = true) := by
        simp [Lookup.Public, Lookup.addresses]
      by_cases hrefused : addresses = [] ∨ addresses.any blocked = true
      · simp only [if_pos hrefused]
        exact iff_of_false (by simp) fun hpassed =>
          hpublic.mp hpassed.1 hrefused
      · simp only [if_neg hrefused, hpublic.mpr hrefused, true_and,
          Validation.accepted.injEq]

theorem validateWebhookUrl_accepted_iff (library : UrlLibrary)
    (resolver : Resolver) (url accepted : Text) :
    validateWebhookUrl library resolver url = .accepted accepted ↔
      ∃ parsed, library.parse url = some parsed ∧ parsed.Permitted ∧
        (parsed.lookUp resolver).Public ∧
        library.render parsed = accepted := by
  unfold validateWebhookUrl
  cases hparse : library.parse url with
  | none => simp
  | some parsed =>
      simp only [Option.some.injEq, exists_eq_left']
      by_cases hpermitted : parsed.Permitted
      · rw [if_neg (not_not.mpr hpermitted.scheme),
          if_neg (not_not.mpr hpermitted.userinfo),
          if_neg (not_not.mpr hpermitted.port), if_neg hpermitted.host,
          accepted_lookUp_iff]
        exact (and_iff_right hpermitted).symm
      · refine iff_of_false (fun haccepted => hpermitted ?_) fun hpassed =>
          hpermitted hpassed.1
        have hscheme : parsed.scheme = text "http" ∨
            parsed.scheme = text "https" := by
          by_contra hscheme
          rw [if_pos hscheme] at haccepted
          simp at haccepted
        have huserinfo : parsed.userinfo = [] := by
          by_contra huserinfo
          rw [if_neg (not_not.mpr hscheme), if_pos huserinfo] at haccepted
          simp at haccepted
        have hport : parsed.port = none ∨ parsed.port = some 80 ∨
            parsed.port = some 443 := by
          by_contra hport
          rw [if_neg (not_not.mpr hscheme), if_neg (not_not.mpr huserinfo),
            if_pos hport] at haccepted
          simp at haccepted
        refine ⟨hscheme, huserinfo, hport, fun hhost => ?_⟩
        rw [if_neg (not_not.mpr hscheme), if_neg (not_not.mpr huserinfo),
          if_neg (not_not.mpr hport), if_pos hhost] at haccepted
        simp at haccepted

/-- A delivery connects after a check that passed, to what the second lookup
answers. -/
theorem mem_targets_iff {Time : Type*} (library : UrlLibrary)
    (resolver : Time → Resolver) (attempt : Attempt Time) (url : Text)
    (address : Address) :
    address ∈ (deliverOnce library resolver attempt url).targets ↔
      ∃ parsed, library.parse url = some parsed ∧ parsed.Permitted ∧
        (parsed.lookUp (resolver attempt.checkedAt)).Public ∧
        (∃ value, attempt.decryption = .secret value) ∧
        address ∈ (parsed.lookUp (resolver attempt.connectedAt)).addresses := by
  have haccepted := validateWebhookUrl_accepted_iff library
    (resolver attempt.checkedAt) url
  unfold deliverOnce
  cases hvalidation : validateWebhookUrl library (resolver attempt.checkedAt)
      url with
  | raised | rejected =>
      refine iff_of_false List.not_mem_nil ?_
      rintro ⟨parsed, hparse, hpermitted, hpublic, -, -⟩
      have hpassed := (haccepted (library.render parsed)).mpr
        ⟨parsed, hparse, hpermitted, hpublic, rfl⟩
      rw [hvalidation] at hpassed
      simp at hpassed
  | accepted accepted =>
      obtain ⟨parsed, hparse, hpermitted, hpublic, rfl⟩ :=
        (haccepted accepted).mp hvalidation
      have hreparse := library.parse_render hparse
      cases hdecryption : attempt.decryption with
      | unconfigured | invalid => simp [Delivery.targets]
      | secret value =>
          simp [hreparse, hparse, hpermitted, hpublic, Delivery.targets]

/-! ## Every delivery -/

/-- No registered webhook is ever delivered to a blocked address. -/
def DeliveriesOutside {Time : Type*} [LE Time] (library : UrlLibrary)
    (resolver : Time → Resolver) : Prop :=
  ∀ given registeredAt url,
    validateWebhookUrl library (resolver registeredAt) given = .accepted url →
    ∀ attempt : Attempt Time, registeredAt ≤ attempt.checkedAt →
      attempt.checkedAt ≤ attempt.connectedAt →
      ∀ address ∈ (deliverOnce library resolver attempt url).targets,
        blocked address = false

/-- No permitted host gets a blocked address in a lookup after two lookups that
gave it public ones. -/
def NoRebinding {Time : Type*} [LE Time] (library : UrlLibrary)
    (resolver : Time → Resolver) : Prop :=
  ∀ given parsed, library.parse given = some parsed → parsed.Permitted →
    ∀ registeredAt checkedAt connectedAt : Time, registeredAt ≤ checkedAt →
      checkedAt ≤ connectedAt →
      (parsed.lookUp (resolver registeredAt)).Public →
      (parsed.lookUp (resolver checkedAt)).Public →
      ∀ address ∈ (parsed.lookUp (resolver connectedAt)).addresses,
        blocked address = false

/-- The deliveries stay outside the blocked networks exactly when the resolver
does not rebind a host between the check and the connection. -/
theorem deliveries_outside_iff {Time : Type*} [LE Time] (library : UrlLibrary)
    (resolver : Time → Resolver) :
    DeliveriesOutside library resolver ↔ NoRebinding library resolver := by
  constructor
  · intro houtside given parsed hparse hpermitted registeredAt checkedAt
      connectedAt hchecked hconnected hregistered hpublic address haddress
    have haccepted := (validateWebhookUrl_accepted_iff library
      (resolver registeredAt) given (library.render parsed)).mpr
        ⟨parsed, hparse, hpermitted, hregistered, rfl⟩
    have htarget := (mem_targets_iff library resolver
      ⟨checkedAt, .secret [], connectedAt⟩ (library.render parsed)
        address).mpr
          ⟨parsed, library.parse_render hparse, hpermitted, hpublic,
            ⟨[], rfl⟩, haddress⟩
    exact houtside given registeredAt (library.render parsed) haccepted
      ⟨checkedAt, .secret [], connectedAt⟩ hchecked hconnected address htarget
  · intro hbinding given registeredAt url haccepted attempt hchecked
      hconnected address htarget
    obtain ⟨parsed, hparse, hpermitted, hregistered, rfl⟩ :=
      (validateWebhookUrl_accepted_iff library _ given url).mp haccepted
    obtain ⟨same, hsame, -, hpublic, -, haddress⟩ :=
      (mem_targets_iff library resolver attempt _ address).mp htarget
    have heq := hsame.symm.trans (library.parse_render hparse)
    obtain rfl := Option.some.inj heq
    exact hbinding given same hparse hpermitted registeredAt
      attempt.checkedAt attempt.connectedAt hchecked hconnected hregistered
      hpublic address haddress

/-- A URL library that knows one URL. -/
def singleLibrary : UrlLibrary where
  parse string :=
    if string = text "https://hook.example/events" then
      some ⟨text "https", [], text "hook.example", none⟩
    else none
  render _ := text "https://hook.example/events"
  parse_render := by
    intro string url hparse
    split at hparse
    · exact hparse
    · simp at hparse

/-- A resolver that answers the first two lookups with a public address, and
then with the address of a metadata service. -/
def rebindingResolver (time : ℕ) : Resolver := fun _ _ =>
  .answered [.v4 (if time < 2 then dotted 93 184 216 34
    else dotted 169 254 169 254)]

/-- A webhook that passes at its registration and at its delivery is delivered
to a link-local address. -/
theorem rebinding_reaches_blocked :
    validateWebhookUrl singleLibrary (rebindingResolver 0)
        (text "https://hook.example/events") =
          .accepted (text "https://hook.example/events") ∧
      (deliverOnce singleLibrary rebindingResolver ⟨1, .secret [], 2⟩
        (text "https://hook.example/events")).targets =
          [.v4 (dotted 169 254 169 254)] ∧
      blocked (.v4 (dotted 169 254 169 254)) = true ∧
      ¬DeliveriesOutside singleLibrary rebindingResolver := by
  have haccepted : validateWebhookUrl singleLibrary (rebindingResolver 0)
      (text "https://hook.example/events") =
        .accepted (text "https://hook.example/events") := by
    decide
  have htargets : (deliverOnce singleLibrary rebindingResolver
      ⟨1, .secret [], 2⟩ (text "https://hook.example/events")).targets =
        [.v4 (dotted 169 254 169 254)] := by
    decide
  have hblocked : blocked (.v4 (dotted 169 254 169 254)) = true := by
    decide
  refine ⟨haccepted, htargets, hblocked, fun houtside => ?_⟩
  have hpublic := houtside _ 0 _ haccepted ⟨1, .secret [], 2⟩ (by decide)
    (by decide) (.v4 (dotted 169 254 169 254)) (by rw [htargets]; simp)
  exact absurd (hblocked.symm.trans hpublic) (by decide)

end UTTG.Ssrf
