import UTTG.Webhooks.Ssrf

/-!
# IPv4 targets in IPv6 form

A resolver may return an IPv4 target as an IPv4-mapped IPv6 address.  The IPv6
networks of `_BLOCKED_NETWORKS` do not reach `::ffff:0:0/96`, and no IPv4
network contains an IPv6 address.
-/

namespace UTTG.Ssrf

open Python

/-- `::ffff:a`. -/
def mapped (address : BitVec 32) : BitVec 128 :=
  (0xFFFF : BitVec 96) ++ address

/-- The bits of a mapped address above those of its target. -/
theorem getLsbD_mapped (address : BitVec 32) (index : ℕ) :
    (mapped address).getLsbD (index + 32) =
      (0xFFFF : BitVec 96).getLsbD index := by
  have habove : ¬index + 32 < 32 := by omega
  rw [mapped, BitVec.getLsbD_append, if_neg habove, Nat.add_sub_cancel]

/-- An address is outside a network whose base differs from it in a bit that the
network fixes. -/
theorem outside_of_bit {value base : BitVec 128} {prefixLength : ℕ}
    (index : ℕ) (hbase : base.getLsbD index ≠
      (value.getLsbD index &&
        (BitVec.allOnes 128 <<< (128 - prefixLength)).getLsbD index)) :
    (Network.v6 base prefixLength).contains (.v6 value) = false := by
  refine beq_eq_false_iff_ne.mpr fun hinside => hbase ?_
  rw [← BitVec.getLsbD_and, hinside]

/-- No network of the list contains a mapped address. -/
theorem blocked_mapped (address : BitVec 32) :
    blocked (.v6 (mapped address)) = false := by
  refine List.any_eq_false.mpr fun network hnetwork => ?_
  rw [Bool.not_eq_true]
  cases network with
  | v4 base prefixLength => rfl
  | v6 base prefixLength =>
      -- `::/128` and `::1/128` miss the ones of the prefix, and the others
      -- begin with a one.
      have hbases : (base = 0 ∨ base = 1) ∧ prefixLength = 128 ∨
          base = leading 0xFC00 ∧ prefixLength = 7 ∨
          base = leading 0xFE80 ∧ prefixLength = 10 ∨
          base = leading 0xFF00 ∧ prefixLength = 8 := by
        simp [blockedNetworks] at hnetwork
        tauto
      rcases hbases with ⟨rfl | rfl, rfl⟩ | ⟨rfl, rfl⟩ | ⟨rfl, rfl⟩ |
        ⟨rfl, rfl⟩
      · apply outside_of_bit 32
        rw [getLsbD_mapped address 0]
        decide
      · apply outside_of_bit 32
        rw [getLsbD_mapped address 0]
        decide
      · apply outside_of_bit 127
        rw [getLsbD_mapped address 95]
        decide
      · apply outside_of_bit 127
        rw [getLsbD_mapped address 95]
        decide
      · apply outside_of_bit 127
        rw [getLsbD_mapped address 95]
        decide

/-! ## Targets -/

/-- The address is in one of `_BLOCKED_NETWORKS`. -/
def Address.InBlockedNetwork (address : Address) : Prop :=
  ∃ network ∈ blockedNetworks, network.contains address = true

theorem blocked_iff (address : Address) :
    blocked address = true ↔ address.InBlockedNetwork :=
  List.any_eq_true

theorem not_blocked_iff (address : Address) :
    blocked address = false ↔ ¬address.InBlockedNetwork := by
  rw [← blocked_iff, Bool.not_eq_true]

/-- An address as a resolver may return this IPv4 target. -/
def Address.Denotes (address : Address) (target : BitVec 32) : Prop :=
  address = .v4 target ∨ address = .v6 (mapped target)

/-- Where the URL passes, no answer denotes a blocked IPv4 target. -/
def AcceptsPublicTargets (library : UrlLibrary) (resolver : Resolver)
    (url : Text) : Prop :=
  ∀ accepted parsed,
    validateWebhookUrl library resolver url = .accepted accepted →
    library.parse url = some parsed →
    ∀ address ∈ (parsed.lookUp resolver).addresses,
      ∀ target, address.Denotes target →
        ¬(Address.v4 target).InBlockedNetwork

/-- A permitted host whose answers contain a blocked target in mapped form also
has an answer that is in a blocked network as it stands. -/
def MappedWithBlocked (library : UrlLibrary) (resolver : Resolver)
    (url : Text) : Prop :=
  ∀ parsed, library.parse url = some parsed → parsed.Permitted →
    ∀ target, (Address.v4 target).InBlockedNetwork →
      .v6 (mapped target) ∈ (parsed.lookUp resolver).addresses →
      ∃ address ∈ (parsed.lookUp resolver).addresses,
        address.InBlockedNetwork

/-- A URL is accepted for public targets only, unless a mapped address slips
through. -/
theorem acceptsPublicTargets_iff (library : UrlLibrary) (resolver : Resolver)
    (url : Text) :
    AcceptsPublicTargets library resolver url ↔
      MappedWithBlocked library resolver url := by
  constructor
  · intro haccepts parsed hparse hpermitted target htarget hanswer
    by_contra hnone
    have hpublic : (parsed.lookUp resolver).Public := by
      refine ⟨List.ne_nil_of_mem hanswer, fun address haddress => ?_⟩
      rw [not_blocked_iff]
      exact fun hblocked => hnone ⟨address, haddress, hblocked⟩
    have haccepted := (validateWebhookUrl_accepted_iff library resolver url
      (library.render parsed)).mpr ⟨parsed, hparse, hpermitted, hpublic, rfl⟩
    exact haccepts _ parsed haccepted hparse _ hanswer target (.inr rfl)
      htarget
  · intro hmapped accepted parsed haccepted hparse address haddress target
      hdenotes htarget
    rcases (validateWebhookUrl_accepted_iff library resolver url
      accepted).mp haccepted with ⟨same, hsame, hpermitted, hpublic, -⟩
    have heq := hsame.symm.trans hparse
    obtain rfl := Option.some.inj heq
    have houtside : ∀ other ∈ (same.lookUp resolver).addresses,
        ¬other.InBlockedNetwork := by
      intro other hother
      exact (not_blocked_iff other).mp (hpublic.2 other hother)
    rcases hdenotes with rfl | rfl
    · exact houtside _ haddress htarget
    · rcases hmapped same hparse hpermitted target htarget haddress with
        ⟨other, hother, hblocked⟩
      exact houtside other hother hblocked

/-- A mapped address is treated as its target is exactly when the target is in
no blocked network, and a URL is accepted for public targets only exactly when
every blocked target in mapped form comes with an answer that is blocked as it
stands. -/
theorem mapped_targets_blocked_iff (address : BitVec 32)
    (library : UrlLibrary) (resolver : Resolver) (url : Text) :
    (blocked (.v6 (mapped address)) = blocked (.v4 address) ↔
        ¬(Address.v4 address).InBlockedNetwork) ∧
      (AcceptsPublicTargets library resolver url ↔
        MappedWithBlocked library resolver url) := by
  refine ⟨?_, acceptsPublicTargets_iff library resolver url⟩
  rw [blocked_mapped, eq_comm, not_blocked_iff]

/-- A host whose only answer is a loopback address in mapped form passes. -/
theorem mapped_loopback_accepted :
    blocked (.v4 (dotted 127 0 0 1)) = true ∧
      blocked (.v6 (mapped (dotted 127 0 0 1))) = false ∧
      validateWebhookUrl singleLibrary
          (fun _ _ => .answered [.v6 (mapped (dotted 127 0 0 1))])
          (text "https://hook.example/events") =
        .accepted (text "https://hook.example/events") ∧
      ¬AcceptsPublicTargets singleLibrary
          (fun _ _ => .answered [.v6 (mapped (dotted 127 0 0 1))])
          (text "https://hook.example/events") := by
  have haccepted : validateWebhookUrl singleLibrary
      (fun _ _ => .answered [.v6 (mapped (dotted 127 0 0 1))])
      (text "https://hook.example/events") =
        .accepted (text "https://hook.example/events") := by
    decide
  have htarget : blocked (.v4 (dotted 127 0 0 1)) = true := by
    decide
  refine ⟨htarget, blocked_mapped _, haccepted, fun haccepts => ?_⟩
  have houtside := haccepts _ ⟨text "https", [], text "hook.example", none⟩
    haccepted rfl _ (List.mem_singleton_self _) (dotted 127 0 0 1) (.inr rfl)
  exact houtside ((blocked_iff _).mp htarget)

end UTTG.Ssrf
