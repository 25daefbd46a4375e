import Hookit.Services.Ssrf

/-!
# `app/services/ssrf.py` on IP literals

An IPv4-mapped IPv6 address (`::ffff:a.b.c.d`) leads to the same host as its IPv4 address.
`refusesNonPublic_iff`: the check refuses a literal exactly when its address, read through this
mapping, is not public, unless the address is `::` or is mapped to an IPv4 address that is not
public. Both are let through: the branch for IPv6 neither asks for `is_unspecified`, as the branch
for IPv4 does, nor looks behind the mapping (`not_refusesNonPublic`).
-/

namespace Hookit

open Foundations

namespace IPAddress

/-! ## Kinds of addresses -/

/-- `0.0.0.0` and `::`. -/
def Unspecified : IPAddress → Prop
  | .v4 bits => bits = 0#32
  | .v6 bits => bits = 0#128

/-- `127.0.0.0` to `127.255.255.255`, and `::1`. -/
def Loopback : IPAddress → Prop
  | .v4 bits => 0x7F000000 ≤ bits.toNat ∧ bits.toNat ≤ 0x7FFFFFFF
  | .v6 bits => bits = 1#128

/-- RFC 1918: `10.0.0.0` to `10.255.255.255`, `172.16.0.0` to `172.31.255.255`, `192.168.0.0` to
`192.168.255.255`. -/
def Private : IPAddress → Prop
  | .v4 bits => (0x0A000000 ≤ bits.toNat ∧ bits.toNat ≤ 0x0AFFFFFF) ∨
      (0xAC100000 ≤ bits.toNat ∧ bits.toNat ≤ 0xAC1FFFFF) ∨
      (0xC0A80000 ≤ bits.toNat ∧ bits.toNat ≤ 0xC0A8FFFF)
  | .v6 _ => False

/-- `169.254.0.0` to `169.254.255.255`, and `fe80::` to the last address before `fec0::`. -/
def LinkLocal : IPAddress → Prop
  | .v4 bits => 0xA9FE0000 ≤ bits.toNat ∧ bits.toNat ≤ 0xA9FEFFFF
  | .v6 bits => 0xFE80 * 2 ^ 112 ≤ bits.toNat ∧ bits.toNat < 0xFEC0 * 2 ^ 112

def NonPublic (address : IPAddress) : Prop :=
  address.Unspecified ∨ address.Loopback ∨ address.Private ∨ address.LinkLocal

/-- The IPv4 address of an address in `::ffff:0:0/96`. -/
def ipv4Mapped : IPAddress → Option (BitVec 32)
  | .v4 _ => none
  | .v6 bits => if bits >>> 32 = 0xFFFF#128 then some (bits.setWidth 32) else none

/-- The address that a connection to this one reaches. -/
def unmapped (address : IPAddress) : IPAddress := (address.ipv4Mapped.map .v4).getD address

/-- Let through although not public. -/
def Escapes (address : IPAddress) : Prop :=
  address = .v6 0#128 ∨ ∃ bits, address.ipv4Mapped = some bits ∧ (IPAddress.v4 bits).NonPublic

/-! ## What is blocked -/

theorem inNetwork_iff {w : ℕ} {address network : BitVec w} {prefixLength : ℕ} :
    inNetwork address network prefixLength = true ↔
      address.toNat / 2 ^ (w - prefixLength) = network.toNat / 2 ^ (w - prefixLength) := by
  unfold inNetwork
  rw [decide_eq_true_iff, ← BitVec.toNat_inj, BitVec.toNat_ushiftRight, BitVec.toNat_ushiftRight,
    Nat.shiftRight_eq_div_pow, Nat.shiftRight_eq_div_pow]

/-- The branch for IPv4 blocks what is not public. -/
theorem blocked_v4_iff {bits : BitVec 32} :
    (IPAddress.v4 bits).blocked = true ↔ (IPAddress.v4 bits).NonPublic := by
  have hzero : bits = 0#32 ↔ bits.toNat = 0 := by simp [← BitVec.toNat_inj]
  simp only [blocked, blockedV4Networks, List.any_cons, List.any_nil, Bool.or_eq_true,
    decide_eq_true_eq, inNetwork_iff, Bool.or_false, BitVec.ofNat_eq_ofNat, BitVec.toNat_ofNat,
    Nat.reduceSub, Nat.reducePow, Nat.reduceMod, Nat.reduceDiv, hzero]
  simp only [NonPublic, Unspecified, Loopback, Private, LinkLocal, hzero]
  omega

/-- The branch for IPv6 blocks loopback and link-local addresses. -/
theorem blocked_v6_iff {bits : BitVec 128} : (IPAddress.v6 bits).blocked = true ↔
    (IPAddress.v6 bits).Loopback ∨ (IPAddress.v6 bits).LinkLocal := by
  have hnetwork : (0xFE80#128 <<< 112).toNat = 0xFE80 * 2 ^ 112 := by decide
  have hone : bits = 1#128 ↔ bits.toNat = 1 := by simp [← BitVec.toNat_inj]
  simp only [blocked, blockedV6Networks, List.any_cons, List.any_nil, Bool.or_eq_true,
    inNetwork_iff, Bool.or_false, hnetwork, BitVec.toNat_ofNat, Nat.reduceSub, Nat.reducePow,
    Nat.reduceMod, Nat.reduceMul, Nat.reduceDiv]
  simp only [Loopback, LinkLocal, hone]
  omega

/-- A mapped address lies in neither network of the branch for IPv6. -/
theorem blocked_of_ipv4Mapped {address : IPAddress} {bits : BitVec 32}
    (h : address.ipv4Mapped = some bits) : address.blocked = false := by
  cases address with
  | v4 bits => cases h
  | v6 bits =>
    obtain ⟨hhigh, -⟩ := Option.ite_none_right_eq_some.1 h
    have hnat : bits.toNat / 2 ^ 32 = 0xFFFF := by
      simpa [BitVec.toNat_ushiftRight, Nat.shiftRight_eq_div_pow] using
        congrArg BitVec.toNat hhigh
    rw [Bool.eq_false_iff, Ne, blocked_v6_iff]
    rintro (hone | hlocal)
    · rw [hone] at hnat
      exact absurd hnat (by decide)
    · simp only [LinkLocal] at hlocal
      omega

theorem unmapped_of_ipv4Mapped {address : IPAddress} {bits : BitVec 32}
    (h : address.ipv4Mapped = some bits) : address.unmapped = .v4 bits := by
  rw [unmapped, h]
  rfl

theorem unmapped_of_ipv4Mapped_eq_none {address : IPAddress} (h : address.ipv4Mapped = none) :
    address.unmapped = address := by
  rw [unmapped, h]
  rfl

/-- **Which addresses are blocked.** -/
theorem blocked_iff_nonPublic {address : IPAddress} :
    (address.blocked = true ↔ address.unmapped.NonPublic) ↔ ¬ address.Escapes := by
  cases hmapped : address.ipv4Mapped with
  | some bits =>
    -- nothing is blocked behind the mapping
    have hne : address ≠ .v6 0#128 := by
      rintro rfl
      cases hmapped
    rw [blocked_of_ipv4Mapped hmapped, unmapped_of_ipv4Mapped hmapped]
    simp [Escapes, hmapped, hne]
  | none =>
    rw [unmapped_of_ipv4Mapped_eq_none hmapped]
    cases address with
    | v4 bits =>
      simp [Escapes, hmapped, blocked_v4_iff]
    | v6 bits =>
      have hescapes : (IPAddress.v6 bits).Escapes ↔ bits = 0#128 := by simp [Escapes, hmapped]
      rw [blocked_v6_iff, hescapes]
      by_cases hzero : bits = 0#128
      · subst hzero
        simp [NonPublic, Unspecified, Loopback, LinkLocal]
      · simp [NonPublic, Unspecified, Private, hzero]

end IPAddress

/-! ## What is refused -/

/-- The host of the URL is an IP literal for the address. -/
def IsLiteral (lib : UrlLib) (url : PyStr) (address : IPAddress) : Prop :=
  ∃ c host, lib.hostname url = .ok (some (c :: host)) ∧ lib.ipAddress (c :: host) = some address

/-- The check refuses the URL exactly when the address behind it is not public. -/
def RefusesNonPublic (lib : UrlLib) (url : PyStr) (address : IPAddress) : Prop :=
  validateUrlNotSsrf lib url = .error .ssrfError ↔ address.unmapped.NonPublic

theorem validateUrlNotSsrf_eq_error_iff {lib : UrlLib} {url : PyStr} {address : IPAddress}
    (h : IsLiteral lib url address) :
    validateUrlNotSsrf lib url = .error .ssrfError ↔ address.blocked = true := by
  obtain ⟨c, host, hhost, haddress⟩ := h
  simp only [validateUrlNotSsrf, hhost, haddress]
  cases address.blocked <;> simp

/-- **Which literals are refused.** The check refuses exactly the literals for an address that is
not public if and only if the address does not escape. -/
theorem refusesNonPublic_iff {lib : UrlLib} {url : PyStr} {address : IPAddress}
    (h : IsLiteral lib url address) : RefusesNonPublic lib url address ↔ ¬ address.Escapes := by
  rw [RefusesNonPublic, validateUrlNotSsrf_eq_error_iff h, IPAddress.blocked_iff_nonPublic]

/-- A library that knows the host and the address of one URL. -/
def literalHost (url host : PyStr) (address : IPAddress) : UrlLib where
  hostname u := if u = url then .ok (some host) else .error ()
  ipAddress h := if h = host then some address else none

theorem isLiteral_literalHost {url host : PyStr} {address : IPAddress} (hne : host ≠ []) :
    IsLiteral (literalHost url host address) url address := by
  obtain ⟨c, host, rfl⟩ := List.exists_cons_of_ne_nil hne
  exact ⟨c, host, by simp [literalHost], by simp [literalHost]⟩

/-- The address of the instance metadata is refused. -/
theorem refusesNonPublic_metadata : RefusesNonPublic
    (literalHost (.ofString "http://169.254.169.254/hook") (.ofString "169.254.169.254")
      (.v4 0xA9FEA9FE#32))
    (.ofString "http://169.254.169.254/hook") (.v4 0xA9FEA9FE#32) := by
  refine (refusesNonPublic_iff (isLiteral_literalHost (by decide))).2 ?_
  simp [IPAddress.Escapes, IPAddress.ipv4Mapped]

/-- **The mapped spelling of a loopback address is let through**: `::ffff:127.0.0.1`. -/
theorem not_refusesNonPublic : ¬ ∀ (lib : UrlLib) (url : PyStr) (address : IPAddress),
    IsLiteral lib url address → RefusesNonPublic lib url address := by
  intro h
  have hmapped := h
    (literalHost (.ofString "http://[::ffff:127.0.0.1]/hook") (.ofString "::ffff:127.0.0.1")
      (.v6 0xFFFF7F000001#128))
    (.ofString "http://[::ffff:127.0.0.1]/hook") (.v6 0xFFFF7F000001#128)
    (isLiteral_literalHost (by decide))
  have hunmapped : (IPAddress.v6 0xFFFF7F000001#128).unmapped = .v4 0x7F000001#32 := by decide
  have hloopback : (IPAddress.v4 0x7F000001#32).Loopback := by
    simp only [IPAddress.Loopback]
    decide
  rw [RefusesNonPublic, hunmapped] at hmapped
  exact absurd (hmapped.2 (.inr (.inl hloopback))) (by decide)

end Hookit
