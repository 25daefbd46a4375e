import Hookit.Models

/-!
# `app/services/ssrf.py`

The check on the destination of a webhook. The parsing of a URL and of an IP literal is the
standard library's, a parameter here.
-/

namespace Hookit

open Foundations

/-- `ipaddress.IPv4Address` and `ipaddress.IPv6Address`. -/
inductive IPAddress
  | v4 (bits : BitVec 32)
  | v6 (bits : BitVec 128)
  deriving DecidableEq

/-- What the check uses of `urllib.parse` and `ipaddress`: `urlparse(url).hostname`, an error
where it raises `ValueError`, and `ip_address(host)`, `none` where it raises `ValueError`. -/
structure UrlLib where
  hostname : PyStr → Except Unit (Option PyStr)
  ipAddress : PyStr → Option IPAddress

/-- The address is in the network with this address and prefix length. -/
def inNetwork {w : ℕ} (address : BitVec w) (network : BitVec w) (prefixLength : ℕ) : Bool :=
  address >>> (w - prefixLength) = network >>> (w - prefixLength)

/-- `_BLOCKED_V4_NETWORKS`: loopback, RFC 1918 private, link-local. -/
def blockedV4Networks : List (BitVec 32 × ℕ) :=
  [(0x7F000000#32, 8), (0x0A000000#32, 8), (0xAC100000#32, 12), (0xC0A80000#32, 16),
    (0xA9FE0000#32, 16)]

/-- `_BLOCKED_V6_NETWORKS`: loopback, link-local. -/
def blockedV6Networks : List (BitVec 128 × ℕ) :=
  [(1#128, 128), (0xFE80#128 <<< 112, 10)]

/-- The address is refused. -/
def IPAddress.blocked : IPAddress → Bool
  | .v4 bits => bits = 0 || blockedV4Networks.any fun n => inNetwork bits n.1 n.2
  | .v6 bits => blockedV6Networks.any fun n => inNetwork bits n.1 n.2

/-- `_SSRF_ERROR_MSG`. -/
def ssrfErrorMsg : PyStr :=
  .ofString "Webhook URL targets a non-public address and cannot be registered"

/-- `validate_url_not_ssrf`. -/
def validateUrlNotSsrf (lib : UrlLib) (url : PyStr) : Except PyError Unit :=
  match lib.hostname url with
  | .error () | .ok none | .ok (some []) => .error .valueError
  | .ok (some host) =>
    match lib.ipAddress host with
    -- Not an IP literal: a hostname is not resolved.
    | none => .ok ()
    | some address => if address.blocked then .error .ssrfError else .ok ()

/-- The URL has a host. -/
def HasHost (lib : UrlLib) (url : PyStr) : Prop :=
  ∃ c host, lib.hostname url = .ok (some (c :: host))

/-- The check ends in one of three ways, and lets a `ValueError` out exactly where the URL has no
host. -/
theorem validateUrlNotSsrf_cases (lib : UrlLib) (url : PyStr) :
    (HasHost lib url ∧ (validateUrlNotSsrf lib url = .ok () ∨
      validateUrlNotSsrf lib url = .error .ssrfError)) ∨
    (¬ HasHost lib url ∧ validateUrlNotSsrf lib url = .error .valueError) := by
  unfold validateUrlNotSsrf HasHost
  rcases lib.hostname url with _ | _ | _ | ⟨c, host⟩
  · right; simp
  · right; simp
  · right; simp
  · left
    refine ⟨⟨c, host, rfl⟩, ?_⟩
    dsimp only
    split
    · exact .inl rfl
    · split
      · exact .inr rfl
      · exact .inl rfl

end Hookit
