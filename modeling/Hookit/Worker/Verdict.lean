import Hookit.Worker.Signing

/-!
# What `verify_signature` promises

`AsDocumented` is the promise of its docstring: `(True, "ok")` for a header that signs the body with
a fresh timestamp (`SignsFresh`), `(False, reason)` for any other, and nothing is raised.

`asDocumented_iff`: it is kept exactly for the headers that are `Verifiable`: a timestamp that is an
integer but too large for a double raises `OverflowError`, and a signature outside of ASCII raises
`TypeError` once it is compared.
-/

namespace Hookit

open Foundations Foundations.PyStr

section Definitions

variable (H : Hmac) (secret : Secret) (signatureHeader : Option PyStr) (body : Bytes) (now : ℚ)

/-- The age of a timestamp, as Python computes it, is within the window. -/
def Fresh (now : ℚ) (timestamp : ℤ) : Prop :=
  ∃ sent, PyFloat.ofInt? timestamp = some sent ∧
    (PyFloat.sub (.finite now) sent).absGt maxAgeSeconds = false

/-- The header's `t` is a fresh timestamp, and its `v1` signs it together with the body. -/
def SignsFresh : Prop :=
  ∃ header timestamp, signatureHeader = some header ∧ parsedTimestamp header = some timestamp ∧
    Fresh now timestamp ∧
    signatureField header = some (H.hexdigest secret.bytes (canonical timestamp body))

/-- `verify_signature` returns `(True, "ok")` if the header signs the body with a fresh timestamp,
and `(False, reason)` otherwise. -/
def AsDocumented : Prop :=
  ∃ verified reason, verifySignature H secret signatureHeader body (.finite now) =
      .ok (verified, reason) ∧
    (verified = true → reason = ofString "ok") ∧
    (verified = true ↔ SignsFresh H secret signatureHeader body now)

end Definitions

variable {H : Hmac} {secret : Secret} {body : Bytes} {now : ℚ}

/-- The age of a timestamp is exact for a clock whose reading is a multiple of `2 ^ -44`, as every
double from 256 up is. -/
theorem fresh_iff {timestamp m : ℤ} (hnow : now = m * 2 ^ (-44 : ℤ)) (ht : |timestamp| < 2 ^ 53) :
    Fresh now timestamp ↔ |now - timestamp| ≤ 300 := by
  have hsent : PyFloat.ofInt? timestamp = some (.finite timestamp) := by
    rw [PyFloat.ofInt?, PyFloat.rounded_intCast ht]
    rfl
  have hgrid : now - timestamp = ((m - timestamp * 2 ^ 44 : ℤ) : ℚ) * 2 ^ (-44 : ℤ) := by
    rw [hnow]
    push_cast
    norm_num
    ring
  have hexact := PyFloat.absGt_sub_finite_iff hgrid (n := maxAgeSeconds) (by decide)
  constructor
  · rintro ⟨sent, hsome, hage⟩
    obtain rfl := Option.some.inj (hsent.symm.trans hsome)
    exact_mod_cast hexact.1 hage
  · intro hle
    exact ⟨_, hsent, hexact.2 (by exact_mod_cast hle)⟩

/-- A fresh timestamp has a decimal spelling. -/
theorem signPayload_of_fresh {timestamp : ℤ} (h : Fresh now timestamp) :
    signPayload H secret timestamp body =
      .ok (H.hexdigest secret.bytes (canonical timestamp body)) := by
  obtain ⟨sent, hsent, -⟩ := h
  exact signPayload_eq_ok_iff.2
    ⟨⟨_, strInt_eq_some_iff.2 ⟨length_digitsOf_le_of_ofInt? hsent, rfl⟩⟩, rfl⟩

/-- **The headers that verify.** -/
theorem exists_verified_iff {signatureHeader : Option PyStr} :
    (∃ reason, verifySignature H secret signatureHeader body (.finite now) = .ok (true, reason)) ↔
      SignsFresh H secret signatureHeader body now := by
  cases signatureHeader with
  | none =>
    refine iff_of_false ?_ ?_
    · rintro ⟨reason, h⟩
      cases h
    · rintro ⟨header, timestamp, h, -⟩
      cases h
  | some header =>
    simp only [verifySignature_eq_ok_true_iff]
    constructor
    · rintro ⟨reason, -, -, timestamp, sent, sig, ht, hsent, hage, hsign, hsig⟩
      refine ⟨header, timestamp, rfl, ht, ⟨sent, hsent, hage⟩, ?_⟩
      rw [hsig, (signPayload_eq_ok_iff.1 hsign).2]
    · rintro ⟨_, timestamp, hsome, ht, hfresh, hsig⟩
      obtain rfl := Option.some.inj hsome
      have hne : header ≠ [] := by
        rintro rfl
        have hempty : headerParts [] = [] := rfl
        rw [parsedTimestamp, timestampField, headerField, hempty] at ht
        cases ht
      obtain ⟨sent, hsent, hage⟩ := id hfresh
      exact ⟨_, rfl, hne, timestamp, sent, _, ht, hsent, hage, signPayload_of_fresh hfresh, hsig⟩

/-- **`verify_signature` keeps its promise** exactly where it neither subtracts nor compares what
cannot be. -/
theorem asDocumented_iff (H : Hmac) (secret : Secret) (signatureHeader : Option PyStr)
    (body : Bytes) (now : ℚ) : AsDocumented H secret signatureHeader body now ↔
      Verifiable signatureHeader (.finite now) := by
  rw [← @exists_verifySignature_iff H secret signatureHeader body]
  constructor
  · rintro ⟨verified, reason, h, -⟩
    exact ⟨_, h⟩
  · rintro ⟨⟨verified, reason⟩, h⟩
    refine ⟨verified, reason, h, ?_, ?_⟩
    · rintro rfl
      cases signatureHeader with
      | none => cases h
      | some header => exact (verifySignature_eq_ok_true_iff.1 h).1
    · rw [← exists_verified_iff, h]
      simp

/-- A signature that is not ASCII. -/
def accentedHeader : PyStr := ofString "t=1700000000,v1=\u00e9"

/-- A signature that is not ASCII raises instead of being refused. -/
theorem not_asDocumented : ¬ ∀ (H : Hmac) (secret : Secret) (signatureHeader : Option PyStr)
    (body : Bytes) (now : ℚ), AsDocumented H secret signatureHeader body now := by
  intro hall
  obtain ⟨verified, reason, h, -⟩ :=
    hall sampleHmac sampleSecret (some accentedHeader) sampleBody 1700000000
  have hraised : verifySignature sampleHmac sampleSecret (some accentedHeader) sampleBody
      (.finite 1700000000) = .error .typeError := by decide +kernel
  rw [hraised] at h
  cases h

end Hookit
