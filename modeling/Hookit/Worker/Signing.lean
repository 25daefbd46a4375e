import Hookit.Foundations.Bytes
import Hookit.Foundations.Double
import Hookit.Foundations.Numeral
import Hookit.Foundations.Raise
import Hookit.Models

/-!
# `app/worker/signing.py`

The signature header of a delivery and its verification. HMAC-SHA256 is a parameter: a function of
the key and the message to a hex digest (`Hmac`).

* `signPayload`, `buildSignatureHeader` and `verifySignature` follow the source, with the
  exceptions that leave them.
* `canonical_injective`: the signed string determines the timestamp and the body.
* `verifySignature_eq_ok_true_iff`: what a header must be to verify.
* `verifySignature_buildSignatureHeader`: the worker's own header verifies as long as the clock,
  read as a double, is within the window.
* `eq_of_verifySignature`: a recorded signature verifies nothing but the message it was made for.
-/

namespace Hookit

open Foundations Foundations.PyStr

/-- `hmac.new(key, message, hashlib.sha256).hexdigest()`. -/
structure Hmac where
  hexdigest : Bytes → Bytes → PyStr
  length_eq : ∀ key message, (hexdigest key message).length = 64
  isHex : ∀ key message, ∀ c ∈ hexdigest key message,
    (0x30 ≤ c.val ∧ c.val ≤ 0x39) ∨ (0x61 ≤ c.val ∧ c.val ≤ 0x66)

/-- One digest for all messages. -/
def Hmac.constant (digest : PyStr) (hlength : digest.length = 64)
    (hhex : (digest.all fun c => (0x30 ≤ c.val && c.val ≤ 0x39) || (0x61 ≤ c.val && c.val ≤ 0x66)) =
      true) : Hmac where
  hexdigest _ _ := digest
  length_eq _ _ := hlength
  isHex _ _ c hc := by simpa using List.all_eq_true.1 hhex c hc

/-- A secret, as `decrypt_secret` returns it: decoded from UTF-8, so that UTF-8 encodes it. -/
abbrev Secret := {s : PyStr // (encode s).isSome}

/-- `secret.encode()`. -/
def Secret.bytes (secret : Secret) : Bytes := (encode secret.1).get secret.2

/-- `_MAX_AGE_SECONDS`. -/
def maxAgeSeconds : ℤ := 300

/-- The canonical string: the timestamp, a full stop and the body. -/
def canonical (timestamp : ℤ) (body : Bytes) : Bytes :=
  (ofInt timestamp ++ [char '.']).map byteOf ++ body

/-- `sign_payload`. -/
def signPayload (H : Hmac) (secret : Secret) (timestamp : ℤ) (body : Bytes) :
    Except PyError PyStr := do
  let _ ← orRaise .valueError (strInt timestamp)
  return H.hexdigest secret.bytes (canonical timestamp body)

/-- `build_signature_header`. -/
def buildSignatureHeader (H : Hmac) (secret : Secret) (timestamp : ℤ) (body : Bytes) :
    Except PyError PyStr := do
  let sig ← signPayload H secret timestamp body
  let t ← orRaise .valueError (strInt timestamp)
  return ofString "t=" ++ t ++ ofString ",v1=" ++ sig

/-- `hmac.compare_digest` of two strings: a `TypeError` unless both are ASCII. -/
def compareDigest (a b : PyStr) : Except PyError Bool :=
  if isAscii a && isAscii b then .ok (a = b) else .error .typeError

/-- The item that one part of the header adds to the dict `parts`. -/
def headerPart (part : PyStr) : Option (PyStr × PyStr) :=
  if part.any (· = char '=') then
    some (strip (part.takeWhile (· ≠ char '=')), strip (part.dropWhile (· ≠ char '=')).tail)
  else none

/-- The items of the dict `parts`, in the order of their assignment. -/
def headerParts (header : PyStr) : List (PyStr × PyStr) :=
  (header.splitOn (char ',')).filterMap headerPart

/-- `parts.get(key)` if it is a non-empty string: the last assignment to the key counts. -/
def headerField (header : PyStr) (key : PyStr) : Option PyStr :=
  ((headerParts header).reverse.lookup key).filter (· ≠ [])

/-- The value of `t`, before it is read as an integer. -/
def timestampField (header : PyStr) : Option PyStr := headerField header (ofString "t")

/-- The value of `v1`. -/
def signatureField (header : PyStr) : Option PyStr := headerField header (ofString "v1")

/-- The timestamp that is parsed from a header. -/
def parsedTimestamp (header : PyStr) : Option ℤ := (timestampField header).bind int?

/-- `f"{age:.0f}"`. -/
def formatAge : PyFloat → PyStr
  | .finite q =>
    if q < 0 then char '-' :: PyStr.ofNat (roundEven q).natAbs
    else PyStr.ofNat (roundEven q).natAbs
  | .infinite negative => if negative then ofString "-inf" else ofString "inf"
  | .nan => ofString "nan"

/-- `verify_signature` on a header with both fields. -/
def verifyFields (H : Hmac) (secret : Secret) (timestampStr receivedSig : PyStr) (body : Bytes)
    (now : PyFloat) : Except PyError (Bool × PyStr) :=
  match int? timestampStr with
  | none => return (false, ofString "invalid timestamp in header")
  | some timestamp => do
    let sent ← orRaise .overflowError (PyFloat.ofInt? timestamp)
    let age := now.sub sent
    if age.absGt maxAgeSeconds then
      return (false, ofString "timestamp too old: age=" ++ formatAge age ++ ofString "s exceeds " ++
        ofInt maxAgeSeconds ++ ofString "s")
    let expected ← signPayload H secret timestamp body
    let same ← compareDigest expected receivedSig
    if same then return (true, ofString "ok") else return (false, ofString "signature mismatch")

/-- `verify_signature`, with the time that it reads if it is not given one. -/
def verifySignature (H : Hmac) (secret : Secret) (signatureHeader : Option PyStr) (body : Bytes)
    (now : PyFloat) : Except PyError (Bool × PyStr) :=
  match signatureHeader.filter (· ≠ []) with
  | none => return (false, ofString "missing signature header")
  | some header =>
    match timestampField header, signatureField header with
    | some timestampStr, some receivedSig =>
      verifyFields H secret timestampStr receivedSig body now
    | _, _ => return (false, ofString "malformed signature header")

/-! ## The signed string -/

theorem isAscii_ofInt (n : ℤ) : isAscii (ofInt n) = true := by
  refine isAscii_iff.2 fun c hc => ?_
  have := val_mem_ofInt hc
  omega

/-- A separator that occurs in neither prefix splits both strings in the same place. -/
theorem append_cons_inj_of_notMem {α : Type*} {a : α} {x y z w : List α} (hx : a ∉ x) (hy : a ∉ y)
    (h : x ++ a :: z = y ++ a :: w) : x = y ∧ z = w := by
  induction x generalizing y with
  | nil =>
    cases y with
    | nil => exact ⟨rfl, (List.cons.inj h).2⟩
    | cons b y => exact absurd (List.cons.inj h).1 fun hab => hy (hab ▸ List.mem_cons_self)
  | cons b x ih =>
    rw [List.mem_cons, not_or] at hx
    cases y with
    | nil => exact absurd (List.cons.inj h).1.symm hx.1
    | cons c y =>
      rw [List.mem_cons, not_or] at hy
      obtain ⟨rfl, hrest⟩ := List.cons.inj h
      obtain ⟨rfl, rfl⟩ := ih hx.2 hy.2 hrest
      exact ⟨rfl, rfl⟩

theorem byteOf_dot_notMem (n : ℤ) : byteOf (char '.') ∉ (ofInt n).map byteOf := by
  rw [List.mem_map]
  rintro ⟨c, hc, hdot⟩
  have hval := val_mem_ofInt hc
  have hchar : (char '.').val = 0x2E := char_val '.'
  have := congrArg Fin.val (byteOf_injOn (by omega) (by omega) hdot)
  omega

/-- **The canonical string determines the timestamp and the body.** -/
theorem canonical_injective {t t' : ℤ} {body body' : Bytes}
    (h : canonical t body = canonical t' body') : t = t' ∧ body = body' := by
  simp only [canonical, List.map_append, List.map_cons, List.map_nil, List.append_assoc,
    List.singleton_append] at h
  obtain ⟨hmap, hbody⟩ := append_cons_inj_of_notMem (byteOf_dot_notMem t) (byteOf_dot_notMem t') h
  exact ⟨ofInt_injective (map_byteOf_inj (isAscii_ofInt t) (isAscii_ofInt t') hmap), hbody⟩

/-! ## Verification -/

theorem signPayload_eq_ok_iff {H : Hmac} {secret : Secret} {timestamp : ℤ} {body : Bytes}
    {sig : PyStr} : signPayload H secret timestamp body = .ok sig ↔
      (∃ t, strInt timestamp = some t) ∧
        H.hexdigest secret.bytes (canonical timestamp body) = sig := by
  simp only [signPayload, bind_eq_ok_iff, orRaise_eq_ok_iff, pure_eq_ok_iff, exists_and_right]

theorem isAscii_hexdigest (H : Hmac) (key message : Bytes) :
    isAscii (H.hexdigest key message) = true := by
  refine isAscii_iff.2 fun c hc => ?_
  have := H.isHex key message c hc
  omega

theorem compareDigest_eq_ok_true_iff {a b : PyStr} :
    compareDigest a b = .ok true ↔ isAscii a = true ∧ a = b := by
  unfold compareDigest
  split_ifs with h
  · simp only [Bool.and_eq_true] at h
    simp [h.1]
  · simp only [false_iff, not_and]
    rintro ha rfl
    simp [ha] at h

/-- A digest matches the received signature only if they are equal. -/
theorem compareDigest_signPayload_iff {H : Hmac} {secret : Secret} {timestamp : ℤ} {body : Bytes}
    {expected receivedSig : PyStr} (h : signPayload H secret timestamp body = .ok expected) :
    compareDigest expected receivedSig = .ok true ↔ expected = receivedSig := by
  rw [compareDigest_eq_ok_true_iff, ← (signPayload_eq_ok_iff.1 h).2]
  exact and_iff_right (isAscii_hexdigest H _ _)

theorem verifyFields_eq_ok_true_iff {H : Hmac} {secret : Secret} {timestampStr receivedSig : PyStr}
    {body : Bytes} {now : PyFloat} {reason : PyStr} :
    verifyFields H secret timestampStr receivedSig body now = .ok (true, reason) ↔
      reason = ofString "ok" ∧ ∃ timestamp sent, int? timestampStr = some timestamp ∧
        PyFloat.ofInt? timestamp = some sent ∧ (now.sub sent).absGt maxAgeSeconds = false ∧
        signPayload H secret timestamp body = .ok receivedSig := by
  unfold verifyFields
  cases int? timestampStr with
  | none => simp [pure_eq_ok_iff]
  | some timestamp =>
    simp only [bind_eq_ok_iff, orRaise_eq_ok_iff]
    constructor
    · rintro ⟨sent, hsent, h⟩
      split_ifs at h with hage
      · simp [pure_eq_ok_iff] at h
      · simp only [bind_eq_ok_iff] at h
        obtain ⟨expected, hsign, same, hsame, h⟩ := h
        cases same with
        | false => simp [pure_eq_ok_iff] at h
        | true =>
          simp only [if_true, pure_eq_ok_iff, Prod.mk.injEq, true_and] at h
          obtain rfl := (compareDigest_signPayload_iff hsign).1 hsame
          exact ⟨h.symm, timestamp, sent, rfl, hsent, by simpa using hage, hsign⟩
    · rintro ⟨rfl, t, sent, ht, hsent, hage, hsign⟩
      obtain rfl := Option.some.inj ht
      refine ⟨sent, hsent, ?_⟩
      rw [hage, if_neg Bool.false_ne_true]
      simp only [bind_eq_ok_iff]
      exact ⟨receivedSig, hsign, true, (compareDigest_signPayload_iff hsign).2 rfl, rfl⟩

/-- **What a header must be to verify.** -/
theorem verifySignature_eq_ok_true_iff {H : Hmac} {secret : Secret} {header : PyStr} {body : Bytes}
    {now : PyFloat} {reason : PyStr} :
    verifySignature H secret (some header) body now = .ok (true, reason) ↔
      reason = ofString "ok" ∧ header ≠ [] ∧ ∃ timestamp sent sig,
        parsedTimestamp header = some timestamp ∧ PyFloat.ofInt? timestamp = some sent ∧
        (now.sub sent).absGt maxAgeSeconds = false ∧
        signPayload H secret timestamp body = .ok sig ∧ signatureField header = some sig := by
  unfold verifySignature parsedTimestamp
  rcases eq_or_ne header [] with rfl | hne
  · simp [Option.filter, pure_eq_ok_iff]
  have hheader : (some header).filter (· ≠ []) = some header := by simp [Option.filter, hne]
  rw [hheader]
  dsimp only
  cases timestampField header with
  | none => simp [pure_eq_ok_iff]
  | some timestampStr =>
    cases signatureField header with
    | none => simp [pure_eq_ok_iff]
    | some receivedSig =>
      simp only [verifyFields_eq_ok_true_iff, Option.bind_some, Option.some.injEq]
      constructor
      · rintro ⟨hok, timestamp, sent, ht, hsent, hage, hsign⟩
        exact ⟨hok, hne, timestamp, sent, receivedSig, ht, hsent, hage, hsign, rfl⟩
      · rintro ⟨hok, -, timestamp, sent, sig, ht, hsent, hage, hsign, rfl⟩
        exact ⟨hok, timestamp, sent, ht, hsent, hage, hsign⟩

/-! ## The worker's own header -/

theorem headerPart_assign {key value : PyStr}
    (hkey : (key.all fun c => c ≠ char '=' && !isSpace c) = true)
    (hvalue : ∀ c ∈ value, isSpace c = false) :
    headerPart (key ++ char '=' :: value) = some (key, value) := by
  simp only [List.all_eq_true, Bool.and_eq_true, decide_eq_true_eq, Bool.not_eq_true'] at hkey
  have hne : ∀ c ∈ key, decide (c ≠ char '=') = true := fun c hc => decide_eq_true (hkey c hc).1
  have htake : (key ++ char '=' :: value).takeWhile (· ≠ char '=') = key := by
    rw [List.takeWhile_append_of_pos hne]
    simp
  have hdrop : (key ++ char '=' :: value).dropWhile (· ≠ char '=') = char '=' :: value := by
    rw [List.dropWhile_append_of_pos hne]
    simp
  rw [headerPart, if_pos (by simp), htake, hdrop, List.tail_cons,
    strip_eq_self fun c hc => (hkey c hc).2, strip_eq_self hvalue]

/-- The fields of a header of the form that `build_signature_header` writes. -/
theorem headerParts_eq {t sig : PyStr} (ht : ∀ c ∈ t, c ≠ char ',' ∧ isSpace c = false)
    (hsig : ∀ c ∈ sig, c ≠ char ',' ∧ isSpace c = false) :
    headerParts (ofString "t=" ++ t ++ ofString ",v1=" ++ sig) =
      [(ofString "t", t), (ofString "v1", sig)] := by
  have hform : ofString "t=" ++ t ++ ofString ",v1=" ++ sig =
      (ofString "t" ++ char '=' :: t) ++ char ',' :: (ofString "v1" ++ char '=' :: sig) := by
    simp only [ofString, char, List.append_assoc, List.cons_append]
    rfl
  have hcomma : ∀ key value : PyStr, char ',' ∉ key → (∀ c ∈ value, c ≠ char ',') →
      char ',' ∉ key ++ char '=' :: value := by
    intro key value hkey hvalue hmem
    rcases List.mem_append.1 hmem with hmem | hmem
    · exact hkey hmem
    · rcases List.mem_cons.1 hmem with heq | hmem
      · exact absurd heq (by decide)
      · exact hvalue _ hmem rfl
  have hsplit : (ofString "t=" ++ t ++ ofString ",v1=" ++ sig).splitOn (char ',') =
      [ofString "t" ++ char '=' :: t, ofString "v1" ++ char '=' :: sig] := by
    rw [hform, List.splitOn_append_cons_self_of_not_mem
      (hcomma _ _ (by decide) fun c hc => (ht c hc).1),
      List.splitOn_eq_singleton (hcomma _ _ (by decide) fun c hc => (hsig c hc).1)]
  have ht' := @headerPart_assign (ofString "t") t (by decide) fun c hc => (ht c hc).2
  have hsig' := @headerPart_assign (ofString "v1") sig (by decide) fun c hc => (hsig c hc).2
  simp only [headerParts, hsplit, List.filterMap_cons, List.filterMap_nil, ht', hsig']

theorem buildSignatureHeader_eq_ok {H : Hmac} {secret : Secret} {timestamp : ℤ} {body : Bytes}
    (h : (digitsOf timestamp.natAbs).length ≤ maxStrDigits) :
    buildSignatureHeader H secret timestamp body = .ok (ofString "t=" ++ ofInt timestamp ++
      ofString ",v1=" ++ H.hexdigest secret.bytes (canonical timestamp body)) := by
  have ht : strInt timestamp = some (ofInt timestamp) := strInt_eq_some_iff.2 ⟨h, rfl⟩
  simp only [buildSignatureHeader, bind_eq_ok_iff, orRaise_eq_ok_iff, pure_eq_ok_iff,
    signPayload_eq_ok_iff]
  exact ⟨_, ⟨⟨_, ht⟩, rfl⟩, _, ht, rfl⟩

theorem two_pow_le_ten_pow {k m : ℕ} (h : k ≤ m) : 2 ^ k ≤ 10 ^ m :=
  (Nat.pow_le_pow_left (by norm_num) k).trans (Nat.pow_le_pow_right (by norm_num) h)

/-- An integer with a double has a decimal spelling. -/
theorem length_digitsOf_le_of_ofInt? {n : ℤ} {x : PyFloat} (h : PyFloat.ofInt? n = some x) :
    (digitsOf n.natAbs).length ≤ maxStrDigits := by
  obtain ⟨q, hq, -⟩ := Option.map_eq_some_iff.1 h
  have habs : |(n : ℚ)| < 2 ^ 1024 := PyFloat.abs_lt_of_rounded hq
  have hcast : ∀ k : ℕ, |(n : ℚ)| < k → n.natAbs < k := by
    intro k hk
    rw [← Int.cast_abs, ← Int.natCast_natAbs] at hk
    exact_mod_cast hk
  have hlt : n.natAbs < 2 ^ 1024 := hcast _ (by rwa [Nat.cast_pow, Nat.cast_ofNat])
  exact length_digitsOf_le (lt_of_lt_of_le hlt (two_pow_le_ten_pow (by norm_num)))

/-! ## When verification returns -/

/-- A timestamp that is an integer is within the range of doubles, and a signature that is compared
is ASCII. -/
def Verifiable (signatureHeader : Option PyStr) (now : PyFloat) : Prop :=
  ∀ header timestamp sig, signatureHeader = some header → parsedTimestamp header = some timestamp →
    signatureField header = some sig → ∃ sent, PyFloat.ofInt? timestamp = some sent ∧
      ((now.sub sent).absGt maxAgeSeconds = false → isAscii sig = true)

theorem exists_verifyFields_iff {H : Hmac} {secret : Secret} {timestampStr receivedSig : PyStr}
    {body : Bytes} {now : PyFloat} :
    (∃ r, verifyFields H secret timestampStr receivedSig body now = .ok r) ↔
      ∀ timestamp, int? timestampStr = some timestamp → ∃ sent,
        PyFloat.ofInt? timestamp = some sent ∧
          ((now.sub sent).absGt maxAgeSeconds = false → isAscii receivedSig = true) := by
  unfold verifyFields
  cases int? timestampStr with
  | none => simp [pure_eq_ok_iff]
  | some timestamp =>
    simp only [bind_eq_ok_iff, orRaise_eq_ok_iff, Option.some.injEq, forall_eq']
    constructor
    · rintro ⟨r, sent, hsent, h⟩
      refine ⟨sent, hsent, fun hage => ?_⟩
      rw [hage, if_neg Bool.false_ne_true] at h
      simp only [bind_eq_ok_iff] at h
      obtain ⟨expected, -, same, hsame, -⟩ := h
      unfold compareDigest at hsame
      split at hsame
      · next hascii => exact (Bool.and_eq_true_iff.1 hascii).2
      · cases hsame
    · rintro ⟨sent, hsent, hascii⟩
      by_cases hage : (now.sub sent).absGt maxAgeSeconds = true
      · exact ⟨_, sent, hsent, by rw [if_pos hage]; rfl⟩
      · have hsig := hascii (by simpa using hage)
        have hsign : signPayload H secret timestamp body =
            .ok (H.hexdigest secret.bytes (canonical timestamp body)) :=
          signPayload_eq_ok_iff.2 ⟨⟨_, strInt_eq_some_iff.2
            ⟨length_digitsOf_le_of_ofInt? hsent, rfl⟩⟩, rfl⟩
        have hsame : compareDigest (H.hexdigest secret.bytes (canonical timestamp body))
            receivedSig = .ok (H.hexdigest secret.bytes (canonical timestamp body) = receivedSig) :=
          if_pos (by rw [isAscii_hexdigest, hsig]; rfl)
        refine ⟨if H.hexdigest secret.bytes (canonical timestamp body) = receivedSig then
          (true, ofString "ok") else (false, ofString "signature mismatch"), sent, hsent, ?_⟩
        rw [if_neg hage]
        simp only [bind_eq_ok_iff]
        refine ⟨_, hsign, _, hsame, ?_⟩
        split <;> simp_all [pure_eq_ok_iff]

/-- **`verify_signature` returns** unless it subtracts or compares what cannot be. -/
theorem exists_verifySignature_iff {H : Hmac} {secret : Secret} {signatureHeader : Option PyStr}
    {body : Bytes} {now : PyFloat} :
    (∃ r, verifySignature H secret signatureHeader body now = .ok r) ↔
      Verifiable signatureHeader now := by
  unfold verifySignature Verifiable parsedTimestamp
  have hempty : headerParts [] = [] := rfl
  cases hheader : signatureHeader.filter (· ≠ []) with
  | none =>
    refine iff_of_true ⟨_, rfl⟩ fun header timestamp sig hsome ht => ?_
    have hnil : header = [] := by simpa [hsome, Option.filter] using hheader
    rw [hnil, timestampField, headerField, hempty] at ht
    cases ht
  | some header =>
    obtain ⟨hsome, -⟩ := Option.filter_eq_some_iff.1 hheader
    dsimp only
    cases ht : timestampField header with
    | none =>
      refine iff_of_true ⟨_, rfl⟩ fun header' timestamp sig hsome' ht' => ?_
      obtain rfl := Option.some.inj (hsome.symm.trans hsome')
      rw [ht] at ht'
      cases ht'
    | some timestampStr =>
      cases hsig : signatureField header with
      | none =>
        refine iff_of_true ⟨_, rfl⟩ fun header' timestamp sig hsome' _ hsig' => ?_
        obtain rfl := Option.some.inj (hsome.symm.trans hsome')
        rw [hsig] at hsig'
        cases hsig'
      | some receivedSig =>
        refine exists_verifyFields_iff.trans ⟨fun h header' timestamp sig hsome' ht' hsig' => ?_,
          fun h timestamp ht' => ?_⟩
        · obtain rfl := Option.some.inj (hsome.symm.trans hsome')
          obtain rfl := Option.some.inj (hsig.symm.trans hsig')
          rw [ht] at ht'
          exact h timestamp ht'
        · exact h header timestamp receivedSig hsome (by rw [ht]; exact ht') hsig

/-! ## The worker's own header verifies -/

/-- **The worker's own header verifies** while the clock is within the window of the timestamp as
a double. -/
theorem verifySignature_buildSignatureHeader {H : Hmac} {secret : Secret} {timestamp : ℤ}
    {body : Bytes} {sent now : ℚ} (hsent : PyFloat.ofInt? timestamp = some (.finite sent))
    (hage : |now - sent| ≤ maxAgeSeconds) :
    ∃ header, buildSignatureHeader H secret timestamp body = .ok header ∧
      verifySignature H secret (some header) body (.finite now) = .ok (true, ofString "ok") := by
  have hdigits := length_digitsOf_le_of_ofInt? hsent
  refine ⟨_, buildSignatureHeader_eq_ok hdigits, ?_⟩
  generalize hdigest : H.hexdigest secret.bytes (canonical timestamp body) = sig
  have hsign : signPayload H secret timestamp body = .ok sig :=
    signPayload_eq_ok_iff.2 ⟨⟨_, strInt_eq_some_iff.2 ⟨hdigits, rfl⟩⟩, hdigest⟩
  have htchars : ∀ c ∈ ofInt timestamp, c ≠ char ',' ∧ isSpace c = false := by
    refine fun c hc => ⟨?_, isSpace_of_mem_ofInt hc⟩
    rintro rfl
    have hval := val_mem_ofInt hc
    rw [char_val] at hval
    revert hval
    decide
  have hsigchars : ∀ c ∈ sig, c ≠ char ',' ∧ isSpace c = false := by
    intro c hc
    have hhex := H.isHex _ _ c (hdigest ▸ hc)
    refine ⟨?_, ?_⟩
    · rintro rfl
      rw [char_val] at hhex
      revert hhex
      decide
    · simp only [isSpace, decide_eq_false_iff_not]
      omega
  have hsigne : sig ≠ [] := by
    have hlength := H.length_eq secret.bytes (canonical timestamp body)
    rintro rfl
    simp [hdigest] at hlength
  have hparts := headerParts_eq htchars hsigchars
  have hfield : timestampField (ofString "t=" ++ ofInt timestamp ++ ofString ",v1=" ++ sig) =
      some (ofInt timestamp) := by
    have hne : (ofString "t" == ofString "v1") = false := by decide
    rw [timestampField, headerField, hparts]
    simp [List.lookup_cons, hne, Option.filter, ofInt_ne_nil]
  refine verifySignature_eq_ok_true_iff.2 ⟨rfl, ?_, timestamp, _, sig, ?_, hsent, ?_, hsign, ?_⟩
  · simp [ofString]
  · rw [parsedTimestamp, hfield]
    exact int?_ofInt hdigits
  · exact PyFloat.absGt_sub_finite hage (by decide)
  · rw [signatureField, headerField, hparts]
    simp [Option.filter, hsigne]

/-! ## Recorded signatures -/

/-- **A recorded signature authenticates nothing but its own message**: whatever header carries it,
the timestamp that is parsed is the one it was made for, and so is the body. -/
theorem eq_of_verifySignature (H : Hmac) (secret : Secret) (timestamp : ℤ) (body : Bytes)
    (sig : PyStr) (hsign : signPayload H secret timestamp body = .ok sig) (header : PyStr)
    (body' : Bytes) (now : PyFloat) (reason : PyStr)
    (haccept : verifySignature H secret (some header) body' now = .ok (true, reason))
    (hsig : signatureField header = some sig)
    (hinj : Set.InjOn (H.hexdigest secret.bytes) {message | message = canonical timestamp body ∨
      ∃ t, parsedTimestamp header = some t ∧ message = canonical t body'}) :
    parsedTimestamp header = some timestamp ∧ body' = body := by
  obtain ⟨-, -, t, sent, sig', ht, -, -, hsign', hsig'⟩ :=
    verifySignature_eq_ok_true_iff.1 haccept
  obtain rfl : sig' = sig := Option.some.inj (hsig'.symm.trans hsig)
  have hdigest : H.hexdigest secret.bytes (canonical t body') =
      H.hexdigest secret.bytes (canonical timestamp body) :=
    (signPayload_eq_ok_iff.1 hsign').2.trans (signPayload_eq_ok_iff.1 hsign).2.symm
  have hcanonical := hinj (.inr ⟨t, ht, rfl⟩) (.inl rfl) hdigest
  obtain ⟨rfl, rfl⟩ := canonical_injective hcanonical
  exact ⟨ht, rfl⟩

/-- A secret. -/
def sampleSecret : Secret := ⟨ofString "whsec_0123456789abcdef", by decide⟩

/-- An empty JSON object. -/
def sampleBody : Bytes := (ofString "\x7b\x7d").map byteOf

/-- HMAC-SHA256 of `1700000000.` and the empty object under the secret. -/
def sampleDigest : PyStr :=
  ofString "d0c329a0542d1a8e66b0b5503cf2d2f8f8e174c98224b843c11f74ea14c341e9"

/-- HMAC-SHA256, as far as one message goes. -/
def sampleHmac : Hmac := .constant sampleDigest (by decide) (by decide)

/-- The signature under other spellings of the header's parts, among parts that do not count. -/
def respelledHeader : PyStr :=
  ofString "v1=00, t = +1_700_000_000 ,v1=" ++ sampleDigest ++ ofString " ,v0"

theorem eq_of_verifySignature_respelled :
    parsedTimestamp respelledHeader = some 1700000000 ∧ sampleBody = sampleBody := by
  have hparsed : parsedTimestamp respelledHeader = some 1700000000 := by decide +kernel
  have hsig : signatureField respelledHeader = some sampleDigest := by decide +kernel
  have hsign : signPayload sampleHmac sampleSecret 1700000000 sampleBody = .ok sampleDigest :=
    signPayload_eq_ok_iff.2 ⟨⟨_, strInt_eq_some_iff.2 ⟨by decide, rfl⟩⟩, rfl⟩
  have haccept : verifySignature sampleHmac sampleSecret (some respelledHeader) sampleBody
      (.finite 1700000300) = .ok (true, ofString "ok") :=
    verifySignature_eq_ok_true_iff.2 ⟨rfl, by decide, 1700000000, .finite 1700000000, sampleDigest,
      hparsed, by decide +kernel, by decide +kernel, hsign, hsig⟩
  refine eq_of_verifySignature sampleHmac sampleSecret 1700000000 sampleBody sampleDigest hsign
    respelledHeader sampleBody (.finite 1700000300) _ haccept hsig ?_
  have honly : ∀ message ∈ {message | message = canonical 1700000000 sampleBody ∨
      ∃ t, parsedTimestamp respelledHeader = some t ∧ message = canonical t sampleBody},
      message = canonical 1700000000 sampleBody := by
    rintro message (rfl | ⟨t, ht, rfl⟩)
    · rfl
    · rw [Option.some.inj (ht.symm.trans hparsed)]
  intro m hm m' hm' _
  rw [honly m hm, honly m' hm']

end Hookit
