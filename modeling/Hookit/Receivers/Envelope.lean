import Hookit.Services.Transform
import Hookit.Worker.Signing

/-!
# Reading a delivery

What the in-app receivers make of the body of a request, and the path of a delivery from the
worker to them. `json.loads` and the table of printable characters are parameters (`Runtime`).

* `parseEnvelope` is `_parse_envelope` of `app/routers/showcase_ledger.py`.
* `parseEnvelope_of_raw`: the platform's own envelope comes apart into what it was made of.
* `accepted_of_sent`: the request that the worker builds is accepted by the receivers.
-/

namespace Hookit.Receivers

open Foundations Foundations.PyStr

/-- How `json.loads` fails. -/
inductive LoadsError
  | jsonDecodeError
  | unicodeDecodeError
  | valueError
  | recursionError
  deriving DecidableEq, Repr

/-- The parts of Python's library that are left open. -/
structure Runtime where
  loads : Bytes → Except LoadsError Json
  printable : CodePoint → Bool
  storable_of_printable : ∀ c, printable c = true → storableChar c = true

/-- The exception behind a failure of `json.loads` that no handler names; a `UnicodeDecodeError`
is a `ValueError`. -/
def LoadsError.raised : LoadsError → PyError
  | jsonDecodeError => .valueError
  | unicodeDecodeError => .valueError
  | valueError => .valueError
  | recursionError => .recursionError

/-- `_parse_envelope` on a document. -/
def parseDocument (R : Runtime) : Option Json → Option Uuid × PyStr × JsonObject
  | some (.obj doc) =>
    let eventType := (((Json.get doc (ofString "type")).getD (.str (ofString "unknown")))).toStr
      R.printable
    let payload :=
      match Json.get doc (ofString "payload") with
      | some (.obj payload) => payload
      | _ => []
    let eventId := Uuid.uuid? (((Json.get doc (ofString "event_id")).getD .null).toStr R.printable)
    (eventId, eventType, payload)
  | _ => (none, ofString "unknown", [])

/-- `_parse_envelope`. -/
def parseEnvelope (R : Runtime) (body : Bytes) :
    Except PyError (Option Uuid × PyStr × JsonObject) :=
  match R.loads body with
  | .ok doc => .ok (parseDocument R (some doc))
  | .error .jsonDecodeError => .ok (parseDocument R none)
  | .error err => .error err.raised

/-- The platform's own envelope comes apart into what it was made of. -/
theorem parseDocument_raw (R : Runtime) (eventId : Uuid) (eventType : PyStr) (payload : JsonObject)
    (built : PyStr) :
    parseDocument R (some (.obj (deliveryDocument .raw eventId eventType payload built))) =
      (some eventId, eventType, payload) := by
  have hid : Json.get (deliveryDocument .raw eventId eventType payload built)
      (ofString "event_id") = some (.str eventId.str) := rfl
  have htype : Json.get (deliveryDocument .raw eventId eventType payload built)
      (ofString "type") = some (.str eventType) := rfl
  have hpayload : Json.get (deliveryDocument .raw eventId eventType payload built)
      (ofString "payload") = some (.obj payload) := rfl
  simp only [parseDocument, hid, htype, hpayload, Option.getD_some, Json.toStr, Uuid.uuid?_str]

section Sent

variable (H : Hmac) (R : Runtime) (secret : Secret) (payloadFormat : PayloadFormat)
  (eventId : Uuid) (eventType : PyStr) (payload : JsonObject) (built : PyStr) (timestamp : ℤ)
  (now : ℚ)

/-- The request that the worker builds for an event at the time `timestamp` is accepted by the
receivers at the time `now`. -/
def Accepted : Prop :=
  ∃ body header, buildDeliveryBody payloadFormat eventId eventType payload built = some body ∧
    buildSignatureHeader H secret timestamp body = .ok header ∧
    verifySignature H secret (some header) body (.finite now) = .ok (true, ofString "ok") ∧
    (payloadFormat = .raw → parseEnvelope R body = .ok (some eventId, eventType, payload))

/-- `json.loads` inverts `json.dumps` on the platform's envelope for the event. -/
def ReadsBack : Prop :=
  ∀ body, buildDeliveryBody .raw eventId eventType payload built = some body →
    R.loads body = .ok (.obj (deliveryDocument .raw eventId eventType payload built))

/-- **The request that the worker builds is accepted** if the clock of the receiver is within the
window of the send time as a double, which up to `2 ^ 53` is the send time itself. -/
theorem accepted_of_sent (sent : ℚ) (hsent : PyFloat.ofInt? timestamp = some (.finite sent))
    (hage : |now - sent| ≤ maxAgeSeconds) (hloads : ReadsBack R eventId eventType payload built) :
    Accepted H R secret payloadFormat eventId eventType payload built timestamp now ∧
      (|timestamp| < 2 ^ 53 → sent = timestamp) := by
  constructor
  · obtain ⟨body, hbody⟩ :=
      exists_buildDeliveryBody payloadFormat eventId eventType payload built
    obtain ⟨header, hheader, hverify⟩ :=
      @verifySignature_buildSignatureHeader H secret timestamp body sent now hsent hage
    refine ⟨body, header, hbody, hheader, hverify, ?_⟩
    rintro rfl
    rw [parseEnvelope, hloads body hbody]
    exact congrArg Except.ok (parseDocument_raw R eventId eventType payload built)
  · intro htimestamp
    rw [PyFloat.ofInt?, PyFloat.rounded_intCast htimestamp, Option.map_some, Option.some.injEq,
      PyFloat.finite.injEq] at hsent
    exact hsent.symm

end Sent

/-! ## The text of a document -/

/-- The bytes of a document as `json.dumps` writes it. -/
def spelled (doc : Json) : Bytes := (doc.dumps (ofString ",") (ofString ":")).map byteOf

/-- `json.loads`, as far as the text of one document goes. -/
def loadsOnly (doc : Json) (body : Bytes) : Except LoadsError Json :=
  if body = spelled doc then .ok doc else .error .jsonDecodeError

theorem loadsOnly_spelled (doc : Json) : loadsOnly doc (spelled doc) = .ok doc := if_pos rfl

/-! ## Two requests -/

/-- A payload with one item. -/
def samplePayload : JsonObject := [(ofString "amount", .str (ofString "1.00"))]

/-- A library that reads the envelope of one event. -/
def sampleRuntime : Runtime where
  loads _ := .ok (.obj (deliveryDocument .raw 1 (ofString "trade.executed") samplePayload []))
  printable := Json.isVisible
  storable_of_printable := Json.storable_of_isVisible

theorem readsBack_sampleRuntime :
    ReadsBack sampleRuntime 1 (ofString "trade.executed") samplePayload [] :=
  fun _ _ => rfl

/-- HMAC-SHA256, as far as the envelope of the event sent at 1700000000 goes. -/
def envelopeHmac : Hmac :=
  .constant (ofString "c58de66f0943efc1e9686cda2d4e9f8c31cf7b71eb7ffa84a018a7b42a84eb1a")
    (by decide) (by decide)

/-- A request that arrives at the edge of the window. -/
theorem accepted_of_sent_at_edge :
    Accepted envelopeHmac sampleRuntime sampleSecret .raw 1 (ofString "trade.executed")
      samplePayload [] 1700000000 1700000300 ∧
      (|(1700000000 : ℤ)| < 2 ^ 53 → (1700000000 : ℚ) = ((1700000000 : ℤ) : ℚ)) :=
  accepted_of_sent envelopeHmac sampleRuntime sampleSecret .raw 1 (ofString "trade.executed")
    samplePayload [] 1700000000 1700000300 1700000000 (by decide +kernel) (by decide +kernel)
    readsBack_sampleRuntime

/-- HMAC-SHA256, as far as the envelope of the event sent at `2 ^ 55 + 4` goes. -/
def farHmac : Hmac :=
  .constant (ofString "0ffc7c3f3586839da5beb53ca33cff3bb2feb7433e2b1db4585a28a46db0db0c")
    (by decide) (by decide)

/-- Within the window of the send time itself a request can be refused: `2 ^ 55 + 4` becomes
`2 ^ 55` as a double, 304 seconds before `2 ^ 55 + 304`. -/
theorem not_accepted_of_sent :
    ¬ ∀ (H : Hmac) (R : Runtime) (secret : Secret) (payloadFormat : PayloadFormat) (eventId : Uuid)
      (eventType : PyStr) (payload : JsonObject) (built : PyStr) (timestamp : ℤ) (now : ℚ),
      |now - timestamp| ≤ maxAgeSeconds → ReadsBack R eventId eventType payload built →
      Accepted H R secret payloadFormat eventId eventType payload built timestamp now := by
  intro hall
  obtain ⟨body, header, -, hheader, hverify, -⟩ := hall farHmac sampleRuntime sampleSecret .raw 1
    (ofString "trade.executed") samplePayload [] (2 ^ 55 + 4) (2 ^ 55 + 304) (by decide +kernel)
    readsBack_sampleRuntime
  obtain rfl : _ = header :=
    Except.ok.inj ((buildSignatureHeader_eq_ok (by decide +kernel)).symm.trans hheader)
  obtain ⟨-, -, t, sent, sig, ht, hsent, hage, -⟩ := verifySignature_eq_ok_true_iff.1 hverify
  have ht' : parsedTimestamp (ofString "t=" ++ ofInt (2 ^ 55 + 4) ++ ofString ",v1=" ++
      farHmac.hexdigest sampleSecret.bytes (canonical (2 ^ 55 + 4) body)) = some (2 ^ 55 + 4) := by
    change parsedTimestamp (ofString "t=" ++ ofInt (2 ^ 55 + 4) ++ ofString ",v1=" ++
      ofString "0ffc7c3f3586839da5beb53ca33cff3bb2feb7433e2b1db4585a28a46db0db0c") = _
    decide +kernel
  obtain rfl := Option.some.inj (ht.symm.trans ht')
  have hsent' : PyFloat.ofInt? (2 ^ 55 + 4) = some (.finite (2 ^ 55)) := by decide +kernel
  obtain rfl := Option.some.inj (hsent.symm.trans hsent')
  revert hage
  decide +kernel

end Hookit.Receivers
