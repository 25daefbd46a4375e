import Hookit.Ledger.Banks
import Hookit.Receivers.Envelope
import Hookit.Services.Inbox

/-!
# The public receivers

`showcase_receiver` of `app/routers/showcase.py`, and `bank_naive_receiver` and
`bank_safe_receiver` of `app/routers/showcase_ledger.py`, on a database: what each of them answers
and leaves, or the exception that leaves it.

A request comes with the clock that `verify_signature` reads, and with the id and the time of the
row that records it.
-/

namespace Hookit.Receivers

open Foundations Foundations.PyStr Ledger Bank

/-- A request to a receiver. -/
structure Inbound where
  /-- `X-Webhook-Signature`. -/
  signature : Option PyStr
  /-- `X-Webhook-Timestamp`. -/
  timestamp : Option PyStr
  /-- `X-Webhook-Attempt`. -/
  attempt : Option PyStr
  body : Bytes
  /-- `time.time()`. -/
  now : ℚ
  /-- The primary key of the row that records the request. -/
  recordId : Uuid
  /-- The `received_at` of that row. -/
  receivedAt : Time

/-- A JSON response: the status code, and the one item of its content. -/
structure Answer where
  statusCode : ℕ
  content : PyStr × PyStr

/-- An exception that nothing catches. -/
def uncaught {α : Type} (x : Except PyError α) : Except ApiError α := x.mapError ApiError.raised

theorem uncaught_eq_ok_iff {α : Type} {x : Except PyError α} {a : α} :
    uncaught x = .ok a ↔ x = .ok a := by
  cases x <;> simp [uncaught, Except.mapError]

/-- What the receivers use of Python's library. -/
def runtime (P : Platform) (loads : Bytes → Except LoadsError Json) : Runtime :=
  ⟨loads, P.printable, P.storable_of_printable⟩

/-- The endpoint with an id and a reserved marker, or a 404. -/
def markedEndpoint (db : Database) (endpointId : Uuid) (marker : PyStr) (detail : String) :
    Except ApiError EndpointRow :=
  orRaise (.http 404 (ofString detail))
    ((db.endpoints.get? endpointId).filter fun endpoint => marker ∈ endpoint.eventTypes)

/-- `_attempt_number`. -/
def attemptNumber (request : Inbound) : ℤ :=
  (int? (request.attempt.getD (ofString "1"))).getD 1

/-- The row that records a request. -/
def receivedRow (endpointId : Uuid) (request : Inbound) (eventType : PyStr) (verified : Bool)
    (responseStatus : ℕ) : ReceivedRow where
  endpointId
  eventType
  attempt := attemptNumber request
  verified
  responseStatus
  signatureHeader := request.signature
  timestampHeader := request.timestamp
  body := decodeReplace request.body
  receivedAt := request.receivedAt

/-- `_record`. -/
def record (db : Database) (endpointId : Uuid) (request : Inbound) (eventType : PyStr)
    (verified : Bool) (responseStatus : ℕ) : Except ApiError Database :=
  uncaught (recordReceivedRequest db request.recordId
    (receivedRow endpointId request eventType verified responseStatus))

section Showcase

variable (H : Hmac) (P : Platform) (loads : Bytes → Except LoadsError Json)

/-- The type that the body names. -/
def eventTypeOf (body : Bytes) : Except PyError PyStr :=
  match loads body with
  | .ok (.obj doc) =>
    .ok (((Json.get doc (ofString "type")).getD (.str (ofString "unknown"))).toStr P.printable)
  -- an `AttributeError`: only a `dict` has `get`
  | .ok _ => .ok (ofString "unknown")
  | .error .jsonDecodeError => .ok (ofString "unknown")
  | .error err => .error err.raised

/-- `showcase_receiver`. -/
def showcaseReceiver (db : Database) (endpointId : Uuid) (request : Inbound) :
    Except ApiError (Answer × Database) := do
  let endpoint ← markedEndpoint db endpointId showcaseMarker "Unknown showcase endpoint"
  let (verified, reason) ← uncaught
    (verifySignature H endpoint.secret request.signature request.body (.finite request.now))
  let eventType ← uncaught (eventTypeOf P loads request.body)
  let healthy := getHealth db endpointId
  let responseStatus := if !verified then 401 else if healthy then 200 else 503
  let db ← record db endpointId request eventType verified responseStatus
  if !verified then return (⟨401, ofString "error", reason⟩, db)
  else if !healthy then return (⟨503, ofString "status", ofString "pipeline unavailable"⟩, db)
  else return (⟨200, ofString "status", ofString "accepted"⟩, db)

/-- `bank_naive_receiver`. -/
def bankNaiveReceiver (db : Database) (endpointId : Uuid) (request : Inbound) :
    Except ApiError (Answer × Database) := do
  let endpoint ← markedEndpoint db endpointId bankNaiveMarker "Unknown showcase bank endpoint"
  let (_, eventType, payload) ← uncaught (parseEnvelope (runtime P loads) request.body)
  let (verified, _) ← uncaught
    (verifySignature H endpoint.secret request.signature request.body (.finite request.now))
  let mode := getBankMode db endpointId
  if mode = .down then
    let db ← record db endpointId request eventType verified 503
    return (⟨503, ofString "status", ofString "bank unavailable"⟩, db)
  else
    let trade ← uncaught (parseTrade P payload)
    let db ←
      match trade with
      | none => .ok db
      | some trade => uncaught do
        let (readBalance, db) ← readNaive P db endpointId trade
        writeNaive db endpointId trade readBalance
    let responseStatus := if mode = .healthy then 200 else 500
    let db ← record db endpointId request eventType verified responseStatus
    if mode = .flaky then return (⟨500, ofString "status", ofString "internal error"⟩, db)
    else return (⟨200, ofString "status",
      if trade.isSome then ofString "applied" else ofString "ignored"⟩, db)

/-- The `status` that Bank B answers with. -/
def outcomeText : Outcome → PyStr
  | .applied => ofString "applied"
  | .duplicate => ofString "duplicate"

/-- `bank_safe_receiver`. -/
def bankSafeReceiver (db : Database) (endpointId : Uuid) (request : Inbound) :
    Except ApiError (Answer × Database) := do
  let endpoint ← markedEndpoint db endpointId bankSafeMarker "Unknown showcase bank endpoint"
  let (eventId, eventType, payload) ← uncaught (parseEnvelope (runtime P loads) request.body)
  let (verified, reason) ← uncaught
    (verifySignature H endpoint.secret request.signature request.body (.finite request.now))
  let mode := getBankMode db endpointId
  if mode = .down then
    let db ← record db endpointId request eventType verified 503
    return (⟨503, ofString "status", ofString "bank unavailable"⟩, db)
  else if !verified then
    let db ← record db endpointId request eventType false 401
    return (⟨401, ofString "error", reason⟩, db)
  else
    let trade ← uncaught (parseTrade P payload)
    match eventId, trade with
    | some eventId, some trade =>
      let (result, db) ← uncaught (applyTradeSafe P db endpointId eventId trade)
      let responseStatus := if mode = .healthy then 200 else 500
      let db ← record db endpointId request eventType true responseStatus
      if mode = .flaky then return (⟨500, ofString "status", ofString "internal error"⟩, db)
      else return (⟨200, ofString "status", outcomeText result⟩, db)
    | _, _ =>
      let db ← record db endpointId request eventType true 400
      return (⟨400, ofString "error", ofString "not a recognizable trade delivery"⟩, db)

end Showcase

end Hookit.Receivers
