import Hookit.Ledger.Agreement
import Hookit.Receivers.Routes

/-!
# What the receivers answer

`documented_iff`: each of the three public receivers answers by its documented codes exactly when
the request is `Legible` (its body is JSON or fails to be JSON in the one way that is caught, its
signature header can be verified, the row that records it can be stored) and, at a bank that gets
as far as the trade, the trade can be read and the bank's columns take it. One byte that is not
UTF-8 is enough for a request that is not (`not_documented`).
-/

namespace Hookit.Receivers

open Foundations Foundations.PyStr Ledger Bank

/-! ## The documented codes -/

/-- The answer to an endpoint that there is not. -/
def NotFound (result : Except ApiError (Answer × Database)) : Prop :=
  ∃ detail, result = .error (.http 404 detail)

/-- The endpoint with an id, if it carries the marker. -/
def endpointWith (db : Database) (endpointId : Uuid) (marker : PyStr) : Option EndpointRow :=
  (db.endpoints.get? endpointId).filter fun endpoint => marker ∈ endpoint.eventTypes

section Definitions

variable (H : Hmac) (P : Platform) (loads : Bytes → Except LoadsError Json) (db : Database)
  (endpointId : Uuid) (request : Inbound)

/-- The event id, the type and the payload that the body spells, if it is JSON. -/
def envelopeOf : Option Uuid × PyStr × JsonObject :=
  parseDocument (runtime P loads) (loads request.body).toOption

/-- The request is in the inbox with the status code that it is answered by, unless twenty newer
ones are. -/
def Recorded (db' : Database) (responseStatus : ℕ) : Prop :=
  (newerReceived db endpointId (toLex (request.receivedAt, request.recordId))).length < inboxKeep →
    ∃ row, db'.receivedRequests.get? request.recordId = some row ∧
      row.endpointId = endpointId ∧ row.responseStatus = responseStatus

/-- `showcase_receiver` answers 404 for an unknown endpoint, and otherwise 401, 200 or 503 and
records the request. -/
def ShowcaseDocumented : Prop :=
  match endpointWith db endpointId showcaseMarker with
  | none => NotFound (showcaseReceiver H P loads db endpointId request)
  | some _ => ∃ answer db', showcaseReceiver H P loads db endpointId request = .ok (answer, db') ∧
      answer.statusCode ∈ [401, 200, 503] ∧ Recorded db endpointId request db' answer.statusCode

/-- `bank_naive_receiver` answers 404 for an unknown endpoint, 503 when down, 500 in flaky mode and
200 otherwise. -/
def NaiveDocumented : Prop :=
  match endpointWith db endpointId bankNaiveMarker with
  | none => NotFound (bankNaiveReceiver H P loads db endpointId request)
  | some _ => ∃ answer db', bankNaiveReceiver H P loads db endpointId request = .ok (answer, db') ∧
      answer.statusCode =
        match getBankMode db endpointId with
        | .down => 503
        | .flaky => 500
        | .healthy => 200

/-- The signature verifies. -/
def Verified (endpoint : EndpointRow) : Prop :=
  ∃ reason, verifySignature H endpoint.secret request.signature request.body (.finite request.now) =
    .ok (true, reason)

/-- The body names an event and spells a trade. -/
def Recognizable : Prop :=
  (envelopeOf P loads request).1 ≠ none ∧ trade? P (envelopeOf P loads request).2.2 ≠ none

/-- The code of `bank_safe_receiver` where the endpoint is known and the bank is not down: 401 to an
unverified request, 400 to an unrecognizable one, 500 in flaky mode and 200 otherwise. -/
def SafeCode (endpoint : EndpointRow) (code : ℕ) : Prop :=
  (¬ Verified H request endpoint ∧ code = 401) ∨
    (Verified H request endpoint ∧ ¬ Recognizable P loads request ∧ code = 400) ∨
    (Verified H request endpoint ∧ Recognizable P loads request ∧
      code = if getBankMode db endpointId = .flaky then 500 else 200)

/-- `bank_safe_receiver` answers 404 for an unknown endpoint, 503 when down, and otherwise by its
code. -/
def SafeDocumented : Prop :=
  match endpointWith db endpointId bankSafeMarker with
  | none => NotFound (bankSafeReceiver H P loads db endpointId request)
  | some endpoint => ∃ answer db',
      bankSafeReceiver H P loads db endpointId request = .ok (answer, db') ∧
        if getBankMode db endpointId = .down then answer.statusCode = 503
        else SafeCode H P loads db endpointId request endpoint answer.statusCode

/-! ## The requests that they can answer -/

/-- What every receiver needs of a request. -/
structure Legible : Prop where
  /-- `json.loads` returns or raises a `JSONDecodeError`. -/
  has_loads : ∀ err, loads request.body = .error err → err = .jsonDecodeError
  verifiable : Verifiable request.signature (.finite request.now)
  /-- The columns of the inbox take the request. -/
  eventType : (envelopeOf P loads request).2.1.storable = true
  attempt : FitsInteger (attemptNumber request)
  signature : request.signature.all PyStr.storable = true
  timestamp : request.timestamp.all PyStr.storable = true
  body : PyStr.storable ((decodeReplace request.body).take maxBodyChars) = true

/-- The amount of a trade is no `NaN`. -/
def Ordered : Prop :=
  ∀ account side executedAt,
    ¬ NanTrade P (envelopeOf P loads request).2.2 account side executedAt

/-- The columns of Bank A take the trade. -/
def NaiveFits : Prop :=
  ∀ trade, trade? P (envelopeOf P loads request).2.2 = some trade →
    CanOpen P db endpointId trade.account ∧
    storableAccount ⟨(accountRow db endpointId trade.account).balance + trade.delta,
      some trade.description, some trade.executedAt⟩ = true

/-- Bank B has processed the event, or its columns take the trade. -/
def SafeFits : Prop :=
  ∀ eventId trade, (envelopeOf P loads request).1 = some eventId →
    trade? P (envelopeOf P loads request).2.2 = some trade →
    db.ledgerProcessed.get? (endpointId, eventId) = none → Applicable P db endpointId trade

/-- The receivers answer the request by their documented codes. -/
structure Documented : Prop where
  showcase : ShowcaseDocumented H P loads db endpointId request
  bankNaive : NaiveDocumented H P loads db endpointId request
  bankSafe : SafeDocumented H P loads db endpointId request

/-- The receivers can answer the request. -/
structure Answerable : Prop where
  showcase : endpointWith db endpointId showcaseMarker ≠ none → Legible P loads request
  bankNaive : endpointWith db endpointId bankNaiveMarker ≠ none → Legible P loads request ∧
    (getBankMode db endpointId ≠ .down →
      Ordered P loads request ∧ NaiveFits P loads db endpointId request)
  bankSafe : ∀ endpoint, endpointWith db endpointId bankSafeMarker = some endpoint →
    Legible P loads request ∧ (getBankMode db endpointId ≠ .down → Verified H request endpoint →
      Ordered P loads request ∧ SafeFits P loads db endpointId request)

end Definitions

section Parts

variable {H : Hmac} {P : Platform} {loads : Bytes → Except LoadsError Json} {db : Database}
  {endpointId : Uuid} {request : Inbound}

theorem markedEndpoint_eq_ok_iff {marker : PyStr} {detail : String} {endpoint : EndpointRow} :
    markedEndpoint db endpointId marker detail = .ok endpoint ↔
      endpointWith db endpointId marker = some endpoint := orRaise_eq_ok_iff

/-- The body is read unless `json.loads` raises what is not caught. -/
theorem parseEnvelope_eq_ok_iff {r : Option Uuid × PyStr × JsonObject} :
    parseEnvelope (runtime P loads) request.body = .ok r ↔
      (∀ err, loads request.body = .error err → err = .jsonDecodeError) ∧
        r = envelopeOf P loads request := by
  unfold parseEnvelope envelopeOf runtime
  dsimp only
  cases hloads : loads request.body with
  | ok doc => simp [Except.toOption, eq_comm]
  | error err => cases err <;> simp [Except.toOption, eq_comm]

theorem eventTypeOf_eq_ok_iff {eventType : PyStr} :
    eventTypeOf P loads request.body = .ok eventType ↔
      (∀ err, loads request.body = .error err → err = .jsonDecodeError) ∧
        eventType = (envelopeOf P loads request).2.1 := by
  unfold eventTypeOf envelopeOf
  cases hloads : loads request.body with
  | ok doc => cases doc <;> simp [Except.toOption, parseDocument, runtime, eq_comm]
  | error err => cases err <;> simp [Except.toOption, parseDocument, eq_comm]

theorem recordReceivedRequest_eq_ok {id : Uuid} {row : ReceivedRow} :
    (∃ db', recordReceivedRequest db id row = .ok db') ↔ StorableReceived row.cut := by
  unfold recordReceivedRequest
  split
  · next h => exact iff_of_true ⟨_, rfl⟩ h
  · next h => exact iff_of_false (by simp) h

/-- A legible request is recorded, whatever is answered. -/
theorem exists_record_iff {eventType : PyStr} {verified : Bool} {responseStatus : ℕ} :
    (∃ db', record db endpointId request eventType verified responseStatus = .ok db') ↔
      eventType.storable = true ∧ FitsInteger (attemptNumber request) ∧
        request.signature.all PyStr.storable = true ∧ request.timestamp.all PyStr.storable = true ∧
        PyStr.storable ((decodeReplace request.body).take maxBodyChars) = true := by
  simp only [record, uncaught_eq_ok_iff, recordReceivedRequest_eq_ok]
  exact ⟨fun h => ⟨h.eventType, h.attempt, h.signatureHeader, h.timestampHeader, h.body⟩,
    fun ⟨h₁, h₂, h₃, h₄, h₅⟩ => ⟨h₁, h₂, h₃, h₄, h₅⟩⟩

theorem exists_parseTrade_iff_ordered :
    (∃ trade, parseTrade P (envelopeOf P loads request).2.2 = .ok trade) ↔
      Ordered P loads request := exists_parseTrade_iff

theorem legible_iff (db : Database) (endpointId : Uuid) (verified : Bool) (responseStatus : ℕ) :
    Legible P loads request ↔ (∀ err, loads request.body = .error err → err = .jsonDecodeError) ∧
      Verifiable request.signature (.finite request.now) ∧
      ∃ db', record db endpointId request (envelopeOf P loads request).2.1 verified
        responseStatus = .ok db' := by
  rw [exists_record_iff]
  exact ⟨fun h => ⟨h.has_loads, h.verifiable, h.eventType, h.attempt, h.signature, h.timestamp,
      h.body⟩,
    fun ⟨h₁, h₂, h₃, h₄, h₅, h₆, h₇⟩ => ⟨h₁, h₂, h₃, h₄, h₅, h₆, h₇⟩⟩

/-- What is recorded is in the inbox. -/
theorem recorded_of_record {db' : Database} {eventType : PyStr} {verified : Bool}
    {responseStatus : ℕ} (hfresh : db.receivedRequests.get? request.recordId = none)
    (h : record db endpointId request eventType verified responseStatus = .ok db') :
    Recorded db endpointId request db' responseStatus := by
  intro hnewer
  have hget := (get?_recordReceivedRequest hfresh (uncaught_eq_ok_iff.1 h)).2 hnewer
  exact ⟨_, hget, rfl, rfl⟩

/-! ## The showcase receiver -/

theorem markedEndpoint_eq_error {marker : PyStr} {detail : String}
    (h : endpointWith db endpointId marker = none) :
    markedEndpoint db endpointId marker detail = .error (.http 404 (ofString detail)) := by
  unfold endpointWith at h
  rw [markedEndpoint, h]
  rfl

theorem showcaseReceiver_unknown (h : endpointWith db endpointId showcaseMarker = none) :
    NotFound (showcaseReceiver H P loads db endpointId request) := by
  rw [showcaseReceiver, markedEndpoint_eq_error h]
  exact ⟨_, rfl⟩

/-- What `showcase_receiver` answers and leaves. -/
theorem showcaseReceiver_eq_ok_iff {endpoint : EndpointRow}
    (h : endpointWith db endpointId showcaseMarker = some endpoint) {answer : Answer}
    {db' : Database} :
    showcaseReceiver H P loads db endpointId request = .ok (answer, db') ↔
      (∀ err, loads request.body = .error err → err = .jsonDecodeError) ∧
      ∃ verified reason, verifySignature H endpoint.secret request.signature request.body
          (.finite request.now) = .ok (verified, reason) ∧
        answer = (if !verified then ⟨401, ofString "error", reason⟩
          else if !getHealth db endpointId then
            ⟨503, ofString "status", ofString "pipeline unavailable"⟩
          else ⟨200, ofString "status", ofString "accepted"⟩) ∧
        record db endpointId request (envelopeOf P loads request).2.1 verified answer.statusCode =
          .ok db' := by
  simp only [showcaseReceiver, bind_eq_ok_iff, markedEndpoint_eq_ok_iff, h, uncaught_eq_ok_iff,
    @eventTypeOf_eq_ok_iff P loads request, Option.some.injEq, exists_eq_left']
  constructor
  · rintro ⟨⟨verified, reason⟩, hverify, _, ⟨hloads, rfl⟩, db'', hrecord, hanswer⟩
    refine ⟨hloads, verified, reason, hverify, ?_⟩
    cases verified with
    | false =>
      obtain ⟨rfl, rfl⟩ := Prod.mk.inj (pure_eq_ok_iff.1 hanswer)
      exact ⟨rfl, hrecord⟩
    | true =>
      cases hhealth : getHealth db endpointId with
      | false =>
        rw [hhealth] at hanswer hrecord
        obtain ⟨rfl, rfl⟩ := Prod.mk.inj (pure_eq_ok_iff.1 hanswer)
        exact ⟨rfl, hrecord⟩
      | true =>
        rw [hhealth] at hanswer hrecord
        obtain ⟨rfl, rfl⟩ := Prod.mk.inj (pure_eq_ok_iff.1 hanswer)
        exact ⟨rfl, hrecord⟩
  · rintro ⟨hloads, verified, reason, hverify, rfl, hrecord⟩
    refine ⟨(verified, reason), hverify, _, ⟨hloads, rfl⟩, db', ?_⟩
    cases verified with
    | false => exact ⟨hrecord, rfl⟩
    | true =>
      cases hhealth : getHealth db endpointId with
      | false =>
        rw [hhealth] at hrecord
        exact ⟨hrecord, rfl⟩
      | true =>
        rw [hhealth] at hrecord
        exact ⟨hrecord, rfl⟩

/-- **The showcase receiver** answers as documented if the request is legible. -/
theorem showcaseDocumented_iff (hfresh : db.receivedRequests.get? request.recordId = none) :
    ShowcaseDocumented H P loads db endpointId request ↔
      (endpointWith db endpointId showcaseMarker ≠ none → Legible P loads request) := by
  unfold ShowcaseDocumented
  cases hendpoint : endpointWith db endpointId showcaseMarker with
  | none => exact iff_of_true (showcaseReceiver_unknown hendpoint) (absurd rfl)
  | some endpoint =>
    simp only [showcaseReceiver_eq_ok_iff hendpoint, ne_eq, reduceCtorEq, not_false_eq_true,
      true_imp_iff]
    constructor
    · rintro ⟨answer, db', ⟨hloads, verified, reason, hverify, -, hrecord⟩, -, -⟩
      exact (legible_iff db endpointId verified answer.statusCode).2
        ⟨hloads, exists_verifySignature_iff.1 ⟨_, hverify⟩, db', hrecord⟩
    · intro hlegible
      obtain ⟨hloads, hverifiable, -⟩ := (legible_iff db endpointId true 200).1 hlegible
      obtain ⟨⟨verified, reason⟩, hverify⟩ := exists_verifySignature_iff.2 hverifiable
      obtain ⟨answer, hanswer⟩ : ∃ answer : Answer, answer =
          if !verified then ⟨401, ofString "error", reason⟩
          else if !getHealth db endpointId then
            ⟨503, ofString "status", ofString "pipeline unavailable"⟩
          else ⟨200, ofString "status", ofString "accepted"⟩ := ⟨_, rfl⟩
      obtain ⟨-, -, db', hrecord⟩ :=
        (legible_iff db endpointId verified answer.statusCode).1 hlegible
      refine ⟨answer, db', ⟨hloads, verified, reason, hverify, hanswer, hrecord⟩, ?_,
        recorded_of_record hfresh hrecord⟩
      rw [hanswer]
      split_ifs <;> simp

/-! ## Bank A -/

theorem bankNaiveReceiver_unknown (h : endpointWith db endpointId bankNaiveMarker = none) :
    NotFound (bankNaiveReceiver H P loads db endpointId request) := by
  rw [bankNaiveReceiver, markedEndpoint_eq_error h]
  exact ⟨_, rfl⟩

/-- Bank A applies a trade that its columns take. -/
theorem exists_applyNaive_iff {trade : ParsedTrade} :
    (∃ db', (do
        let (readBalance, db) ← readNaive P db endpointId trade
        writeNaive db endpointId trade readBalance) = .ok db') ↔
      CanOpen P db endpointId trade.account ∧
      storableAccount ⟨(accountRow db endpointId trade.account).balance + trade.delta,
        some trade.description, some trade.executedAt⟩ = true := by
  simp only [bind_eq_ok_iff, Prod.exists, readNaive_eq_ok_iff, writeNaive, storeAccount_eq_ok_iff]
  constructor
  · rintro ⟨_, _, _, ⟨hopen, rfl, rfl⟩, hstore, -⟩
    exact ⟨hopen, hstore⟩
  · rintro ⟨hopen, hstore⟩
    exact ⟨_, _, _, ⟨hopen, rfl, rfl⟩, hstore, rfl⟩

/-- What both banks answer while they are down. -/
theorem bankDown_iff {endpoint : EndpointRow} {answer : Answer} {db' : Database} :
    (∃ envelope, ((∀ err, loads request.body = .error err → err = .jsonDecodeError) ∧
        envelope = envelopeOf P loads request) ∧
      ∃ verdict, verifySignature H endpoint.secret request.signature request.body
          (.finite request.now) = .ok verdict ∧
        ∃ recorded, record db endpointId request envelope.2.1 verdict.1 503 = .ok recorded ∧
          (⟨503, ofString "status", ofString "bank unavailable"⟩ : Answer) = answer ∧
            recorded = db') ↔
      (∀ err, loads request.body = .error err → err = .jsonDecodeError) ∧
      ∃ verified reason, verifySignature H endpoint.secret request.signature request.body
          (.finite request.now) = .ok (verified, reason) ∧
        record db endpointId request (envelopeOf P loads request).2.1 verified 503 = .ok db' ∧
        answer = ⟨503, ofString "status", ofString "bank unavailable"⟩ := by
  constructor
  · rintro ⟨_, ⟨hloads, rfl⟩, ⟨verified, reason⟩, hverify, _, hrecord, rfl, rfl⟩
    exact ⟨hloads, verified, reason, hverify, hrecord, rfl⟩
  · rintro ⟨hloads, verified, reason, hverify, hrecord, rfl⟩
    exact ⟨_, ⟨hloads, rfl⟩, (verified, reason), hverify, _, hrecord, rfl, rfl⟩

/-- A bank that is down answers every legible request, with 503. -/
theorem exists_bankDown_iff {endpoint : EndpointRow} :
    (∃ answer db', ((∀ err, loads request.body = .error err → err = .jsonDecodeError) ∧
      ∃ verified reason, verifySignature H endpoint.secret request.signature request.body
          (.finite request.now) = .ok (verified, reason) ∧
        record db endpointId request (envelopeOf P loads request).2.1 verified 503 = .ok db' ∧
        answer = (⟨503, ofString "status", ofString "bank unavailable"⟩ : Answer)) ∧
      answer.statusCode = 503) ↔ Legible P loads request := by
  constructor
  · rintro ⟨answer, db', ⟨hloads, verified, reason, hverify, hrecord, -⟩, -⟩
    exact (legible_iff db endpointId verified 503).2
      ⟨hloads, exists_verifySignature_iff.1 ⟨_, hverify⟩, db', hrecord⟩
  · intro hlegible
    obtain ⟨hloads, hverifiable, -⟩ := (legible_iff db endpointId true 503).1 hlegible
    obtain ⟨⟨verified, reason⟩, hverify⟩ := exists_verifySignature_iff.2 hverifiable
    obtain ⟨-, -, db', hrecord⟩ := (legible_iff db endpointId verified 503).1 hlegible
    exact ⟨_, db', ⟨hloads, verified, reason, hverify, hrecord, rfl⟩, rfl⟩

/-- What `bank_naive_receiver` answers while the bank is down. -/
theorem bankNaiveReceiver_down_iff {endpoint : EndpointRow}
    (h : endpointWith db endpointId bankNaiveMarker = some endpoint)
    (hmode : getBankMode db endpointId = .down) {answer : Answer} {db' : Database} :
    bankNaiveReceiver H P loads db endpointId request = .ok (answer, db') ↔
      (∀ err, loads request.body = .error err → err = .jsonDecodeError) ∧
      ∃ verified reason, verifySignature H endpoint.secret request.signature request.body
          (.finite request.now) = .ok (verified, reason) ∧
        record db endpointId request (envelopeOf P loads request).2.1 verified 503 = .ok db' ∧
        answer = ⟨503, ofString "status", ofString "bank unavailable"⟩ := by
  simp only [bankNaiveReceiver, bind_eq_ok_iff, markedEndpoint_eq_ok_iff, h, uncaught_eq_ok_iff,
    parseEnvelope_eq_ok_iff, Option.some.injEq, exists_eq_left', hmode, if_true, pure_eq_ok_iff,
    Prod.mk.injEq]
  exact bankDown_iff

/-- A bank that is not down answers 500 in flaky mode and 200 otherwise. -/
theorem flakyAnswer_eq_ok_iff {mode : BankMode} {flaky healthy : PyStr × PyStr} {answer : Answer}
    {db db' : Database} :
    (if mode = .flaky then pure (⟨500, flaky⟩, db) else pure (⟨200, healthy⟩, db) :
        Except ApiError (Answer × Database)) = .ok (answer, db') ↔
      answer = (if mode = .flaky then ⟨500, flaky⟩ else ⟨200, healthy⟩) ∧ db = db' := by
  split_ifs <;> rw [pure_eq_ok_iff, Prod.mk.injEq, eq_comm (a := answer)]

/-- What `bank_naive_receiver` answers while the bank is not down. -/
theorem bankNaiveReceiver_up_iff {endpoint : EndpointRow}
    (h : endpointWith db endpointId bankNaiveMarker = some endpoint)
    (hmode : getBankMode db endpointId ≠ .down) {answer : Answer} {db' : Database} :
    bankNaiveReceiver H P loads db endpointId request = .ok (answer, db') ↔
      (∀ err, loads request.body = .error err → err = .jsonDecodeError) ∧
      ∃ verified reason, verifySignature H endpoint.secret request.signature request.body
          (.finite request.now) = .ok (verified, reason) ∧
      ∃ trade, parseTrade P (envelopeOf P loads request).2.2 = .ok trade ∧
      ∃ db'', (∀ t, trade = some t → (do
          let (readBalance, db) ← readNaive P db endpointId t
          writeNaive db endpointId t readBalance) = .ok db'') ∧ (trade = none → db'' = db) ∧
        record db'' endpointId request (envelopeOf P loads request).2.1 verified
          (if getBankMode db endpointId = .healthy then 200 else 500) = .ok db' ∧
        answer = if getBankMode db endpointId = .flaky then
            ⟨500, ofString "status", ofString "internal error"⟩
          else ⟨200, ofString "status",
            if trade.isSome then ofString "applied" else ofString "ignored"⟩ := by
  simp only [bankNaiveReceiver, bind_eq_ok_iff, markedEndpoint_eq_ok_iff, h, uncaught_eq_ok_iff,
    parseEnvelope_eq_ok_iff, Option.some.injEq, exists_eq_left', if_neg hmode]
  constructor
  · rintro ⟨_, ⟨hloads, rfl⟩, ⟨verified, reason⟩, hverify, trade, htrade, h⟩
    refine ⟨hloads, verified, reason, hverify, trade, htrade, ?_⟩
    cases trade with
    | none =>
      simp only [bind_eq_ok_iff, flakyAnswer_eq_ok_iff] at h
      obtain ⟨_, hdb, _, hrecord, hanswer, rfl⟩ := h
      obtain rfl := Except.ok.inj hdb
      exact ⟨_, by simp, fun _ => rfl, hrecord, hanswer⟩
    | some trade =>
      simp only [bind_eq_ok_iff, uncaught_eq_ok_iff, flakyAnswer_eq_ok_iff] at h
      obtain ⟨db'', happly, _, hrecord, hanswer, rfl⟩ := h
      refine ⟨db'', fun t ht => ?_, by simp, hrecord, hanswer⟩
      obtain rfl := Option.some.inj ht
      exact happly
  · rintro ⟨hloads, verified, reason, hverify, trade, htrade, db'', happly, hdb, hrecord, hanswer⟩
    refine ⟨_, ⟨hloads, rfl⟩, (verified, reason), hverify, trade, htrade, ?_⟩
    cases trade with
    | none =>
      obtain rfl := hdb rfl
      simp only [bind_eq_ok_iff, flakyAnswer_eq_ok_iff]
      exact ⟨_, rfl, _, hrecord, hanswer, rfl⟩
    | some trade =>
      simp only [bind_eq_ok_iff, uncaught_eq_ok_iff, flakyAnswer_eq_ok_iff]
      exact ⟨db'', happly trade rfl, _, hrecord, hanswer, rfl⟩

/-- **Bank A** answers as documented if the request is legible and, while the bank is not down, the
trade is one that it can apply. -/
theorem naiveDocumented_iff : NaiveDocumented H P loads db endpointId request ↔
      (endpointWith db endpointId bankNaiveMarker ≠ none → Legible P loads request ∧
        (getBankMode db endpointId ≠ .down →
          Ordered P loads request ∧ NaiveFits P loads db endpointId request)) := by
  unfold NaiveDocumented
  cases hendpoint : endpointWith db endpointId bankNaiveMarker with
  | none => exact iff_of_true (bankNaiveReceiver_unknown hendpoint) (absurd rfl)
  | some endpoint =>
    simp only [ne_eq, reduceCtorEq, not_false_eq_true, true_imp_iff]
    by_cases hmode : getBankMode db endpointId = .down
    · simp only [bankNaiveReceiver_down_iff hendpoint hmode, hmode, not_true_eq_false, false_imp_iff,
        and_true]
      exact exists_bankDown_iff
    · simp only [bankNaiveReceiver_up_iff hendpoint hmode, hmode, not_false_eq_true, true_imp_iff]
      constructor
      · rintro ⟨answer, db', ⟨hloads, verified, reason, hverify, trade, htrade, db'', happly, -,
          hrecord, -⟩, -⟩
        refine ⟨(legible_iff db'' endpointId verified _).2
          ⟨hloads, exists_verifySignature_iff.1 ⟨_, hverify⟩, db', hrecord⟩,
          exists_parseTrade_iff_ordered.1 ⟨trade, htrade⟩, fun t ht => ?_⟩
        rw [trade?, htrade] at ht
        obtain rfl : trade = some t := ht
        exact exists_applyNaive_iff.1 ⟨db'', happly t rfl⟩
      · rintro ⟨hlegible, hordered, hfits⟩
        obtain ⟨hloads, hverifiable, -⟩ := (legible_iff db endpointId true 200).1 hlegible
        obtain ⟨⟨verified, reason⟩, hverify⟩ :=
          (@exists_verifySignature_iff H endpoint.secret _ request.body _).2 hverifiable
        obtain ⟨trade, htrade⟩ := exists_parseTrade_iff_ordered.2 hordered
        obtain ⟨db'', happly, hdb⟩ : ∃ db'', (∀ t, trade = some t → (do
            let (readBalance, db) ← readNaive P db endpointId t
            writeNaive db endpointId t readBalance) = .ok db'') ∧ (trade = none → db'' = db) := by
          cases trade with
          | none => exact ⟨db, by simp, fun _ => rfl⟩
          | some t =>
            obtain ⟨db'', hdb⟩ := exists_applyNaive_iff.2 (hfits t (by rw [trade?, htrade]; rfl))
            refine ⟨db'', fun t' ht => ?_, by simp⟩
            obtain rfl := Option.some.inj ht
            exact hdb
        obtain ⟨-, -, db', hrecord⟩ := (legible_iff db'' endpointId verified
          (if getBankMode db endpointId = .healthy then 200 else 500)).1 hlegible
        refine ⟨_, db', ⟨hloads, verified, reason, hverify, trade, htrade, db'', happly, hdb,
          hrecord, rfl⟩, ?_⟩
        cases hcode : getBankMode db endpointId with
        | down => exact absurd hcode hmode
        | flaky => rfl
        | healthy => rfl

/-! ## Bank B -/

theorem bankSafeReceiver_unknown (h : endpointWith db endpointId bankSafeMarker = none) :
    NotFound (bankSafeReceiver H P loads db endpointId request) := by
  rw [bankSafeReceiver, markedEndpoint_eq_error h]
  exact ⟨_, rfl⟩

/-- Bank B returns for a trade that it has processed or that its columns take. -/
theorem exists_applyTradeSafe_iff {eventId : Uuid} {trade : ParsedTrade} :
    (∃ r, applyTradeSafe P db endpointId eventId trade = .ok r) ↔
      (db.ledgerProcessed.get? (endpointId, eventId) = none →
        Applicable P db endpointId trade) := by
  rcases applyTradeSafe_cases P db endpointId eventId trade with
    ⟨hprocessed, h⟩ | ⟨hnone, happ, h⟩ | ⟨hnone, happ, e, h⟩
  · exact iff_of_true ⟨_, h⟩ fun hnone => by simp [hprocessed] at hnone
  · exact iff_of_true ⟨_, h⟩ fun _ => happ
  · exact iff_of_false (by simp [h]) fun himp => happ (himp hnone)

/-- What `bank_safe_receiver` answers to a verified request while the bank is not down. -/
theorem bankSafeReceiver_verified_iff {endpoint : EndpointRow}
    (h : endpointWith db endpointId bankSafeMarker = some endpoint)
    (hmode : getBankMode db endpointId ≠ .down) {reason : PyStr}
    (hverify : verifySignature H endpoint.secret request.signature request.body
      (.finite request.now) = .ok (true, reason)) {answer : Answer} {db' : Database} :
    bankSafeReceiver H P loads db endpointId request = .ok (answer, db') ↔
      (∀ err, loads request.body = .error err → err = .jsonDecodeError) ∧
      ∃ trade, parseTrade P (envelopeOf P loads request).2.2 = .ok trade ∧
        ((∃ eventId t result db'', (envelopeOf P loads request).1 = some eventId ∧ trade = some t ∧
            applyTradeSafe P db endpointId eventId t = .ok (result, db'') ∧
            record db'' endpointId request (envelopeOf P loads request).2.1 true
              (if getBankMode db endpointId = .healthy then 200 else 500) = .ok db' ∧
            answer = if getBankMode db endpointId = .flaky then
                ⟨500, ofString "status", ofString "internal error"⟩
              else ⟨200, ofString "status", outcomeText result⟩) ∨
          ((envelopeOf P loads request).1 = none ∨ trade = none) ∧
            record db endpointId request (envelopeOf P loads request).2.1 true 400 = .ok db' ∧
            answer = ⟨400, ofString "error", ofString "not a recognizable trade delivery"⟩) := by
  simp only [bankSafeReceiver, bind_eq_ok_iff, markedEndpoint_eq_ok_iff, h, uncaught_eq_ok_iff,
    parseEnvelope_eq_ok_iff, Option.some.injEq, exists_eq_left', if_neg hmode, hverify,
    Except.ok.injEq]
  generalize envelopeOf P loads request = envelope
  obtain ⟨eventId, eventType, payload⟩ := envelope
  have hnot : (!true) ≠ true := by decide
  simp only [if_neg hnot, bind_eq_ok_iff, uncaught_eq_ok_iff]
  constructor
  · rintro ⟨_, ⟨hloads, rfl⟩, trade, htrade, h⟩
    refine ⟨hloads, trade, htrade, ?_⟩
    cases eventId with
    | none =>
      simp only [bind_eq_ok_iff, pure_eq_ok_iff, Prod.mk.injEq] at h
      obtain ⟨_, hrecord, rfl, rfl⟩ := h
      exact .inr ⟨.inl rfl, hrecord, rfl⟩
    | some eventId =>
      cases trade with
      | none =>
        simp only [bind_eq_ok_iff, pure_eq_ok_iff, Prod.mk.injEq] at h
        obtain ⟨_, hrecord, rfl, rfl⟩ := h
        exact .inr ⟨.inr rfl, hrecord, rfl⟩
      | some t =>
        simp only [bind_eq_ok_iff, uncaught_eq_ok_iff, flakyAnswer_eq_ok_iff] at h
        obtain ⟨⟨result, db''⟩, happly, _, hrecord, hanswer, rfl⟩ := h
        exact .inl ⟨eventId, t, result, db'', rfl, rfl, happly, hrecord, hanswer⟩
  · rintro ⟨hloads, trade, htrade, ⟨eventId, t, result, db'', rfl, rfl, happly, hrecord, hanswer⟩ |
      ⟨hnone, hrecord, rfl⟩⟩
    · refine ⟨_, ⟨hloads, rfl⟩, some t, htrade, ?_⟩
      simp only [bind_eq_ok_iff, uncaught_eq_ok_iff, flakyAnswer_eq_ok_iff]
      exact ⟨(result, db''), happly, db', hrecord, hanswer, rfl⟩
    · refine ⟨_, ⟨hloads, rfl⟩, trade, htrade, ?_⟩
      dsimp only at hnone ⊢
      split
      · simp at hnone
      · simp only [bind_eq_ok_iff, pure_eq_ok_iff]
        exact ⟨db', hrecord, rfl⟩

/-- What `bank_safe_receiver` answers while the bank is down. -/
theorem bankSafeReceiver_down_iff {endpoint : EndpointRow}
    (h : endpointWith db endpointId bankSafeMarker = some endpoint)
    (hmode : getBankMode db endpointId = .down) {answer : Answer} {db' : Database} :
    bankSafeReceiver H P loads db endpointId request = .ok (answer, db') ↔
      (∀ err, loads request.body = .error err → err = .jsonDecodeError) ∧
      ∃ verified reason, verifySignature H endpoint.secret request.signature request.body
          (.finite request.now) = .ok (verified, reason) ∧
        record db endpointId request (envelopeOf P loads request).2.1 verified 503 = .ok db' ∧
        answer = ⟨503, ofString "status", ofString "bank unavailable"⟩ := by
  simp only [bankSafeReceiver, bind_eq_ok_iff, markedEndpoint_eq_ok_iff, h, uncaught_eq_ok_iff,
    parseEnvelope_eq_ok_iff, Option.some.injEq, exists_eq_left', hmode, if_true, pure_eq_ok_iff,
    Prod.mk.injEq]
  exact bankDown_iff

/-- What `bank_safe_receiver` answers to an unverified request while the bank is not down. -/
theorem bankSafeReceiver_unverified_iff {endpoint : EndpointRow}
    (h : endpointWith db endpointId bankSafeMarker = some endpoint)
    (hmode : getBankMode db endpointId ≠ .down) {reason : PyStr}
    (hverify : verifySignature H endpoint.secret request.signature request.body
      (.finite request.now) = .ok (false, reason)) {answer : Answer} {db' : Database} :
    bankSafeReceiver H P loads db endpointId request = .ok (answer, db') ↔
      (∀ err, loads request.body = .error err → err = .jsonDecodeError) ∧
        record db endpointId request (envelopeOf P loads request).2.1 false 401 = .ok db' ∧
        answer = ⟨401, ofString "error", reason⟩ := by
  have hnot : (!false) = true := by decide
  simp only [bankSafeReceiver, bind_eq_ok_iff, markedEndpoint_eq_ok_iff, h, uncaught_eq_ok_iff,
    parseEnvelope_eq_ok_iff, Option.some.injEq, exists_eq_left', if_neg hmode, hverify,
    Except.ok.injEq, if_pos hnot, pure_eq_ok_iff, Prod.mk.injEq]
  constructor
  · rintro ⟨_, ⟨hloads, rfl⟩, _, hrecord, rfl, rfl⟩
    exact ⟨hloads, hrecord, rfl⟩
  · rintro ⟨hloads, hrecord, rfl⟩
    exact ⟨_, ⟨hloads, rfl⟩, _, hrecord, rfl, rfl⟩

theorem bankSafeReceiver_verify {endpoint : EndpointRow}
    (h : endpointWith db endpointId bankSafeMarker = some endpoint)
    {r : Answer × Database} (hr : bankSafeReceiver H P loads db endpointId request = .ok r) :
    ∃ verdict, verifySignature H endpoint.secret request.signature request.body
      (.finite request.now) = .ok verdict := by
  simp only [bankSafeReceiver, bind_eq_ok_iff, markedEndpoint_eq_ok_iff, h, uncaught_eq_ok_iff,
    Option.some.injEq, exists_eq_left'] at hr
  obtain ⟨_, -, verdict, hverify, -⟩ := hr
  exact ⟨verdict, hverify⟩

/-- **Bank B** answers as documented if the request is legible and, where it gets as far as the
trade, the trade is one that it can apply. -/
theorem safeDocumented_iff : SafeDocumented H P loads db endpointId request ↔
    ∀ endpoint, endpointWith db endpointId bankSafeMarker = some endpoint →
      Legible P loads request ∧ (getBankMode db endpointId ≠ .down → Verified H request endpoint →
        Ordered P loads request ∧ SafeFits P loads db endpointId request) := by
  unfold SafeDocumented
  cases hendpoint : endpointWith db endpointId bankSafeMarker with
  | none => exact iff_of_true (bankSafeReceiver_unknown hendpoint) (by simp)
  | some endpoint =>
    simp only [Option.some.injEq, forall_eq']
    by_cases hmode : getBankMode db endpointId = .down
    · simp only [bankSafeReceiver_down_iff hendpoint hmode, hmode, ne_eq, not_true_eq_false,
        false_imp_iff, and_true, if_true]
      exact exists_bankDown_iff
    simp only [hmode, if_false, ne_eq, not_false_eq_true, true_imp_iff]
    by_cases hverifiable : Verifiable request.signature (.finite request.now)
    swap
    · refine iff_of_false ?_ fun h => hverifiable h.1.verifiable
      rintro ⟨answer, db', h, -⟩
      exact hverifiable (exists_verifySignature_iff.1 (bankSafeReceiver_verify hendpoint h))
    obtain ⟨⟨verified, reason⟩, hverify⟩ :=
      (@exists_verifySignature_iff H endpoint.secret _ request.body _).2 hverifiable
    cases verified with
    | false =>
      have hnot : ¬ Verified H request endpoint := by
        rintro ⟨reason', h⟩
        rw [hverify] at h
        cases h
      simp only [bankSafeReceiver_unverified_iff hendpoint hmode hverify, hnot, false_imp_iff,
        and_true]
      constructor
      · rintro ⟨answer, db', ⟨hloads, hrecord, -⟩, -⟩
        exact (legible_iff db endpointId false 401).2 ⟨hloads, hverifiable, db', hrecord⟩
      · intro hlegible
        obtain ⟨hloads, -, db', hrecord⟩ := (legible_iff db endpointId false 401).1 hlegible
        exact ⟨_, db', ⟨hloads, hrecord, rfl⟩, .inl ⟨hnot, rfl⟩⟩
    | true =>
      have hverified : Verified H request endpoint := ⟨reason, hverify⟩
      simp only [bankSafeReceiver_verified_iff hendpoint hmode hverify, hverified, true_imp_iff]
      constructor
      · rintro ⟨answer, db', ⟨hloads, trade, htrade, h⟩, -⟩
        have hordered := exists_parseTrade_iff_ordered.1 ⟨trade, htrade⟩
        have htrade' : trade? P (envelopeOf P loads request).2.2 = trade := by
          rw [trade?, htrade]
          rfl
        rcases h with ⟨eventId, t, result, db'', hid, rfl, happly, hrecord, -⟩ | ⟨hnone, hrecord, -⟩
        · refine ⟨(legible_iff db'' endpointId true _).2 ⟨hloads, hverifiable, db', hrecord⟩,
            hordered, fun eventId' t' hid' ht' => ?_⟩
          obtain rfl := Option.some.inj (hid.symm.trans hid')
          obtain rfl := Option.some.inj (htrade'.symm.trans ht')
          exact exists_applyTradeSafe_iff.1 ⟨_, happly⟩
        · refine ⟨(legible_iff db endpointId true 400).2 ⟨hloads, hverifiable, db', hrecord⟩,
            hordered, fun eventId' t' hid' ht' => ?_⟩
          rw [htrade'] at ht'
          simp [hid', ht'] at hnone
      · rintro ⟨hlegible, hordered, hfits⟩
        obtain ⟨hloads, -, -⟩ := (legible_iff db endpointId true 400).1 hlegible
        obtain ⟨trade, htrade⟩ := exists_parseTrade_iff_ordered.2 hordered
        have htrade' : trade? P (envelopeOf P loads request).2.2 = trade := by
          rw [trade?, htrade]
          rfl
        by_cases hnone : (envelopeOf P loads request).1 = none ∨ trade = none
        · obtain ⟨-, -, db', hrecord⟩ := (legible_iff db endpointId true 400).1 hlegible
          refine ⟨_, db', ⟨hloads, trade, htrade, .inr ⟨hnone, hrecord, rfl⟩⟩,
            .inr (.inl ⟨hverified, fun hrec => ?_, rfl⟩)⟩
          rcases hnone with hnone | hnone
          · exact hrec.1 hnone
          · exact hrec.2 (htrade'.trans hnone)
        · rw [not_or] at hnone
          obtain ⟨eventId, hid⟩ := Option.ne_none_iff_exists'.1 hnone.1
          obtain ⟨t, rfl⟩ := Option.ne_none_iff_exists'.1 hnone.2
          obtain ⟨⟨result, db''⟩, happly⟩ := exists_applyTradeSafe_iff.2 (hfits eventId t hid htrade')
          obtain ⟨-, -, db', hrecord⟩ := (legible_iff db'' endpointId true
            (if getBankMode db endpointId = .healthy then 200 else 500)).1 hlegible
          refine ⟨_, db', ⟨hloads, some t, htrade,
            .inl ⟨eventId, t, result, db'', hid, rfl, happly, hrecord, rfl⟩⟩,
            .inr (.inr ⟨hverified, ⟨hnone.1, by simp [htrade']⟩, ?_⟩)⟩
          split_ifs <;> rfl

end Parts

/-- **The receivers answer by their documented codes** exactly where they can answer. -/
theorem documented_iff (H : Hmac) (P : Platform) (loads : Bytes → Except LoadsError Json)
    (db : Database) (endpointId : Uuid) (request : Inbound)
    (hfresh : db.receivedRequests.get? request.recordId = none) :
    Documented H P loads db endpointId request ↔ Answerable H P loads db endpointId request :=
  ⟨fun h => ⟨(showcaseDocumented_iff hfresh).1 h.showcase, naiveDocumented_iff.1 h.bankNaive,
      safeDocumented_iff.1 h.bankSafe⟩,
    fun h => ⟨(showcaseDocumented_iff hfresh).2 h.showcase, naiveDocumented_iff.2 h.bankNaive,
      safeDocumented_iff.2 h.bankSafe⟩⟩

/-! ## A signed trade -/

/-- A database with one receiver of each kind. -/
def receiverDatabase : Database :=
  let row (marker : PyStr) : EndpointRow :=
    { projectId := .ofNat 0
      url := ofString "http://app.internal/showcase"
      eventTypes := [marker]
      secret := sampleSecret
      status := .active
      payloadFormat := .raw
      rateLimitRps := none
      createdAt := .epoch
      updatedAt := 0 }
  { Database.empty with
    endpoints := ((Rows.empty.insert (.ofNat 1) (row showcaseMarker)).insert (.ofNat 2)
      (row bankNaiveMarker)).insert (.ofNat 3) (row bankSafeMarker) }

/-- The envelope of a purchase. -/
def purchaseEnvelope : Json :=
  .obj (deliveryDocument .raw (.ofNat 4) (ofString "trade.executed") purchase.1 [])

/-- HMAC-SHA256 of `1700000000.` and the envelope under the secret. -/
def purchaseDigest : PyStr :=
  ofString "c0f044ba99b5f46afe25dbe322aeca294aeb1920cf6faa79e7a97c03e18ed8ed"

/-- HMAC-SHA256, as far as this message goes. -/
def purchaseHmac : Hmac := .constant purchaseDigest (by decide) (by decide)

/-- The first attempt of its delivery. -/
def signedRequest : Inbound where
  signature := some (ofString "t=1700000000,v1=" ++ purchaseDigest)
  timestamp := some (ofString "1700000000")
  attempt := some (ofString "1")
  body := spelled purchaseEnvelope
  now := 1700000001
  recordId := .ofNat 0
  receivedAt := 1700000001

theorem verifySignature_signedRequest : verifySignature purchaseHmac sampleSecret
    signedRequest.signature signedRequest.body (.finite signedRequest.now) =
      .ok (true, ofString "ok") :=
  verifySignature_eq_ok_true_iff.2 ⟨rfl, by decide, 1700000000, .finite 1700000000, purchaseDigest,
    by decide +kernel, by decide +kernel, by decide +kernel,
    signPayload_eq_ok_iff.2 ⟨⟨_, strInt_eq_some_iff.2 ⟨by decide, rfl⟩⟩, rfl⟩, by decide +kernel⟩

theorem envelopeOf_signedRequest : envelopeOf .ascii (loadsOnly purchaseEnvelope) signedRequest =
    (some (.ofNat 4), ofString "trade.executed", purchase.1) := by
  rw [envelopeOf, show signedRequest.body = spelled purchaseEnvelope from rfl, loadsOnly_spelled]
  exact parseDocument_raw _ _ _ _ _

theorem legible_signedRequest : Legible .ascii (loadsOnly purchaseEnvelope) signedRequest where
  has_loads err h := by
    rw [show signedRequest.body = spelled purchaseEnvelope from rfl, loadsOnly_spelled] at h
    cases h
  verifiable := exists_verifySignature_iff.1 ⟨_, verifySignature_signedRequest⟩
  eventType := by
    rw [envelopeOf_signedRequest]
    decide
  attempt := by decide +kernel
  signature := by decide +kernel
  timestamp := by decide +kernel
  body := by decide +kernel

theorem answerable_signedRequest : Answerable purchaseHmac .ascii (loadsOnly purchaseEnvelope)
    receiverDatabase (.ofNat 3) signedRequest where
  showcase _ := legible_signedRequest
  bankNaive h := absurd (by decide +kernel) h
  bankSafe endpoint _ := by
    refine ⟨legible_signedRequest, fun _ _ => ⟨?_, fun eventId trade _ htrade _ => ?_⟩⟩
    · have hparsed : (parseTrade .ascii purchase.1).toOption.isSome = true := by decide +kernel
      obtain ⟨trade, htrade⟩ := Option.isSome_iff_exists.1 hparsed
      refine exists_parseTrade_iff_ordered.1 ⟨trade, ?_⟩
      rw [envelopeOf_signedRequest]
      exact toOption_eq_some_iff.1 htrade
    · rw [envelopeOf_signedRequest, plain_purchase.trade?] at htrade
      obtain rfl := Option.some.inj htrade
      exact ⟨fun _ => ⟨by decide +kernel, plain_purchase.indexable⟩, rfl, by decide +kernel⟩

/-- Bank B answers it by 200. -/
theorem documented_iff_signedRequest : ∃ answer db',
    bankSafeReceiver purchaseHmac .ascii (loadsOnly purchaseEnvelope) receiverDatabase (.ofNat 3)
      signedRequest = .ok (answer, db') ∧ answer.statusCode = 200 := by
  have hsafe := ((documented_iff purchaseHmac .ascii (loadsOnly purchaseEnvelope) receiverDatabase
    (.ofNat 3) signedRequest rfl).2 answerable_signedRequest).bankSafe
  unfold SafeDocumented at hsafe
  have hknown : (endpointWith receiverDatabase (.ofNat 3) bankSafeMarker).map (·.secret) =
      some sampleSecret := by decide +kernel
  obtain ⟨endpoint, hendpoint, hsecret⟩ := Option.map_eq_some_iff.1 hknown
  rw [hendpoint] at hsafe
  obtain ⟨answer, db', hanswer, hcode⟩ := hsafe
  have hmode : getBankMode receiverDatabase (.ofNat 3) = .healthy := by decide +kernel
  rw [hmode, if_neg (by decide)] at hcode
  have hverified : Verified purchaseHmac signedRequest endpoint := by
    refine ⟨ofString "ok", ?_⟩
    rw [hsecret]
    exact verifySignature_signedRequest
  have hrecognizable : Recognizable .ascii (loadsOnly purchaseEnvelope) signedRequest := by
    rw [Recognizable, envelopeOf_signedRequest, plain_purchase.trade?]
    exact ⟨by simp, by simp⟩
  refine ⟨answer, db', hanswer, ?_⟩
  rcases hcode with ⟨hnot, -⟩ | ⟨-, hnot, -⟩ | ⟨-, -, hcode⟩
  · exact absurd hverified hnot
  · exact absurd hrecognizable hnot
  · rw [hcode, hmode]
    rfl

/-! ## A byte that is not UTF-8 -/

/-- A request with one byte that is not UTF-8. -/
def binaryRequest : Inbound where
  signature := none
  timestamp := none
  attempt := none
  body := [byte 0xFF]
  now := 1700000000
  recordId := .ofNat 0
  receivedAt := 0

/-- A byte that is not UTF-8 ends every receiver in an exception. -/
theorem not_documented : ¬ ∀ (H : Hmac) (P : Platform) (loads : Bytes → Except LoadsError Json)
    (db : Database) (endpointId : Uuid) (request : Inbound),
    db.receivedRequests.get? request.recordId = none →
      Documented H P loads db endpointId request := by
  intro hall
  have hshowcase := (hall sampleHmac .ascii (fun _ => .error .unicodeDecodeError) receiverDatabase
    (.ofNat 1) binaryRequest rfl).showcase
  have hknown : (endpointWith receiverDatabase (.ofNat 1) showcaseMarker).isSome = true := by
    decide +kernel
  obtain ⟨endpoint, hendpoint⟩ := Option.isSome_iff_exists.1 hknown
  unfold ShowcaseDocumented at hshowcase
  rw [hendpoint] at hshowcase
  obtain ⟨answer, db', h, -⟩ := hshowcase
  exact absurd (((showcaseReceiver_eq_ok_iff hendpoint).1 h).1 _ rfl) (by decide)

end Hookit.Receivers
