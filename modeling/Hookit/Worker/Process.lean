import Hookit.Services.Ssrf
import Hookit.Worker.Backoff
import Mathlib.Data.Rat.Floor

/-!
# `app/worker/delivery_worker.py`: one delivery

`process_delivery` in its three parts: what comes before the POST (`prepareDelivery`), the
recording of a destination that the SSRF check refuses (`refuseDelivery`), and what comes after
the POST (`settleDelivery`). The body and the signature header are functions of the endpoint, the
event and the timestamp; a request carries these arguments.

Each part may raise; `settleDelivery_eq_ok_iff` says exactly when the last does not and what it
then returns. `schedules_iff` says for which attempt numbers a retry is scheduled as promised.
-/

namespace Hookit

open Foundations

variable {π : Type}

/-- The request that `process_delivery` POSTs. -/
structure Request (π : Type) where
  url : PyStr
  payloadFormat : PayloadFormat
  eventId : EventId
  eventType : PyStr
  payload : π
  /-- `X-Webhook-Timestamp` -/
  timestamp : ℤ
  /-- `X-Webhook-Attempt` -/
  attempt : ℕ

/-- How the `try` block around the POST ends. -/
inductive Answer
  /-- A response arrives and its body decodes. -/
  | response (statusCode : ℕ) (text : PyStr)
  /-- A response arrives and reading `resp.text` raises, as for a `charset` whose codec
  refuses the bytes. -/
  | undecodable (statusCode : ℕ) (message : PyStr)
  /-- `http_client.post` raises. -/
  | raised (message : PyStr)
  deriving DecidableEq

namespace Answer

/-- `response_status`: assigned before `resp.text` is read. -/
def responseStatus : Answer → Option ℕ
  | response statusCode _ => some statusCode
  | undecodable statusCode _ => some statusCode
  | raised _ => none

/-- `response_body`. -/
def responseBody : Answer → Option PyStr
  | response _ text => some (text.take 1024)
  | undecodable _ _ => none
  | raised _ => none

/-- `error`. -/
def error : Answer → Option PyStr
  | response _ _ => none
  | undecodable _ message => some (message.take 1024)
  | raised message => some (message.take 1024)

/-- `succeeded`: computed last in the `try` block. -/
def succeeded : Answer → Bool
  | response statusCode _ => decide (Is2xx statusCode)
  | undecodable _ _ => false
  | raised _ => false

/-- The one text of the answer that is stored. -/
def stored : Answer → PyStr
  | response _ text => text.take 1024
  | undecodable _ message => message.take 1024
  | raised message => message.take 1024

/-- The columns take what is stored of the answer. -/
def Storable (a : Answer) : Prop :=
  a.stored.storable = true ∧ ∀ status, a.responseStatus = some status → FitsCounter status

/-- The receiver answered with a 2xx status. -/
def Is2xx (a : Answer) : Prop := ∃ status, a.responseStatus = some status ∧ Hookit.Is2xx status

instance (a : Answer) : Decidable a.Is2xx :=
  match h : a.responseStatus with
  | none => isFalse fun ⟨_, hs, _⟩ => by rw [h] at hs; cases hs
  | some status =>
    if h2 : Hookit.Is2xx status then isTrue ⟨status, h, h2⟩
    else isFalse fun ⟨s, hs, hs2⟩ => by
      rw [h] at hs
      exact h2 (Option.some.inj hs ▸ hs2)

theorem is2xx_of_succeeded {a : Answer} (h : a.succeeded = true) : a.Is2xx := by
  cases a with
  | response statusCode text => exact ⟨statusCode, rfl, by simpa [succeeded] using h⟩
  | undecodable statusCode message => cases h
  | raised message => cases h

/-- A 2xx answer counts as a success unless its body does not decode. -/
theorem succeeded_of_is2xx {a : Answer} (h : a.Is2xx) (hd : ∀ s m, a ≠ undecodable s m) :
    a.succeeded = true := by
  obtain ⟨status, hs, h2⟩ := h
  cases a with
  | response statusCode text =>
    obtain rfl := Option.some.inj hs
    exact decide_eq_true h2
  | undecodable statusCode message => exact absurd rfl (hd _ _)
  | raised message => cases hs

end Answer

/-- The columns of the row take its values. -/
structure DeliveryAttempt.Storable (a : DeliveryAttempt) : Prop where
  attemptNumber : FitsCounter a.attemptNumber
  responseStatus : ∀ status, a.responseStatus = some status → FitsCounter status
  responseBody : ∀ body, a.responseBody = some body → body.storable = true ∧ body.length ≤ 1024
  error : ∀ message, a.error = some message → message.storable = true
  durationMs : FitsCounter a.durationMs
  workerId : a.workerId.storable = true

instance (a : DeliveryAttempt) : Decidable a.Storable :=
  decidable_of_iff (FitsCounter a.attemptNumber ∧
      (∀ status ∈ a.responseStatus, FitsCounter status) ∧
      (∀ body ∈ a.responseBody, body.storable = true ∧ body.length ≤ 1024) ∧
      (∀ message ∈ a.error, message.storable = true) ∧ FitsCounter a.durationMs ∧
      a.workerId.storable = true)
    ⟨fun ⟨h₁, h₂, h₃, h₄, h₅, h₆⟩ => ⟨h₁, h₂, h₃, h₄, h₅, h₆⟩,
      fun h => ⟨h.attemptNumber, h.responseStatus, h.responseBody, h.error, h.durationMs,
        h.workerId⟩⟩

/-- `session.flush()` with the attempt pending. -/
def flushAttempt (a : DeliveryAttempt) : Except PyError Unit :=
  if a.Storable then .ok () else .error .dataError

/-- What `process_delivery` leaves: the delivery's row and its new attempt. -/
structure Settled where
  row : Delivery
  attempt : DeliveryAttempt
  deriving DecidableEq

/-- `process_delivery` up to the POST: `none` where the SSRF check refuses the destination. -/
def prepareDelivery (lib : UrlLib) (endpoint : Endpoint) (event : Event π) (delivery : Delivery)
    (ts : ℤ) : Except PyError (Option (Request π)) :=
  match validateUrlNotSsrf lib endpoint.url with
  | .error .ssrfError => .ok none
  | .error e => .error e
  | .ok () => .ok <| some
      { url := endpoint.url
        payloadFormat := endpoint.payloadFormat
        eventId := event.id
        eventType := event.type
        payload := event.payload
        timestamp := ts
        attempt := delivery.attemptCount + 1 }

/-- The attempt that records a refused destination. -/
def refusedAttempt (d : DeliveryId) (delivery : Delivery) (worker : PyStr) : DeliveryAttempt where
  deliveryId := d
  attemptNumber := delivery.attemptCount + 1
  responseStatus := none
  responseBody := none
  error := some ssrfErrorMsg
  durationMs := 0
  workerId := worker

/-- `process_delivery` where the SSRF check refuses the destination. -/
def refuseDelivery (d : DeliveryId) (delivery : Delivery) (worker : PyStr) :
    Except PyError Settled := do
  let attempt := refusedAttempt d delivery worker
  flushAttempt attempt
  return ⟨{ delivery with attemptCount := delivery.attemptCount + 1, status := .deadLettered },
    attempt⟩

/-- The attempt that records an answer. -/
def answeredAttempt (d : DeliveryId) (delivery : Delivery) (answer : Answer) (durationMs : ℕ)
    (worker : PyStr) : DeliveryAttempt where
  deliveryId := d
  attemptNumber := delivery.attemptCount + 1
  responseStatus := answer.responseStatus
  responseBody := answer.responseBody
  error := answer.error
  durationMs := durationMs
  workerId := worker

/-- The status decision of `process_delivery` on an answer, at clock reading `now`. -/
def decideDelivery (cfg : Settings) (delivery : Delivery) (answer : Answer) (now : Time)
    (draw : Draw) : Except PyError Delivery :=
  let attemptNumber := delivery.attemptCount + 1
  if answer.succeeded then
    .ok { delivery with attemptCount := attemptNumber, status := .succeeded }
  else if cfg.maxDeliveryAttempts ≤ attemptNumber then
    .ok { delivery with attemptCount := attemptNumber, status := .deadLettered }
  else do
    let next ← computeNextAttemptAt attemptNumber cfg.retryBaseSeconds cfg.retryCapSeconds now draw
    return { delivery with
      attemptCount := attemptNumber
      status := .pending
      nextAttemptAt := next
      leasedUntil := none }

/-- `process_delivery` after the POST. -/
def settleDelivery (cfg : Settings) (d : DeliveryId) (delivery : Delivery) (answer : Answer)
    (durationMs : ℕ) (worker : PyStr) (now : Time) (draw : Draw) : Except PyError Settled := do
  let attempt := answeredAttempt d delivery answer durationMs worker
  let row ← decideDelivery cfg delivery answer now draw
  flushAttempt attempt
  return ⟨row, attempt⟩

/-! ## What the parts return -/

/-- **The request that is POSTed** is made of the rows of the endpoint, the event and the
delivery. -/
theorem prepareDelivery_eq_some_iff {lib : UrlLib} {ep : Endpoint} {ev : Event π} {r : Delivery}
    {ts : ℤ} {request : Request π} : prepareDelivery lib ep ev r ts = .ok (some request) ↔
      validateUrlNotSsrf lib ep.url = .ok () ∧ request =
        { url := ep.url
          payloadFormat := ep.payloadFormat
          eventId := ev.id
          eventType := ev.type
          payload := ev.payload
          timestamp := ts
          attempt := r.attemptCount + 1 } := by
  rcases validateUrlNotSsrf_cases lib ep.url with ⟨-, hv | hv⟩ | ⟨-, hv⟩ <;>
    simp [prepareDelivery, hv, eq_comm]

theorem ssrfErrorMsg_storable : ssrfErrorMsg.storable = true := by decide

theorem fitsCounter_zero : FitsCounter 0 := by decide

theorem refusedAttempt_storable_iff {d : DeliveryId} {r : Delivery} {worker : PyStr} :
    (refusedAttempt d r worker).Storable ↔
      FitsCounter (r.attemptCount + 1) ∧ worker.storable = true := by
  refine ⟨fun h => ⟨h.attemptNumber, h.workerId⟩, fun ⟨hnumber, hworker⟩ =>
    ⟨hnumber, nofun, nofun, fun message h => ?_, fitsCounter_zero, hworker⟩⟩
  obtain rfl := Option.some.inj h
  exact ssrfErrorMsg_storable

/-- The slice to 1024 characters keeps the body within its column, so only the characters of
the stored text and the numbers decide. -/
theorem answeredAttempt_storable_iff {d : DeliveryId} {r : Delivery} {a : Answer} {ms : ℕ}
    {worker : PyStr} : (answeredAttempt d r a ms worker).Storable ↔
      a.Storable ∧ FitsCounter (r.attemptCount + 1) ∧ FitsCounter ms ∧
        worker.storable = true := by
  constructor
  · intro h
    refine ⟨⟨?_, h.responseStatus⟩, h.attemptNumber, h.durationMs, h.workerId⟩
    cases a with
    | response statusCode text => exact (h.responseBody _ rfl).1
    | undecodable statusCode message => exact h.error _ rfl
    | raised message => exact h.error _ rfl
  · rintro ⟨⟨htext, hstatus⟩, hnumber, hms, hworker⟩
    refine ⟨hnumber, hstatus, fun body h => ?_, fun message h => ?_, hms, hworker⟩
    · cases a with
      | response statusCode text =>
        obtain rfl := Option.some.inj h
        exact ⟨htext, List.length_take_le _ _⟩
      | undecodable statusCode message => cases h
      | raised message => cases h
    · cases a with
      | response statusCode text => cases h
      | undecodable statusCode message =>
        obtain rfl := Option.some.inj h
        exact htext
      | raised message =>
        obtain rfl := Option.some.inj h
        exact htext

theorem flushAttempt_cases (a : DeliveryAttempt) : (a.Storable ∧ flushAttempt a = .ok ()) ∨
    (¬ a.Storable ∧ flushAttempt a = .error .dataError) := by
  unfold flushAttempt
  split
  · exact .inl ⟨‹_›, rfl⟩
  · exact .inr ⟨‹_›, rfl⟩

theorem refuseDelivery_eq_ok_iff {d : DeliveryId} {r : Delivery} {worker : PyStr} {out : Settled} :
    refuseDelivery d r worker = .ok out ↔ (refusedAttempt d r worker).Storable ∧
      out = ⟨{ r with attemptCount := r.attemptCount + 1, status := .deadLettered },
        refusedAttempt d r worker⟩ := by
  unfold refuseDelivery
  simp only [bind, Except.bind, pure, Except.pure]
  rcases flushAttempt_cases (refusedAttempt d r worker) with ⟨h, hflush⟩ | ⟨h, hflush⟩
  · rw [hflush, and_iff_right h, Except.ok.injEq, eq_comm]
  · rw [hflush]
    exact iff_of_false nofun fun hout => h hout.1

/-- The decision raises only where a retry is due at an instant out of range. -/
theorem decideDelivery_eq_ok_iff {cfg : Settings} {r row : Delivery} {a : Answer} {now : Time}
    {draw : Draw} : decideDelivery cfg r a now draw = .ok row ↔
      (a.succeeded = true ∧
        row = { r with attemptCount := r.attemptCount + 1, status := .succeeded }) ∨
      (a.succeeded = false ∧ cfg.maxDeliveryAttempts ≤ (r.attemptCount + 1 : ℕ) ∧
        row = { r with attemptCount := r.attemptCount + 1, status := .deadLettered }) ∨
      (a.succeeded = false ∧ (r.attemptCount + 1 : ℕ) < cfg.maxDeliveryAttempts ∧
        BackoffInRange (r.attemptCount + 1) cfg.retryBaseSeconds cfg.retryCapSeconds now draw ∧
        row = { r with
          attemptCount := r.attemptCount + 1
          status := .pending
          nextAttemptAt := now + jitteredDelay (r.attemptCount + 1) cfg.retryBaseSeconds
            cfg.retryCapSeconds draw
          leasedUntil := none }) := by
  unfold decideDelivery
  cases hs : a.succeeded
  · by_cases hM : cfg.maxDeliveryAttempts ≤ (r.attemptCount + 1 : ℕ)
    · have hM' := not_lt.2 hM
      simp only [hM, hM', Bool.false_eq_true, if_false, if_true, false_and, true_and, false_or,
        or_false, Except.ok.injEq]
      exact eq_comm
    · have hM' := not_le.1 hM
      simp only [hM, hM', Bool.false_eq_true, if_false, false_and, true_and, false_or]
      simp only [bind, Except.bind]
      cases hnext : computeNextAttemptAt (r.attemptCount + 1) cfg.retryBaseSeconds
          cfg.retryCapSeconds now draw with
      | error e =>
        refine ⟨nofun, fun ⟨hin, _⟩ => ?_⟩
        rw [computeNextAttemptAt_eq_ok_iff.2 ⟨hin, rfl⟩] at hnext
        cases hnext
      | ok next =>
        obtain ⟨hin, rfl⟩ := computeNextAttemptAt_eq_ok_iff.1 hnext
        simp [pure, Except.pure, hin, eq_comm]
  · simp [eq_comm]

/-- The part after the POST raises exactly where the decision does or the attempt is not
storable. -/
theorem settleDelivery_eq_ok_iff {cfg : Settings} {d : DeliveryId} {r : Delivery} {a : Answer}
    {ms : ℕ} {worker : PyStr} {now : Time} {draw : Draw} {out : Settled} :
    settleDelivery cfg d r a ms worker now draw = .ok out ↔
      decideDelivery cfg r a now draw = .ok out.row ∧
        (answeredAttempt d r a ms worker).Storable ∧
        out.attempt = answeredAttempt d r a ms worker := by
  unfold settleDelivery
  simp only [bind, Except.bind, pure, Except.pure]
  cases hdec : decideDelivery cfg r a now draw with
  | error e => simp
  | ok row =>
    obtain ⟨row', attempt'⟩ := out
    rcases flushAttempt_cases (answeredAttempt d r a ms worker) with ⟨h, hflush⟩ | ⟨h, hflush⟩
    · rw [hflush, and_iff_right h]
      simp [eq_comm]
    · rw [hflush]
      exact iff_of_false nofun fun hout => h hout.2.1

/-! ## The schedule of a retry -/

/-- **A retry is scheduled exactly where its power of two converts to a float**, as long as the
calendar lasts. The attempt number is the one that `process_delivery` passes for the delivery. -/
theorem schedules_iff {cfg : Settings} {delivery : Delivery} {now : Time}
    (hbase : 0 ≤ cfg.retryBaseSeconds) (hcap : 0 ≤ cfg.retryCapSeconds)
    (hnow : datetimeMin ≤ now) :
    Schedules (delivery.attemptCount + 1) cfg.retryBaseSeconds cfg.retryCapSeconds now ↔
      delivery.attemptCount < 1024 ∧
        (now + 11 / 10 * (cfg.retryBaseSeconds * 2 ^ delivery.attemptCount) ≤ datetimeMax ∨
          now + 11 / 10 * cfg.retryCapSeconds ≤ datetimeMax) := by
  have hmem := jitteredDelay_mem (delivery.attemptCount + 1) hbase hcap
  have hpos : 0 ≤ nominalDelay (delivery.attemptCount + 1) cfg.retryBaseSeconds
      cfg.retryCapSeconds :=
    le_min (mul_nonneg hbase (by positivity)) hcap
  have hlast : now + 11 / 10 * nominalDelay (delivery.attemptCount + 1) cfg.retryBaseSeconds
        cfg.retryCapSeconds ≤ datetimeMax ↔
      now + 11 / 10 * (cfg.retryBaseSeconds * 2 ^ delivery.attemptCount) ≤ datetimeMax ∨
        now + 11 / 10 * cfg.retryCapSeconds ≤ datetimeMax := by
    rw [nominalDelay, mul_min_of_nonneg _ _ (by norm_num), ← min_add_add_left, min_le_iff,
      Nat.add_sub_cancel]
  rw [← hlast]
  constructor
  · intro h
    -- the longest jitter is drawn
    obtain ⟨d, hd, -, -⟩ := h.returns ⟨1, zero_le_one, le_rfl⟩
    obtain ⟨⟨hn, -, hmax⟩, -⟩ := computeNextAttemptAt_eq_ok_iff.1 hd
    refine ⟨by omega, ?_⟩
    unfold jitteredDelay at hmax
    linarith
  · rintro ⟨hn, hmax⟩
    refine ⟨fun draw => ⟨_, ?_, (hmem draw).1, (hmem draw).2⟩,
      fun m hm => nominalDelay_mono hm hbase _, min_le_right _ _⟩
    have hlow := (hmem draw).1
    have hhigh := (hmem draw).2
    exact computeNextAttemptAt_eq_ok_iff.2
      ⟨⟨by omega, by linarith, by linarith⟩, rfl⟩

/-- The first retry under the default settings. -/
theorem schedules_first : Schedules 1 10 3600 0 :=
  (@schedules_iff ⟨6, 10, 3600, 10, 60, []⟩ (.new 1 1 0) 0
    (by decide +kernel) (by decide +kernel) (by decide +kernel)).2
    ⟨by decide +kernel, .inr (by decide +kernel)⟩

/-- **The cap does not save attempt 1025**: with 1026 attempts allowed, a failure raises instead of
scheduling the retry, although the cap is an hour. -/
theorem not_schedules : ∃ (cfg : Settings) (delivery : Delivery),
    ((delivery.attemptCount + 1 : ℕ) : ℤ) < cfg.maxDeliveryAttempts ∧ 0 ≤ cfg.retryBaseSeconds ∧
    0 ≤ cfg.retryCapSeconds ∧ cfg.retryCapSeconds ≤ 10 ^ 8 ∧
    decideDelivery cfg delivery (.response 500 []) 0 .zero = .error .overflowError ∧
    ¬ Schedules (delivery.attemptCount + 1) cfg.retryBaseSeconds cfg.retryCapSeconds 0 := by
  refine ⟨⟨1026, 10, 3600, 10, 60, []⟩, { Delivery.new 1 1 0 with attemptCount := 1024 },
    by decide, by decide +kernel, by decide +kernel, by decide +kernel, by decide +kernel,
    fun h => ?_⟩
  obtain ⟨d, hd, -, -⟩ := h.returns .zero
  exact absurd (computeNextAttemptAt_eq_ok_iff.1 hd).1.1 (by decide)

end Hookit
