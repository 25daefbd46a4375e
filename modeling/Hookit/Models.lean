import Hookit.Foundations.Text
import Mathlib.Algebra.Order.Field.Rat
import Mathlib.Algebra.Order.Field.Basic

/-!
# Rows and settings

The rows of `app/models` and the settings of `app/core/config.py`, with the columns that the
modelled functions read or write. Identifiers are natural numbers (UUIDs, of which only equality
is used), instants are exact numbers of seconds since the epoch, and a payload is left as a type
parameter `π`. A column constraint that a value must meet to be stored is a field of its type.
-/

namespace Hookit

open Foundations

abbrev ProjectId := ℕ
abbrev EndpointId := ℕ
abbrev EventId := ℕ
abbrev DeliveryId := ℕ

/-- An instant, in seconds since the epoch. -/
abbrev Time := ℚ

/-- `DeliveryStatus`. -/
inductive DeliveryStatus
  | pending
  | inFlight
  | succeeded
  | failed
  | deadLettered
  deriving DecidableEq, Repr

/-- `Delivery`. -/
structure Delivery where
  eventId : EventId
  endpointId : EndpointId
  status : DeliveryStatus
  attemptCount : ℕ
  nextAttemptAt : Time
  leasedUntil : Option Time
  claimedBy : Option PyStr
  deriving DecidableEq

/-- `DeliveryAttempt`. -/
structure DeliveryAttempt where
  deliveryId : DeliveryId
  attemptNumber : ℕ
  responseStatus : Option ℕ
  responseBody : Option PyStr
  error : Option PyStr
  durationMs : ℕ
  workerId : PyStr
  deriving DecidableEq

/-- `EndpointStatus`. -/
inductive EndpointStatus
  | active
  | inactive
  deriving DecidableEq, Repr

/-- `PayloadFormat`. -/
inductive PayloadFormat
  | raw
  | discord
  deriving DecidableEq, Repr

/-- The values of `rate_limit_rps` that the API admits (`gt=0, le=1000.0`). -/
abbrev RateLimit := {r : ℚ // 0 < r ∧ r ≤ 1000}

/-- `Endpoint`. -/
structure Endpoint where
  id : EndpointId
  projectId : ProjectId
  url : PyStr
  eventTypes : List PyStr
  status : EndpointStatus
  payloadFormat : PayloadFormat
  rateLimitRps : Option RateLimit
  deriving DecidableEq

/-- `Event`. -/
structure Event (π : Type) where
  id : EventId
  projectId : ProjectId
  type : PyStr
  payload : π
  idempotencyKey : Option PyStr
  deriving DecidableEq

/-- `IdempotencyRecord`. -/
structure IdempotencyRecord where
  projectId : ProjectId
  idempotencyKey : PyStr
  eventId : EventId
  queuedDeliveries : ℕ
  requestHash : PyStr
  deriving DecidableEq

/-- The settings that the worker reads. -/
structure Settings where
  maxDeliveryAttempts : ℤ
  retryBaseSeconds : ℚ
  retryCapSeconds : ℚ
  workerBatchSize : ℕ
  workerLeaseSeconds : ℤ
  workerName : PyStr

/-- A value of `random.random()`. -/
abbrev Draw := {u : ℚ // 0 ≤ u ∧ u ≤ 1}

/-- The draw `0.0`. -/
def Draw.zero : Draw := ⟨0, le_rfl, zero_le_one⟩

/-- The exceptions that the modelled functions let out. -/
inductive PyError
  | ssrfError
  | valueError
  | overflowError
  | dataError
  | typeError
  | invalidOperation
  | recursionError
  | noResultFound
  | multipleResultsFound
  | staleDataError
  | objectDeletedError
  deriving DecidableEq, Repr

/-- The counter fits a 32-bit `Integer` column. -/
def FitsCounter (n : ℕ) : Prop := n < 2 ^ 31

instance (n : ℕ) : Decidable (FitsCounter n) := inferInstanceAs (Decidable (n < 2 ^ 31))

/-- The row as ingestion creates it: pending, due at once, never attempted. -/
def Delivery.new (eventId : EventId) (endpointId : EndpointId) (now : Time) : Delivery where
  eventId
  endpointId
  status := .pending
  attemptCount := 0
  nextAttemptAt := now
  leasedUntil := none
  claimedBy := none

/-- The statuses that a finished transaction leaves behind. -/
def Delivery.AtRest (r : Delivery) : Prop :=
  r.status = .pending ∨ r.status = .succeeded ∨ r.status = .deadLettered

instance (r : Delivery) : Decidable r.AtRest := by
  unfold Delivery.AtRest
  infer_instance

/-- A status code that the worker counts as a success. -/
def Is2xx (status : ℕ) : Prop := 200 ≤ status ∧ status < 300

instance (status : ℕ) : Decidable (Is2xx status) := by
  unfold Is2xx
  infer_instance

/-- The attempt has a 2xx response status. -/
def DeliveryAttempt.Answered2xx (a : DeliveryAttempt) : Prop :=
  ∃ status, a.responseStatus = some status ∧ Is2xx status

end Hookit
