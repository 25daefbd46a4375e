import Hookit.Bank.Safe
import Hookit.Foundations.Datetime
import Hookit.Foundations.Jsonb
import Hookit.Foundations.Rows
import Hookit.Foundations.Uuid
import Hookit.Models
import Hookit.Services.Transform
import Hookit.Worker.Signing

/-!
# The database

The tables of `app/models` as the API sees them: every row under its primary key, with the columns
that some route or the worker reads or writes. Instants are in seconds where only their order is
used; `created_at`, which the cursors of the list routes spell out, is a datetime.

Fernet decrypts what it has encrypted under the same key, so a row has the signing secret in place
of `secret_enc`.
-/

namespace Hookit

open Foundations

/-- `Project`. -/
structure ProjectRow where
  name : PyStr
  createdAt : Aware

/-- `ApiKey`. -/
structure ApiKeyRow where
  projectId : Uuid
  name : Option PyStr
  keyPrefix : PyStr
  keyHash : PyStr
  lastUsedAt : Option Time
  revokedAt : Option Time
  createdAt : Aware

/-- `Endpoint`. -/
structure EndpointRow where
  projectId : Uuid
  url : PyStr
  eventTypes : List PyStr
  /-- What `secret_enc` encrypts. -/
  secret : Secret
  status : EndpointStatus
  payloadFormat : PayloadFormat
  rateLimitRps : Option RateLimit
  createdAt : Aware
  updatedAt : Time

/-- `Event`. -/
structure EventRow where
  projectId : Uuid
  type : PyStr
  payload : Json.StoredObject
  idempotencyKey : Option PyStr
  createdAt : Aware

/-- `Delivery`. -/
structure DeliveryRow where
  eventId : Uuid
  endpointId : Uuid
  status : DeliveryStatus
  attemptCount : ℕ
  nextAttemptAt : Time
  leasedUntil : Option Time
  claimedBy : Option PyStr
  createdAt : Aware
  updatedAt : Time

/-- `DeliveryAttempt`. -/
structure AttemptRow where
  deliveryId : Uuid
  attemptNumber : ℕ
  responseStatus : Option ℕ
  responseBody : Option PyStr
  error : Option PyStr
  durationMs : Option ℕ
  workerId : Option PyStr
  createdAt : Time

/-- `IdempotencyRecord`, whose key is the pair that the unique constraint is on. -/
structure RecordRow where
  eventId : Uuid
  queuedDeliveries : ℕ
  requestHash : PyStr

/-- `DemoReceiverHealth`. -/
structure HealthRow where
  healthy : Bool
  mode : PyStr

/-- `DemoReceivedRequest`. -/
structure ReceivedRow where
  endpointId : Uuid
  eventType : PyStr
  attempt : ℤ
  verified : Bool
  responseStatus : ℕ
  signatureHeader : Option PyStr
  timestampHeader : Option PyStr
  body : PyStr
  receivedAt : Time
  deriving DecidableEq

/-- The committed rows. -/
structure Database where
  projects : Rows Uuid ProjectRow
  apiKeys : Rows Uuid ApiKeyRow
  endpoints : Rows Uuid EndpointRow
  events : Rows Uuid EventRow
  deliveries : Rows Uuid DeliveryRow
  attempts : Rows Uuid AttemptRow
  /-- `idempotency_records`, by project and key. -/
  records : Rows (Uuid × PyStr) RecordRow
  /-- `demo_receiver_health`, by endpoint. -/
  receiverHealth : Rows Uuid HealthRow
  receivedRequests : Rows Uuid ReceivedRow
  /-- `demo_ledger_accounts`, by endpoint and account. -/
  ledgerAccounts : Rows (Uuid × PyStr) Bank.Account
  /-- `demo_ledger_processed`, by endpoint and event. -/
  ledgerProcessed : Rows (Uuid × Uuid) Unit
  /-- `demo_visitor_activity`, by project. -/
  visitorActivity : Rows Uuid Time

/-- A new database. -/
def Database.empty : Database where
  projects := .empty
  apiKeys := .empty
  endpoints := .empty
  events := .empty
  deliveries := .empty
  attempts := .empty
  records := .empty
  receiverHealth := .empty
  receivedRequests := .empty
  ledgerAccounts := .empty
  ledgerProcessed := .empty
  visitorActivity := .empty

namespace Database

variable (db : Database)

def withAccounts (ledgerAccounts : Rows (Uuid × PyStr) Bank.Account) : Database :=
  { db with ledgerAccounts }

def withProcessed (ledgerProcessed : Rows (Uuid × Uuid) Unit) : Database :=
  { db with ledgerProcessed }

def withReceived (receivedRequests : Rows Uuid ReceivedRow) : Database :=
  { db with receivedRequests }

def withEvents (events : Rows Uuid EventRow) : Database := { db with events }

end Database

/-- How a route ends other than with its answer. -/
inductive ApiError
  /-- An `HTTPException`. -/
  | http (statusCode : ℕ) (detail : PyStr)
  /-- An exception that nothing catches. -/
  | raised (e : PyError)
  deriving DecidableEq

end Hookit
