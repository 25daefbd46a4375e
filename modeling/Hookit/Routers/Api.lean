import Hookit.Ingestion.BodyHash
import Hookit.Services.Metrics
import Hookit.Services.Ssrf
import Hookit.Showcase.Handles

/-!
# The routes of a project

The routes of `app/routers/endpoints.py`, `events.py`, `deliveries.py`, `metrics.py` and `me.py`
that depend on `get_current_project`, and the routes of `projects.py` that write, each as one
transaction on a database: the answer and what is committed, or the error, which leaves nothing.

A route comes with what it draws: the primary keys and the clock readings of the rows that it
inserts. Two transactions at a time are the subject of `Hookit.Ingestion` and `Hookit.Engine`.
-/

namespace Hookit

open Foundations Foundations.PyStr Seeding Handles

/-- An exception that nothing catches. -/
def raises {α : Type} (x : Except PyError α) : Except ApiError α := x.mapError ApiError.raised

/-- The row under a key, if it satisfies a condition, or else a 404. -/
def getOr404 {ρ : Type} (T : Rows Uuid ρ) (id : Uuid) (p : ρ → Bool) (detail : String) :
    Except ApiError ρ :=
  orRaise (.http 404 (ofString detail)) ((T.get? id).filter p)

/-! ## `app/routers/endpoints.py` -/

section Endpoints

/-- `validate_url_not_ssrf`, with its `SSRFError` as a 422. -/
def checkUrl (lib : UrlLib) (url : PyStr) : Except ApiError Unit :=
  match validateUrlNotSsrf lib url with
  | .ok () => .ok ()
  | .error .ssrfError => .error (.http 422 ssrfErrorMsg)
  | .error e => .error (.raised e)

/-- The columns of the endpoint take its texts. -/
def checkEndpoint (row : EndpointRow) : Except PyError Unit :=
  if fits 2048 row.url && row.eventTypes.all storable then .ok () else .error .dataError

/-- `_get_endpoint_or_404`. -/
def getEndpointOr404 (db : Database) (endpointId project : Uuid) : Except ApiError EndpointRow :=
  getOr404 db.endpoints endpointId (fun row => row.projectId = project) "Endpoint not found"

/-- `create_endpoint`: the endpoint, and its secret. -/
def createEndpoint (lib : UrlLib) (project : Uuid) (body : EndpointCreate) (fresh : Fresh)
    (db : Database) : Except ApiError ((EndpointResponse × Secret) × Database) := do
  checkUrl lib body.url
  let row := body.row project fresh
  raises (checkEndpoint row)
  return ((.ofRow (fresh.id, row), fresh.secret),
    { db with endpoints := db.endpoints.insert fresh.id row })

/-- `get_endpoint`. -/
def getEndpoint (project endpointId : Uuid) (db : Database) : Except ApiError EndpointResponse :=
  return .ofRow (endpointId, ← getEndpointOr404 db endpointId project)

/-- The columns take the texts of the request. -/
def Seeding.EndpointUpdate.check (body : EndpointUpdate) : Except PyError Unit :=
  if body.url.all (fits 2048) && body.eventTypes.all fun v => v.val.all storable then .ok ()
  else .error .dataError

/-- The row that `update_endpoint` commits: there is no `UPDATE` if nothing changes. -/
def Seeding.EndpointUpdate.committed (body : EndpointUpdate) (now : Time) (row : EndpointRow) :
    EndpointRow :=
  let row' := body.row now row row
  if row'.url = row.url ∧ row'.eventTypes = row.eventTypes ∧ row'.status = row.status ∧
      row'.payloadFormat = row.payloadFormat ∧ row'.rateLimitRps = row.rateLimitRps then row
  else row'

/-- `update_endpoint`. -/
def updateEndpoint (lib : UrlLib) (project endpointId : Uuid) (body : EndpointUpdate) (now : Time)
    (db : Database) : Except ApiError (EndpointResponse × Database) := do
  let row ← getEndpointOr404 db endpointId project
  match body.url with
  | some url => checkUrl lib url
  | none => .ok ()
  raises body.check
  let row' := body.committed now row
  return (.ofRow (endpointId, row'),
    { db with endpoints := db.endpoints.modifyAt endpointId fun _ => row' })

/-- Delete an endpoint, and by the cascades its deliveries, their attempts and what its receiver has
stored. -/
def Database.dropEndpoint (db : Database) (endpointId : Uuid) : Database :=
  { db with
    endpoints := db.endpoints.filter fun k _ => k ≠ endpointId
    deliveries := db.deliveries.filter fun _ r => r.endpointId ≠ endpointId
    attempts := db.attempts.filter fun _ a =>
      !(db.deliveries.get? a.deliveryId).any fun r => r.endpointId = endpointId
    receiverHealth := db.receiverHealth.filter fun k _ => k ≠ endpointId
    receivedRequests := db.receivedRequests.filter fun _ r => r.endpointId ≠ endpointId
    ledgerAccounts := db.ledgerAccounts.filter fun k _ => k.1 ≠ endpointId
    ledgerProcessed := db.ledgerProcessed.filter fun k _ => k.1 ≠ endpointId }

/-- `delete_endpoint`. -/
def deleteEndpoint (project endpointId : Uuid) (db : Database) :
    Except ApiError (Unit × Database) := do
  discard (getEndpointOr404 db endpointId project)
  return ((), db.dropEndpoint endpointId)

/-- `rotate_endpoint_secret`. -/
def rotateEndpointSecret (project endpointId : Uuid) (secret : Secret) (now : Time)
    (db : Database) : Except ApiError (Secret × Database) := do
  discard (getEndpointOr404 db endpointId project)
  return (secret,
    { db with
      endpoints := db.endpoints.modifyAt endpointId fun row =>
        { row with secret, updatedAt := now } })

end Endpoints

/-! ## `app/routers/events.py` -/

section Events

/-- `EventCreate`, with `max_event_payload_bytes`. -/
structure EventCreate (maxBytes : ℕ) where
  type : PyStr
  length : 1 ≤ type.length ∧ type.length ≤ 255
  nonempty : strip type ≠ []
  unreserved : ¬ reservedEventTypePrefix <+: type
  payload : JsonObject
  size : ((Json.obj payload).dumps (ofString ",") (ofString ":")).length ≤ maxBytes

/-- What `ingest_event` draws. -/
structure IngestDraws where
  eventId : Uuid
  /-- The id of the delivery to an endpoint. -/
  deliveryId : Uuid → Uuid
  now : Time
  createdAt : Aware
  updatedAt : Time

/-- The fan-out targets. -/
def activeEndpoints (db : Database) (project : Uuid) (eventType : PyStr) :
    List (Uuid × EndpointRow) :=
  db.endpoints.select fun _ row =>
    row.projectId = project && row.status = .active && eventType ∈ row.eventTypes

/-- A new `Delivery`. -/
def IngestDraws.delivery (draws : IngestDraws) (endpointId : Uuid) : DeliveryRow where
  eventId := draws.eventId
  endpointId
  status := .pending
  attemptCount := 0
  nextAttemptAt := draws.now
  leasedUntil := none
  claimedBy := none
  createdAt := draws.createdAt
  updatedAt := draws.updatedAt

/-- The deliveries to the targets, with their ids. -/
def IngestDraws.deliveries (draws : IngestDraws) (endpointIds : List Uuid) :
    List (Uuid × DeliveryRow) :=
  endpointIds.map fun endpointId => (draws.deliveryId endpointId, draws.delivery endpointId)

/-- The detail of the `409`. -/
def keyReused : ApiError :=
  .http 409 (ofString "Idempotency-Key reused with a different request body")

/-- The inserts of `ingest_event`, and what it returns. -/
def insertEvent (project : Uuid) (eventType : PyStr) (payload : JsonObject)
    (idempotencyKey : Option PyStr) (requestHash : PyStr) (draws : IngestDraws) (db : Database) :
    Except ApiError ((Uuid × ℕ) × Database) := do
  let targets := (activeEndpoints db project eventType).map Prod.fst
  raises (checkColumn 255 eventType)
  raises ((idempotencyKey.map (checkColumn 255)).getD (.ok ()))
  let payload ← orRaise (.raised .dataError) (Json.storeObject? payload)
  return ((draws.eventId, targets.length),
    { db with
      events := db.events.insert draws.eventId
        ⟨project, eventType, payload, idempotencyKey, draws.createdAt⟩
      deliveries := db.deliveries.insertAll (draws.deliveries targets)
      records :=
        match idempotencyKey with
        | none => db.records
        | some key =>
          db.records.insert (project, key) ⟨draws.eventId, targets.length, requestHash⟩ })

/-- `ingest_event`, while no other transaction inserts a record. -/
def ingestEvent (sha256 : Bytes → PyStr) (project : Uuid) (eventType : PyStr)
    (payload : JsonObject) (idempotencyKey : Option PyStr) (draws : IngestDraws) (db : Database) :
    Except ApiError ((Uuid × ℕ) × Database) := do
  let requestHash ← orRaise (.raised .valueError) (Ingestion.bodyHash sha256 eventType payload)
  bindText idempotencyKey
  match idempotencyKey.bind fun key => db.records.get? (project, key) with
  | some existing =>
    if existing.requestHash ≠ requestHash then .error keyReused
    else return ((existing.eventId, existing.queuedDeliveries), db)
  | none => insertEvent project eventType payload idempotencyKey requestHash draws db

/-- `publish_event`. -/
def publishEvent {maxBytes : ℕ} (sha256 : Bytes → PyStr) (project : Uuid)
    (body : EventCreate maxBytes) (idempotencyKey : Option PyStr) (draws : IngestDraws)
    (db : Database) : Except ApiError ((Uuid × ℕ) × Database) :=
  ingestEvent sha256 project body.type body.payload idempotencyKey draws db

/-- `EventDetailResponse`. -/
structure EventDetailResponse where
  id : Uuid
  projectId : Uuid
  type : PyStr
  payload : JsonObject
  idempotencyKey : Option PyStr
  createdAt : Aware
  deliveries : List DeliveryResponse

/-- `get_event`. -/
def getEvent (project eventId : Uuid) (db : Database) : Except ApiError EventDetailResponse := do
  let event ← getOr404 db.events eventId (fun row => row.projectId = project) "Event not found"
  return {
    id := eventId
    projectId := event.projectId
    type := event.type
    payload := event.payload.1
    idempotencyKey := event.idempotencyKey
    createdAt := event.createdAt
    deliveries := (db.deliveriesOf eventId).map DeliveryResponse.ofRow }

end Events

/-! ## `app/routers/deliveries.py` -/

section Deliveries

/-- `DeliveryAttemptResponse`. -/
structure DeliveryAttemptResponse where
  id : Uuid
  deliveryId : Uuid
  attemptNumber : ℕ
  responseStatus : Option ℕ
  responseBody : Option PyStr
  error : Option PyStr
  durationMs : Option ℕ
  createdAt : Time

def DeliveryAttemptResponse.ofRow (e : Uuid × AttemptRow) : DeliveryAttemptResponse where
  id := e.1
  deliveryId := e.2.deliveryId
  attemptNumber := e.2.attemptNumber
  responseStatus := e.2.responseStatus
  responseBody := e.2.responseBody
  error := e.2.error
  durationMs := e.2.durationMs
  createdAt := e.2.createdAt

/-- `_get_delivery_or_404`. -/
def getDeliveryOr404 (db : Database) (deliveryId project : Uuid) : Except ApiError DeliveryRow :=
  getOr404 db.deliveries deliveryId (db.endpointOf project) "Delivery not found"

/-- `get_delivery`. -/
def getDelivery (project deliveryId : Uuid) (db : Database) : Except ApiError DeliveryResponse :=
  return .ofRow (deliveryId, ← getDeliveryOr404 db deliveryId project)

/-- `list_delivery_attempts`. -/
def listDeliveryAttempts (project deliveryId : Uuid) (db : Database) :
    Except ApiError (List DeliveryAttemptResponse) := do
  discard (getDeliveryOr404 db deliveryId project)
  let attempts := db.attempts.select fun _ a => a.deliveryId = deliveryId
  return (attempts.mergeSort fun a b => a.2.attemptNumber ≤ b.2.attemptNumber).map
    DeliveryAttemptResponse.ofRow

/-- The row that `redrive_delivery` commits. An attribute that does not change is left out of the
`UPDATE`, so the lease is taken off if the row was read with one (`leased`). -/
def DeliveryRow.redriven (leased : Bool) (now updatedAt : Time) (r : DeliveryRow) : DeliveryRow :=
  { r with
    status := .pending
    nextAttemptAt := now
    leasedUntil := if leased then none else r.leasedUntil
    updatedAt }

/-- `redrive_delivery` from `session.commit` on, at a time at which the delivery may no longer be what
it was when its status was checked: the `UPDATE` is under the primary key alone. -/
def commitRedrive (deliveryId : Uuid) (leased : Bool) (now updatedAt : Time) (db : Database) :
    Except ApiError (DeliveryResponse × Database) :=
  match db.deliveries.get? deliveryId with
  | none => .error (.raised .staleDataError)
  | some delivery => .ok (.ofRow (deliveryId, delivery.redriven leased now updatedAt),
      { db with
        deliveries :=
          db.deliveries.modifyAt deliveryId (DeliveryRow.redriven leased now updatedAt) })

/-- `redrive_delivery`. -/
def redriveDelivery (project deliveryId : Uuid) (now updatedAt : Time) (db : Database) :
    Except ApiError (DeliveryResponse × Database) := do
  let delivery ← getDeliveryOr404 db deliveryId project
  if delivery.status ≠ .deadLettered then
    .error (.http 409 (ofString "Delivery is not dead-lettered"))
  else
    let update := DeliveryRow.redriven delivery.leasedUntil.isSome now updatedAt
    return (.ofRow (deliveryId, update delivery),
      { db with deliveries := db.deliveries.modifyAt deliveryId update })

end Deliveries

/-! ## `app/routers/projects.py` -/

section Projects

/-- What `generate_api_key` and the insert of an `ApiKey` draw. -/
structure KeyDraws where
  id : Uuid
  /-- `secrets.token_urlsafe(32)`. -/
  raw : PyStr
  createdAt : Aware

/-- `_KEY_PREFIX`. -/
def keyPrefix : PyStr := ofString "whk_"

/-- The plaintext that `generate_api_key` makes. -/
def KeyDraws.plaintext (draws : KeyDraws) : PyStr := keyPrefix ++ draws.raw

/-- `create_project`, `none` where the name is taken: an `IntegrityError` that nothing catches. -/
def createProject (name : PyStr) (id : Uuid) (createdAt : Aware) (db : Database) :
    Except ApiError (Option ProjectResponse × Database) := do
  raises (checkColumn 255 name)
  if (db.projects.select fun _ row => row.name = name) = [] then
    return (some (.ofRow (id, ⟨name, createdAt⟩)),
      { db with projects := db.projects.insert id ⟨name, createdAt⟩ })
  else return (none, db)

/-- `create_api_key`: the item and the plaintext. -/
def createApiKey (sha256 : Bytes → PyStr) (project : Uuid) (name : PyStr) (draws : KeyDraws)
    (db : Database) : Except ApiError ((ApiKeyListItem × PyStr) × Database) := do
  discard (getProjectOr404 db project)
  let keyHash ← raises (hashApiKey sha256 draws.plaintext)
  raises (checkColumn 255 name)
  let row : ApiKeyRow :=
    ⟨project, some name, draws.plaintext.take 12, keyHash, none, none, draws.createdAt⟩
  return ((.ofRow (draws.id, row), draws.plaintext),
    { db with apiKeys := db.apiKeys.insert draws.id row })

/-- `delete_api_key`, which is `revoke_api_key`: a key that is revoked keeps the time of it. -/
def deleteApiKey (project keyId : Uuid) (now : Time) (db : Database) :
    Except ApiError (Unit × Database) := do
  let apiKey ← getOr404 db.apiKeys keyId (fun row => row.projectId = project) "API key not found"
  if apiKey.revokedAt.isNone then
    return ((),
      { db with
        apiKeys := db.apiKeys.modifyAt keyId fun row => { row with revokedAt := some now } })
  else return ((), db)

end Projects

/-! ## `app/auth/dependencies.py` -/

/-- The tables of the seeding. -/
def Database.store (db : Database) : Store :=
  ⟨db.projects, db.apiKeys, db.endpoints, db.receiverHealth⟩

/-- `get_current_project`, which commits that the key was used. -/
def authenticate (sha256 : Bytes → PyStr) (credentials : Option PyStr) (now : Time)
    (db : Database) : Except ApiError (Uuid × Database) := do
  let (project, store) ← getCurrentProject sha256 db.store credentials now
  return (project, { db with apiKeys := store.apiKeys })

end Hookit
