import Hookit.Foundations.Tally
import Hookit.Routers.Api

/-!
# The public pages of the showcase

The routes of `app/routers/showcase.py` that a visitor calls with no API key, on the handles that
`get_showcase` has resolved: the summary, the feed of events, the timeline of deliveries and the
redrive. What the controllable receiver has stored, which the feed shows beside the events, is in
`Hookit.Services.Inbox`.
-/

namespace Hookit

open Foundations Foundations.PyStr Seeding Handles

/-! ## The queries of `app/services/showcase.py` -/

/-- `_TIMELINE_KEEP`. -/
def timelineKeep : ℕ := 12

/-- `list_recent_events`. -/
def listRecentEvents (db : Database) (project : Uuid) (limit : ℕ) : List (Uuid × EventRow) :=
  (Keyset.below (entryKey EventRow.createdAt)
    (db.events.select fun _ r => r.projectId = project) none).take limit

/-- `list_recent_deliveries`. -/
def listRecentDeliveries (db : Database) (endpointId : Uuid) (limit : ℕ) :
    List (Uuid × DeliveryRow) :=
  (Keyset.below (entryKey DeliveryRow.createdAt)
    (db.deliveries.select fun _ r => r.endpointId = endpointId) none).take limit

/-- The dead-lettered deliveries of a project. -/
def deadLettered (db : Database) (project : Uuid) : List (Uuid × DeliveryRow) :=
  db.deliveries.select fun _ r => db.endpointOf project r && r.status = .deadLettered

/-- What `latest_dead_lettered_id` may return: PostgreSQL chooses among rows of one time. -/
def LatestDeadLettered (db : Database) (project : Uuid) : Option Uuid → Prop
  | none => deadLettered db project = []
  | some deliveryId => ∃ r, (deliveryId, r) ∈ deadLettered db project ∧
    ∀ e ∈ deadLettered db project, e.2.updatedAt ≤ r.updatedAt

/-- `get_scoped_delivery`. -/
def getScopedDelivery (db : Database) (project deliveryId : Uuid) : Option DeliveryRow :=
  (db.deliveries.get? deliveryId).filter (db.endpointOf project)

/-! ## The pages -/

/-- `FeedEventItem`. -/
structure FeedEventItem where
  id : Uuid
  type : PyStr
  payload : JsonObject
  createdAt : Aware

def FeedEventItem.ofRow (e : Uuid × EventRow) : FeedEventItem :=
  ⟨e.1, e.2.type, e.2.payload.1, e.2.createdAt⟩

/-- `TimelineAttemptItem`. -/
structure TimelineAttemptItem where
  attemptNumber : ℕ
  responseStatus : Option ℕ
  error : Option PyStr
  durationMs : Option ℕ
  workerId : Option PyStr
  createdAt : Time

def TimelineAttemptItem.ofRow (e : Uuid × AttemptRow) : TimelineAttemptItem where
  attemptNumber := e.2.attemptNumber
  responseStatus := e.2.responseStatus
  error := e.2.error
  durationMs := e.2.durationMs
  workerId := e.2.workerId
  createdAt := e.2.createdAt

/-- `TimelineDeliveryItem`. -/
structure TimelineDeliveryItem where
  id : Uuid
  eventId : Uuid
  eventType : PyStr
  status : DeliveryStatus
  attemptCount : ℕ
  nextAttemptAt : Time
  leasedUntil : Option Time
  claimedBy : Option PyStr
  createdAt : Aware
  attempts : List TimelineAttemptItem

/-- `WorkerStat`. -/
structure WorkerStat where
  name : PyStr
  attempts : ℕ

/-- `DeliveriesResponse`. -/
structure DeliveriesResponse where
  serverTime : Time
  retryBaseSeconds : ℚ
  retryCapSeconds : ℚ
  maxDeliveryAttempts : ℤ
  receiverEndpointId : Uuid
  workers : List WorkerStat
  deliveries : List TimelineDeliveryItem

/-- `feed`: the events, and whether there is a Discord endpoint. -/
def feed (handles : ShowcaseHandles) (db : Database) : List FeedEventItem × Bool :=
  ((listRecentEvents db handles.projectId 25).map FeedEventItem.ofRow,
    handles.discordEndpointId.isSome)

/-- A delivery of the timeline, `none` where it has no event: an `AttributeError`. -/
def timelineItem (db : Database) (e : Uuid × DeliveryRow) : Option TimelineDeliveryItem := do
  let event ← db.events.get? e.2.eventId
  let attempts := db.attempts.select fun _ a => a.deliveryId = e.1
  return {
    id := e.1
    eventId := e.2.eventId
    eventType := event.type
    status := e.2.status
    attemptCount := e.2.attemptCount
    nextAttemptAt := e.2.nextAttemptAt
    leasedUntil := e.2.leasedUntil
    claimedBy := e.2.claimedBy
    createdAt := e.2.createdAt
    attempts := (attempts.mergeSort fun a b => a.2.attemptNumber ≤ b.2.attemptNumber).map
      TimelineAttemptItem.ofRow }

/-- `attempts_by_worker`, of the items. -/
def attemptsByWorker (items : List TimelineDeliveryItem) : List (PyStr × ℕ) :=
  tally ((items.flatMap TimelineDeliveryItem.attempts).filterMap TimelineAttemptItem.workerId)

/-- The key `(-kv[1], kv[0])` of a worker with its number of attempts. -/
def workerKey (kv : PyStr × ℕ) : ℤ ×ₗ PyStr := toLex (-(kv.2 : ℤ), kv.1)

/-- The workers, those with the most attempts first. -/
def workerStats (items : List TimelineDeliveryItem) : List WorkerStat :=
  ((attemptsByWorker items).insertionSort fun a b => workerKey a ≤ workerKey b).map
    fun kv => ⟨kv.1, kv.2⟩

/-- `deliveries`. -/
def showcaseDeliveries (cfg : Settings) (handles : ShowcaseHandles) (now : Time) (db : Database) :
    Option DeliveriesResponse := do
  let items ← (listRecentDeliveries db handles.receiverEndpointId timelineKeep).mapM
    (timelineItem db)
  return {
    serverTime := now
    retryBaseSeconds := cfg.retryBaseSeconds
    retryCapSeconds := cfg.retryCapSeconds
    maxDeliveryAttempts := cfg.maxDeliveryAttempts
    receiverEndpointId := handles.receiverEndpointId
    workers := workerStats items
    deliveries := items }

/-- `redrive`, where `latest` is what `latest_dead_lettered_id` returns. -/
def redrive (project : Uuid) (deliveryId latest : Option Uuid) (now updatedAt : Time)
    (db : Database) : Except ApiError (Option (Uuid × DeliveryStatus) × Database) :=
  match deliveryId.or latest with
  | none => return (none, db)
  | some id => do
    let delivery ← orRaise (.http 404 (ofString "Delivery not found"))
      (getScopedDelivery db project id)
    if delivery.status ≠ .deadLettered then
      .error (.http 409 (ofString "Delivery is not dead-lettered"))
    else
      let update := DeliveryRow.redriven delivery.leasedUntil.isSome now updatedAt
      return (some (id, (update delivery).status),
        { db with deliveries := db.deliveries.modifyAt id update })

/-- It is `redrive_delivery` of the API, for the project of the showcase. -/
theorem redrive_of_some (project id : Uuid) {deliveryId latest : Option Uuid}
    (h : deliveryId.or latest = some id) (now updatedAt : Time) (db : Database) :
    redrive project deliveryId latest now updatedAt db =
      (redriveDelivery project id now updatedAt db).map
        fun x => (some (x.1.id, x.1.status), x.2) := by
  simp only [redrive, h, redriveDelivery]
  change (do
    let delivery ← getDeliveryOr404 db id project
    _) = _
  cases getDeliveryOr404 db id project with
  | error e => rfl
  | ok delivery =>
    by_cases hstatus : delivery.status = .deadLettered
    · simp only [ok_bind, hstatus, ne_eq, not_true_eq_false, if_false]
      rfl
    · simp only [ok_bind, ne_eq, hstatus, not_false_eq_true, if_true]
      rfl

end Hookit
