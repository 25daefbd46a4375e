import Hookit.Routers.Pagination

/-!
# The list routes

`list_deliveries`, `list_events`, `list_endpoints`, `list_projects` and `list_api_keys` of
`app/routers`: the rows that each query matches (`…Matching`), and the route itself, which checks
its parameters, reads a page and answers it in the response model of `app/schemas`.

`lists_keysetCorrect`: the pages of each of them, followed by their cursors, are correct.
-/

namespace Hookit

open Foundations Foundations.PyStr Foundations.Keyset

/-! ## Parameters -/

/-- The check of `created_after` against `created_before`. -/
def checkRange : Option Datetime → Option Datetime → Except ApiError Unit
  | some (.aware t), some (.aware u) =>
    if u.instant < t.instant then .error (.http 422 rangeDetail) else .ok ()
  | some (.naive w), some (.naive v) =>
    if v.microseconds < w.microseconds then .error (.http 422 rangeDetail) else .ok ()
  -- a datetime with an offset does not compare with one without
  | some (.aware _), some (.naive _) => .error (.raised .typeError)
  | some (.naive _), some (.aware _) => .error (.raised .typeError)
  | _, _ => .ok ()
where
  rangeDetail : PyStr := ofString "created_after must not be after created_before"

/-- A statement with a text parameter. -/
def bindText (text : Option PyStr) : Except ApiError Unit :=
  if text.all storable then .ok () else .error (.raised .dataError)

/-- The query parameters of `list_deliveries`, beside the cursor. -/
structure DeliveryFilter where
  status : Option DeliveryStatus
  endpointId : Option Uuid
  eventId : Option Uuid
  eventType : Option PyStr
  createdAfter : Option Datetime
  createdBefore : Option Datetime

/-- The query parameters of `list_events`, beside the cursor. -/
structure EventFilter where
  eventType : Option PyStr
  createdAfter : Option Datetime
  createdBefore : Option Datetime

/-! ## Response models -/

/-- `DeliveryResponse`. -/
structure DeliveryResponse where
  id : Uuid
  eventId : Uuid
  endpointId : Uuid
  status : DeliveryStatus
  attemptCount : ℕ
  nextAttemptAt : Time
  leasedUntil : Option Time
  createdAt : Aware
  updatedAt : Time

/-- `EventListItem`. -/
structure EventListItem where
  id : Uuid
  type : PyStr
  payload : JsonObject
  createdAt : Aware
  deliveryCount : ℕ

/-- `EndpointResponse`. -/
structure EndpointResponse where
  id : Uuid
  projectId : Uuid
  url : PyStr
  eventTypes : List PyStr
  status : EndpointStatus
  payloadFormat : PayloadFormat
  createdAt : Aware
  updatedAt : Time
  rateLimitRps : Option RateLimit

/-- `ProjectResponse`. -/
structure ProjectResponse where
  id : Uuid
  name : PyStr
  createdAt : Aware

/-- `ApiKeyListItem`. -/
structure ApiKeyListItem where
  id : Uuid
  keyPrefix : PyStr
  name : Option PyStr
  createdAt : Aware
  lastUsedAt : Option Time
  revokedAt : Option Time

def DeliveryResponse.ofRow (e : Uuid × DeliveryRow) : DeliveryResponse where
  id := e.1
  eventId := e.2.eventId
  endpointId := e.2.endpointId
  status := e.2.status
  attemptCount := e.2.attemptCount
  nextAttemptAt := e.2.nextAttemptAt
  leasedUntil := e.2.leasedUntil
  createdAt := e.2.createdAt
  updatedAt := e.2.updatedAt

def EndpointResponse.ofRow (e : Uuid × EndpointRow) : EndpointResponse where
  id := e.1
  projectId := e.2.projectId
  url := e.2.url
  eventTypes := e.2.eventTypes
  status := e.2.status
  payloadFormat := e.2.payloadFormat
  createdAt := e.2.createdAt
  updatedAt := e.2.updatedAt
  rateLimitRps := e.2.rateLimitRps

def ProjectResponse.ofRow (e : Uuid × ProjectRow) : ProjectResponse where
  id := e.1
  name := e.2.name
  createdAt := e.2.createdAt

def ApiKeyListItem.ofRow (e : Uuid × ApiKeyRow) : ApiKeyListItem where
  id := e.1
  keyPrefix := e.2.keyPrefix
  name := e.2.name
  createdAt := e.2.createdAt
  lastUsedAt := e.2.lastUsedAt
  revokedAt := e.2.revokedAt

/-! ## Queries -/

section Queries

variable (W : Clockwork) (db : Database)

/-- The rows that were created within a range. -/
def createdWithin (after before : Option Datetime) (createdAt : Aware) : Bool :=
  (after.all fun t => W.instant t ≤ createdAt.instant) &&
    before.all fun t => createdAt.instant ≤ W.instant t

/-- The endpoint of a delivery is the project's: the join of `deliveries` with `endpoints`. -/
def Database.endpointOf (project : Uuid) (r : DeliveryRow) : Bool :=
  (db.endpoints.get? r.endpointId).any fun endpoint => endpoint.projectId = project

def deliveriesMatching (project : Uuid) (q : DeliveryFilter) : List (Uuid × DeliveryRow) :=
  db.deliveries.select fun _ r =>
    db.endpointOf project r && (q.status.all fun status => r.status = status) &&
      (q.endpointId.all fun endpointId => r.endpointId = endpointId) &&
      (q.eventId.all fun eventId => r.eventId = eventId) &&
      (q.eventType.all fun eventType =>
        (db.events.get? r.eventId).any fun event => event.type = eventType) &&
      createdWithin W q.createdAfter q.createdBefore r.createdAt

def eventsMatching (project : Uuid) (q : EventFilter) : List (Uuid × EventRow) :=
  db.events.select fun _ r =>
    r.projectId = project && (q.eventType.all fun eventType => r.type = eventType) &&
      createdWithin W q.createdAfter q.createdBefore r.createdAt

def endpointsMatching (project : Uuid) (status : Option EndpointStatus) :
    List (Uuid × EndpointRow) :=
  db.endpoints.select fun _ r => r.projectId = project && status.all fun status => r.status = status

def apiKeysMatching (project : Uuid) : List (Uuid × ApiKeyRow) :=
  db.apiKeys.select fun _ r => r.projectId = project

/-- `event.deliveries`, in the order of the relationship. -/
def Database.deliveriesOf (eventId : Uuid) : List (Uuid × DeliveryRow) :=
  (db.deliveries.select fun _ r => r.eventId = eventId).mergeSort fun a b =>
    a.2.createdAt.instant ≤ b.2.createdAt.instant

/-- An `EventListItem` with the length of the selected-in `event.deliveries`. -/
def EventListItem.ofRow (e : Uuid × EventRow) : EventListItem where
  id := e.1
  type := e.2.type
  payload := e.2.payload.1
  createdAt := e.2.createdAt
  deliveryCount := (db.deliveriesOf e.1).length

end Queries

/-! ## Routes -/

section Routes

variable (W : Clockwork) (limit : ℕ)

/-- `list_deliveries`. -/
def listDeliveries (project : Uuid) (q : DeliveryFilter) : Serve DeliveryResponse :=
  fun db cursor => do
    checkRange q.createdAfter q.createdBefore
    Page.map DeliveryResponse.ofRow <$>
      listPage W DeliveryRow.createdAt limit cursor (do
        bindText q.eventType
        return deliveriesMatching W db project q)

/-- `list_events`. -/
def listEvents (project : Uuid) (q : EventFilter) : Serve EventListItem :=
  fun db cursor => do
    checkRange q.createdAfter q.createdBefore
    Page.map (EventListItem.ofRow db) <$>
      listPage W EventRow.createdAt limit cursor (do
        bindText q.eventType
        return eventsMatching W db project q)

/-- `list_endpoints`. -/
def listEndpoints (project : Uuid) (status : Option EndpointStatus) : Serve EndpointResponse :=
  fun db cursor =>
    Page.map EndpointResponse.ofRow <$>
      listPage W EndpointRow.createdAt limit cursor (.ok (endpointsMatching db project status))

/-- `list_projects`. -/
def listProjects : Serve ProjectResponse := fun db cursor =>
  Page.map ProjectResponse.ofRow <$>
    listPage W ProjectRow.createdAt limit cursor (.ok (db.projects.select fun _ _ => true))

/-- `_get_project_or_404`. -/
def getProjectOr404 (db : Database) (project : Uuid) : Except ApiError ProjectRow :=
  orRaise (.http 404 (ofString "Project not found")) (db.projects.get? project)

/-- `list_api_keys`. -/
def listApiKeys (project : Uuid) : Serve ApiKeyListItem := fun db cursor => do
  discard (getProjectOr404 db project)
  Page.map ApiKeyListItem.ofRow <$>
    listPage W ApiKeyRow.createdAt limit cursor (.ok (apiKeysMatching db project))

end Routes

/-! ## Paging through them -/

section Listings

variable (W : Clockwork) (limit : ℕ) (project : Uuid)

/-- The query of a route with a text parameter. -/
theorem eq_of_bindText {α : Type} {text : Option PyStr} {rows rs : List α}
    (h : (do bindText text; return rows) = Except.ok rs) : rs = rows := by
  obtain ⟨⟨⟩, -, hrows⟩ := bind_eq_ok_iff.1 h
  exact (pure_eq_ok_iff.1 hrows).symm

theorem listing_deliveries (q : DeliveryFilter) :
    Listing W DeliveryRow.createdAt limit (listDeliveries W limit project q)
      (fun _ => checkRange q.createdAfter q.createdBefore)
      (fun db => do bindText q.eventType; return deliveriesMatching W db project q)
      (fun db => deliveriesMatching W db project q) (fun _ => DeliveryResponse.ofRow)
      DeliveryResponse.id DeliveryResponse.createdAt where
  serve_eq _ _ := rfl
  query_eq := eq_of_bindText
  nodup db := db.deliveries.nodup_select _
  id_item _ _ := rfl
  createdAt_item _ _ := rfl

theorem listing_events (q : EventFilter) :
    Listing W EventRow.createdAt limit (listEvents W limit project q)
      (fun _ => checkRange q.createdAfter q.createdBefore)
      (fun db => do bindText q.eventType; return eventsMatching W db project q)
      (fun db => eventsMatching W db project q) EventListItem.ofRow
      EventListItem.id EventListItem.createdAt where
  serve_eq _ _ := rfl
  query_eq := eq_of_bindText
  nodup db := db.events.nodup_select _
  id_item _ _ := rfl
  createdAt_item _ _ := rfl

theorem listing_endpoints (status : Option EndpointStatus) :
    Listing W EndpointRow.createdAt limit (listEndpoints W limit project status)
      (fun _ => .ok ()) (fun db => .ok (endpointsMatching db project status))
      (fun db => endpointsMatching db project status) (fun _ => EndpointResponse.ofRow)
      EndpointResponse.id EndpointResponse.createdAt where
  serve_eq _ _ := rfl
  query_eq h := (Except.ok.inj h).symm
  nodup db := db.endpoints.nodup_select _
  id_item _ _ := rfl
  createdAt_item _ _ := rfl

theorem listing_projects :
    Listing W ProjectRow.createdAt limit (listProjects W limit) (fun _ => .ok ())
      (fun db => .ok (db.projects.select fun _ _ => true))
      (fun db => db.projects.select fun _ _ => true) (fun _ => ProjectResponse.ofRow)
      ProjectResponse.id ProjectResponse.createdAt where
  serve_eq _ _ := rfl
  query_eq h := (Except.ok.inj h).symm
  nodup db := db.projects.nodup_select _
  id_item _ _ := rfl
  createdAt_item _ _ := rfl

theorem listing_apiKeys :
    Listing W ApiKeyRow.createdAt limit (listApiKeys W limit project)
      (fun db => discard (getProjectOr404 db project))
      (fun db => .ok (apiKeysMatching db project)) (fun db => apiKeysMatching db project)
      (fun _ => ApiKeyListItem.ofRow) ApiKeyListItem.id ApiKeyListItem.createdAt where
  serve_eq _ _ := rfl
  query_eq h := (Except.ok.inj h).symm
  nodup db := db.apiKeys.nodup_select _
  id_item _ _ := rfl
  createdAt_item _ _ := rfl

end Listings

/-- The ids and the creation times of rows. -/
def stamps {ρ : Type} (createdAt : ρ → Aware) (rows : List (Uuid × ρ)) : List (Uuid × Aware) :=
  rows.map fun e => (e.1, createdAt e.2)

/-- **Following the cursors of a list route** returns rows strictly decreasing in
`(created_at, id)`, none twice, and at the end of the chain each row that was there throughout;
cursors decode to what they encode. -/
theorem lists_keysetCorrect (W : Clockwork) (limit : ℕ) (hlimit : 1 ≤ limit) (project : Uuid) :
    (∀ (t : Aware) (id : Uuid), decodeCursor W (encodeCursor t id) = some (.aware t, id)) ∧
    (∀ q : DeliveryFilter, KeysetCorrect (listDeliveries W limit project q)
      (fun db => stamps DeliveryRow.createdAt (deliveriesMatching W db project q)) limit
      DeliveryResponse.id DeliveryResponse.createdAt) ∧
    (∀ q : EventFilter, KeysetCorrect (listEvents W limit project q)
      (fun db => stamps EventRow.createdAt (eventsMatching W db project q)) limit
      EventListItem.id EventListItem.createdAt) ∧
    (∀ status : Option EndpointStatus, KeysetCorrect (listEndpoints W limit project status)
      (fun db => stamps EndpointRow.createdAt (endpointsMatching db project status)) limit
      EndpointResponse.id EndpointResponse.createdAt) ∧
    KeysetCorrect (listProjects W limit)
      (fun db => stamps ProjectRow.createdAt (db.projects.select fun _ _ => true)) limit
      ProjectResponse.id ProjectResponse.createdAt ∧
    KeysetCorrect (listApiKeys W limit project)
      (fun db => stamps ApiKeyRow.createdAt (apiKeysMatching db project)) limit
      ApiKeyListItem.id ApiKeyListItem.createdAt :=
  ⟨decodeCursor_encodeCursor W,
    fun q => (listing_deliveries W limit project q).keysetCorrect hlimit,
    fun q => (listing_events W limit project q).keysetCorrect hlimit,
    fun status => (listing_endpoints W limit project status).keysetCorrect hlimit,
    (listing_projects W limit).keysetCorrect hlimit,
    (listing_apiKeys W limit project).keysetCorrect hlimit⟩

/-- A session in UTC, where `fromisoformat` reads what `isoformat` writes and nothing else. -/
def utcClockwork : Clockwork := ⟨fun _ => none, Wall.microseconds⟩

/-- A project. -/
def sampleProject (name : String) : ProjectRow := ⟨ofString name, .epoch⟩

/-- Three projects that were created at one time. -/
def threeProjects : Database :=
  { Database.empty with
    projects := ((Rows.empty.insert (.ofNat 1) (sampleProject "a")).insert (.ofNat 2)
      (sampleProject "b")).insert (.ofNat 3) (sampleProject "c") }

/-- They take two pages of two. -/
theorem lists_keysetCorrect_three :
    ∃ ps, Served (listProjects utcClockwork 2) (fun _ => threeProjects) 0 none ps none ∧
      ps.length = 2 := by
  obtain ⟨⟨ps, hps⟩, hlength⟩ :=
    (lists_keysetCorrect utcClockwork 2 (by decide) (.ofNat 1)).2.2.2.2.1.ends threeProjects
      ⟨_, rfl⟩
  refine ⟨ps, hps, (hlength ps hps).trans ?_⟩
  have hcount : (stamps ProjectRow.createdAt (threeProjects.projects.select fun _ _ => true)).length
      = 3 := by decide
  rw [hcount]
  decide

end Hookit
