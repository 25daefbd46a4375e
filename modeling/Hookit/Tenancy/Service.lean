import Hookit.Foundations.Isolation
import Hookit.Tenancy.Routes
import Hookit.Tenancy.Tick

/-!
# The API and the workers as one service

`service D` answers the requests that carry an API key, the administrative ones of
`app/routers/projects.py`, and the ticks of any number of workers, each as one transaction. A redrive
checks the status without a lock, so its commit may also be a transaction of its own, with others
between the check and it. The seeding of the showcase is none of these.

To a project come its own requests, what is done to its keys, and of every tick that commits the
deliveries that are its own (`share`). `private_service`: the shared store serves every project as
a store of its own would.
-/

namespace Hookit.Tenancy

open Foundations Seeding Handles

/-- What the deployment fixes. -/
structure Deployment where
  clockwork : Clockwork
  urls : UrlLib
  sha256 : Bytes → PyStr
  settings : Settings
  maxEventPayloadBytes : ℕ

/-- A deployment in which every URL has one host, with a hash that keeps the text and one attempt a
delivery. -/
def sampleDeployment : Deployment where
  clockwork := utcClockwork
  urls := ⟨fun _ => .ok (some (PyStr.ofString "receiver.example")), fun _ => none⟩
  sha256 bytes := bytes.map fun b => codePoint b.val
  settings := { defaultSettings with maxDeliveryAttempts := 1 }
  maxEventPayloadBytes := 262144

/-- A request to a route that depends on `get_current_project`. -/
inductive Call (maxBytes : ℕ)
  | getMe
  | createEndpoint (body : EndpointCreate) (fresh : Fresh)
  | listEndpoints (limit : ℕ) (status : Option EndpointStatus) (cursor : Option PyStr)
  | getEndpoint (endpointId : Uuid)
  | updateEndpoint (endpointId : Uuid) (body : EndpointUpdate) (now : Time)
  | deleteEndpoint (endpointId : Uuid)
  | rotateEndpointSecret (endpointId : Uuid) (secret : Secret) (now : Time)
  | publishEvent (body : EventCreate maxBytes) (idempotencyKey : Option PyStr)
      (draws : IngestDraws)
  | listEvents (limit : ℕ) (q : EventFilter) (cursor : Option PyStr)
  | getEvent (eventId : Uuid)
  | listDeliveries (limit : ℕ) (q : DeliveryFilter) (cursor : Option PyStr)
  | getDelivery (deliveryId : Uuid)
  | listDeliveryAttempts (deliveryId : Uuid)
  | redriveDelivery (deliveryId : Uuid) (now updatedAt : Time)
  | getMetricsSummary (now : Time)

/-- What a request is answered, unless with an error. -/
inductive Answer
  | me (project : Uuid)
  | endpoint (endpoint : EndpointResponse)
  | created (endpoint : EndpointResponse) (secret : Secret)
  | secret (secret : Secret)
  | endpoints (page : Keyset.Page EndpointResponse PyStr)
  | ingested (eventId : Uuid) (queuedDeliveries : ℕ)
  | events (page : Keyset.Page EventListItem PyStr)
  | event (event : EventDetailResponse)
  | deliveries (page : Keyset.Page DeliveryResponse PyStr)
  | delivery (delivery : DeliveryResponse)
  | attempts (attempts : List DeliveryAttemptResponse)
  | summary (summary : MetricsSummaryResponse)
  | project (project : Option ProjectResponse)
  | apiKey (apiKey : ApiKeyListItem) (plaintext : PyStr)
  | done

variable (D : Deployment)

/-- The route of a request, for the project that it is authenticated for. -/
def handle (project : Uuid) : Call D.maxEventPayloadBytes → Database →
    Except ApiError (Answer × Database)
  | .getMe => reading fun _ => .ok (.me project)
  | .createEndpoint body fresh => fun db =>
    (createEndpoint D.urls project body fresh db).map fun x => (.created x.1.1 x.1.2, x.2)
  | .listEndpoints limit status cursor => fun db =>
    (reading (fun db => listEndpoints D.clockwork limit project status db cursor) db).map
      fun x => (.endpoints x.1, x.2)
  | .getEndpoint endpointId => fun db =>
    (reading (getEndpoint project endpointId) db).map fun x => (.endpoint x.1, x.2)
  | .updateEndpoint endpointId body now => fun db =>
    (updateEndpoint D.urls project endpointId body now db).map fun x => (.endpoint x.1, x.2)
  | .deleteEndpoint endpointId => fun db =>
    (deleteEndpoint project endpointId db).map fun x => (.done, x.2)
  | .rotateEndpointSecret endpointId secret now => fun db =>
    (rotateEndpointSecret project endpointId secret now db).map fun x => (.secret x.1, x.2)
  | .publishEvent body idempotencyKey draws => fun db =>
    (publishEvent D.sha256 project body idempotencyKey draws db).map
      fun x => (.ingested x.1.1 x.1.2, x.2)
  | .listEvents limit q cursor => fun db =>
    (reading (fun db => listEvents D.clockwork limit project q db cursor) db).map
      fun x => (.events x.1, x.2)
  | .getEvent eventId => fun db =>
    (reading (getEvent project eventId) db).map fun x => (.event x.1, x.2)
  | .listDeliveries limit q cursor => fun db =>
    (reading (fun db => listDeliveries D.clockwork limit project q db cursor) db).map
      fun x => (.deliveries x.1, x.2)
  | .getDelivery deliveryId => fun db =>
    (reading (getDelivery project deliveryId) db).map fun x => (.delivery x.1, x.2)
  | .listDeliveryAttempts deliveryId => fun db =>
    (reading (listDeliveryAttempts project deliveryId) db).map fun x => (.attempts x.1, x.2)
  | .redriveDelivery deliveryId now updatedAt => fun db =>
    (redriveDelivery project deliveryId now updatedAt db).map fun x => (.delivery x.1, x.2)
  | .getMetricsSummary now => fun db =>
    (reading (fun db => .ok (deliverySummary db project now)) db).map fun x => (.summary x.1, x.2)

/-- What a request draws is in no use. -/
def Call.Unused {maxBytes : ℕ} (project : Uuid) : Call maxBytes → Database → Prop
  | .createEndpoint _ fresh, db => db.endpoints.get? fresh.id = none
  | .publishEvent body _ draws, db => db.events.get? draws.eventId = none ∧
    db.deliveries.Unused
      (draws.deliveries ((activeEndpoints db project body.type).map Prod.fst))
  | _, _ => True

/-- **Every route is confined** to the project that the request is authenticated for. -/
theorem confined_handle (p : Uuid) (call : Call D.maxEventPayloadBytes) :
    Confined p (fun db => db.projects.get? p ≠ none ∧ call.Unused p db) (handle D p call) := by
  cases call with
  | getMe => exact .mono (.read fun _ _ => rfl) fun _ _ => trivial
  | createEndpoint body fresh =>
    exact .mono ((confined_createEndpoint D.urls body fresh).map fun x => Answer.created x.1 x.2)
      fun _ h => h
  | listEndpoints limit status cursor =>
    exact .mono ((confined_listEndpoints D.clockwork limit cursor status).map _) fun _ _ => trivial
  | getEndpoint endpointId =>
    exact .mono ((confined_getEndpoint endpointId).map _) fun _ _ => trivial
  | updateEndpoint endpointId body now =>
    exact .mono ((confined_updateEndpoint D.urls endpointId body now).map _) fun _ _ => trivial
  | deleteEndpoint endpointId =>
    exact .mono ((confined_deleteEndpoint endpointId).map fun _ => Answer.done) fun _ _ => trivial
  | rotateEndpointSecret endpointId secret now =>
    exact .mono ((confined_rotateEndpointSecret endpointId secret now).map _) fun _ _ => trivial
  | publishEvent body idempotencyKey draws =>
    exact .mono ((confined_publishEvent D.sha256 body idempotencyKey draws).map
      fun x => Answer.ingested x.1 x.2) fun _ h => ⟨h.1, h.2.1, h.2.2⟩
  | listEvents limit q cursor =>
    exact .mono ((confined_listEvents D.clockwork limit cursor q).map _) fun _ _ => trivial
  | getEvent eventId => exact .mono ((confined_getEvent eventId).map _) fun _ _ => trivial
  | listDeliveries limit q cursor =>
    exact .mono ((confined_listDeliveries D.clockwork limit cursor q).map _) fun _ _ => trivial
  | getDelivery deliveryId =>
    exact .mono ((confined_getDelivery deliveryId).map _) fun _ _ => trivial
  | listDeliveryAttempts deliveryId =>
    exact .mono ((confined_listDeliveryAttempts deliveryId).map _) fun _ _ => trivial
  | redriveDelivery deliveryId now updatedAt =>
    exact .mono ((confined_redriveDelivery deliveryId now updatedAt).map _) fun _ _ => trivial
  | getMetricsSummary now =>
    exact .mono ((confined_deliverySummary now).map _) fun _ _ => trivial

/-! ## The service -/

/-- A transaction. -/
inductive Action (maxBytes : ℕ)
  /-- A request with an API key: that the key was used is committed first. -/
  | request (credentials : Option PyStr) (now : Time) (call : Call maxBytes)
  | createProject (name : PyStr) (id : Uuid) (createdAt : Aware)
  | createApiKey (project : Uuid) (name : PyStr) (draws : KeyDraws)
  | deleteApiKey (project keyId : Uuid) (now : Time)
  /-- The end of a redrive of the project that has read and checked the delivery earlier. -/
  | commitRedrive (project deliveryId : Uuid) (leased : Bool) (now updatedAt : Time)
  | tick (draws : TickDraws)

/-- What is answered, and what is committed: nothing where a route raises. -/
def respond {α : Type} (db : Database) :
    Except ApiError (α × Database) → Except ApiError α × Database
  | .ok (answer, db') => (.ok answer, db')
  | .error e => (.error e, db)

/-- Serve a transaction. -/
def serve : Action D.maxEventPayloadBytes → Database → Except ApiError Answer × Database
  | .request credentials now call, db =>
    match authenticate D.sha256 credentials now db with
    | .error e => (.error e, db)
    | .ok (project, db) => respond db (handle D project call db)
  | .createProject name id createdAt, db =>
    respond db ((createProject name id createdAt db).map fun x => (.project x.1, x.2))
  | .createApiKey project name draws, db =>
    respond db ((createApiKey D.sha256 project name draws db).map
      fun x => (.apiKey x.1.1 x.1.2, x.2))
  | .deleteApiKey project keyId now, db =>
    respond db ((deleteApiKey project keyId now db).map fun x => (.done, x.2))
  | .commitRedrive _ deliveryId leased now updatedAt, db =>
    respond db ((commitRedrive deliveryId leased now updatedAt db).map fun x => (.delivery x.1, x.2))
  | .tick draws, db => (.ok .done, tick D.urls D.settings draws db)

/-- The API and the workers. -/
def service : Service Database (Action D.maxEventPayloadBytes) (Except ApiError Answer) :=
  ⟨serve D⟩

/-- What a transaction draws is in no use. A delivery that has been checked for a project is the
project's as long as it is there. -/
def Unused : Action D.maxEventPayloadBytes → Database → Prop
  | .request credentials now call, db => ∀ project db',
    authenticate D.sha256 credentials now db = .ok (project, db') → call.Unused project db'
  | .createProject _ id _, db => db.projects.get? id = none
  | .createApiKey _ _ draws, db => db.apiKeys.get? draws.id = none ∧ ∀ keyHash,
    hashApiKey D.sha256 draws.plaintext = .ok keyHash →
      ∀ k r, db.apiKeys.get? k = some r → r.keyHash ≠ keyHash
  | .deleteApiKey _ _ _, _ => True
  | .commitRedrive project deliveryId _ _ _, db => ∀ r, db.deliveries.get? deliveryId = some r →
    deliveryOwner db deliveryId = some project
  | .tick draws, db => NewAttempts D.urls D.settings draws db

/-- The requests that are authenticated, or have been, for a project. -/
def mine (p : Uuid) : Action D.maxEventPayloadBytes → Database → Bool
  | .request credentials now _, db =>
    match authenticate D.sha256 credentials now db with
    | .ok (project, _) => project = p
    | .error _ => false
  | .commitRedrive project _ _ _ _, _ => project = p
  | _, _ => false

/-- What a transaction is to a project. -/
def share (p : Uuid) : Action D.maxEventPayloadBytes → Database →
    Option (Action D.maxEventPayloadBytes)
  | .request credentials now call, db =>
    if mine D p (.request credentials now call) db then some (.request credentials now call)
    else none
  | .createProject name id createdAt, db =>
    match createProject name id createdAt db with
    | .ok (some _, _) => if id = p then some (.createProject name id createdAt) else none
    | _ => none
  | .createApiKey project name draws, _ =>
    if project = p then some (.createApiKey project name draws) else none
  | .deleteApiKey project keyId now, _ =>
    if project = p then some (.deleteApiKey project keyId now) else none
  | .commitRedrive project deliveryId leased now updatedAt, _ =>
    if project = p then some (.commitRedrive project deliveryId leased now updatedAt) else none
  | .tick draws, db =>
    match db.outcomes D.urls D.settings draws with
    | .ok _ => some (.tick (ownClaims db p draws))
    | .error _ => none

/-! ## Authentication -/

section Authentication

variable {sha256 : Bytes → PyStr} {credentials : Option PyStr} {now : Time} {db db' : Database}
  {p : Uuid}

/-- That a key was used. -/
def usedAt (now : Time) (row : ApiKeyRow) : ApiKeyRow := { row with lastUsedAt := some now }

theorem scalarOneOrNone_eq_some_iff {β : Type} {l : List β} {b : β} :
    scalarOneOrNone l = .ok (some b) ↔ l = [b] := by
  rcases l with _ | ⟨a, _ | ⟨a', l⟩⟩ <;> simp [scalarOneOrNone]

theorem authenticate_eq_ok_iff : authenticate sha256 credentials now db = .ok (p, db') ↔
    ∃ token keyHash keyId row, credentials = some token ∧ hashApiKey sha256 token = .ok keyHash ∧
      db.store.keysHashed keyHash = [(keyId, row)] ∧ row.revokedAt = none ∧ row.projectId = p ∧
      setApiKey db keyId (usedAt now) = db' := by
  simp only [authenticate, getCurrentProject, bind_eq_ok_iff, pure_eq_ok_iff, orRaise_eq_ok_iff,
    mapError_eq_ok_iff]
  constructor
  · rintro ⟨⟨project, store⟩, ⟨token, rfl, keyHash, hhash, found, hfound, h⟩, heq⟩
    cases found with
    | none => cases h
    | some apiKey =>
      obtain ⟨keyId, row⟩ := apiKey
      simp only at h
      split at h
      · cases h
      · next hrevoked =>
        obtain ⟨rfl, rfl⟩ := Prod.mk.inj (Except.ok.inj h)
        obtain ⟨rfl, rfl⟩ := Prod.mk.inj heq
        rw [Option.isSome_iff_ne_none, not_not] at hrevoked
        exact ⟨token, keyHash, keyId, row, rfl, hhash, scalarOneOrNone_eq_some_iff.1 hfound,
          hrevoked, rfl, rfl⟩
  · rintro ⟨token, keyHash, keyId, row, rfl, hhash, hfound, hrevoked, rfl, rfl⟩
    refine ⟨(row.projectId, { db.store with apiKeys := db.apiKeys.modifyAt keyId (usedAt now) }),
      ⟨token, rfl, keyHash, hhash, some (keyId, row), scalarOneOrNone_eq_some_iff.2 hfound, ?_⟩,
      rfl⟩
    simp only [hrevoked]
    rfl

theorem keysHashed_tenant (keyHash : PyStr) : (tenant db p).store.keysHashed keyHash =
    (db.store.keysHashed keyHash).filter fun e => e.2.projectId = p := by
  simp only [Store.keysHashed, Database.store, tenant, Rows.select, Rows.filter, List.filter_filter,
    Bool.and_comm]

/-- A key that is found is there. -/
theorem get?_of_keysHashed {keyHash : PyStr} {e : Uuid × ApiKeyRow}
    (h : db.store.keysHashed keyHash = [e]) : db.apiKeys.get? e.1 = some e.2 := by
  have hmem : e ∈ db.store.keysHashed keyHash := by simp [h]
  exact Rows.get?_eq_some_iff.2 (Rows.mem_select.1 hmem).1

/-- **Authentication for a project** is from its own keys. -/
theorem authenticate_own (h : authenticate sha256 credentials now db = .ok (p, db')) :
    authenticate sha256 credentials now (tenant db p) = .ok (p, tenant db' p) := by
  obtain ⟨token, keyHash, keyId, row, htoken, hhash, hfound, hrevoked, hproject, rfl⟩ :=
    authenticate_eq_ok_iff.1 h
  refine authenticate_eq_ok_iff.2 ⟨token, keyHash, keyId, row, htoken, hhash, ?_, hrevoked,
    hproject, (tenant_setApiKey (f := usedAt now) (fun _ => rfl) p).symm⟩
  rw [keysHashed_tenant, hfound]
  simp [hproject]

theorem authenticate_foreign (h : authenticate sha256 credentials now db = .ok (p, db')) {q : Uuid}
    (hq : q ≠ p) : tenant db' q = tenant db q := by
  obtain ⟨token, keyHash, keyId, row, -, -, hfound, -, hproject, rfl⟩ :=
    authenticate_eq_ok_iff.1 h
  rw [tenant_setApiKey (f := usedAt now) fun _ => rfl]
  exact setApiKey_tenant (get?_of_keysHashed hfound) (hproject ▸ Ne.symm hq)

theorem authenticate_integral (hdb : Integral db)
    (h : authenticate sha256 credentials now db = .ok (p, db')) :
    Integral db' ∧ db'.projects.get? p ≠ none := by
  obtain ⟨token, keyHash, keyId, row, -, -, hfound, -, hproject, rfl⟩ :=
    authenticate_eq_ok_iff.1 h
  refine ⟨hdb.setApiKey (fun _ => rfl) fun _ => rfl, ?_⟩
  rw [← hproject]
  exact hdb.apiKeys keyId row (get?_of_keysHashed hfound)

end Authentication

/-! ## The administrative routes -/

section Administration

variable {db db' : Database} {p : Uuid}

theorem confined_createApiKey (sha256 : Bytes → PyStr) (name : PyStr) (draws : KeyDraws) :
    Confined p (fun db => db.apiKeys.get? draws.id = none ∧ ∀ keyHash,
      hashApiKey sha256 draws.plaintext = .ok keyHash →
        ∀ k r, db.apiKeys.get? k = some r → r.keyHash ≠ keyHash)
      (createApiKey sha256 p name draws) := by
  have hproject : ∀ db : Database, getProjectOr404 (tenant db p) p = getProjectOr404 db p := by
    intro db
    have hget : (tenant db p).projects.get? p = (db.projects.get? p).filter fun _ => p = p :=
      Rows.get?_filter _
    rw [getProjectOr404, getProjectOr404, hget]
    cases db.projects.get? p <;> simp [Option.filter_some]
  let row : PyStr → ApiKeyRow := fun keyHash =>
    ⟨p, some name, draws.plaintext.take 12, keyHash, none, none, draws.createdAt⟩
  refine .write (fun db => do
      discard (getProjectOr404 db p)
      let keyHash ← raises (hashApiKey sha256 draws.plaintext)
      raises (checkColumn 255 name)
      return keyHash)
    (fun keyHash => (.ofRow (draws.id, row keyHash), draws.plaintext))
    (fun keyHash db => addApiKey db draws.id (row keyHash)) (fun db => ?_)
    (fun db _ _ => by rw [hproject]) fun db keyHash hdb ⟨hfresh, hunused⟩ h => ?_
  · unfold createApiKey
    cases getProjectOr404 db p with
    | error e => rfl
    | ok _ =>
      cases raises (hashApiKey sha256 draws.plaintext) with
      | error e => rfl
      | ok keyHash => cases raises (checkColumn 255 name) <;> rfl
  · cases hget : getProjectOr404 db p with
    | error e =>
      rw [hget] at h
      cases h
    | ok project =>
      obtain ⟨-, -, h⟩ := bind_eq_ok_iff.1 h
      obtain ⟨keyHash', hhash, h⟩ := bind_eq_ok_iff.1 h
      obtain ⟨-, -, h⟩ := bind_eq_ok_iff.1 h
      obtain rfl := pure_eq_ok_iff.1 h
      have hp : db.projects.get? p ≠ none := by
        rw [orRaise_eq_ok_iff.1 hget]
        exact Option.some_ne_none _
      have hhash := mapError_eq_ok_iff.1 hhash
      refine ⟨?_, fun q hq => ?_, hdb.addApiKey hfresh hp (hunused keyHash' hhash)⟩
      · rw [tenant_addApiKey hfresh]
        exact if_pos rfl
      · rw [tenant_addApiKey hfresh]
        exact if_neg (Ne.symm hq)

/-- That a key is revoked. -/
def revoked (now : Time) (row : ApiKeyRow) : ApiKeyRow := { row with revokedAt := some now }

theorem confined_deleteApiKey (keyId : Uuid) (now : Time) :
    Confined p (fun _ => True) (deleteApiKey p keyId now) := by
  refine .write
    (fun db => getOr404 db.apiKeys keyId (fun row => row.projectId = p) "API key not found")
    (fun _ => ())
    (fun apiKey db => if apiKey.revokedAt.isNone then setApiKey db keyId (revoked now) else db)
    (fun db => ?_) (fun db _ _ => getOr404_filter fun _ _ => Bool.and_self _)
    fun db apiKey hdb _ h => ?_
  · unfold deleteApiKey
    cases getOr404 db.apiKeys keyId (fun row => row.projectId = p) "API key not found" with
    | error e => rfl
    | ok apiKey =>
      simp only [ok_bind, Except.map]
      split <;> rfl
  · obtain ⟨hget, hproject⟩ := getOr404_eq_ok_iff.1 h
    split
    · refine ⟨tenant_setApiKey (f := revoked now) (fun _ => rfl) p, fun q hq => ?_,
        hdb.setApiKey (fun _ => rfl) fun _ => rfl⟩
      rw [tenant_setApiKey (f := revoked now) fun _ => rfl]
      exact setApiKey_tenant hget (of_decide_eq_true hproject ▸ Ne.symm hq)
    · exact ⟨rfl, fun _ _ => rfl, hdb⟩

/-- A project is created with a new name only. -/
theorem createProject_cases {name : PyStr} {id : Uuid} {createdAt : Aware} :
    (∃ e, ∀ db, createProject name id createdAt db = .error e) ∨
    (∀ db, (db.projects.select (fun _ row => row.name = name) = [] ∧
        createProject name id createdAt db = .ok (some (.ofRow (id, ⟨name, createdAt⟩)),
          addProject db id ⟨name, createdAt⟩)) ∨
      (db.projects.select (fun _ row => row.name = name) ≠ [] ∧
        createProject name id createdAt db = .ok (none, db))) := by
  unfold createProject
  cases raises (checkColumn 255 name) with
  | error e => exact .inl ⟨e, fun _ => rfl⟩
  | ok _ =>
    refine .inr fun db => ?_
    by_cases hname : db.projects.select (fun _ row => row.name = name) = []
    · exact .inl ⟨hname, by simp only [ok_bind, hname, if_true]; rfl⟩
    · exact .inr ⟨hname, by simp only [ok_bind, hname, if_false]; rfl⟩

end Administration

/-! ## The shared store is a private one to each project -/

section Isolation

variable {D} {p : Uuid} {db : Database}

/-- What a route that is confined to a project commits, to the project and to the others. -/
theorem respond_own {α : Type} {ok : Database → Prop}
    {route : Database → Except ApiError (α × Database)}
    (h : Confined p ok route) (hdb : Integral db) (hok : ok db) :
    respond (tenant db p) (route (tenant db p)) =
      ((respond db (route db)).1, tenant (respond db (route db)).2 p) := by
  rw [h.own hdb hok]
  cases route db <;> rfl

theorem respond_foreign {α : Type} {ok : Database → Prop}
    {route : Database → Except ApiError (α × Database)} (h : Confined p ok route)
    (hdb : Integral db) (hok : ok db) {q : Uuid} (hq : q ≠ p) :
    tenant (respond db (route db)).2 q = tenant db q := by
  cases hx : route db with
  | error e => rfl
  | ok x => exact h.foreign hdb hok hx hq

theorem respond_integral {α : Type} {ok : Database → Prop}
    {route : Database → Except ApiError (α × Database)} (h : Confined p ok route)
    (hdb : Integral db) (hok : ok db) : Integral (respond db (route db)).2 := by
  cases hx : route db with
  | error e => exact hdb
  | ok x => exact h.integral hdb hok hx

/-- What mints and revokes keys, and what ends a redrive, as `serve` has it. -/
theorem confined_serve_createApiKey (project : Uuid) (name : PyStr) (draws : KeyDraws) :
    Confined project (Unused D (.createApiKey project name draws)) fun db =>
      (createApiKey D.sha256 project name draws db).map
        fun x => (Answer.apiKey x.1.1 x.1.2, x.2) :=
  (confined_createApiKey D.sha256 name draws).map fun x => Answer.apiKey x.1 x.2

theorem confined_serve_deleteApiKey (project keyId : Uuid) (now : Time) :
    Confined project (fun _ => True) fun db =>
      (deleteApiKey project keyId now db).map fun x => (Answer.done, x.2) :=
  (confined_deleteApiKey keyId now).map fun _ => Answer.done

theorem confined_serve_commitRedrive (project deliveryId : Uuid) (leased : Bool)
    (now updatedAt : Time) :
    Confined project (Unused D (.commitRedrive project deliveryId leased now updatedAt)) fun db =>
      (commitRedrive deliveryId leased now updatedAt db).map fun x => (Answer.delivery x.1, x.2) :=
  (confined_commitRedrive deliveryId leased now updatedAt).map Answer.delivery

/-- **Every transaction keeps** what the rows have in common. -/
theorem integral_serve {a : Action D.maxEventPayloadBytes} (hdb : Integral db)
    (ha : Unused D a db) : Integral (serve D a db).2 := by
  cases a with
  | request credentials now call =>
    simp only [serve]
    cases hauth : authenticate D.sha256 credentials now db with
    | error e => exact hdb
    | ok x =>
      obtain ⟨project, db'⟩ := x
      obtain ⟨hdb', hproject⟩ := authenticate_integral hdb hauth
      exact respond_integral (confined_handle D project call) hdb' ⟨hproject, ha project db' hauth⟩
  | createProject name id createdAt =>
    simp only [serve]
    rcases @createProject_cases name id createdAt with ⟨e, he⟩ | hcases
    · rw [he]
      exact hdb
    · rcases hcases db with ⟨-, hok⟩ | ⟨-, hok⟩
      · rw [hok]
        exact hdb.addProject ha
      · rw [hok]
        exact hdb
  | createApiKey project name draws =>
    exact respond_integral (confined_serve_createApiKey project name draws) hdb ha
  | deleteApiKey project keyId now =>
    exact respond_integral (confined_serve_deleteApiKey project keyId now) hdb trivial
  | commitRedrive project deliveryId leased now updatedAt =>
    exact respond_integral
      (confined_serve_commitRedrive project deliveryId leased now updatedAt) hdb ha
  | tick draws => exact hdb.tick ha

/-- A request that is authenticated for a project. -/
theorem mine_request {credentials : Option PyStr} {now : Time}
    {call : Call D.maxEventPayloadBytes} (h : mine D p (.request credentials now call) db = true) :
    ∃ db', authenticate D.sha256 credentials now db = .ok (p, db') := by
  simp only [mine] at h
  cases hauth : authenticate D.sha256 credentials now db with
  | error e =>
    rw [hauth] at h
    cases h
  | ok x =>
    rw [hauth] at h
    exact ⟨x.2, by rw [← of_decide_eq_true h]⟩

/-- **What does not come to a project** leaves its store alone. -/
theorem hidden_serve {a : Action D.maxEventPayloadBytes} (hdb : Integral db) (ha : Unused D a db)
    (hshare : share D p a db = none) :
    mine D p a db = false ∧ tenant (serve D a db).2 p = tenant db p := by
  cases a with
  | request credentials now call =>
    simp only [share, ite_eq_right_iff, reduceCtorEq, imp_false, Bool.not_eq_true] at hshare
    refine ⟨hshare, ?_⟩
    simp only [mine] at hshare
    simp only [serve]
    cases hauth : authenticate D.sha256 credentials now db with
    | error e => rfl
    | ok x =>
      obtain ⟨project, db'⟩ := x
      rw [hauth] at hshare
      have hne : p ≠ project := Ne.symm (of_decide_eq_false hshare)
      obtain ⟨hdb', hproject⟩ := authenticate_integral hdb hauth
      refine (respond_foreign (confined_handle D project call) hdb'
        ⟨hproject, ha project db' hauth⟩ hne).trans ?_
      exact authenticate_foreign hauth hne
  | createProject name id createdAt =>
    refine ⟨rfl, ?_⟩
    simp only [share] at hshare
    simp only [serve]
    rcases @createProject_cases name id createdAt with ⟨e, he⟩ | hcases
    · rw [he]
      rfl
    · rcases hcases db with ⟨-, hok⟩ | ⟨-, hok⟩
      · rw [hok] at hshare ⊢
        have hne : id ≠ p := by simpa using hshare
        exact (tenant_addProject ha p).trans (if_neg hne)
      · rw [hok]
        rfl
  | createApiKey project name draws =>
    have hne : p ≠ project := Ne.symm (by simpa [share] using hshare)
    exact ⟨rfl, respond_foreign (confined_serve_createApiKey project name draws) hdb ha hne⟩
  | deleteApiKey project keyId now =>
    have hne : p ≠ project := Ne.symm (by simpa [share] using hshare)
    exact ⟨rfl, respond_foreign (confined_serve_deleteApiKey project keyId now) hdb trivial hne⟩
  | commitRedrive project deliveryId leased now updatedAt =>
    have hne : project ≠ p := by simpa [share] using hshare
    exact ⟨decide_eq_false hne, respond_foreign
      (confined_serve_commitRedrive project deliveryId leased now updatedAt) hdb ha (Ne.symm hne)⟩
  | tick draws =>
    refine ⟨rfl, ?_⟩
    simp only [share] at hshare
    simp only [serve]
    cases hout : db.outcomes D.urls D.settings draws with
    | error e => rw [tick_of_error hout]
    | ok settled =>
      rw [hout] at hshare
      cases hshare

/-- **What comes to a project** does in its store what its share does there. -/
theorem shared_serve {a b : Action D.maxEventPayloadBytes} (hdb : Integral db)
    (ha : Unused D a db) (hshare : share D p a db = some b) :
    mine D p b (tenant db p) = mine D p a db ∧
      tenant (serve D a db).2 p = (serve D b (tenant db p)).2 ∧
        (mine D p a db = true → (serve D a db).1 = (serve D b (tenant db p)).1) := by
  cases a with
  | request credentials now call =>
    simp only [share, Option.ite_none_right_eq_some, Option.some.injEq] at hshare
    obtain ⟨hmine, rfl⟩ := hshare
    obtain ⟨db', hauth⟩ := mine_request hmine
    obtain ⟨hdb', hproject⟩ := authenticate_integral hdb hauth
    have hown := authenticate_own hauth
    have hrespond := respond_own (confined_handle D p call) hdb' ⟨hproject, ha p db' hauth⟩
    have hserve : serve D (.request credentials now call) (tenant db p) =
        ((serve D (.request credentials now call) db).1,
          tenant (serve D (.request credentials now call) db).2 p) := by
      simp only [serve, hown, hauth]
      exact hrespond
    refine ⟨?_, (congrArg Prod.snd hserve).symm, fun _ => (congrArg Prod.fst hserve).symm⟩
    rw [hmine]
    simp only [mine, hown, decide_true]
  | createProject name id createdAt =>
    simp only [share] at hshare
    rcases @createProject_cases name id createdAt with ⟨e, he⟩ | hcases
    · rw [he] at hshare
      cases hshare
    · rcases hcases db with ⟨hname, hok⟩ | ⟨-, hok⟩
      · rw [hok] at hshare
        simp only [Option.ite_none_right_eq_some, Option.some.injEq] at hshare
        obtain ⟨rfl, rfl⟩ := hshare
        have hprivate : (tenant db id).projects.select (fun _ row => row.name = name) = [] := by
          refine List.filter_eq_nil_iff.2 fun e he => ?_
          exact List.filter_eq_nil_iff.1 hname e (List.mem_of_mem_filter he)
        rcases hcases (tenant db id) with ⟨-, hok'⟩ | ⟨hne, -⟩
        · refine ⟨rfl, ?_, fun h => (nomatch h)⟩
          simp only [serve, hok, hok']
          exact (tenant_addProject ha id).trans (if_pos rfl)
        · exact absurd hprivate hne
      · rw [hok] at hshare
        cases hshare
  | createApiKey project name draws =>
    simp only [share, Option.ite_none_right_eq_some, Option.some.injEq] at hshare
    obtain ⟨rfl, rfl⟩ := hshare
    have hserve := respond_own (confined_serve_createApiKey project name draws) hdb ha
    exact ⟨rfl, (congrArg Prod.snd hserve).symm, fun h => (nomatch h)⟩
  | deleteApiKey project keyId now =>
    simp only [share, Option.ite_none_right_eq_some, Option.some.injEq] at hshare
    obtain ⟨rfl, rfl⟩ := hshare
    have hserve := respond_own (confined_serve_deleteApiKey project keyId now) hdb trivial
    exact ⟨rfl, (congrArg Prod.snd hserve).symm, fun h => (nomatch h)⟩
  | commitRedrive project deliveryId leased now updatedAt =>
    simp only [share, Option.ite_none_right_eq_some, Option.some.injEq] at hshare
    obtain ⟨rfl, rfl⟩ := hshare
    have hserve := respond_own
      (confined_serve_commitRedrive project deliveryId leased now updatedAt) hdb ha
    exact ⟨rfl, (congrArg Prod.snd hserve).symm, fun _ => (congrArg Prod.fst hserve).symm⟩
  | tick draws =>
    simp only [share] at hshare
    cases hout : db.outcomes D.urls D.settings draws with
    | error e =>
      rw [hout] at hshare
      cases hshare
    | ok settled =>
      rw [hout] at hshare
      obtain rfl := Option.some.inj hshare
      exact ⟨rfl, tenant_tick hdb ha hout p, fun h => (nomatch h)⟩

/-- **Each project has a private store** in the shared one. -/
theorem private_service (D : Deployment) (p : Uuid) : (service D).Private (Unused D) Integral
    (mine D p) (share D p) (fun db => tenant db p) :=
  ⟨integral_serve, hidden_serve, shared_serve⟩

end Isolation

end Hookit.Tenancy
