import Hookit.Tenancy.Service

/-!
# What a request does to deliveries and attempts

`serve_cases` says which transactions touch the deliveries and what belongs to them: the requests
that are authenticated and answered, the redrives that commit after others have come between, and
the ticks that commit. For the first, `moves_handle` says
once, for all routes, what becomes of the deliveries and of the attempts on them, and `kept_handle`
that nothing becomes of API keys, of events that are there, and of records unless an event is
published. The invariants of runs are derived from these.
-/

namespace Hookit.Tenancy

open Foundations

variable {D : Deployment} {p : Uuid} {db db' : Database}

/-- The deliveries and the attempts before and after a request. -/
inductive Moves (call : Call D.maxEventPayloadBytes) (db db' : Database) : Prop
  | same (hdeliveries : db'.deliveries = db.deliveries) (hattempts : db'.attempts = db.attempts)
  /-- The deliveries to an endpoint are deleted with it, and the attempts with them. -/
  | deleted (endpointId : Uuid) (hcall : call = .deleteEndpoint endpointId)
      (hdeliveries : db'.deliveries = (db.dropEndpoint endpointId).deliveries)
      (hattempts : db'.attempts = (db.dropEndpoint endpointId).attempts)
  /-- New deliveries are pending and have not been attempted. -/
  | created (ds : List (Uuid × DeliveryRow))
      (hcall : ∃ body key draws, call = .publishEvent body key draws)
      (hunused : db.deliveries.Unused ds)
      (hnew : ∀ e ∈ ds, e.2.status = .pending ∧ e.2.attemptCount = 0)
      (hdeliveries : db'.deliveries = db.deliveries.insertAll ds)
      (hattempts : db'.attempts = db.attempts)
  | redriven (k : Uuid) (r : DeliveryRow) (leased : Bool) (now updatedAt : Time)
      (hcall : call = .redriveDelivery k now updatedAt) (hr : db.deliveries.get? k = some r)
      (hdead : r.status = .deadLettered)
      (hdeliveries : db'.deliveries =
        db.deliveries.modifyAt k (DeliveryRow.redriven leased now updatedAt))
      (hattempts : db'.attempts = db.attempts)

/-! ## The routes -/

theorem reading_inv {α : Type} {g : Database → Except ApiError α} {x : α × Database}
    (h : reading g db = .ok x) : x.2 = db := by
  obtain ⟨a, -, rfl⟩ := map_eq_ok_iff.1 h
  rfl

theorem createEndpoint_inv {lib : UrlLib} {body : Seeding.EndpointCreate} {fresh : Seeding.Fresh}
    {x : (EndpointResponse × Secret) × Database} (h : createEndpoint lib p body fresh db = .ok x) :
    x = ((.ofRow (fresh.id, body.row p fresh), fresh.secret),
      { db with endpoints := db.endpoints.insert fresh.id (body.row p fresh) }) := by
  obtain ⟨-, -, h⟩ := bind_eq_ok_iff.1 h
  obtain ⟨-, -, h⟩ := bind_eq_ok_iff.1 h
  exact (pure_eq_ok_iff.1 h).symm

theorem updateEndpoint_inv {lib : UrlLib} {endpointId : Uuid} {body : Seeding.EndpointUpdate}
    {now : Time} {x : EndpointResponse × Database}
    (h : updateEndpoint lib p endpointId body now db = .ok x) :
    ∃ row, db.endpoints.get? endpointId = some row ∧ x.2 = { db with
      endpoints := db.endpoints.modifyAt endpointId fun _ => body.committed now row } := by
  obtain ⟨row, hrow, h⟩ := bind_eq_ok_iff.1 h
  refine ⟨row, (getOr404_eq_ok_iff.1 hrow).1, ?_⟩
  have hend : (do
      raises body.check
      return (EndpointResponse.ofRow (endpointId, body.committed now row), { db with
        endpoints := db.endpoints.modifyAt endpointId fun _ => body.committed now row })) = .ok x →
      x.2 = { db with
        endpoints := db.endpoints.modifyAt endpointId fun _ => body.committed now row } := by
    intro h
    obtain ⟨-, -, h⟩ := bind_eq_ok_iff.1 h
    rw [← pure_eq_ok_iff.1 h]
  cases hurl : body.url with
  | none =>
    simp only [hurl] at h
    exact hend h
  | some url =>
    simp only [hurl] at h
    obtain ⟨-, -, h⟩ := bind_eq_ok_iff.1 h
    exact hend h

theorem rotateEndpointSecret_inv {endpointId : Uuid} {secret : Secret} {now : Time}
    {x : Secret × Database} (h : rotateEndpointSecret p endpointId secret now db = .ok x) :
    x = (secret, { db with endpoints := db.endpoints.modifyAt endpointId fun row =>
      { row with secret, updatedAt := now } }) := by
  obtain ⟨-, -, h⟩ := bind_eq_ok_iff.1 h
  exact (pure_eq_ok_iff.1 h).symm

/-- An event is there already, or it is inserted with its deliveries. -/
theorem ingestEvent_inv {sha256 : Bytes → PyStr} {eventType : PyStr} {payload : JsonObject}
    {idempotencyKey : Option PyStr} {draws : IngestDraws} {x : (Uuid × ℕ) × Database}
    (h : ingestEvent sha256 p eventType payload idempotencyKey draws db = .ok x) :
    (∃ key record, db.records.get? (p, key) = some record ∧
      x = ((record.eventId, record.queuedDeliveries), db)) ∨
    ∃ event records, event.projectId = p ∧
      (records = db.records ∨ ∃ key requestHash, records = db.records.insert (p, key)
        ⟨draws.eventId, ((activeEndpoints db p eventType).map Prod.fst).length, requestHash⟩) ∧
      x = ((draws.eventId, ((activeEndpoints db p eventType).map Prod.fst).length),
        { db with
          events := db.events.insert draws.eventId event
          deliveries := db.deliveries.insertAll
            (draws.deliveries ((activeEndpoints db p eventType).map Prod.fst))
          records }) := by
  obtain ⟨requestHash, -, h⟩ := bind_eq_ok_iff.1 h
  obtain ⟨-, -, h⟩ := bind_eq_ok_iff.1 h
  split at h
  · next record hrecord =>
    split at h
    · cases h
    · obtain ⟨key, -, hget⟩ := Option.bind_eq_some_iff.1 hrecord
      exact .inl ⟨key, record, hget, (pure_eq_ok_iff.1 h).symm⟩
  · obtain ⟨-, -, h⟩ := bind_eq_ok_iff.1 h
    obtain ⟨-, -, h⟩ := bind_eq_ok_iff.1 h
    obtain ⟨stored, -, h⟩ := bind_eq_ok_iff.1 h
    refine .inr ⟨⟨p, eventType, stored, idempotencyKey, draws.createdAt⟩, _, rfl, ?_,
      (pure_eq_ok_iff.1 h).symm⟩
    cases idempotencyKey with
    | none => exact .inl rfl
    | some key => exact .inr ⟨key, requestHash, rfl⟩

theorem redriveDelivery_inv {deliveryId : Uuid} {now updatedAt : Time}
    {x : DeliveryResponse × Database} (h : redriveDelivery p deliveryId now updatedAt db = .ok x) :
    ∃ r, db.deliveries.get? deliveryId = some r ∧ r.status = .deadLettered ∧
      x.2 = { db with
        deliveries := db.deliveries.modifyAt deliveryId
          (DeliveryRow.redriven r.leasedUntil.isSome now updatedAt) } := by
  obtain ⟨r, hr, h⟩ := bind_eq_ok_iff.1 h
  split at h
  · cases h
  · next hdead =>
    exact ⟨r, (getOr404_eq_ok_iff.1 hr).1, not_not.1 hdead, by rw [← pure_eq_ok_iff.1 h]⟩

/-- **What a request does.** -/
theorem moves_handle {call : Call D.maxEventPayloadBytes} {y : Answer × Database}
    (hunused : call.Unused p db) (h : handle D p call db = .ok y) : Moves call db y.2 := by
  cases call with
  | getMe =>
    simp only [handle] at h
    rw [reading_inv h]
    exact .same rfl rfl
  | listEndpoints | getEndpoint | listEvents | getEvent | listDeliveries | getDelivery
    | listDeliveryAttempts | getMetricsSummary =>
    simp only [handle] at h
    obtain ⟨x, hx, rfl⟩ := map_eq_ok_iff.1 h
    simp only [reading_inv hx]
    exact .same rfl rfl
  | createEndpoint body fresh =>
    simp only [handle] at h
    obtain ⟨x, hx, rfl⟩ := map_eq_ok_iff.1 h
    obtain rfl := createEndpoint_inv hx
    exact .same rfl rfl
  | updateEndpoint endpointId body now =>
    simp only [handle] at h
    obtain ⟨x, hx, rfl⟩ := map_eq_ok_iff.1 h
    obtain ⟨row, -, heq⟩ := updateEndpoint_inv hx
    simp only [heq]
    exact .same rfl rfl
  | deleteEndpoint endpointId =>
    simp only [handle] at h
    obtain ⟨x, hx, rfl⟩ := map_eq_ok_iff.1 h
    obtain ⟨-, -, hx⟩ := bind_eq_ok_iff.1 hx
    rw [← pure_eq_ok_iff.1 hx]
    exact .deleted endpointId rfl rfl rfl
  | rotateEndpointSecret endpointId secret now =>
    simp only [handle] at h
    obtain ⟨x, hx, rfl⟩ := map_eq_ok_iff.1 h
    obtain rfl := rotateEndpointSecret_inv hx
    exact .same rfl rfl
  | publishEvent body idempotencyKey draws =>
    simp only [handle] at h
    obtain ⟨x, hx, rfl⟩ := map_eq_ok_iff.1 h
    rcases ingestEvent_inv hx with ⟨key, record, -, rfl⟩ | ⟨event, records, -, -, rfl⟩
    · exact .same rfl rfl
    · refine .created _ ⟨body, idempotencyKey, draws, rfl⟩ hunused.2 (fun e he => ?_) rfl rfl
      obtain ⟨endpointId, -, rfl⟩ := List.mem_map.1 he
      exact ⟨rfl, rfl⟩
  | redriveDelivery deliveryId now updatedAt =>
    simp only [handle] at h
    obtain ⟨x, hx, rfl⟩ := map_eq_ok_iff.1 h
    obtain ⟨r, hr, hdead, heq⟩ := redriveDelivery_inv hx
    refine .redriven deliveryId r r.leasedUntil.isSome now updatedAt rfl hr hdead ?_ ?_
    · simp only [heq]
    · simp only [heq]

/-- **No route touches API keys**, or an event that is there, and only `publish_event` touches
records. -/
theorem kept_handle {call : Call D.maxEventPayloadBytes} {y : Answer × Database}
    (h : handle D p call db = .ok y) : y.2.apiKeys = db.apiKeys ∧
      (∀ k event, db.events.get? k = some event → y.2.events.get? k = some event) ∧
      ((∀ body key draws, call ≠ .publishEvent body key draws) → y.2.records = db.records) := by
  have hendpoints : ∀ {db' : Database}, (∃ endpoints, db' = { db with endpoints }) →
      db'.apiKeys = db.apiKeys ∧
      (∀ k event, db.events.get? k = some event → db'.events.get? k = some event) ∧
      ((∀ body key draws, call ≠ .publishEvent body key draws) → db'.records = db.records) := by
    rintro _ ⟨endpoints, rfl⟩
    exact ⟨rfl, fun _ _ h => h, fun _ => rfl⟩
  cases call with
  | getMe =>
    simp only [handle] at h
    rw [reading_inv h]
    exact ⟨rfl, fun _ _ h => h, fun _ => rfl⟩
  | listEndpoints | getEndpoint | listEvents | getEvent | listDeliveries | getDelivery
    | listDeliveryAttempts | getMetricsSummary =>
    obtain ⟨x, hx, rfl⟩ := map_eq_ok_iff.1 h
    rw [reading_inv hx]
    exact ⟨rfl, fun _ _ h => h, fun _ => rfl⟩
  | createEndpoint body fresh =>
    obtain ⟨x, hx, rfl⟩ := map_eq_ok_iff.1 h
    obtain rfl := createEndpoint_inv hx
    exact hendpoints ⟨_, rfl⟩
  | updateEndpoint endpointId body now =>
    obtain ⟨x, hx, rfl⟩ := map_eq_ok_iff.1 h
    obtain ⟨row, -, heq⟩ := updateEndpoint_inv hx
    exact hendpoints ⟨_, heq⟩
  | deleteEndpoint endpointId =>
    obtain ⟨x, hx, rfl⟩ := map_eq_ok_iff.1 h
    obtain ⟨-, -, hx⟩ := bind_eq_ok_iff.1 hx
    obtain rfl := pure_eq_ok_iff.1 hx
    exact ⟨rfl, fun _ _ h => h, fun _ => rfl⟩
  | rotateEndpointSecret endpointId secret now =>
    obtain ⟨x, hx, rfl⟩ := map_eq_ok_iff.1 h
    obtain rfl := rotateEndpointSecret_inv hx
    exact hendpoints ⟨_, rfl⟩
  | publishEvent body idempotencyKey draws =>
    obtain ⟨x, hx, rfl⟩ := map_eq_ok_iff.1 h
    rcases ingestEvent_inv hx with ⟨key, record, -, rfl⟩ | ⟨event, records, -, -, rfl⟩
    · exact ⟨rfl, fun _ _ h => h, fun hcall => absurd rfl (hcall body idempotencyKey draws)⟩
    · refine ⟨rfl, fun k event' hevent => ?_,
        fun hcall => absurd rfl (hcall body idempotencyKey draws)⟩
      rw [Rows.get?_insert]
      split
      · next hk => rw [← hk, hevent, Option.getD_some]
      · exact hevent
  | redriveDelivery deliveryId now updatedAt =>
    obtain ⟨x, hx, rfl⟩ := map_eq_ok_iff.1 h
    obtain ⟨r, -, -, heq⟩ := redriveDelivery_inv hx
    simp only [heq]
    exact ⟨trivial, fun _ _ h => h, fun _ => trivial⟩

/-! ## The transactions -/

/-- The endpoints, the deliveries and what belongs to them are as they were. -/
structure Untouched (db db' : Database) : Prop where
  endpoints : db'.endpoints = db.endpoints
  events : db'.events = db.events
  deliveries : db'.deliveries = db.deliveries
  attempts : db'.attempts = db.attempts
  records : db'.records = db.records

theorem Untouched.refl (db : Database) : Untouched db db := ⟨rfl, rfl, rfl, rfl, rfl⟩

theorem untouched_respond {x : Except ApiError (Answer × Database)}
    (h : ∀ y, x = .ok y → Untouched db y.2) : Untouched db (respond db x).2 := by
  cases x with
  | error e => exact .refl db
  | ok y => exact h y rfl

/-- **Which transactions** touch the deliveries. -/
theorem serve_cases (a : Action D.maxEventPayloadBytes) (db : Database) :
    Untouched db (serve D a db).2 ∨
    (∃ credentials now call p db₁ y, a = .request credentials now call ∧
      authenticate D.sha256 credentials now db = .ok (p, db₁) ∧
      handle D p call db₁ = .ok y ∧ serve D a db = (.ok y.1, y.2)) ∨
    (∃ project k leased now updatedAt r, a = .commitRedrive project k leased now updatedAt ∧
      db.deliveries.get? k = some r ∧ serve D a db =
        (.ok (.delivery (.ofRow (k, r.redriven leased now updatedAt))), { db with
          deliveries := db.deliveries.modifyAt k (DeliveryRow.redriven leased now updatedAt) })) ∨
    ∃ draws settled, a = .tick draws ∧ db.outcomes D.urls D.settings draws = .ok settled := by
  cases a with
  | request credentials now call =>
    cases hauth : authenticate D.sha256 credentials now db with
    | error e =>
      simp only [serve, hauth]
      exact .inl (.refl db)
    | ok x =>
      obtain ⟨project, db₁⟩ := x
      cases hroute : handle D project call db₁ with
      | error e =>
        obtain ⟨_, _, _, _, -, -, -, -, -, rfl⟩ := authenticate_eq_ok_iff.1 hauth
        simp only [serve, hauth, hroute, respond]
        exact .inl ⟨rfl, rfl, rfl, rfl, rfl⟩
      | ok y =>
        refine .inr (.inl ⟨credentials, now, call, project, db₁, y, rfl, hauth, hroute, ?_⟩)
        simp only [serve, hauth, hroute, respond]
  | createProject name id createdAt =>
    refine .inl (untouched_respond fun y hy => ?_)
    obtain ⟨x, hx, rfl⟩ := map_eq_ok_iff.1 hy
    rcases @createProject_cases name id createdAt with ⟨e, he⟩ | hcases
    · rw [he] at hx
      cases hx
    · rcases hcases db with ⟨-, hok⟩ | ⟨-, hok⟩ <;> rw [← Except.ok.inj (hok.symm.trans hx)]
      · exact ⟨rfl, rfl, rfl, rfl, rfl⟩
      · exact .refl db
  | createApiKey project name draws =>
    refine .inl (untouched_respond fun y hy => ?_)
    obtain ⟨x, hx, rfl⟩ := map_eq_ok_iff.1 hy
    simp only [createApiKey, bind_eq_ok_iff, pure_eq_ok_iff] at hx
    obtain ⟨-, -, -, -, -, -, rfl⟩ := hx
    exact ⟨rfl, rfl, rfl, rfl, rfl⟩
  | deleteApiKey project keyId now =>
    refine .inl (untouched_respond fun y hy => ?_)
    obtain ⟨x, hx, rfl⟩ := map_eq_ok_iff.1 hy
    obtain ⟨apiKey, -, hx⟩ := bind_eq_ok_iff.1 hx
    split at hx <;> rw [← pure_eq_ok_iff.1 hx] <;> exact ⟨rfl, rfl, rfl, rfl, rfl⟩
  | commitRedrive project k leased now updatedAt =>
    cases hr : db.deliveries.get? k with
    | none =>
      simp only [serve, commitRedrive, hr]
      exact .inl (.refl db)
    | some r =>
      refine .inr (.inr (.inl ⟨project, k, leased, now, updatedAt, r, rfl, hr, ?_⟩))
      simp only [serve, commitRedrive, hr]
      rfl
  | tick draws =>
    cases hout : db.outcomes D.urls D.settings draws with
    | error e =>
      simp only [serve, tick_of_error hout]
      exact .inl (.refl db)
    | ok settled => exact .inr (.inr (.inr ⟨draws, settled, rfl, hout⟩))

/-- **What a transaction does** to the deliveries and the attempts: nothing, or what a request does
after its authentication, or the commit of a redrive, or what a tick does that commits. -/
theorem moves_serve {a : Action D.maxEventPayloadBytes} (ha : Unused D a db) :
    ((serve D a db).2.deliveries = db.deliveries ∧ (serve D a db).2.attempts = db.attempts) ∨
    (∃ credentials now call answer, a = .request credentials now call ∧
      (serve D a db).1 = .ok answer ∧ Moves call db (serve D a db).2) ∨
    (∃ project k leased now updatedAt r, a = .commitRedrive project k leased now updatedAt ∧
      db.deliveries.get? k = some r ∧
      (serve D a db).2.deliveries =
        db.deliveries.modifyAt k (DeliveryRow.redriven leased now updatedAt) ∧
      (serve D a db).2.attempts = db.attempts) ∨
    ∃ draws settled, a = .tick draws ∧ db.outcomes D.urls D.settings draws = .ok settled := by
  rcases serve_cases a db with hsame |
    ⟨credentials, now, call, q, db₁, y, rfl, hauth, hroute, hserve⟩ |
    ⟨project, k, leased, now, updatedAt, r, rfl, hr, hserve⟩ | htick
  · exact .inl ⟨hsame.deliveries, hsame.attempts⟩
  · refine .inr (.inl ⟨credentials, now, call, y.1, rfl, by rw [hserve], ?_⟩)
    rw [hserve]
    have hmoves := moves_handle (ha q db₁ hauth) hroute
    obtain ⟨_, _, keyId, _, -, -, -, -, -, rfl⟩ := authenticate_eq_ok_iff.1 hauth
    cases hmoves with
    | same hd ht => exact .same hd ht
    | deleted endpointId hcall hd ht => exact .deleted endpointId hcall hd ht
    | created ds hcall hunused hnew hd ht => exact .created ds hcall hunused hnew hd ht
    | redriven k r leased now updatedAt hcall hr hdead hd ht =>
      exact .redriven k r leased now updatedAt hcall hr hdead hd ht
  · refine .inr (.inr (.inl ⟨project, k, leased, now, updatedAt, r, rfl, hr, ?_, ?_⟩)) <;>
      rw [hserve]
  · exact .inr (.inr (.inr htick))

end Hookit.Tenancy
