import Hookit.Tenancy.Store

/-!
# The routes in the store of one project

`Confined p ok route` says that a route for the project `p` answers and writes what it would in the
store of `p` alone, leaves the store of any other project as it is, and keeps `Integral`; `ok` says
that what it draws is in no use. Every route that depends on `get_current_project` is confined to
the project.
-/

namespace Hookit.Tenancy

open Foundations Seeding

variable {α : Type} {p : Uuid}

/-- The route answers from the rows of the project, and writes only these. -/
structure Confined (p : Uuid) (ok : Database → Prop)
    (route : Database → Except ApiError (α × Database)) : Prop where
  own {db : Database} (hdb : Integral db) (hok : ok db) :
    route (tenant db p) = (route db).map fun x => (x.1, tenant x.2 p)
  foreign {db db' : Database} {a : α} (hdb : Integral db) (hok : ok db)
    (h : route db = .ok (a, db')) {q : Uuid} (hq : q ≠ p) : tenant db' q = tenant db q
  integral {db db' : Database} {a : α} (hdb : Integral db) (hok : ok db)
    (h : route db = .ok (a, db')) : Integral db'

/-- **A route that reads and then writes**: what it reads is in the store of the project, and the
statement after it is one for the project. -/
theorem Confined.write {β : Type} {ok : Database → Prop}
    {route : Database → Except ApiError (α × Database)} (g : Database → Except ApiError β)
    (answer : β → α) (stmt : β → Database → Database)
    (hroute : ∀ db, route db = (g db).map fun x => (answer x, stmt x db))
    (hread : ∀ db, Integral db → ok db → g (tenant db p) = g db)
    (hstmt : ∀ db x, Integral db → ok db → g db = .ok x →
      tenant (stmt x db) p = stmt x (tenant db p) ∧
        (∀ q, q ≠ p → tenant (stmt x db) q = tenant db q) ∧ Integral (stmt x db)) :
    Confined p ok route := by
  refine ⟨fun {db} hdb hok => ?own, fun {db db' a} hdb hok h q hq => ?foreign,
    fun {db db' a} hdb hok h => ?integral⟩
  case own =>
    rw [hroute, hroute, hread db hdb hok]
    cases hx : g db with
    | error e => rfl
    | ok x =>
      have hown := (hstmt db x hdb hok hx).1
      simp only [Except.map, hown]
  case foreign =>
    rw [hroute] at h
    obtain ⟨x, hx, heq⟩ := map_eq_ok_iff.1 h
    obtain ⟨-, rfl⟩ := Prod.mk.inj heq
    exact (hstmt db x hdb hok hx).2.1 q hq
  case integral =>
    rw [hroute] at h
    obtain ⟨x, hx, heq⟩ := map_eq_ok_iff.1 h
    obtain ⟨-, rfl⟩ := Prod.mk.inj heq
    exact (hstmt db x hdb hok hx).2.2

/-- A read, as a route. -/
def reading (g : Database → Except ApiError α) (db : Database) : Except ApiError (α × Database) :=
  (g db).map fun a => (a, db)

/-- **A route that only reads.** -/
theorem Confined.readIf {ok : Database → Prop} {g : Database → Except ApiError α}
    (hread : ∀ db, Integral db → ok db → g (tenant db p) = g db) : Confined p ok (reading g) :=
  .write g id (fun _ db => db) (fun _ => rfl) hread fun _ _ hdb _ _ => ⟨rfl, fun _ _ => rfl, hdb⟩

theorem Confined.read {g : Database → Except ApiError α}
    (hread : ∀ db, Integral db → g (tenant db p) = g db) :
    Confined p (fun _ => True) (reading g) :=
  .readIf fun db hdb _ => hread db hdb

/-- A route may be confined under a weaker condition. -/
theorem Confined.mono {ok ok' : Database → Prop}
    {route : Database → Except ApiError (α × Database)} (h : Confined p ok route)
    (himp : ∀ db, ok' db → ok db) : Confined p ok' route :=
  ⟨fun hdb hok => h.own hdb (himp _ hok), fun hdb hok hr _ hq => h.foreign hdb (himp _ hok) hr hq,
    fun hdb hok hr => h.integral hdb (himp _ hok) hr⟩

/-- A part of a route is a route. -/
theorem Confined.map {β : Type} {ok : Database → Prop}
    {route : Database → Except ApiError (α × Database)} (h : Confined p ok route) (f : α → β) :
    Confined p ok fun db => (route db).map fun x => (f x.1, x.2) := by
  refine ⟨fun {db} hdb hok => ?own, fun {db db' b} hdb hok hb q hq => ?foreign,
    fun {db db' b} hdb hok hb => ?integral⟩
  case own =>
    rw [h.own hdb hok]
    cases route db <;> rfl
  case foreign =>
    obtain ⟨x, hx, heq⟩ := map_eq_ok_iff.1 hb
    obtain ⟨-, rfl⟩ := Prod.mk.inj heq
    exact h.foreign hdb hok hx hq
  case integral =>
    obtain ⟨x, hx, heq⟩ := map_eq_ok_iff.1 hb
    obtain ⟨-, rfl⟩ := Prod.mk.inj heq
    exact h.integral hdb hok hx

/-! ## Lookups -/

section Lookups

variable {db : Database}

theorem getOr404_eq_ok_iff {ρ : Type} {T : Rows Uuid ρ} {id : Uuid} {c : ρ → Bool} {r : ρ}
    {detail : String} : getOr404 T id c detail = .ok r ↔ T.get? id = some r ∧ c r = true := by
  rw [getOr404, orRaise_eq_ok_iff, Option.filter_eq_some_iff]

/-- A lookup under a condition that only rows of the project meet. -/
theorem getOr404_filter {ρ : Type} {T : Rows Uuid ρ} {id : Uuid} {c c' : ρ → Bool} {k : ρ → Bool}
    {detail : String} (h : ∀ r, T.get? id = some r → (k r && c' r) = c r) :
    getOr404 (T.filter fun _ r => k r) id c' detail = getOr404 T id c detail := by
  unfold getOr404
  rw [Rows.get?_filter, Option.filter_filter]
  congr 1
  cases hr : T.get? id with
  | none => rfl
  | some r => simp only [Option.filter_some, h r hr]

theorem getEndpointOr404_tenant (endpointId : Uuid) :
    getEndpointOr404 (tenant db p) endpointId p = getEndpointOr404 db endpointId p :=
  getOr404_filter fun _ _ => Bool.and_self _

theorem endpointOf_tenant (r : DeliveryRow) : (tenant db p).endpointOf p r = db.endpointOf p r := by
  rw [endpointOf_eq, endpointOf_eq]
  exact decide_eq_decide.2 (ownerOf_tenant r.endpointId)

theorem deliveryOf_tenant (k : Uuid) : (tenant db p).deliveryOf p k = db.deliveryOf p k := by
  rw [deliveryOf_eq, deliveryOf_eq]
  exact decide_eq_decide.2 (deliveryOwner_tenant k)

theorem getDeliveryOr404_tenant (deliveryId : Uuid) :
    getDeliveryOr404 (tenant db p) deliveryId p = getDeliveryOr404 db deliveryId p :=
  getOr404_filter fun r _ => by rw [endpointOf_tenant, endpointOf_eq, Bool.and_self]

theorem ownerOf_of_get? {endpointId : Uuid} {row : EndpointRow}
    (h : getEndpointOr404 db endpointId p = .ok row) : ownerOf db endpointId = some p := by
  obtain ⟨hrow, hproject⟩ := getOr404_eq_ok_iff.1 h
  rw [ownerOf, hrow, Option.map_some, of_decide_eq_true hproject]

theorem ownerOf_delivery {deliveryId : Uuid} {r : DeliveryRow}
    (h : getDeliveryOr404 db deliveryId p = .ok r) : deliveryOwner db deliveryId = some p := by
  obtain ⟨hr, howner⟩ := getOr404_eq_ok_iff.1 h
  rw [endpointOf_eq] at howner
  rw [deliveryOwner, hr]
  exact of_decide_eq_true howner

end Lookups

/-! ## Queries -/

section Queries

variable {db : Database}

/-- A query on the endpoints whose condition only those of the project meet. -/
theorem select_endpoints {c c' : Uuid → EndpointRow → Bool}
    (h : ∀ k r, (decide (r.projectId = p) && c' k r) = c k r) :
    (tenant db p).endpoints.select c' = db.endpoints.select c :=
  (Rows.select_filter _ _).trans (Rows.select_congr fun e _ => h e.1 e.2)

theorem select_events {c c' : Uuid → EventRow → Bool}
    (h : ∀ k r, (decide (r.projectId = p) && c' k r) = c k r) :
    (tenant db p).events.select c' = db.events.select c :=
  (Rows.select_filter _ _).trans (Rows.select_congr fun e _ => h e.1 e.2)

theorem select_deliveries {c c' : Uuid → DeliveryRow → Bool}
    (h : ∀ k r, db.deliveries.get? k = some r →
      (decide (ownerOf db r.endpointId = some p) && c' k r) = c k r) :
    (tenant db p).deliveries.select c' = db.deliveries.select c :=
  (Rows.select_filter _ _).trans
    (Rows.select_congr fun e he => h e.1 e.2 (Rows.get?_eq_some_iff.2 he))

theorem select_attempts {c c' : Uuid → AttemptRow → Bool}
    (h : ∀ k a, (decide (deliveryOwner db a.deliveryId = some p) && c' k a) = c k a) :
    (tenant db p).attempts.select c' = db.attempts.select c :=
  (Rows.select_filter _ _).trans (Rows.select_congr fun e _ => h e.1 e.2)

theorem projectDeliveries_tenant :
    (tenant db p).projectDeliveries p = db.projectDeliveries p :=
  select_deliveries fun _ r _ => by rw [endpointOf_tenant, endpointOf_eq, Bool.and_self]

theorem projectAttempts_tenant : (tenant db p).projectAttempts p = db.projectAttempts p :=
  select_attempts fun _ a => by rw [deliveryOf_tenant, deliveryOf_eq, Bool.and_self]

theorem deliveriesMatching_tenant (W : Clockwork) (hdb : Integral db) (q : DeliveryFilter) :
    deliveriesMatching W (tenant db p) p q = deliveriesMatching W db p q := by
  refine select_deliveries fun k r hr => ?_
  rw [endpointOf_tenant, endpointOf_eq]
  by_cases hown : ownerOf db r.endpointId = some p
  · obtain ⟨event, hevent, howner⟩ := (hdb.deliveries k r hr).owner
    have hproject : event.projectId = p := Option.some.inj (howner.symm.trans hown)
    have hget : (tenant db p).events.get? r.eventId = db.events.get? r.eventId := by
      rw [get?_events, hevent, Option.filter_some, if_pos (decide_eq_true hproject)]
    simp only [hget, hown, decide_true, Bool.true_and]
  · simp [hown]

theorem eventsMatching_tenant (W : Clockwork) (q : EventFilter) :
    eventsMatching W (tenant db p) p q = eventsMatching W db p q :=
  select_events fun _ r => by simp only [← Bool.and_assoc, Bool.and_self]

theorem endpointsMatching_tenant (status : Option EndpointStatus) :
    endpointsMatching (tenant db p) p status = endpointsMatching db p status :=
  select_endpoints fun _ r => by simp only [← Bool.and_assoc, Bool.and_self]

theorem activeEndpoints_tenant (eventType : PyStr) :
    activeEndpoints (tenant db p) p eventType = activeEndpoints db p eventType :=
  select_endpoints fun _ r => by simp only [← Bool.and_assoc, Bool.and_self]

/-- The deliveries of an event of the project are to its endpoints. -/
theorem deliveriesOf_tenant (hdb : Integral db) {eventId : Uuid} {event : EventRow}
    (hevent : db.events.get? eventId = some event) (hproject : event.projectId = p) :
    (tenant db p).deliveriesOf eventId = db.deliveriesOf eventId := by
  unfold Database.deliveriesOf
  congr 1
  refine select_deliveries fun k r hr => ?_
  by_cases hid : r.eventId = eventId
  · obtain ⟨event', hevent', howner⟩ := (hdb.deliveries k r hr).owner
    rw [hid, hevent] at hevent'
    obtain rfl := Option.some.inj hevent'
    simp [howner, hproject]
  · simp [hid]

/-- The attempts on a delivery of the project. -/
theorem attempts_tenant {deliveryId : Uuid} (hown : deliveryOwner db deliveryId = some p) :
    (tenant db p).attempts.select (fun _ a => a.deliveryId = deliveryId) =
      db.attempts.select fun _ a => a.deliveryId = deliveryId := by
  refine select_attempts fun _ a => ?_
  by_cases hid : a.deliveryId = deliveryId
  · simp [hid, hown]
  · simp [hid]

end Queries

/-! ## The routes that read -/

section Reads

variable (W : Clockwork) (limit : ℕ) (cursor : Option PyStr)

theorem confined_listEndpoints (status : Option EndpointStatus) :
    Confined p (fun _ => True) (reading fun db => listEndpoints W limit p status db cursor) :=
  .read fun db _ => by rw [listEndpoints, listEndpoints, endpointsMatching_tenant]

theorem confined_listDeliveries (q : DeliveryFilter) :
    Confined p (fun _ => True) (reading fun db => listDeliveries W limit p q db cursor) :=
  .read fun db hdb => by rw [listDeliveries, listDeliveries, deliveriesMatching_tenant W hdb]

/-- The items of a page are of the rows of the query. -/
theorem mem_rows_of_listPage {ρ : Type} {stamp : ρ → Aware} {rows : List (Uuid × ρ)}
    {page : Keyset.Page (Uuid × ρ) PyStr} {text : Option PyStr}
    (h : listPage W stamp limit cursor (do bindText text; return rows) = .ok page)
    {e : Uuid × ρ} (he : e ∈ page.items) : e ∈ rows := by
  obtain ⟨rows', hrows, hfetch⟩ := listPage_eq_ok_iff.1 h
  obtain rfl := eq_of_bindText hrows
  obtain ⟨key, -, rfl⟩ := Keyset.fetch_eq_some_iff.1 hfetch
  have he : e ∈ ((Keyset.below (entryKey stamp) rows' key).take (limit + 1)).take limit := he
  exact (Keyset.mem_below.1 (List.mem_of_mem_take (List.mem_of_mem_take he))).1

theorem confined_listEvents (q : EventFilter) :
    Confined p (fun _ => True) (reading fun db => listEvents W limit p q db cursor) := by
  refine .read fun db hdb => ?_
  have hitem : ∀ e ∈ eventsMatching W db p q,
      EventListItem.ofRow (tenant db p) e = EventListItem.ofRow db e := by
    intro e he
    obtain ⟨hmem, hmatch⟩ := Rows.mem_select.1 he
    simp only [Bool.and_eq_true, decide_eq_true_eq] at hmatch
    rw [EventListItem.ofRow, EventListItem.ofRow,
      deliveriesOf_tenant hdb (Rows.get?_eq_some_iff.2 hmem) hmatch.1.1]
  rw [listEvents, listEvents, eventsMatching_tenant]
  congr 1
  funext _
  cases hpage : listPage W EventRow.createdAt limit cursor (do
      bindText q.eventType
      return eventsMatching W db p q) with
  | error e => rfl
  | ok page =>
    have hitems : page.items.map (EventListItem.ofRow (tenant db p)) =
        page.items.map (EventListItem.ofRow db) :=
      List.map_congr_left fun e he => hitem e (mem_rows_of_listPage W limit cursor hpage he)
    simp only [Functor.map, Except.map, Keyset.Page.map, hitems]

theorem confined_getEndpoint (endpointId : Uuid) :
    Confined p (fun _ => True) (reading (getEndpoint p endpointId)) :=
  .read fun db _ => by rw [getEndpoint, getEndpoint, getEndpointOr404_tenant]

theorem confined_getDelivery (deliveryId : Uuid) :
    Confined p (fun _ => True) (reading (getDelivery p deliveryId)) :=
  .read fun db _ => by rw [getDelivery, getDelivery, getDeliveryOr404_tenant]

theorem confined_listDeliveryAttempts (deliveryId : Uuid) :
    Confined p (fun _ => True) (reading (listDeliveryAttempts p deliveryId)) := by
  refine .read fun db _ => ?_
  rw [listDeliveryAttempts, listDeliveryAttempts, getDeliveryOr404_tenant]
  cases h : getDeliveryOr404 db deliveryId p with
  | error e => rfl
  | ok r =>
    rw [attempts_tenant (ownerOf_delivery h)]

theorem confined_getEvent (eventId : Uuid) :
    Confined p (fun _ => True) (reading (getEvent p eventId)) := by
  refine .read fun db hdb => ?_
  have hget : getOr404 (tenant db p).events eventId (fun row => row.projectId = p)
      "Event not found" = getOr404 db.events eventId (fun row => row.projectId = p)
        "Event not found" := getOr404_filter fun _ _ => Bool.and_self _
  rw [getEvent, getEvent, hget]
  cases h : getOr404 db.events eventId (fun row => row.projectId = p) "Event not found" with
  | error e => rfl
  | ok event =>
    obtain ⟨hevent, hproject⟩ := getOr404_eq_ok_iff.1 h
    rw [ok_bind, ok_bind, deliveriesOf_tenant hdb hevent (of_decide_eq_true hproject)]

theorem confined_deliverySummary (now : Time) :
    Confined p (fun _ => True) (reading fun db => .ok (deliverySummary db p now)) :=
  .read fun db _ => by
    simp only [deliverySummary, statusTotals, Database.statusCount, latencyMs,
      projectDeliveries_tenant, projectAttempts_tenant]

end Reads

/-! ## The routes that write -/

section Writes

variable (lib : UrlLib)

theorem confined_createEndpoint (body : EndpointCreate) (fresh : Fresh) :
    Confined p (fun db => db.projects.get? p ≠ none ∧ db.endpoints.get? fresh.id = none)
      (createEndpoint lib p body fresh) := by
  refine .write (fun _ => do checkUrl lib body.url; raises (checkEndpoint (body.row p fresh)))
    (fun _ => (.ofRow (fresh.id, body.row p fresh), fresh.secret))
    (fun _ db => addEndpoint db fresh.id (body.row p fresh)) (fun db => ?_) (fun _ _ _ => rfl)
    fun db _ hdb ⟨hp, hfresh⟩ _ => ⟨?_, fun q hq => ?_, hdb.addEndpoint hfresh hp⟩
  · unfold createEndpoint
    cases checkUrl lib body.url with
    | error e => rfl
    | ok _ =>
      simp only [ok_bind]
      cases raises (checkEndpoint (body.row p fresh)) <;> rfl
  · rw [tenant_addEndpoint hdb hfresh]
    exact if_pos rfl
  · rw [tenant_addEndpoint hdb hfresh]
    exact if_neg (Ne.symm hq)

theorem EndpointUpdate.projectId_committed (body : EndpointUpdate) (now : Time)
    (row : EndpointRow) : (body.committed now row).projectId = row.projectId := by
  simp only [EndpointUpdate.committed]
  split <;> rfl

/-- An update of an endpoint of the project, by its id. -/
theorem setEndpoint_spec {db : Database} {endpointId : Uuid} {row : EndpointRow}
    {f : EndpointRow → EndpointRow} (hdb : Integral db)
    (h : getEndpointOr404 db endpointId p = .ok row) (hf : (f row).projectId = row.projectId) :
    tenant (setEndpoint db endpointId f) p = setEndpoint (tenant db p) endpointId f ∧
      (∀ q, q ≠ p → tenant (setEndpoint db endpointId f) q = tenant db q) ∧
        Integral (setEndpoint db endpointId f) := by
  have hrow := (getOr404_eq_ok_iff.1 h).1
  have hkeep : ∀ r, db.endpoints.get? endpointId = some r → (f r).projectId = r.projectId := by
    intro r hr
    rwa [Option.some.inj (hr.symm.trans hrow)]
  refine ⟨tenant_setEndpoint hkeep p, fun q hq => ?_, hdb.setEndpoint hkeep⟩
  rw [tenant_setEndpoint hkeep]
  refine setEndpoint_tenant fun hown => hq ?_
  exact Option.some.inj (hown.symm.trans (ownerOf_of_get? h))

theorem confined_updateEndpoint (endpointId : Uuid) (body : EndpointUpdate) (now : Time) :
    Confined p (fun _ => True) (updateEndpoint lib p endpointId body now) := by
  refine .write (fun db => do
      let row ← getEndpointOr404 db endpointId p
      body.url.elim (.ok ()) (checkUrl lib)
      raises body.check
      return row)
    (fun row => .ofRow (endpointId, body.committed now row))
    (fun row db => setEndpoint db endpointId fun _ => body.committed now row) (fun db => ?_)
    (fun db _ _ => by rw [getEndpointOr404_tenant]) fun db row hdb _ h => ?_
  · unfold updateEndpoint
    cases getEndpointOr404 db endpointId p with
    | error e => rfl
    | ok row =>
      simp only [ok_bind]
      cases body.url with
      | none => cases raises body.check <;> rfl
      | some url =>
        simp only [Option.elim_some]
        cases checkUrl lib url with
        | error e => rfl
        | ok _ => cases raises body.check <;> rfl
  · simp only [bind_eq_ok_iff, pure_eq_ok_iff] at h
    obtain ⟨row', hrow, -, -, -, -, rfl⟩ := h
    exact setEndpoint_spec hdb hrow (EndpointUpdate.projectId_committed body now row')

theorem confined_deleteEndpoint (endpointId : Uuid) :
    Confined p (fun _ => True) (deleteEndpoint p endpointId) := by
  refine .write (fun db => getEndpointOr404 db endpointId p) (fun _ => ())
    (fun _ db => db.dropEndpoint endpointId) (fun db => ?_)
    (fun db _ _ => getEndpointOr404_tenant endpointId) fun db row hdb _ h =>
      ⟨tenant_dropEndpoint p, fun q hq => ?_, hdb.dropEndpoint⟩
  · unfold deleteEndpoint
    cases getEndpointOr404 db endpointId p <;> rfl
  · rw [tenant_dropEndpoint]
    exact dropEndpoint_tenant fun hown => hq (Option.some.inj (hown.symm.trans (ownerOf_of_get? h)))

theorem confined_rotateEndpointSecret (endpointId : Uuid) (secret : Secret) (now : Time) :
    Confined p (fun _ => True) (rotateEndpointSecret p endpointId secret now) := by
  refine .write (fun db => getEndpointOr404 db endpointId p) (fun _ => secret)
    (fun _ db => setEndpoint db endpointId fun row => { row with secret, updatedAt := now })
    (fun db => ?_) (fun db _ _ => getEndpointOr404_tenant endpointId)
    fun db row hdb _ h => setEndpoint_spec hdb h rfl
  unfold rotateEndpointSecret
  cases getEndpointOr404 db endpointId p <;> rfl

/-- What the `UPDATE` of a redrive makes of the rows. -/
def redriveAt (deliveryId : Uuid) (leased : Bool) (now updatedAt : Time) (k : Uuid)
    (r : DeliveryRow) : DeliveryRow :=
  if k = deliveryId then r.redriven leased now updatedAt else r

/-- The row of a delivery of the project is written as redriven. -/
theorem redriven_spec {deliveryId : Uuid} {leased : Bool} {now updatedAt : Time} {db : Database}
    (hdb : Integral db) (howner : deliveryOwner db deliveryId = some p) :
    tenant (workOn db (redriveAt deliveryId leased now updatedAt) []) p =
        workOn (tenant db p) (redriveAt deliveryId leased now updatedAt) [] ∧
      (∀ q, q ≠ p →
        tenant (workOn db (redriveAt deliveryId leased now updatedAt) []) q = tenant db q) ∧
      Integral (workOn db (redriveAt deliveryId leased now updatedAt) []) := by
  have hkeep : KeepsKeys (redriveAt deliveryId leased now updatedAt) := by
    intro k r
    unfold redriveAt
    split <;> exact ⟨rfl, rfl⟩
  refine ⟨tenant_workOn hkeep Rows.unused_nil p, fun q hq => ?_,
    hdb.workOn hkeep Rows.unused_nil (by simp)⟩
  rw [tenant_workOn hkeep Rows.unused_nil]
  refine workOn_eq_self fun k r hr => if_neg ?_
  rintro rfl
  rw [get?_deliveries] at hr
  obtain ⟨hr, hq'⟩ := Option.filter_eq_some_iff.1 hr
  rw [deliveryOwner, hr] at howner
  exact hq (Option.some.inj ((of_decide_eq_true hq').symm.trans howner))

theorem confined_redriveDelivery (deliveryId : Uuid) (now updatedAt : Time) :
    Confined p (fun _ => True) (redriveDelivery p deliveryId now updatedAt) := by
  refine .write (fun db => do
      let delivery ← getDeliveryOr404 db deliveryId p
      if delivery.status ≠ .deadLettered then
        .error (.http 409 (PyStr.ofString "Delivery is not dead-lettered"))
      else return delivery)
    (fun delivery => .ofRow (deliveryId,
      delivery.redriven delivery.leasedUntil.isSome now updatedAt))
    (fun delivery db =>
      workOn db (redriveAt deliveryId delivery.leasedUntil.isSome now updatedAt) [])
    (fun db => ?_) (fun db _ _ => by rw [getDeliveryOr404_tenant]) fun db delivery hdb _ h => ?_
  · unfold redriveDelivery
    cases getDeliveryOr404 db deliveryId p with
    | error e => rfl
    | ok delivery =>
      simp only [ok_bind]
      split <;> rfl
  · obtain ⟨delivery', hget, -⟩ := bind_eq_ok_iff.1 h
    exact redriven_spec hdb (ownerOf_delivery hget)

/-- With nothing between them, the route is the check and then the commit. -/
theorem redriveDelivery_eq (deliveryId : Uuid) (now updatedAt : Time) (db : Database) :
    redriveDelivery p deliveryId now updatedAt db = (do
      let delivery ← getDeliveryOr404 db deliveryId p
      if delivery.status ≠ .deadLettered then
        .error (.http 409 (PyStr.ofString "Delivery is not dead-lettered"))
      else commitRedrive deliveryId delivery.leasedUntil.isSome now updatedAt db) := by
  unfold redriveDelivery
  cases hget : getDeliveryOr404 db deliveryId p with
  | error e => rfl
  | ok delivery =>
    simp only [ok_bind, commitRedrive, (getOr404_eq_ok_iff.1 hget).1]
    rfl

/-- The commit alone, if the delivery is the project's where it is still there. -/
theorem confined_commitRedrive (deliveryId : Uuid) (leased : Bool) (now updatedAt : Time) :
    Confined p (fun db => ∀ r, db.deliveries.get? deliveryId = some r →
      deliveryOwner db deliveryId = some p) (commitRedrive deliveryId leased now updatedAt) := by
  refine .write (fun db => orRaise (.raised .staleDataError) (db.deliveries.get? deliveryId))
    (fun delivery => .ofRow (deliveryId, delivery.redriven leased now updatedAt))
    (fun _ db => workOn db (redriveAt deliveryId leased now updatedAt) [])
    (fun db => ?_) (fun db _ howner => ?_) fun db delivery hdb howner h => ?_
  · unfold commitRedrive
    cases db.deliveries.get? deliveryId <;> rfl
  · rw [get?_deliveries]
    cases hget : db.deliveries.get? deliveryId with
    | none => rfl
    | some delivery =>
      have hown := howner delivery hget
      rw [deliveryOwner, hget, Option.bind_some] at hown
      rw [Option.filter_some, if_pos (decide_eq_true hown)]
  · exact redriven_spec hdb (howner delivery (orRaise_eq_ok_iff.1 h))

/-! ## `ingest_event` -/

/-- The ids of the event and of its deliveries are in no use. -/
structure IngestUnused (db : Database) (p : Uuid) (eventType : PyStr) (draws : IngestDraws) :
    Prop where
  project : db.projects.get? p ≠ none
  event : db.events.get? draws.eventId = none
  deliveries : db.deliveries.Unused
    (draws.deliveries ((activeEndpoints db p eventType).map Prod.fst))

/-- The statements of `insert_event`. -/
def insertStatements (project : Uuid) (eventType : PyStr) (payload : Json.StoredObject)
    (idempotencyKey : Option PyStr) (requestHash : PyStr) (draws : IngestDraws)
    (targets : List Uuid) (db : Database) : Database :=
  addEvent db draws.eventId ⟨project, eventType, payload, idempotencyKey, draws.createdAt⟩
    (draws.deliveries targets)
    (idempotencyKey.map fun key => (key, ⟨draws.eventId, targets.length, requestHash⟩))

variable {eventType requestHash : PyStr} {idempotencyKey : Option PyStr} {draws : IngestDraws}
  {payload : Json.StoredObject} {db : Database}

/-- What is inserted is new, if there is no record of the key. -/
theorem newEvent_of_unused (h : IngestUnused db p eventType draws)
    (hrecord : ∀ key, idempotencyKey = some key → db.records.get? (p, key) = none) :
    NewEvent db draws.eventId ⟨p, eventType, payload, idempotencyKey, draws.createdAt⟩
      (draws.deliveries ((activeEndpoints db p eventType).map Prod.fst))
      (idempotencyKey.map fun key =>
        (key, ⟨draws.eventId, ((activeEndpoints db p eventType).map Prod.fst).length,
          requestHash⟩)) := by
  refine ⟨h.event, h.deliveries, fun e he => ?deliveries, fun r hr => ?record, h.project⟩
  case deliveries =>
    obtain ⟨endpointId, hmem, rfl⟩ := List.mem_map.1 he
    obtain ⟨target, htarget, rfl⟩ := List.mem_map.1 hmem
    obtain ⟨hentry, hactive⟩ := Rows.mem_select.1 htarget
    simp only [Bool.and_eq_true, decide_eq_true_eq] at hactive
    refine ⟨rfl, ?_⟩
    have hget := Rows.get?_eq_some_iff.2 hentry
    exact (congrArg (Option.map EndpointRow.projectId) hget).trans (congrArg some hactive.1.1)
  case record =>
    obtain ⟨key, hkey, rfl⟩ := Option.map_eq_some_iff.1 hr
    exact ⟨hrecord key hkey, rfl, hkey⟩

theorem insertEvent_eq (payload : JsonObject) : insertEvent p eventType payload idempotencyKey
    requestHash draws db = (do
      raises (Handles.checkColumn 255 eventType)
      raises ((idempotencyKey.map (Handles.checkColumn 255)).getD (.ok ()))
      let stored ← orRaise (.raised .dataError) (Json.storeObject? payload)
      let targets := (activeEndpoints db p eventType).map Prod.fst
      return ((draws.eventId, targets.length), insertStatements p eventType stored idempotencyKey
        requestHash draws targets db)) := by
  cases idempotencyKey <;> rfl

/-- **The inserts of `ingest_event`** where there is no record of the key. -/
theorem insertEvent_spec (hdb : Integral db) (h : IngestUnused db p eventType draws)
    (hrecord : ∀ key, idempotencyKey = some key → db.records.get? (p, key) = none)
    (payload : JsonObject) :
    (insertEvent p eventType payload idempotencyKey requestHash draws (tenant db p) =
      (insertEvent p eventType payload idempotencyKey requestHash draws db).map
        fun x => (x.1, tenant x.2 p)) ∧
    ∀ a db', insertEvent p eventType payload idempotencyKey requestHash draws db = .ok (a, db') →
      (∀ q, q ≠ p → tenant db' q = tenant db q) ∧ Integral db' := by
  rw [insertEvent_eq, insertEvent_eq, activeEndpoints_tenant]
  constructor
  · cases raises (Handles.checkColumn 255 eventType) with
    | error e => rfl
    | ok _ =>
      simp only [ok_bind]
      cases raises ((idempotencyKey.map (Handles.checkColumn 255)).getD (.ok ())) with
      | error e => rfl
      | ok _ =>
        simp only [ok_bind]
        cases orRaise (ApiError.raised .dataError) (Json.storeObject? payload) with
        | error e => rfl
        | ok stored =>
          have hnew := @newEvent_of_unused p eventType requestHash idempotencyKey draws stored db h
            hrecord
          simp only [ok_bind, pure, Except.pure, Except.map, insertStatements]
          rw [tenant_addEvent hdb hnew]
          simp only [if_true]
  · intro a db' hx
    simp only [bind_eq_ok_iff, pure_eq_ok_iff] at hx
    obtain ⟨-, -, -, -, stored, -, heq⟩ := hx
    obtain ⟨-, rfl⟩ := Prod.mk.inj heq
    have hnew := @newEvent_of_unused p eventType requestHash idempotencyKey draws stored db h
      hrecord
    refine ⟨fun q hq => ?_, hdb.addEvent hnew⟩
    rw [insertStatements, tenant_addEvent hdb hnew]
    exact if_neg (Ne.symm hq)

theorem confined_publishEvent (sha256 : Bytes → PyStr) {maxBytes : ℕ} (body : EventCreate maxBytes)
    (idempotencyKey : Option PyStr) (draws : IngestDraws) :
    Confined p (fun db => IngestUnused db p body.type draws)
      (publishEvent sha256 p body idempotencyKey draws) := by
  have hlookup : ∀ db : Database,
      (idempotencyKey.bind fun key => (tenant db p).records.get? (p, key)) =
        idempotencyKey.bind fun key => db.records.get? (p, key) := by
    intro db
    cases idempotencyKey with
    | none => rfl
    | some key =>
      rw [Option.bind_some, Option.bind_some, get?_records]
      cases db.records.get? (p, key) <;> simp
  have hrecord : ∀ db : Database,
      (idempotencyKey.bind fun key => db.records.get? (p, key)) = none →
        ∀ key, idempotencyKey = some key → db.records.get? (p, key) = none := by
    rintro db hnone key rfl
    exact hnone
  have hcases : ∀ {db db' : Database} {a : Uuid × ℕ},
      publishEvent sha256 p body idempotencyKey draws db = .ok (a, db') → db' = db ∨
        (idempotencyKey.bind fun key => db.records.get? (p, key)) = none ∧ ∃ requestHash,
          insertEvent p body.type body.payload idempotencyKey requestHash draws db =
            .ok (a, db') := by
    intro db db' a h
    unfold publishEvent ingestEvent at h
    simp only [bind_eq_ok_iff] at h
    obtain ⟨requestHash, -, -, -, h⟩ := h
    split at h
    · split at h
      · cases h
      · exact .inl (Prod.mk.inj (Except.ok.inj h)).2.symm
    · next hnone => exact .inr ⟨hnone, requestHash, h⟩
  refine ⟨fun {db} hdb hok => ?own, fun {db db' a} hdb hok h q hq => ?foreign,
    fun {db db' a} hdb hok h => ?integral⟩
  case own =>
    unfold publishEvent ingestEvent
    rw [hlookup]
    cases orRaise (ApiError.raised .valueError)
        (Ingestion.bodyHash sha256 body.type body.payload) with
    | error e => rfl
    | ok requestHash =>
      simp only [ok_bind]
      cases bindText idempotencyKey with
      | error e => rfl
      | ok _ =>
        simp only [ok_bind]
        cases hexisting : idempotencyKey.bind fun key => db.records.get? (p, key) with
        | some existing =>
          simp only
          split <;> rfl
        | none => exact (insertEvent_spec hdb hok (hrecord db hexisting) body.payload).1
  case foreign =>
    rcases hcases h with rfl | ⟨hnone, requestHash, h⟩
    · rfl
    · exact ((insertEvent_spec hdb hok (hrecord db hnone) body.payload).2 a db' h).1 q hq
  case integral =>
    rcases hcases h with rfl | ⟨hnone, requestHash, h⟩
    · exact hdb
    · exact ((insertEvent_spec hdb hok (hrecord db hnone) body.payload).2 a db' h).2

end Writes

end Hookit.Tenancy
