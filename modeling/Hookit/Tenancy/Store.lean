import Hookit.Routers.Api

/-!
# The rows of one project

`tenant db p` is the store that project `p` would have alone: the project, its keys, endpoints,
events and records, the deliveries to its endpoints and their attempts. `Integral` is what the
foreign keys, the unique index of the key hashes and the fan-out keep: in particular, a delivery's
event and endpoint belong to one project.

The statements of the routes are looked at one by one: what each does to the store of the project
that it is for (`own`), to that of another one (`foreign`), and that it keeps `Integral`.
-/

namespace Hookit.Tenancy

open Foundations

attribute [ext] Database

variable {db db' : Database} {p q : Uuid}

/-- The project of an endpoint. -/
def ownerOf (db : Database) (endpointId : Uuid) : Option Uuid :=
  (db.endpoints.get? endpointId).map EndpointRow.projectId

/-- The project of the endpoint that a delivery is to. -/
def deliveryOwner (db : Database) (deliveryId : Uuid) : Option Uuid :=
  (db.deliveries.get? deliveryId).bind fun r => ownerOf db r.endpointId

theorem endpointOf_eq (db : Database) (p : Uuid) (r : DeliveryRow) :
    db.endpointOf p r = decide (ownerOf db r.endpointId = some p) := by
  unfold Database.endpointOf ownerOf
  cases db.endpoints.get? r.endpointId <;> simp

theorem deliveryOf_eq (db : Database) (p deliveryId : Uuid) :
    db.deliveryOf p deliveryId = decide (deliveryOwner db deliveryId = some p) := by
  unfold Database.deliveryOf deliveryOwner
  cases db.deliveries.get? deliveryId <;> simp [endpointOf_eq]

/-- The store of a project. What the receivers of the showcase have stored is not part of it. -/
def tenant (db : Database) (p : Uuid) : Database :=
  { Database.empty with
    projects := db.projects.filter fun k _ => k = p
    apiKeys := db.apiKeys.filter fun _ r => r.projectId = p
    endpoints := db.endpoints.filter fun _ r => r.projectId = p
    events := db.events.filter fun _ r => r.projectId = p
    deliveries := db.deliveries.filter fun _ r => ownerOf db r.endpointId = some p
    attempts := db.attempts.filter fun _ a => deliveryOwner db a.deliveryId = some p
    records := db.records.filter fun k _ => k.1 = p }

/-- The event and the endpoint of a delivery, which belong to one project. -/
def Delivers (db : Database) (r : DeliveryRow) : Prop :=
  ∃ endpoint event, db.endpoints.get? r.endpointId = some endpoint ∧
    db.events.get? r.eventId = some event ∧ endpoint.projectId = event.projectId

/-- What the rows of a store have in common. -/
structure Integral (db : Database) : Prop where
  apiKeys : ∀ k r, db.apiKeys.get? k = some r → db.projects.get? r.projectId ≠ none
  keyHash : ∀ k k' r r', db.apiKeys.get? k = some r → db.apiKeys.get? k' = some r' →
    r.keyHash = r'.keyHash → k = k'
  endpoints : ∀ k r, db.endpoints.get? k = some r → db.projects.get? r.projectId ≠ none
  events : ∀ k r, db.events.get? k = some r → db.projects.get? r.projectId ≠ none
  deliveries : ∀ k r, db.deliveries.get? k = some r → Delivers db r
  attempts : ∀ k a, db.attempts.get? k = some a → db.deliveries.get? a.deliveryId ≠ none
  records : ∀ k r, db.records.get? k = some r → ∃ event, db.events.get? r.eventId = some event ∧
    event.projectId = k.1 ∧ event.idempotencyKey = some k.2

theorem integral_empty : Integral .empty := by
  constructor <;> intros <;> simp_all [Database.empty]

/-! ## Lookups in the store of a project -/

section Lookup

theorem get?_endpoints (k : Uuid) : (tenant db p).endpoints.get? k =
    (db.endpoints.get? k).filter fun r => r.projectId = p := Rows.get?_filter _

theorem get?_events (k : Uuid) : (tenant db p).events.get? k =
    (db.events.get? k).filter fun r => r.projectId = p := Rows.get?_filter _

theorem get?_deliveries (k : Uuid) : (tenant db p).deliveries.get? k =
    (db.deliveries.get? k).filter fun r => ownerOf db r.endpointId = some p := Rows.get?_filter _

theorem get?_records (k : Uuid × PyStr) : (tenant db p).records.get? k =
    (db.records.get? k).filter fun _ => k.1 = p := Rows.get?_filter _

theorem ownerOf_tenant (k : Uuid) :
    ownerOf (tenant db p) k = some p ↔ ownerOf db k = some p := by
  unfold ownerOf
  rw [get?_endpoints]
  cases db.endpoints.get? k with
  | none => rfl
  | some r => by_cases h : r.projectId = p <;> simp [h]

theorem deliveryOwner_tenant (k : Uuid) :
    deliveryOwner (tenant db p) k = some p ↔ deliveryOwner db k = some p := by
  unfold deliveryOwner
  rw [get?_deliveries]
  cases db.deliveries.get? k with
  | none => rfl
  | some r =>
    by_cases h : ownerOf db r.endpointId = some p
    · simp [Option.filter_some, h, (ownerOf_tenant r.endpointId).2 h]
    · simp [Option.filter_some, h]

/-- What is found in the store of a project is there. -/
theorem Delivers.owner {r : DeliveryRow} (h : Delivers db r) :
    ∃ event, db.events.get? r.eventId = some event ∧
      ownerOf db r.endpointId = some event.projectId := by
  obtain ⟨endpoint, event, hendpoint, hevent, heq⟩ := h
  exact ⟨event, hevent, by rw [ownerOf, hendpoint, Option.map_some, heq]⟩

end Lookup

/-! ## Statements on endpoints -/

section Endpoints

variable {endpointId : Uuid}

/-- The tables that depend on the endpoints, after a statement that keeps the owners. -/
theorem tenant_of_owner (db db' : Database)
    (howner : ∀ d r, db.deliveries.get? d = some r →
      (ownerOf db' r.endpointId = some q ↔ ownerOf db r.endpointId = some q))
    (hdeliveries : db'.deliveries = db.deliveries) (hattempts : db'.attempts = db.attempts) :
    (tenant db' q).deliveries = (tenant db q).deliveries ∧
      (tenant db' q).attempts = (tenant db q).attempts := by
  have hdelivery : ∀ d, deliveryOwner db' d = some q ↔ deliveryOwner db d = some q := by
    intro d
    unfold deliveryOwner
    rw [hdeliveries]
    cases hd : db.deliveries.get? d with
    | none => rfl
    | some r => exact howner d r hd
  simp only [tenant, hdeliveries, hattempts]
  exact ⟨Rows.filter_congr fun e he =>
      decide_eq_decide.2 (howner e.1 e.2 (Rows.get?_eq_some_iff.2 he)),
    Rows.filter_congr fun e _ => decide_eq_decide.2 (hdelivery _)⟩

/-- No delivery is to an endpoint that is not there. -/
theorem Integral.endpointId_ne (hdb : Integral db) (hfresh : db.endpoints.get? endpointId = none)
    {d : Uuid} {r : DeliveryRow} (hr : db.deliveries.get? d = some r) :
    r.endpointId ≠ endpointId := by
  rintro rfl
  obtain ⟨endpoint, -, hendpoint, -⟩ := hdb.deliveries d r hr
  rw [hfresh] at hendpoint
  cases hendpoint

section Insert

variable {row : EndpointRow}

/-- Insert an endpoint. -/
def addEndpoint (db : Database) (endpointId : Uuid) (row : EndpointRow) : Database :=
  { db with endpoints := db.endpoints.insert endpointId row }

theorem ownerOf_addEndpoint (hfresh : db.endpoints.get? endpointId = none) (k : Uuid) :
    ownerOf (addEndpoint db endpointId row) k =
      if k = endpointId then some row.projectId else ownerOf db k := by
  unfold ownerOf addEndpoint
  rw [Rows.get?_insert]
  split
  · next h => simp [hfresh]
  · rfl

theorem tenant_addEndpoint (hdb : Integral db) (hfresh : db.endpoints.get? endpointId = none)
    (q : Uuid) : tenant (addEndpoint db endpointId row) q =
      if row.projectId = q then addEndpoint (tenant db q) endpointId row else tenant db q := by
  have hdepends := @tenant_of_owner q db (addEndpoint db endpointId row)
    (fun d r hr => by rw [ownerOf_addEndpoint hfresh, if_neg (hdb.endpointId_ne hfresh hr)])
    rfl rfl
  have hendpoints : (tenant (addEndpoint db endpointId row) q).endpoints =
      if row.projectId = q then (tenant db q).endpoints.insert endpointId row
      else (tenant db q).endpoints := by
    change (db.endpoints.insert endpointId row).filter (fun _ r => r.projectId = q) = _
    rw [Rows.filter_insert hfresh]
    simp only [decide_eq_true_eq]
    rfl
  split
  · next h =>
    rw [if_pos h] at hendpoints
    exact Database.ext rfl rfl hendpoints rfl hdepends.1 hdepends.2 rfl rfl rfl rfl rfl rfl
  · next h =>
    rw [if_neg h] at hendpoints
    exact Database.ext rfl rfl hendpoints rfl hdepends.1 hdepends.2 rfl rfl rfl rfl rfl rfl

theorem Integral.addEndpoint (hdb : Integral db) (hfresh : db.endpoints.get? endpointId = none)
    (hproject : db.projects.get? row.projectId ≠ none) :
    Integral (addEndpoint db endpointId row) where
  apiKeys := hdb.apiKeys
  keyHash := hdb.keyHash
  endpoints k r hr := by
    have hr : (db.endpoints.insert endpointId row).get? k = some r := hr
    rw [Rows.get?_insert, hfresh] at hr
    split at hr
    · obtain rfl := Option.some.inj hr
      exact hproject
    · exact hdb.endpoints k r hr
  events := hdb.events
  deliveries k r hr := by
    obtain ⟨endpoint, event, hendpoint, hevent, heq⟩ := hdb.deliveries k r hr
    refine ⟨endpoint, event, ?_, hevent, heq⟩
    exact (Rows.get?_insert).trans ((if_neg (hdb.endpointId_ne hfresh hr)).trans hendpoint)
  attempts := hdb.attempts
  records := hdb.records

end Insert

section Modify

/-- Update an endpoint. -/
def setEndpoint (db : Database) (endpointId : Uuid) (f : EndpointRow → EndpointRow) : Database :=
  { db with endpoints := db.endpoints.modifyAt endpointId f }

variable {f : EndpointRow → EndpointRow}

theorem ownerOf_setEndpoint
    (hf : ∀ r, db.endpoints.get? endpointId = some r → (f r).projectId = r.projectId) (k : Uuid) :
    ownerOf (setEndpoint db endpointId f) k = ownerOf db k := by
  unfold ownerOf setEndpoint
  rw [Rows.get?_modifyAt]
  split
  · next h =>
    subst h
    cases hk : db.endpoints.get? k with
    | none => rfl
    | some r => exact congrArg some (hf r hk)
  · rfl

theorem tenant_setEndpoint
    (hf : ∀ r, db.endpoints.get? endpointId = some r → (f r).projectId = r.projectId) (q : Uuid) :
    tenant (setEndpoint db endpointId f) q = setEndpoint (tenant db q) endpointId f := by
  have hdepends := @tenant_of_owner q db (setEndpoint db endpointId f)
    (fun d r _ => by rw [ownerOf_setEndpoint hf]) rfl rfl
  have hendpoints : (tenant (setEndpoint db endpointId f) q).endpoints =
      (tenant db q).endpoints.modifyAt endpointId f := by
    change (db.endpoints.modifyAt endpointId f).filter (fun _ r => r.projectId = q) = _
    rw [Rows.filter_modifyAt fun r hr => by rw [hf r hr]]
    rfl
  exact Database.ext rfl rfl hendpoints rfl hdepends.1 hdepends.2 rfl rfl rfl rfl rfl rfl

/-- The store of another project. -/
theorem setEndpoint_tenant (hne : ownerOf db endpointId ≠ some q) :
    setEndpoint (tenant db q) endpointId f = tenant db q := by
  have hnone : (tenant db q).endpoints.get? endpointId = none := by
    rw [get?_endpoints, Option.filter_eq_none_iff]
    intro r hr heq
    exact hne (by rw [ownerOf, hr, Option.map_some, of_decide_eq_true heq])
  exact Database.ext rfl rfl (Rows.modifyAt_eq_self hnone) rfl rfl rfl rfl rfl rfl rfl rfl rfl

theorem Integral.setEndpoint (hdb : Integral db)
    (hf : ∀ r, db.endpoints.get? endpointId = some r → (f r).projectId = r.projectId) :
    Integral (setEndpoint db endpointId f) := by
  have howner := ownerOf_setEndpoint hf
  refine ⟨hdb.apiKeys, hdb.keyHash, fun k r hr => ?endpoints, hdb.events, fun k r hr => ?deliveries,
    hdb.attempts, hdb.records⟩
  case endpoints =>
    have hk := howner k
    rw [ownerOf, hr, Option.map_some] at hk
    obtain ⟨r', hr', heq⟩ := Option.map_eq_some_iff.1 hk.symm
    exact heq ▸ hdb.endpoints k r' hr'
  case deliveries =>
    obtain ⟨event, hevent, hown⟩ := (hdb.deliveries k r hr).owner
    rw [← howner] at hown
    obtain ⟨endpoint, hendpoint, heq⟩ := Option.map_eq_some_iff.1 hown
    exact ⟨endpoint, event, hendpoint, hevent, heq⟩

end Modify

section Drop

theorem ownerOf_dropEndpoint (k : Uuid) : ownerOf (db.dropEndpoint endpointId) k =
    if k = endpointId then none else ownerOf db k := by
  unfold ownerOf Database.dropEndpoint
  rw [Rows.get?_filter]
  by_cases h : k = endpointId
  · simp [h]
  · cases db.endpoints.get? k <;> simp [h, Option.filter_some]

theorem deliveryOwner_dropEndpoint (k : Uuid) : deliveryOwner (db.dropEndpoint endpointId) k =
    if (db.deliveries.get? k).any (fun r => r.endpointId = endpointId) then none
    else deliveryOwner db k := by
  have hget : (db.dropEndpoint endpointId).deliveries.get? k =
      (db.deliveries.get? k).filter fun r => r.endpointId ≠ endpointId := Rows.get?_filter _
  unfold deliveryOwner
  rw [hget]
  cases db.deliveries.get? k with
  | none => rfl
  | some r =>
    by_cases h : r.endpointId = endpointId
    · simp [Option.filter_some, h]
    · simp [Option.filter_some, h, ownerOf_dropEndpoint]

/-- **A deletion with its cascades** takes from every project what it takes from its own store. -/
theorem tenant_dropEndpoint (q : Uuid) :
    tenant (db.dropEndpoint endpointId) q = (tenant db q).dropEndpoint endpointId := by
  have hany : ∀ k, deliveryOwner db k = some q →
      ((tenant db q).deliveries.get? k).any (fun r => r.endpointId = endpointId) =
        (db.deliveries.get? k).any fun r => r.endpointId = endpointId := by
    intro k hk
    obtain ⟨r, hr, hown⟩ := Option.bind_eq_some_iff.1 hk
    rw [get?_deliveries, hr, Option.filter_some, if_pos (decide_eq_true hown)]
  refine Database.ext rfl rfl ?_ rfl ?_ ?_ rfl rfl rfl rfl rfl rfl
  · simp only [tenant, Database.dropEndpoint, Rows.filter_filter, Bool.and_comm]
  · change (db.deliveries.filter fun _ r => r.endpointId ≠ endpointId).filter
        (fun _ r => ownerOf (db.dropEndpoint endpointId) r.endpointId = some q) =
      (db.deliveries.filter fun _ r => ownerOf db r.endpointId = some q).filter
        fun _ r => r.endpointId ≠ endpointId
    rw [Rows.filter_filter, Rows.filter_filter]
    refine Rows.filter_congr fun e _ => ?_
    simp only [ownerOf_dropEndpoint]
    by_cases h : e.2.endpointId = endpointId <;> simp [h]
  · change (db.attempts.filter fun _ a =>
        !(db.deliveries.get? a.deliveryId).any fun r => r.endpointId = endpointId).filter
        (fun _ a => deliveryOwner (db.dropEndpoint endpointId) a.deliveryId = some q) =
      (db.attempts.filter fun _ a => deliveryOwner db a.deliveryId = some q).filter
        fun _ a => !((tenant db q).deliveries.get? a.deliveryId).any fun r =>
          r.endpointId = endpointId
    rw [Rows.filter_filter, Rows.filter_filter]
    refine Rows.filter_congr fun e _ => ?_
    simp only [deliveryOwner_dropEndpoint]
    by_cases hown : deliveryOwner db e.2.deliveryId = some q
    · simp only [hany _ hown, hown]
      cases (db.deliveries.get? e.2.deliveryId).any fun r => r.endpointId = endpointId <;> simp
    · simp only [hown, decide_false, Bool.false_and]
      split <;> simp [hown]

theorem dropEndpoint_tenant (hne : ownerOf db endpointId ≠ some q) :
    (tenant db q).dropEndpoint endpointId = tenant db q := by
  have hendpoint : ∀ e ∈ (tenant db q).endpoints.entries, e.1 ≠ endpointId := by
    rintro e he rfl
    have hr := Rows.get?_eq_some_iff.2 he
    rw [get?_endpoints] at hr
    obtain ⟨hr, hq⟩ := Option.filter_eq_some_iff.1 hr
    exact hne (by rw [ownerOf, hr, Option.map_some, of_decide_eq_true hq])
  have hdelivery : ∀ k r, (tenant db q).deliveries.get? k = some r → r.endpointId ≠ endpointId := by
    rintro k r hr rfl
    rw [get?_deliveries] at hr
    exact hne (of_decide_eq_true (Option.filter_eq_some_iff.1 hr).2)
  have hendpoints : (tenant db q).endpoints.filter (fun k _ => k ≠ endpointId) =
      (tenant db q).endpoints := Rows.filter_eq_self fun e he => decide_eq_true (hendpoint e he)
  have hdeliveries : (tenant db q).deliveries.filter (fun _ r => r.endpointId ≠ endpointId) =
      (tenant db q).deliveries := Rows.filter_eq_self fun e he =>
    decide_eq_true (hdelivery e.1 e.2 (Rows.get?_eq_some_iff.2 he))
  have hattempts : (tenant db q).attempts.filter (fun _ a =>
      !((tenant db q).deliveries.get? a.deliveryId).any fun r => r.endpointId = endpointId) =
      (tenant db q).attempts := by
    refine Rows.filter_eq_self fun e _ => ?_
    cases hd : (tenant db q).deliveries.get? e.2.deliveryId with
    | none => rfl
    | some r => simp [hdelivery _ r hd]
  exact Database.ext rfl rfl hendpoints rfl hdeliveries hattempts rfl rfl rfl rfl rfl rfl

theorem Integral.dropEndpoint (hdb : Integral db) : Integral (db.dropEndpoint endpointId) where
  apiKeys := hdb.apiKeys
  keyHash := hdb.keyHash
  endpoints k r hr := by
    have hr : (db.endpoints.filter fun k _ => k ≠ endpointId).get? k = some r := hr
    rw [Rows.get?_filter] at hr
    exact hdb.endpoints k r (Option.filter_eq_some_iff.1 hr).1
  events := hdb.events
  deliveries k r hr := by
    obtain ⟨hr, hne⟩ := Option.filter_eq_some_iff.1
      ((Rows.get?_filter (T := db.deliveries) _).symm.trans hr)
    obtain ⟨endpoint, event, hendpoint, hevent, heq⟩ := hdb.deliveries k r hr
    refine ⟨endpoint, event, (Rows.get?_filter _).trans ?_, hevent, heq⟩
    exact Option.filter_eq_some_iff.2 ⟨hendpoint, hne⟩
  attempts k a ha := by
    obtain ⟨ha, hnot⟩ := Option.filter_eq_some_iff.1
      ((Rows.get?_filter (T := db.attempts) _).symm.trans ha)
    obtain ⟨r, hr⟩ := Option.ne_none_iff_exists'.1 (hdb.attempts k a ha)
    have hne : r.endpointId ≠ endpointId := by simpa [hr] using hnot
    have hget : (db.dropEndpoint endpointId).deliveries.get? a.deliveryId = some r :=
      (Rows.get?_filter _).trans (Option.filter_eq_some_iff.2 ⟨hr, decide_eq_true hne⟩)
    rw [hget]
    exact Option.some_ne_none r
  records := hdb.records

end Drop

end Endpoints

/-! ## Statements on events and deliveries -/

section Events

/-- Insert an event with its deliveries, and its record if it has a key. -/
def addEvent (db : Database) (eventId : Uuid) (row : EventRow) (ds : List (Uuid × DeliveryRow))
    (record : Option (PyStr × RecordRow)) : Database :=
  { db with
    events := db.events.insert eventId row
    deliveries := db.deliveries.insertAll ds
    records :=
      match record with
      | none => db.records
      | some r => db.records.insert (row.projectId, r.1) r.2 }

/-- What `ingest_event` inserts is new, and belongs to the project. -/
structure NewEvent (db : Database) (eventId : Uuid) (row : EventRow)
    (ds : List (Uuid × DeliveryRow)) (record : Option (PyStr × RecordRow)) : Prop where
  fresh : db.events.get? eventId = none
  unused : db.deliveries.Unused ds
  deliveries : ∀ e ∈ ds, e.2.eventId = eventId ∧ ownerOf db e.2.endpointId = some row.projectId
  record : ∀ r, record = some r → db.records.get? (row.projectId, r.1) = none ∧
    r.2.eventId = eventId ∧ row.idempotencyKey = some r.1
  project : db.projects.get? row.projectId ≠ none

variable {eventId : Uuid} {row : EventRow} {ds : List (Uuid × DeliveryRow)}
  {record : Option (PyStr × RecordRow)}

theorem get?_addEvent_events (h : NewEvent db eventId row ds record) (k : Uuid) :
    (addEvent db eventId row ds record).events.get? k =
      if k = eventId then some row else db.events.get? k := by
  refine Rows.get?_insert.trans ?_
  rw [h.fresh, Option.getD_none]

theorem Integral.addEvent (hdb : Integral db) (h : NewEvent db eventId row ds record) :
    Integral (addEvent db eventId row ds record) := by
  have hevent : ∀ k v, db.events.get? k = some v →
      (Tenancy.addEvent db eventId row ds record).events.get? k = some v := by
    intro k v hv
    rw [get?_addEvent_events h, if_neg, hv]
    rintro rfl
    rw [h.fresh] at hv
    cases hv
  refine ⟨hdb.apiKeys, hdb.keyHash, hdb.endpoints, fun k r hr => ?events, fun k r hr => ?deliveries,
    fun k a ha => ?attempts, fun k r hr => ?records⟩
  case events =>
    rw [get?_addEvent_events h] at hr
    split at hr
    · obtain rfl := Option.some.inj hr
      exact h.project
    · exact hdb.events k r hr
  case deliveries =>
    rcases (Rows.get?_insertAll h.unused).1 hr with hr | hr
    · obtain ⟨endpoint, event, hendpoint, hv, heq⟩ := hdb.deliveries k r hr
      exact ⟨endpoint, event, hendpoint, hevent _ _ hv, heq⟩
    · obtain ⟨hid, howner⟩ := h.deliveries _ hr
      obtain ⟨endpoint, hendpoint, heq⟩ := Option.map_eq_some_iff.1 howner
      refine ⟨endpoint, row, hendpoint, ?_, heq⟩
      rw [get?_addEvent_events h, if_pos hid]
  case attempts =>
    obtain ⟨r, hr⟩ := Option.ne_none_iff_exists'.1 (hdb.attempts k a ha)
    have hr' := (Rows.get?_insertAll h.unused).2 (.inl hr)
    exact fun hnone => Option.some_ne_none r (hr'.symm.trans hnone)
  case records =>
    have hold : db.records.get? k = some r → ∃ event,
        (Tenancy.addEvent db eventId row ds record).events.get? r.eventId = some event ∧
          event.projectId = k.1 ∧ event.idempotencyKey = some k.2 := fun hr => by
      obtain ⟨event, hv, hp, hk⟩ := hdb.records k r hr
      exact ⟨event, hevent _ _ hv, hp, hk⟩
    cases record with
    | none => exact hold hr
    | some new =>
      obtain ⟨hnone, hid, hkey⟩ := h.record new rfl
      have hr : (db.records.insert (row.projectId, new.1) new.2).get? k = some r := hr
      rw [Rows.get?_insert, hnone, Option.getD_none] at hr
      split at hr
      · next heq =>
        obtain rfl := Option.some.inj hr
        refine ⟨row, ?_, by rw [heq], by rw [heq]; exact hkey⟩
        rw [get?_addEvent_events h, if_pos hid]
      · exact hold hr

theorem deliveryOwner_addEvent (h : NewEvent db eventId row ds record) {k : Uuid}
    (hk : db.deliveries.get? k ≠ none) :
    deliveryOwner (addEvent db eventId row ds record) k = deliveryOwner db k := by
  obtain ⟨r, hr⟩ := Option.ne_none_iff_exists'.1 hk
  have hr' : (addEvent db eventId row ds record).deliveries.get? k = some r :=
    (Rows.get?_insertAll h.unused).2 (.inl hr)
  rw [deliveryOwner, deliveryOwner, hr, hr']
  rfl

/-- **An event of a project** is inserted into its store, and into no other. -/
theorem tenant_addEvent (hdb : Integral db) (h : NewEvent db eventId row ds record) (q : Uuid) :
    tenant (addEvent db eventId row ds record) q =
      if row.projectId = q then addEvent (tenant db q) eventId row ds record
      else tenant db q := by
  have hevents : (tenant (addEvent db eventId row ds record) q).events =
      if row.projectId = q then (tenant db q).events.insert eventId row
      else (tenant db q).events := by
    change (db.events.insert eventId row).filter (fun _ r => r.projectId = q) = _
    rw [Rows.filter_insert h.fresh]
    simp only [decide_eq_true_eq]
    rfl
  have hdeliveries : (tenant (addEvent db eventId row ds record) q).deliveries =
      if row.projectId = q then (tenant db q).deliveries.insertAll ds
      else (tenant db q).deliveries := by
    change (db.deliveries.insertAll ds).filter (fun _ r => ownerOf db r.endpointId = some q) = _
    rw [Rows.filter_insertAll h.unused]
    split
    · next hq =>
      rw [List.filter_eq_self.2]
      · rfl
      · intro e he
        rw [(h.deliveries e he).2, hq]
        exact decide_eq_true rfl
    · next hq =>
      rw [List.filter_eq_nil_iff.2]
      · rfl
      · intro e he
        rw [(h.deliveries e he).2, decide_eq_true_eq]
        exact fun heq => hq (Option.some.inj heq)
  have hattempts : (tenant (addEvent db eventId row ds record) q).attempts =
      (tenant db q).attempts := by
    change db.attempts.filter (fun _ a =>
      deliveryOwner (addEvent db eventId row ds record) a.deliveryId = some q) =
      db.attempts.filter fun _ a => deliveryOwner db a.deliveryId = some q
    refine Rows.filter_congr fun e he => ?_
    simp only [deliveryOwner_addEvent h (hdb.attempts e.1 e.2 (Rows.get?_eq_some_iff.2 he))]
  have hrecords : (tenant (addEvent db eventId row ds record) q).records =
      if row.projectId = q then (addEvent (tenant db q) eventId row ds record).records
      else (tenant db q).records := by
    cases record with
    | none => exact (ite_self _).symm
    | some new =>
      change (db.records.insert (row.projectId, new.1) new.2).filter (fun k _ => k.1 = q) = _
      rw [Rows.filter_insert (h.record new rfl).1]
      simp only [decide_eq_true_eq]
      rfl
  split
  · next hq =>
    rw [if_pos hq] at hevents hdeliveries hrecords
    exact Database.ext rfl rfl rfl hevents hdeliveries hattempts hrecords rfl rfl rfl rfl rfl
  · next hq =>
    rw [if_neg hq] at hevents hdeliveries hrecords
    exact Database.ext rfl rfl rfl hevents hdeliveries hattempts hrecords rfl rfl rfl rfl rfl

end Events

section Work

/-- Update deliveries, and insert attempts on them. -/
def workOn (db : Database) (f : Uuid → DeliveryRow → DeliveryRow)
    (attempts : List (Uuid × AttemptRow)) : Database :=
  { db with
    deliveries := db.deliveries.modify f
    attempts := db.attempts.insertAll attempts }

/-- An update keeps the event and the endpoint of a delivery. -/
def KeepsKeys (f : Uuid → DeliveryRow → DeliveryRow) : Prop :=
  ∀ k r, (f k r).eventId = r.eventId ∧ (f k r).endpointId = r.endpointId

variable {f g : Uuid → DeliveryRow → DeliveryRow} {attempts : List (Uuid × AttemptRow)}

theorem get?_workOn_deliveries (k : Uuid) :
    (workOn db f attempts).deliveries.get? k = (db.deliveries.get? k).map (f k) :=
  Rows.get?_modify _

theorem deliveryOwner_workOn (hf : KeepsKeys f) (k : Uuid) :
    deliveryOwner (workOn db f attempts) k = deliveryOwner db k := by
  unfold deliveryOwner
  rw [get?_workOn_deliveries]
  cases db.deliveries.get? k with
  | none => rfl
  | some r => exact congrArg (ownerOf db) (hf k r).2

/-- **What is done to deliveries** is done to each project's, with the attempts on them. -/
theorem tenant_workOn (hf : KeepsKeys f) (hunused : db.attempts.Unused attempts) (q : Uuid) :
    tenant (workOn db f attempts) q = workOn (tenant db q) f
      (attempts.filter fun e => deliveryOwner db e.2.deliveryId = some q) := by
  have hdeliveries : (tenant (workOn db f attempts) q).deliveries =
      (tenant db q).deliveries.modify f := by
    change (db.deliveries.modify f).filter (fun _ r => ownerOf db r.endpointId = some q) = _
    refine Rows.filter_modify fun e _ => ?_
    rw [(hf e.1 e.2).2]
  have hattempts : (tenant (workOn db f attempts) q).attempts = (tenant db q).attempts.insertAll
      (attempts.filter fun e => deliveryOwner db e.2.deliveryId = some q) := by
    change (db.attempts.insertAll attempts).filter
      (fun _ a => deliveryOwner (workOn db f attempts) a.deliveryId = some q) = _
    simp only [deliveryOwner_workOn hf]
    exact Rows.filter_insertAll hunused
  exact Database.ext rfl rfl rfl rfl hdeliveries hattempts rfl rfl rfl rfl rfl rfl

theorem workOn_congr (h : ∀ k r, db.deliveries.get? k = some r → f k r = g k r) :
    workOn db f attempts = workOn db g attempts := by
  have hmodify : db.deliveries.modify f = db.deliveries.modify g :=
    Rows.modify_congr fun e he => h e.1 e.2 (Rows.get?_eq_some_iff.2 he)
  rw [workOn, workOn, hmodify]

/-- The deliveries of another project are updated to what they are. -/
theorem workOn_eq_self (h : ∀ k r, db.deliveries.get? k = some r → f k r = r) :
    workOn db f [] = db := by
  rw [workOn_congr h]
  exact Database.ext rfl rfl rfl rfl (Rows.ext (List.map_id _)) rfl rfl rfl rfl rfl rfl rfl

theorem Integral.workOn (hdb : Integral db) (hf : KeepsKeys f)
    (hunused : db.attempts.Unused attempts)
    (hon : ∀ e ∈ attempts, db.deliveries.get? e.2.deliveryId ≠ none) :
    Integral (workOn db f attempts) where
  apiKeys := hdb.apiKeys
  keyHash := hdb.keyHash
  endpoints := hdb.endpoints
  events := hdb.events
  deliveries k r hr := by
    rw [get?_workOn_deliveries] at hr
    obtain ⟨old, hold, rfl⟩ := Option.map_eq_some_iff.1 hr
    obtain ⟨hevent, hendpoint⟩ := hf k old
    unfold Delivers
    rw [hevent, hendpoint]
    exact hdb.deliveries k old hold
  attempts k a ha := by
    rw [get?_workOn_deliveries, ne_eq, Option.map_eq_none_iff]
    rcases (Rows.get?_insertAll hunused).1 ha with ha | ha
    · exact hdb.attempts k a ha
    · exact hon _ ha
  records := hdb.records

end Work

/-! ## Statements on keys and projects -/

section Keys

/-- Insert an API key. -/
def addApiKey (db : Database) (keyId : Uuid) (row : ApiKeyRow) : Database :=
  { db with apiKeys := db.apiKeys.insert keyId row }

theorem tenant_addApiKey {keyId : Uuid} {row : ApiKeyRow}
    (hfresh : db.apiKeys.get? keyId = none) (q : Uuid) : tenant (addApiKey db keyId row) q =
      if row.projectId = q then addApiKey (tenant db q) keyId row else tenant db q := by
  have hkeys : (tenant (addApiKey db keyId row) q).apiKeys =
      if row.projectId = q then (tenant db q).apiKeys.insert keyId row
      else (tenant db q).apiKeys := by
    change (db.apiKeys.insert keyId row).filter (fun _ r => r.projectId = q) = _
    rw [Rows.filter_insert hfresh]
    simp only [decide_eq_true_eq]
    rfl
  split
  · next h =>
    rw [if_pos h] at hkeys
    exact Database.ext rfl hkeys rfl rfl rfl rfl rfl rfl rfl rfl rfl rfl
  · next h =>
    rw [if_neg h] at hkeys
    exact Database.ext rfl hkeys rfl rfl rfl rfl rfl rfl rfl rfl rfl rfl

theorem Integral.addApiKey {keyId : Uuid} {row : ApiKeyRow} (hdb : Integral db)
    (hfresh : db.apiKeys.get? keyId = none) (hproject : db.projects.get? row.projectId ≠ none)
    (hhash : ∀ k r, db.apiKeys.get? k = some r → r.keyHash ≠ row.keyHash) :
    Integral (addApiKey db keyId row) := by
  have hget : ∀ {k r}, (Tenancy.addApiKey db keyId row).apiKeys.get? k = some r →
      k = keyId ∧ r = row ∨ db.apiKeys.get? k = some r := by
    intro k r hr
    have hr : (db.apiKeys.insert keyId row).get? k = some r := hr
    rw [Rows.get?_insert, hfresh] at hr
    split at hr
    · next h => exact .inl ⟨h, (Option.some.inj hr).symm⟩
    · exact .inr hr
  refine ⟨fun k r hr => ?apiKeys, fun k k' r r' hr hr' heq => ?keyHash, hdb.endpoints, hdb.events,
    hdb.deliveries, hdb.attempts, hdb.records⟩
  case apiKeys =>
    rcases hget hr with ⟨-, rfl⟩ | hr
    · exact hproject
    · exact hdb.apiKeys k r hr
  case keyHash =>
    rcases hget hr with ⟨hk, rfl⟩ | hold <;> rcases hget hr' with ⟨hk', rfl⟩ | hold'
    · exact hk.trans hk'.symm
    · exact absurd heq.symm (hhash _ _ hold')
    · exact absurd heq (hhash _ _ hold)
    · exact hdb.keyHash k k' r r' hold hold' heq

/-- Update an API key. -/
def setApiKey (db : Database) (keyId : Uuid) (f : ApiKeyRow → ApiKeyRow) : Database :=
  { db with apiKeys := db.apiKeys.modifyAt keyId f }

variable {keyId : Uuid} {f : ApiKeyRow → ApiKeyRow}

theorem tenant_setApiKey (hf : ∀ r, (f r).projectId = r.projectId) (q : Uuid) :
    tenant (setApiKey db keyId f) q = setApiKey (tenant db q) keyId f := by
  have hkeys : (tenant (setApiKey db keyId f) q).apiKeys =
      (tenant db q).apiKeys.modifyAt keyId f := by
    change (db.apiKeys.modifyAt keyId f).filter (fun _ r => r.projectId = q) = _
    exact Rows.filter_modifyAt fun r _ => by rw [hf r]
  exact Database.ext rfl hkeys rfl rfl rfl rfl rfl rfl rfl rfl rfl rfl

/-- The store of another project. -/
theorem setApiKey_tenant {row : ApiKeyRow} (hrow : db.apiKeys.get? keyId = some row)
    (hne : row.projectId ≠ q) : setApiKey (tenant db q) keyId f = tenant db q := by
  have hnone : (tenant db q).apiKeys.get? keyId = none := by
    have hget : (tenant db q).apiKeys.get? keyId =
        (db.apiKeys.get? keyId).filter fun r => r.projectId = q := Rows.get?_filter _
    rw [hget, hrow, Option.filter_some, if_neg (by simpa using hne)]
  exact Database.ext rfl (Rows.modifyAt_eq_self hnone) rfl rfl rfl rfl rfl rfl rfl rfl rfl rfl

theorem Integral.setApiKey (hdb : Integral db) (hproject : ∀ r, (f r).projectId = r.projectId)
    (hhash : ∀ r, (f r).keyHash = r.keyHash) : Integral (setApiKey db keyId f) := by
  have hget : ∀ {k r}, (Tenancy.setApiKey db keyId f).apiKeys.get? k = some r →
      ∃ r', db.apiKeys.get? k = some r' ∧ r.projectId = r'.projectId ∧ r.keyHash = r'.keyHash := by
    intro k r hr
    have hr : (db.apiKeys.modifyAt keyId f).get? k = some r := hr
    rw [Rows.get?_modifyAt] at hr
    split at hr
    · obtain ⟨r', hr', rfl⟩ := Option.map_eq_some_iff.1 hr
      exact ⟨r', hr', hproject r', hhash r'⟩
    · exact ⟨r, hr, rfl, rfl⟩
  refine ⟨fun k r hr => ?apiKeys, fun k k' r r' hr hr' heq => ?keyHash, hdb.endpoints, hdb.events,
    hdb.deliveries, hdb.attempts, hdb.records⟩
  case apiKeys =>
    obtain ⟨r', hr', heq, -⟩ := hget hr
    exact heq ▸ hdb.apiKeys k r' hr'
  case keyHash =>
    obtain ⟨s, hs, -, hsame⟩ := hget hr
    obtain ⟨s', hs', -, hsame'⟩ := hget hr'
    exact hdb.keyHash k k' s s' hs hs' (hsame.symm.trans (heq.trans hsame'))

end Keys

section Projects

variable {projectId : Uuid} {row : ProjectRow}

/-- Insert a project. -/
def addProject (db : Database) (projectId : Uuid) (row : ProjectRow) : Database :=
  { db with projects := db.projects.insert projectId row }

theorem tenant_addProject (hfresh : db.projects.get? projectId = none) (q : Uuid) :
    tenant (addProject db projectId row) q =
      if projectId = q then addProject (tenant db q) projectId row else tenant db q := by
  have hprojects : (tenant (addProject db projectId row) q).projects =
      if projectId = q then (tenant db q).projects.insert projectId row
      else (tenant db q).projects := by
    change (db.projects.insert projectId row).filter (fun k _ => k = q) = _
    rw [Rows.filter_insert hfresh]
    simp only [decide_eq_true_eq]
    rfl
  split
  · next h =>
    rw [if_pos h] at hprojects
    exact Database.ext hprojects rfl rfl rfl rfl rfl rfl rfl rfl rfl rfl rfl
  · next h =>
    rw [if_neg h] at hprojects
    exact Database.ext hprojects rfl rfl rfl rfl rfl rfl rfl rfl rfl rfl rfl

theorem Integral.addProject (hdb : Integral db) (hfresh : db.projects.get? projectId = none) :
    Integral (addProject db projectId row) := by
  have hkept : ∀ k, db.projects.get? k ≠ none →
      (Tenancy.addProject db projectId row).projects.get? k ≠ none := by
    intro k hk
    have hget : (Tenancy.addProject db projectId row).projects.get? k =
        if k = projectId then some ((db.projects.get? projectId).getD row)
        else db.projects.get? k := Rows.get?_insert
    rw [hget, hfresh]
    split
    · exact Option.some_ne_none _
    · exact hk
  exact ⟨fun k r hr => hkept _ (hdb.apiKeys k r hr), hdb.keyHash,
    fun k r hr => hkept _ (hdb.endpoints k r hr), fun k r hr => hkept _ (hdb.events k r hr),
    hdb.deliveries, hdb.attempts, hdb.records⟩

end Projects

end Hookit.Tenancy
