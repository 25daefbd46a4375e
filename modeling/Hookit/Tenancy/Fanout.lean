import Hookit.Tenancy.Persistence

/-!
# What `POST /events` promises

`fans_serve` says what a transaction does to the endpoints that the deliveries of an event go to,
and to the idempotency records: nothing, unless an event is published or an endpoint deleted.
`event_lists_iff`: over any run, an event goes to the endpoints that were active and subscribed when
it was published, once to each, except for those that have been deleted since. While no endpoint is
deleted, `Fanned`, that each record counts the deliveries of its event, holds too, so the answer of
`POST /events` stays true, of a new event as of a replayed one (`event_lists_queued`).
-/

namespace Hookit.Tenancy

open Foundations Foundations.Service

variable {D : Deployment} {p : Uuid} {db db' : Database}

/-- The endpoints that an event goes to. -/
def targetsOf (db : Database) (eventId : Uuid) : List Uuid :=
  (db.deliveries.select fun _ r => r.eventId = eventId).map fun e => e.2.endpointId

/-- Targets and records before and after a transaction. -/
inductive Fans (spared : Uuid → Prop) (db db' : Database) : Prop
  | same (htargets : ∀ eventId, targetsOf db' eventId = targetsOf db eventId)
      (hrecords : db'.records = db.records)
  | published (eventId : Uuid) (hnew : db.events.get? eventId = none)
      (hnodup : (targetsOf db' eventId).Nodup)
      (htargets : ∀ eventId', eventId' ≠ eventId →
        targetsOf db' eventId' = targetsOf db eventId')
      (hrecords : db'.records = db.records ∨ ∃ key requestHash, db'.records =
        db.records.insert key ⟨eventId, (targetsOf db' eventId).length, requestHash⟩)
  | deleted (endpointId : Uuid) (hdeleted : ¬ spared endpointId)
      (htargets : ∀ eventId,
        targetsOf db' eventId = (targetsOf db eventId).filter (· ≠ endpointId))
      (hrecords : db'.records = db.records)

/-! ## One transaction -/

section Transaction

theorem targetsOf_congr (h : db'.deliveries = db.deliveries) (eventId : Uuid) :
    targetsOf db' eventId = targetsOf db eventId := by
  rw [targetsOf, targetsOf, h]

theorem targetsOf_modify {f : Uuid → DeliveryRow → DeliveryRow} (hf : KeepsKeys f)
    (h : db'.deliveries = db.deliveries.modify f) (eventId : Uuid) :
    targetsOf db' eventId = targetsOf db eventId := by
  simp only [targetsOf, Rows.select, h, Rows.modify, List.filter_map, List.map_map,
    Function.comp_def, (hf _ _).1, (hf _ _).2]

theorem targetsOf_redriven {k : Uuid} {leased : Bool} {now updatedAt : Time}
    (h : db'.deliveries = db.deliveries.modifyAt k (DeliveryRow.redriven leased now updatedAt))
    (eventId : Uuid) : targetsOf db' eventId = targetsOf db eventId := by
  refine targetsOf_modify (fun k' r => ?_) h eventId
  split <;> exact ⟨rfl, rfl⟩

theorem targetsOf_dropEndpoint {endpointId : Uuid}
    (h : db'.deliveries = (db.dropEndpoint endpointId).deliveries) (eventId : Uuid) :
    targetsOf db' eventId = (targetsOf db eventId).filter (· ≠ endpointId) := by
  rw [targetsOf, h, targetsOf, List.filter_map]
  congr 1
  change (db.deliveries.filter fun _ r => r.endpointId ≠ endpointId).select _ = _
  rw [Rows.select_filter, Rows.select, Rows.select, List.filter_filter]
  rfl

theorem targetsOf_insertAll {ds : List (Uuid × DeliveryRow)} (hunused : db.deliveries.Unused ds)
    (h : db'.deliveries = db.deliveries.insertAll ds) (eventId : Uuid) :
    targetsOf db' eventId = targetsOf db eventId ++
      (ds.filter fun e => e.2.eventId = eventId).map fun e => e.2.endpointId := by
  simp only [targetsOf, Rows.select, h, Rows.entries_insertAll hunused, List.filter_append,
    List.map_append]

/-- An event that is not there has no deliveries. -/
theorem targetsOf_eq_nil (hdb : Integral db) {eventId : Uuid}
    (h : db.events.get? eventId = none) : targetsOf db eventId = [] := by
  rw [targetsOf, List.map_eq_nil_iff]
  refine List.filter_eq_nil_iff.2 fun e he hid => ?_
  obtain ⟨event, hevent, -⟩ := (hdb.deliveries e.1 e.2 (Rows.get?_eq_some_iff.2 he)).owner
  rw [of_decide_eq_true hid, h] at hevent
  cases hevent

/-- The targets of a new event. -/
theorem targetsOf_published (hdb : Integral db) {draws : IngestDraws} {targets : List Uuid}
    (hnew : db.events.get? draws.eventId = none)
    (hunused : db.deliveries.Unused (draws.deliveries targets))
    (h : db'.deliveries = db.deliveries.insertAll (draws.deliveries targets)) :
    targetsOf db' draws.eventId = targets ∧
      ∀ eventId, eventId ≠ draws.eventId → targetsOf db' eventId = targetsOf db eventId := by
  have hall : ∀ e ∈ draws.deliveries targets, e.2.eventId = draws.eventId := by
    intro e he
    obtain ⟨endpointId, -, rfl⟩ := List.mem_map.1 he
    rfl
  constructor
  · rw [targetsOf_insertAll hunused h, targetsOf_eq_nil hdb hnew, List.nil_append,
      List.filter_eq_self.2 fun e he => decide_eq_true (hall e he), IngestDraws.deliveries,
      List.map_map]
    exact List.map_id _
  · intro eventId hne
    have hnone : (draws.deliveries targets).filter (fun e => e.2.eventId = eventId) = [] := by
      refine List.filter_eq_nil_iff.2 fun e he hid => hne ?_
      rw [← of_decide_eq_true hid, hall e he]
    rw [targetsOf_insertAll hunused h, hnone, List.map_nil, List.append_nil]

theorem fans_handle (hdb : Integral db) {call : Call D.maxEventPayloadBytes}
    (hunused : call.Unused p db) {y : Answer × Database} (h : handle D p call db = .ok y) :
    Fans (fun endpointId => call ≠ .deleteEndpoint endpointId) db y.2 := by
  have hmoves := moves_handle hunused h
  have hrecords := (kept_handle h).2.2
  by_cases hcall : ∃ body key draws, call = .publishEvent body key draws
  · obtain ⟨body, key, draws, rfl⟩ := hcall
    obtain ⟨x, hx, rfl⟩ := map_eq_ok_iff.1 h
    rcases ingestEvent_inv hx with ⟨key', record, -, rfl⟩ | ⟨event, records, -, hinsert, rfl⟩
    · exact .same (fun _ => rfl) rfl
    · set db' : Database := { db with
        events := db.events.insert draws.eventId event
        deliveries := db.deliveries.insertAll
          (draws.deliveries ((activeEndpoints db p body.type).map Prod.fst))
        records } with hdb'
      have htargets : targetsOf db' draws.eventId =
          (activeEndpoints db p body.type).map Prod.fst ∧
          ∀ eventId, eventId ≠ draws.eventId → targetsOf db' eventId = targetsOf db eventId :=
        targetsOf_published hdb hunused.1 hunused.2 rfl
      refine .published draws.eventId hunused.1 ?_ htargets.2 ?_
      · rw [htargets.1]
        exact db.endpoints.nodup_select _
      · rw [htargets.1]
        rcases hinsert with hsame | ⟨key', requestHash, hinsert⟩
        · exact .inl hsame
        · exact .inr ⟨(p, key'), requestHash, hinsert⟩
  · replace hrecords := hrecords fun body key draws heq => hcall ⟨body, key, draws, heq⟩
    cases hmoves with
    | same hd _ => exact .same (targetsOf_congr hd) hrecords
    | deleted endpointId hdelete hd _ =>
      exact .deleted endpointId (not_not.2 hdelete) (targetsOf_dropEndpoint hd) hrecords
    | created ds hpublish => exact absurd hpublish hcall
    | redriven k r leased now updatedAt _ _ _ hd _ =>
      exact .same (targetsOf_redriven hd) hrecords

/-- **What a transaction does** to targets and records. -/
theorem fans_serve (hdb : Integral db) {a : Action D.maxEventPayloadBytes} (ha : Unused D a db) :
    Fans (fun endpointId => Spares D endpointId a db) db (serve D a db).2 := by
  rcases serve_cases a db with hsame |
    ⟨credentials, now, call, q, db₁, y, rfl, hauth, hroute, hserve⟩ |
    ⟨project, k, leased, now, updatedAt, r, rfl, -, hserve⟩ | ⟨draws, settled, rfl, hout⟩
  · exact .same (targetsOf_congr hsame.deliveries) hsame.records
  · have hfans := fans_handle (authenticate_integral hdb hauth).1 (ha q db₁ hauth) hroute
    obtain ⟨_, _, keyId, _, -, -, -, -, -, rfl⟩ := authenticate_eq_ok_iff.1 hauth
    rw [hserve]
    cases hfans with
    | same htargets hrecords => exact .same htargets hrecords
    | published eventId hnew hnodup htargets hrecords =>
      exact .published eventId hnew hnodup htargets hrecords
    | deleted endpointId hdelete htargets hrecords =>
      refine .deleted endpointId (fun hspared => ?_) htargets hrecords
      obtain rfl := not_not.1 hdelete
      exact hspared credentials now y.1 rfl (by rw [hserve])
  · rw [hserve]
    exact .same (targetsOf_redriven rfl) rfl
  · have hkeeps : KeepsKeys (tickRow D.settings draws settled) := by
      intro k r
      have hclaiming : KeepsKeys (claimingRow D.settings draws) := keepsKeys_claimingRow
      have hsettled : KeepsKeys (Database.settledRow draws settled) := keepsKeys_settledRow
      exact ⟨(hsettled k _).1.trans (hclaiming k r).1, (hsettled k _).2.trans (hclaiming k r).2⟩
    refine .same (targetsOf_modify hkeeps (deliveries_tick hout)) ?_
    simp only [serve, tick_of_ok hout]
    rfl

/-- An endpoint that is deleted is no target any more. -/
theorem notMem_targetsOf_serve {a : Action D.maxEventPayloadBytes} {endpointId : Uuid}
    (h : ¬ Spares D endpointId a db) (eventId : Uuid) :
    endpointId ∉ targetsOf (serve D a db).2 eventId := by
  simp only [Spares, not_forall, not_not] at h
  obtain ⟨credentials, now, answer, rfl, hanswer⟩ := h
  cases hauth : authenticate D.sha256 credentials now db with
  | error e =>
    simp only [serve, hauth] at hanswer
    cases hanswer
  | ok x =>
    obtain ⟨q, db₁⟩ := x
    cases hroute : handle D q (.deleteEndpoint endpointId) db₁ with
    | error e =>
      simp only [serve, hauth, hroute] at hanswer
      cases hanswer
    | ok y =>
      simp only [serve, hauth, hroute, respond]
      obtain ⟨x, hx, rfl⟩ := map_eq_ok_iff.1 hroute
      obtain ⟨-, -, hx⟩ := bind_eq_ok_iff.1 hx
      obtain rfl := pure_eq_ok_iff.1 hx
      have hdrop : targetsOf (db₁.dropEndpoint endpointId) eventId = _ :=
        targetsOf_dropEndpoint rfl eventId
      rw [hdrop, List.mem_filter]
      exact fun hmem => of_decide_eq_true hmem.2 rfl

/-- **The targets of an event** that is there lose the endpoint that is deleted, and no other. -/
theorem mem_targetsOf_serve (hdb : Integral db) {a : Action D.maxEventPayloadBytes}
    (ha : Unused D a db) {eventId : Uuid} {event : EventRow}
    (hevent : db.events.get? eventId = some event) (endpointId : Uuid) :
    endpointId ∈ targetsOf (serve D a db).2 eventId ↔
      endpointId ∈ targetsOf db eventId ∧ Spares D endpointId a db := by
  by_cases hspared : Spares D endpointId a db
  · rw [and_iff_left hspared]
    cases fans_serve hdb ha with
    | same htargets _ => rw [htargets]
    | published eventId' hnew _ htargets _ =>
      have hne : eventId ≠ eventId' := by
        rintro rfl
        rw [hnew] at hevent
        cases hevent
      rw [htargets eventId hne]
    | deleted endpointId' hdeleted htargets _ =>
      have hne : endpointId ≠ endpointId' := by
        rintro rfl
        exact hdeleted hspared
      rw [htargets, List.mem_filter, decide_eq_true_eq, and_iff_left hne]
  · exact iff_of_false (notMem_targetsOf_serve hspared eventId) fun h => hspared h.2

theorem targetsOf_serve_sublist (hdb : Integral db) {a : Action D.maxEventPayloadBytes}
    (ha : Unused D a db) {eventId : Uuid} {event : EventRow}
    (hevent : db.events.get? eventId = some event) :
    (targetsOf (serve D a db).2 eventId).Sublist (targetsOf db eventId) := by
  cases fans_serve hdb ha with
  | same htargets _ => rw [htargets]
  | published eventId' hnew _ htargets _ =>
    rw [htargets]
    rintro rfl
    rw [hnew] at hevent
    cases hevent
  | deleted endpointId hdeleted htargets _ =>
    rw [htargets]
    exact List.filter_sublist

end Transaction

/-! ## Runs -/

/-- No event goes to an endpoint twice, and a record counts the deliveries of its event. -/
structure Fanned (db : Database) : Prop where
  nodup : ∀ eventId, (targetsOf db eventId).Nodup
  queued : ∀ key record, db.records.get? key = some record →
    (targetsOf db record.eventId).length = record.queuedDeliveries

theorem fanned_empty : Fanned .empty := by
  constructor
  · intro eventId
    exact List.nodup_nil
  · intro key record h
    cases h

theorem Fanned.step (h : Fanned db) (hdb : Integral db) {spared : Uuid → Prop}
    (hspared : ∀ endpointId, spared endpointId) (hfans : Fans spared db db') : Fanned db' := by
  cases hfans with
  | deleted endpointId hdeleted _ _ => exact absurd (hspared endpointId) hdeleted
  | same htargets hrecords =>
    constructor
    · intro eventId
      rw [htargets]
      exact h.nodup eventId
    · intro key record hrecord
      rw [htargets]
      exact h.queued key record (hrecords ▸ hrecord)
  | published eventId hnew hnodup htargets hrecords =>
    -- the event of an older record is another one
    have hold : ∀ {key record}, db.records.get? key = some record →
        (targetsOf db' record.eventId).length = record.queuedDeliveries := by
      intro key record hrecord
      obtain ⟨event, hevent, -⟩ := hdb.records key record hrecord
      have hne : record.eventId ≠ eventId := by
        rintro rfl
        rw [hnew] at hevent
        cases hevent
      rw [htargets _ hne]
      exact h.queued key record hrecord
    constructor
    · intro eventId'
      by_cases hid : eventId' = eventId
      · rw [hid]
        exact hnodup
      · rw [htargets eventId' hid]
        exact h.nodup eventId'
    · intro key record hrecord
      rcases hrecords with hsame | ⟨key', requestHash, hinsert⟩
      · exact hold (hsame ▸ hrecord)
      · rw [hinsert, Rows.get?_insert] at hrecord
        split at hrecord
        · cases hkey : db.records.get? key' with
          | none =>
            rw [hkey, Option.getD_none] at hrecord
            obtain rfl := Option.some.inj hrecord
            rfl
          | some record' =>
            rw [hkey, Option.getD_some] at hrecord
            obtain rfl := Option.some.inj hrecord
            exact hold hkey
        · exact hold hrecord

/-- No endpoint is deleted. -/
def SparesAll (D : Deployment) (a : Action D.maxEventPayloadBytes) (db : Database) : Prop :=
  ∀ endpointId, Spares D endpointId a db

section Runs

variable {l l' : List (Action D.maxEventPayloadBytes)}

theorem fanned_exec (hl : (service D).Meets (Admitted D) l db)
    (hspared : (service D).Meets (SparesAll D) l db) (hdb : Integral db) (h : Fanned db) :
    Fanned ((service D).exec l db) := by
  induction l generalizing db with
  | nil => exact h
  | cons a l ih =>
    exact ih hl.2 hspared.2 (integral_serve hdb hl.1.1)
      (h.step hdb hspared.1 (fans_serve hdb hl.1.1))

/-- The targets of an event that is there do not change. -/
theorem targetsOf_exec (hl : (service D).Meets (Admitted D) l db)
    (hspared : (service D).Meets (SparesAll D) l db) (hdb : Integral db) {eventId : Uuid}
    {event : EventRow} (hevent : db.events.get? eventId = some event) :
    targetsOf ((service D).exec l db) eventId = targetsOf db eventId := by
  induction l generalizing db with
  | nil => rfl
  | cons a l ih =>
    refine (ih hl.2 hspared.2 (integral_serve hdb hl.1.1) (events_serve hevent)).trans ?_
    cases fans_serve hdb hl.1.1 with
    | deleted endpointId hdeleted _ _ => exact absurd (hspared.1 endpointId) hdeleted
    | same htargets _ => exact htargets eventId
    | published eventId' hnew _ htargets _ =>
      refine htargets eventId ?_
      rintro rfl
      rw [hnew] at hevent
      cases hevent

/-- **The targets of an event** over any run. -/
theorem mem_targetsOf_exec (hl : (service D).Meets (Unused D) l db) (hdb : Integral db)
    {eventId : Uuid} {event : EventRow} (hevent : db.events.get? eventId = some event)
    (endpointId : Uuid) :
    endpointId ∈ targetsOf ((service D).exec l db) eventId ↔
      endpointId ∈ targetsOf db eventId ∧ (service D).Meets (Spares D endpointId) l db := by
  induction l generalizing db with
  | nil => exact (and_iff_left trivial).symm
  | cons a l ih =>
    refine (ih hl.2 (integral_serve hdb hl.1) (events_serve hevent)).trans ?_
    rw [show ((service D).serve a db).2 = (serve D a db).2 from rfl,
      mem_targetsOf_serve hdb hl.1 hevent, and_assoc]
    rfl

theorem targetsOf_exec_sublist (hl : (service D).Meets (Unused D) l db) (hdb : Integral db)
    {eventId : Uuid} {event : EventRow} (hevent : db.events.get? eventId = some event) :
    (targetsOf ((service D).exec l db) eventId).Sublist (targetsOf db eventId) := by
  induction l generalizing db with
  | nil => exact List.Sublist.refl _
  | cons a l ih =>
    exact (ih hl.2 (integral_serve hdb hl.1) (events_serve hevent)).trans
      (targetsOf_serve_sublist hdb hl.1 hevent)

/-- **An answered `publish_event`** is a replay, or the event is new and goes to the endpoints of the
project that are active and subscribed. -/
theorem ingested_inv (hdb : Integral db) {credentials : Option PyStr} {now : Time}
    {body : EventCreate D.maxEventPayloadBytes} {idempotencyKey : Option PyStr}
    {draws : IngestDraws}
    (ha : Unused D (.request credentials now (.publishEvent body idempotencyKey draws)) db)
    {db₁ : Database} (hauth : authenticate D.sha256 credentials now db = .ok (p, db₁))
    {eventId : Uuid} {queued : ℕ}
    (hanswer : (serve D (.request credentials now (.publishEvent body idempotencyKey draws))
      db).1 = .ok (.ingested eventId queued)) :
    ∃ event, (serve D (.request credentials now (.publishEvent body idempotencyKey draws))
        db).2.events.get? eventId = some event ∧ event.projectId = p ∧
      ((∃ key record, db.records.get? (p, key) = some record ∧ record.eventId = eventId ∧
          record.queuedDeliveries = queued ∧ db.events.get? eventId = some event ∧
          targetsOf (serve D (.request credentials now (.publishEvent body idempotencyKey draws))
            db).2 eventId = targetsOf db eventId) ∨
        (db.events.get? eventId = none ∧ (activeEndpoints db p body.type).length = queued ∧
          targetsOf (serve D (.request credentials now (.publishEvent body idempotencyKey draws))
            db).2 eventId = (activeEndpoints db p body.type).map Prod.fst)) := by
  have hunused := ha p db₁ hauth
  have hdb₁ := (authenticate_integral hdb hauth).1
  obtain ⟨_, _, keyId, _, -, -, -, -, -, rfl⟩ := authenticate_eq_ok_iff.1 hauth
  cases hroute : handle D p (.publishEvent body idempotencyKey draws)
      (setApiKey db keyId (usedAt now)) with
  | error e =>
    simp only [serve, hauth, hroute] at hanswer
    cases hanswer
  | ok y =>
    simp only [serve, hauth, hroute, respond] at hanswer ⊢
    obtain ⟨x, hx, rfl⟩ := map_eq_ok_iff.1 hroute
    rcases ingestEvent_inv hx with ⟨key, record, hrecord, rfl⟩ |
      ⟨event, records, hproject, -, rfl⟩
    · obtain ⟨rfl, rfl⟩ := Answer.ingested.inj (Except.ok.inj hanswer)
      obtain ⟨event, hevent, hproject, -⟩ := hdb₁.records (p, key) record hrecord
      exact ⟨event, hevent, hproject, .inl ⟨key, record, hrecord, rfl, rfl, hevent, rfl⟩⟩
    · obtain ⟨rfl, rfl⟩ := Answer.ingested.inj (Except.ok.inj hanswer)
      refine ⟨event, ?_, hproject, .inr ⟨hunused.1, (List.length_map ..).symm, ?_⟩⟩
      · rw [Rows.get?_insert, if_pos rfl, hunused.1, Option.getD_none]
      · exact (targetsOf_published hdb₁ hunused.1 hunused.2 rfl).1

/-- What `GET /events/{id}` lists. -/
theorem exists_getEvent {eventId : Uuid} {row : EventRow}
    (hrow : db.events.get? eventId = some row) (hproject : row.projectId = p) :
    ∃ event, getEvent p eventId db = .ok event ∧
      (event.deliveries.map DeliveryResponse.endpointId).Perm (targetsOf db eventId) := by
  refine ⟨_, bind_eq_ok_iff.2 ⟨row, getOr404_eq_ok_iff.2 ⟨hrow, decide_eq_true hproject⟩, rfl⟩, ?_⟩
  rw [List.map_map]
  exact (List.mergeSort_perm _ _).map fun e : Uuid × DeliveryRow => e.2.endpointId

/-- **`POST /events` keeps its word**: while no endpoint is deleted, `GET /events/{id}` lists as
many deliveries as were said to be queued, to as many endpoints. -/
theorem event_lists_queued {credentials : Option PyStr} {now : Time}
    {body : EventCreate D.maxEventPayloadBytes} {idempotencyKey : Option PyStr}
    {draws : IngestDraws}
    (hl : (service D).Meets (Admitted D)
      (l ++ .request credentials now (.publishEvent body idempotencyKey draws) :: l') .empty)
    (hspared : (service D).Meets (SparesAll D)
      (l ++ .request credentials now (.publishEvent body idempotencyKey draws) :: l') .empty)
    {db₁ : Database}
    (hauth : authenticate D.sha256 credentials now ((service D).exec l .empty) = .ok (p, db₁))
    {eventId : Uuid} {queued : ℕ}
    (hanswer : (serve D (.request credentials now (.publishEvent body idempotencyKey draws))
      ((service D).exec l .empty)).1 = .ok (.ingested eventId queued)) :
    ∃ event, getEvent p eventId ((service D).exec
        (l ++ .request credentials now (.publishEvent body idempotencyKey draws) :: l') .empty) =
        .ok event ∧
      event.deliveries.length = queued ∧
      (event.deliveries.map DeliveryResponse.endpointId).Nodup := by
  rw [exec_append]
  obtain ⟨hbefore, hpublish, hafter⟩ := meets_append.1 hl
  obtain ⟨hspared₁, hspared₂, hspared₃⟩ := meets_append.1 hspared
  have hdb := integral_of_admitted integral_empty hbefore
  have hfanned := fanned_exec hbefore hspared₁ integral_empty fanned_empty
  obtain ⟨row, hrow, hproject, hcases⟩ := ingested_inv hdb hpublish.1 hauth hanswer
  have hlength : (targetsOf (serve D (.request credentials now (.publishEvent body idempotencyKey
      draws)) ((service D).exec l .empty)).2 eventId).length = queued := by
    rcases hcases with ⟨key, record, hrecord, rfl, rfl, -, htargets⟩ | ⟨-, hqueued, htargets⟩
    · rw [htargets]
      exact hfanned.queued (p, key) record hrecord
    · rw [htargets, List.length_map, hqueued]
  have hdb₂ := integral_serve hdb hpublish.1
  have hfanned₂ := hfanned.step hdb hspared₂ (fans_serve hdb hpublish.1)
  have htargets := targetsOf_exec hafter hspared₃ hdb₂ hrow
  have hevents := events_exec (l := l') hrow
  obtain ⟨event, hevent, hperm⟩ := exists_getEvent hevents hproject
  refine ⟨event, hevent, ?_, ?_⟩
  · rw [← List.length_map DeliveryResponse.endpointId, hperm.length_eq]
    exact (congrArg List.length htargets).trans hlength
  · exact hperm.nodup_iff.2 (htargets ▸ hfanned₂.nodup eventId)

/-- The event of `deliveredRun`, after its delivery. -/
theorem event_lists_queued_deliveredRun : ∃ event, getEvent (.ofNat 1) (.ofNat 4)
      ((service sampleDeployment).exec (registration ++ publication :: [.tick (oneTick 3 (.ofNat 5))])
        .empty) = .ok event ∧
    event.deliveries.length = 1 ∧
    (event.deliveries.map DeliveryResponse.endpointId).Nodup := by
  obtain ⟨db₁, hauth⟩ : ∃ db₁, authenticate sampleDeployment.sha256
      (some (PyStr.ofString "whk_secret-of-a")) 2
      ((service sampleDeployment).exec registration .empty) = .ok (.ofNat 1, db₁) := ⟨_, rfl⟩
  have hanswer : (serve sampleDeployment publication ((service sampleDeployment).exec registration
      .empty)).1 = .ok (.ingested (.ofNat 4) 1) := rfl
  refine event_lists_queued deliveredRun_admitted ?_ hauth hanswer
  refine ⟨?_, ?_, ?_, ?_, ?_, trivial⟩ <;>
  · intro endpointId credentials now answer hcall
    cases hcall

/-- **Where an event goes**, over any run: after a `POST /events` whose event is new and whatever
comes after it, `GET /events/{id}` lists one delivery for each endpoint of the project that was active
and subscribed when the event was published, and that no `DELETE` has been answered for since. -/
theorem event_lists_iff {credentials : Option PyStr} {now : Time}
    {body : EventCreate D.maxEventPayloadBytes} {idempotencyKey : Option PyStr}
    {draws : IngestDraws}
    (hl : (service D).Meets (Unused D)
      (l ++ .request credentials now (.publishEvent body idempotencyKey draws) :: l') .empty)
    {db₁ : Database}
    (hauth : authenticate D.sha256 credentials now ((service D).exec l .empty) = .ok (p, db₁))
    {eventId : Uuid} {queued : ℕ}
    (hanswer : (serve D (.request credentials now (.publishEvent body idempotencyKey draws))
      ((service D).exec l .empty)).1 = .ok (.ingested eventId queued))
    (hnew : ((service D).exec l .empty).events.get? eventId = none) :
    ∃ event, getEvent p eventId ((service D).exec
        (l ++ .request credentials now (.publishEvent body idempotencyKey draws) :: l') .empty) =
        .ok event ∧
      (event.deliveries.map DeliveryResponse.endpointId).Nodup ∧
      ∀ endpointId, endpointId ∈ event.deliveries.map DeliveryResponse.endpointId ↔
        (∃ row, ((service D).exec l .empty).endpoints.get? endpointId = some row ∧
          row.projectId = p ∧ row.status = .active ∧ body.type ∈ row.eventTypes) ∧
        (service D).Meets (Spares D endpointId) l'
          (serve D (.request credentials now (.publishEvent body idempotencyKey draws))
            ((service D).exec l .empty)).2 := by
  rw [exec_append]
  obtain ⟨hbefore, hpublish, hafter⟩ := meets_append.1 hl
  have hdb := integral_exec integral_empty hbefore
  have hdb₂ := integral_serve hdb hpublish
  obtain ⟨row, hrow, hproject, hcases⟩ := ingested_inv hdb hpublish hauth hanswer
  rcases hcases with ⟨-, -, -, -, -, hold, -⟩ | ⟨-, -, htargets⟩
  · rw [hnew] at hold
    cases hold
  have hevents := events_exec (l := l') hrow
  obtain ⟨event, hevent, hperm⟩ := exists_getEvent hevents hproject
  refine ⟨event, hevent, hperm.nodup_iff.2 ?_, fun endpointId => ?_⟩
  · have hnodup : ((activeEndpoints ((service D).exec l .empty) p body.type).map Prod.fst).Nodup :=
      Rows.nodup_select _ _
    exact (targetsOf_exec_sublist hafter hdb₂ hrow).nodup (htargets ▸ hnodup)
  · rw [hperm.mem_iff]
    refine (mem_targetsOf_exec hafter hdb₂ hrow endpointId).trans (and_congr_left' ?_)
    refine (Eq.to_iff (congrArg (endpointId ∈ ·) htargets)).trans ?_
    rw [List.mem_map]
    constructor
    · rintro ⟨e, he, rfl⟩
      obtain ⟨hentry, hmatch⟩ := Rows.mem_select.1 he
      simp only [Bool.and_eq_true, decide_eq_true_eq] at hmatch
      exact ⟨e.2, Rows.get?_eq_some_iff.2 hentry, hmatch.1.1, hmatch.1.2, hmatch.2⟩
    · rintro ⟨r, hr, hproject, hactive, htype⟩
      refine ⟨(endpointId, r), Rows.mem_select.2 ⟨Rows.get?_eq_some_iff.1 hr, ?_⟩, rfl⟩
      simp only [hproject, hactive, htype, decide_true, Bool.and_self]

/-- The event of `deliveredRun` goes to the one endpoint. -/
theorem event_lists_iff_deliveredRun : ∃ event, getEvent (.ofNat 1) (.ofNat 4)
      ((service sampleDeployment).exec (registration ++ publication :: [.tick (oneTick 3 (.ofNat 5))])
        .empty) = .ok event ∧
    (event.deliveries.map DeliveryResponse.endpointId).Nodup ∧
    ∀ endpointId, endpointId ∈ event.deliveries.map DeliveryResponse.endpointId ↔
      (∃ row, ((service sampleDeployment).exec registration .empty).endpoints.get? endpointId =
          some row ∧ row.projectId = .ofNat 1 ∧ row.status = .active ∧
        PyStr.ofString "t" ∈ row.eventTypes) ∧
      (service sampleDeployment).Meets (Spares sampleDeployment endpointId)
        [.tick (oneTick 3 (.ofNat 5))]
        (serve sampleDeployment publication ((service sampleDeployment).exec registration .empty)).2 := by
  obtain ⟨db₁, hauth⟩ : ∃ db₁, authenticate sampleDeployment.sha256
      (some (PyStr.ofString "whk_secret-of-a")) 2
      ((service sampleDeployment).exec registration .empty) = .ok (.ofNat 1, db₁) := ⟨_, rfl⟩
  have hanswer : (serve sampleDeployment publication ((service sampleDeployment).exec registration
      .empty)).1 = .ok (.ingested (.ofNat 4) 1) := rfl
  exact event_lists_iff (deliveredRun_admitted.mono fun h => h.1) hauth hanswer rfl

end Runs

end Hookit.Tenancy
