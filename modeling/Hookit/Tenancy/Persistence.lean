import Hookit.Tenancy.Keys
import Hookit.Tenancy.Progress

/-!
# What a run leaves of a delivery

`kept_exec`: a delivery is there until its endpoint is deleted, for the same event and endpoint; it
is never attempted less often, and once it has succeeded nothing of it changes, unless a redrive
that has checked it earlier commits too late. With it its owner (`deliveryOwner_exec`) and the
project that a key belongs to (`Holds.eq_of_authenticate`) stay.
-/

namespace Hookit.Tenancy

open Foundations Foundations.Service Handles

variable {D : Deployment} {p : Uuid} {db db' : Database}

/-- What a delivery keeps, and what it keeps under a condition once it has succeeded. -/
structure Kept (inTime : Prop) (r r' : DeliveryRow) : Prop where
  eventId : r'.eventId = r.eventId
  endpointId : r'.endpointId = r.endpointId
  createdAt : r'.createdAt = r.createdAt
  attemptCount : r.attemptCount ≤ r'.attemptCount
  succeeded : inTime → r.status = .succeeded → r' = r

variable {inTime inTime' : Prop}

theorem Kept.refl (r : DeliveryRow) : Kept inTime r r := ⟨rfl, rfl, rfl, le_rfl, fun _ _ => rfl⟩

theorem Kept.trans {r r' r'' : DeliveryRow} (h : Kept inTime r r') (h' : Kept inTime' r' r'') :
    Kept (inTime ∧ inTime') r r'' where
  eventId := h'.eventId.trans h.eventId
  endpointId := h'.endpointId.trans h.endpointId
  createdAt := h'.createdAt.trans h.createdAt
  attemptCount := h.attemptCount.trans h'.attemptCount
  succeeded hin hs := by
    obtain rfl := h.succeeded hin.1 hs
    exact h'.succeeded hin.2 hs

/-- Not the deletion of the endpoint, or one that is refused. -/
def Spares (D : Deployment) (endpointId : Uuid) (a : Action D.maxEventPayloadBytes)
    (db : Database) : Prop :=
  ∀ credentials now answer, a = .request credentials now (.deleteEndpoint endpointId) →
    (serve D a db).1 ≠ .ok answer

/-- Not the commit of a redrive that finds the delivery succeeded. -/
def InTime {maxBytes : ℕ} (deliveryId : Uuid) (a : Action maxBytes) (db : Database) : Prop :=
  ∀ project leased now updatedAt r, a = .commitRedrive project deliveryId leased now updatedAt →
    db.deliveries.get? deliveryId = some r → r.status ≠ .succeeded

/-! ## One transaction -/

theorem kept_moves {call : Call D.maxEventPayloadBytes} (h : Moves call db db') {k : Uuid}
    {r : DeliveryRow} (hr : db.deliveries.get? k = some r)
    (hspared : call ≠ .deleteEndpoint r.endpointId) :
    ∃ r', db'.deliveries.get? k = some r' ∧ Kept inTime r r' := by
  cases h with
  | same hd _ => exact ⟨r, by rw [hd, hr], .refl r⟩
  | deleted endpointId hcall hd _ =>
    refine ⟨r, ?_, .refl r⟩
    have hne : r.endpointId ≠ endpointId := by
      rintro rfl
      exact hspared hcall
    have hget : (db.dropEndpoint endpointId).deliveries.get? k =
        (db.deliveries.get? k).filter fun r => r.endpointId ≠ endpointId := Rows.get?_filter _
    rw [hd, hget, hr, Option.filter_some, if_pos (decide_eq_true hne)]
  | created ds _ hunused _ hd _ =>
    refine ⟨r, ?_, .refl r⟩
    rw [hd]
    exact (Rows.get?_insertAll hunused).2 (.inl hr)
  | redriven k' r' leased now updatedAt _ hr' hdead hd _ =>
    rw [hd, Rows.get?_modifyAt]
    split
    · next hk =>
      subst hk
      obtain rfl := Option.some.inj (hr.symm.trans hr')
      refine ⟨r.redriven leased now updatedAt, by rw [hr, Option.map_some], rfl, rfl, rfl, le_rfl, ?_⟩
      intro _ hs
      rw [hs] at hdead
      cases hdead
    · exact ⟨r, hr, .refl r⟩

theorem kept_recovered (now : Time) (r : DeliveryRow) : Kept inTime r (r.recovered now) := by
  unfold DeliveryRow.recovered
  split
  · next hexpired =>
    have hstatus : r.status = .inFlight := (of_decide_eq_true hexpired).1
    refine ⟨rfl, rfl, rfl, le_rfl, fun _ hs => ?_⟩
    rw [hstatus] at hs
    cases hs
  · exact .refl r

theorem kept_tick {draws : TickDraws} {settled : List (Uuid × Settled)}
    (hclaim : ClaimsDue D.settings draws db)
    (h : db.outcomes D.urls D.settings draws = .ok settled) {k : Uuid} {r : DeliveryRow}
    (hr : db.deliveries.get? k = some r) :
    ∃ r', (tick D.urls D.settings draws db).deliveries.get? k = some r' ∧ Kept inTime r r' := by
  refine ⟨tickRow D.settings draws settled k r, ?_, ?_⟩
  · rw [deliveries_tick h, Rows.get?_modify, hr, Option.map_some]
  -- a row that is claimed or written is not finished
  have hclaiming : Kept inTime r (claimingRow D.settings draws k r) := by
    by_cases hk : k ∈ draws.claimed
    · obtain ⟨r', hr', hdue⟩ := exists_of_mem_claimed hclaim hk
      obtain rfl := Option.some.inj (hr'.symm.trans hr)
      rw [claimingRow_of_mem hk]
      have hrecovered : Kept inTime r' _ := kept_recovered draws.recoverNow r'
      refine ⟨hrecovered.eventId, hrecovered.endpointId, hrecovered.createdAt,
        hrecovered.attemptCount, fun _ hs => absurd (.inl hs) hdue⟩
    · rw [claimingRow_of_notMem hk]
      exact kept_recovered draws.recoverNow r
  rcases tickRow_cases hclaim h hr with ⟨hnot, out, -, -, hcount, -, hrow⟩ | ⟨-, hrow⟩
  · rw [hrow]
    refine ⟨hclaiming.eventId, hclaiming.endpointId, hclaiming.createdAt, ?_,
      fun _ hs => absurd (.inl hs) hnot⟩
    simp only [DeliveryRow.written, hcount]
    omega
  · rw [hrow]
    exact hclaiming

/-- **A transaction keeps a delivery**, unless it deletes the endpoint, and a succeeded one as it is
unless it redrives it too late. -/
theorem kept_serve {a : Action D.maxEventPayloadBytes} (ha : Admitted D a db) {k : Uuid}
    {r : DeliveryRow} (hr : db.deliveries.get? k = some r) (hspared : Spares D r.endpointId a db) :
    ∃ r', (serve D a db).2.deliveries.get? k = some r' ∧ Kept (InTime k a db) r r' := by
  rcases moves_serve ha.1 with ⟨hd, -⟩ | ⟨credentials, now, call, answer, rfl, hanswer, hmoves⟩ |
    ⟨project, k', leased, now, updatedAt, -, rfl, -, hd, -⟩ | ⟨draws, settled, rfl, hout⟩
  · exact ⟨r, by rw [hd, hr], .refl r⟩
  · refine kept_moves hmoves hr ?_
    rintro rfl
    exact hspared credentials now answer rfl hanswer
  · rw [hd, Rows.get?_modifyAt]
    split
    · next hk =>
      subst hk
      exact ⟨r.redriven leased now updatedAt, by rw [hr, Option.map_some], rfl, rfl, rfl, le_rfl,
        fun hin hs => absurd hs (hin project leased now updatedAt r rfl hr)⟩
    · exact ⟨r, hr, .refl r⟩
  · exact kept_tick ha.2 hout hr

/-- **A transaction keeps the events.** -/
theorem events_serve {a : Action D.maxEventPayloadBytes} {k : Uuid} {event : EventRow}
    (h : db.events.get? k = some event) : (serve D a db).2.events.get? k = some event := by
  rcases serve_cases a db with hsame |
    ⟨credentials, now, call, q, db₁, y, rfl, hauth, hroute, hserve⟩ |
    ⟨project, k', leased, now, updatedAt, r, rfl, -, hserve⟩ | ⟨draws, settled, rfl, hout⟩
  · rw [hsame.events, h]
  · obtain ⟨_, _, keyId, _, -, -, -, -, -, rfl⟩ := authenticate_eq_ok_iff.1 hauth
    rw [hserve]
    exact (kept_handle hroute).2.1 k event h
  · rw [hserve]
    exact h
  · simp only [serve, tick_of_ok hout]
    exact h

/-! ## Runs -/

section Runs

variable {l : List (Action D.maxEventPayloadBytes)} {k : Uuid} {r : DeliveryRow}

/-- **A run keeps a delivery**, unless it deletes the endpoint. -/
theorem kept_exec (hl : (service D).Meets (Admitted D) l db)
    (hspared : (service D).Meets (Spares D r.endpointId) l db)
    (hr : db.deliveries.get? k = some r) :
    ∃ r', ((service D).exec l db).deliveries.get? k = some r' ∧
      Kept ((service D).Meets (InTime k) l db) r r' := by
  induction l generalizing db r with
  | nil => exact ⟨r, hr, .refl r⟩
  | cons a l ih =>
    obtain ⟨r₁, hr₁, hkept⟩ := kept_serve hl.1 hr hspared.1
    have hspared₁ := hspared.2
    rw [← hkept.endpointId] at hspared₁
    obtain ⟨r', hr', hkept'⟩ := ih hl.2 hspared₁ hr₁
    exact ⟨r', hr', hkept.trans hkept'⟩

theorem events_exec {event : EventRow} (h : db.events.get? k = some event) :
    ((service D).exec l db).events.get? k = some event := by
  induction l generalizing db with
  | nil => exact h
  | cons a l ih => exact ih (events_serve h)

theorem integral_of_admitted (hdb : Integral db) (hl : (service D).Meets (Admitted D) l db) :
    Integral ((service D).exec l db) :=
  hl.invariant (fun hs ha => integral_serve hs ha.1) hdb

/-- Its owner is the project of its event. -/
theorem deliveryOwner_exec (hdb : Integral db) (hl : (service D).Meets (Admitted D) l db)
    (hspared : (service D).Meets (Spares D r.endpointId) l db)
    (hr : db.deliveries.get? k = some r) (howner : deliveryOwner db k = some p) :
    deliveryOwner ((service D).exec l db) k = some p := by
  obtain ⟨r', hr', hkept⟩ := kept_exec hl hspared hr
  obtain ⟨event, hevent, hown⟩ := (hdb.deliveries k r hr).owner
  obtain ⟨event', hevent', hown'⟩ := ((integral_of_admitted hdb hl).deliveries k r' hr').owner
  rw [hkept.eventId, events_exec hevent] at hevent'
  obtain rfl := Option.some.inj hevent'
  rw [deliveryOwner, hr, Option.bind_some] at howner
  rw [deliveryOwner, hr', Option.bind_some, hown', ← hown, howner]

/-- **A delivery that the API has shown** is shown as long as its endpoint is not deleted, for the
same event and endpoint, never with fewer attempts, and once it has succeeded as it is if no redrive
comes too late. -/
theorem getDelivery_exec (hdb : Integral db) (hl : (service D).Meets (Admitted D) l db)
    {delivery : DeliveryResponse} (h : getDelivery p k db = .ok delivery)
    (hspared : (service D).Meets (Spares D delivery.endpointId) l db) :
    ∃ delivery', getDelivery p k ((service D).exec l db) = .ok delivery' ∧
      delivery'.eventId = delivery.eventId ∧ delivery'.endpointId = delivery.endpointId ∧
      delivery'.createdAt = delivery.createdAt ∧
      delivery.attemptCount ≤ delivery'.attemptCount ∧
      ((service D).Meets (InTime k) l db → delivery.status = .succeeded →
        delivery' = delivery) := by
  have howner := exists_getDelivery_iff.1 ⟨delivery, h⟩
  obtain ⟨r, hr, hdelivery⟩ := bind_eq_ok_iff.1 h
  obtain rfl := pure_eq_ok_iff.1 hdelivery
  have hr := (getOr404_eq_ok_iff.1 hr).1
  obtain ⟨r', hr', hkept⟩ := kept_exec hl hspared hr
  obtain ⟨delivery', h'⟩ :=
    exists_getDelivery_iff.2 (deliveryOwner_exec hdb hl hspared hr howner)
  obtain ⟨r'', hr'', hdelivery'⟩ := bind_eq_ok_iff.1 h'
  obtain rfl := Option.some.inj (hr'.symm.trans (getOr404_eq_ok_iff.1 hr'').1)
  obtain rfl := pure_eq_ok_iff.1 hdelivery'
  refine ⟨_, h', hkept.eventId, hkept.endpointId, hkept.createdAt, hkept.attemptCount,
    fun hin hs => ?_⟩
  rw [hkept.succeeded hin hs]

/-- After `deliveredRun`: a second event, whose delivery fails, is redriven twice and succeeds. The
redrive of the first delivery is refused. -/
def laterRun : List (Action sampleDeployment.maxEventPayloadBytes) :=
  [publicationOf "whk_secret-of-a" 4 7 8,
    .tick (tickOf 5 (.ofNat 8) (.ofNat 9) 500),
    .request (some (PyStr.ofString "whk_secret-of-a")) 6 (.redriveDelivery (.ofNat 8) 6 6),
    .commitRedrive (.ofNat 1) (.ofNat 8) true 7 7,
    .request (some (PyStr.ofString "whk_secret-of-a")) 8 (.redriveDelivery (.ofNat 5) 8 8),
    .tick (tickOf 9 (.ofNat 8) (.ofNat 10) 200)]

/-- The store after `deliveredRun`. -/
def deliveredStore : Database := (service sampleDeployment).exec deliveredRun .empty

theorem laterRun_admitted : (service sampleDeployment).Meets (Admitted sampleDeployment) laterRun
    deliveredStore := by
  refine ⟨⟨?_, trivial⟩, ⟨newAttempts_tickOf rfl, claimsDue_of_eq (by decide +kernel)⟩,
    ⟨fun _ _ _ => trivial, trivial⟩, ⟨fun _ _ => rfl, trivial⟩, ⟨fun _ _ _ => trivial, trivial⟩,
    ⟨newAttempts_tickOf rfl, claimsDue_of_eq (by decide +kernel)⟩, trivial⟩
  intro project db' h
  obtain ⟨rfl, rfl⟩ := Prod.mk.inj (Except.ok.inj h)
  exact ⟨rfl, List.nodup_singleton _, fun e he => by rw [List.mem_singleton.1 he]; rfl⟩

theorem laterRun_spares (endpointId : Uuid) : (service sampleDeployment).Meets
    (Spares sampleDeployment endpointId) laterRun deliveredStore := by
  refine ⟨?_, ?_, ?_, ?_, ?_, ?_, trivial⟩ <;>
  · intro credentials now answer hcall
    cases hcall

theorem laterRun_inTime : (service sampleDeployment).Meets (InTime (.ofNat 5)) laterRun
    deliveredStore := by
  refine ⟨?_, ?_, ?_, ?_, ?_, ?_, trivial⟩ <;>
  · intro project leased now updatedAt r hcall
    cases hcall

/-- The delivery of `deliveredRun` is shown as it was. -/
theorem getDelivery_exec_laterRun :
    ∃ delivery delivery', getDelivery (.ofNat 1) (.ofNat 5) deliveredStore = .ok delivery ∧
      getDelivery (.ofNat 1) (.ofNat 5)
        ((service sampleDeployment).exec laterRun deliveredStore) = .ok delivery' ∧
      delivery.status = .succeeded ∧ delivery' = delivery := by
  obtain ⟨delivery, h, hs⟩ : ∃ delivery, getDelivery (.ofNat 1) (.ofNat 5) deliveredStore =
      .ok delivery ∧ delivery.status = .succeeded := ⟨_, rfl, rfl⟩
  obtain ⟨delivery', h', -, -, -, -, hsame⟩ := getDelivery_exec
    (integral_of_admitted integral_empty deliveredRun_admitted) laterRun_admitted h
    (laterRun_spares _)
  exact ⟨delivery, delivery', h, h', hs, hsame laterRun_inTime hs⟩

/-! ## The project of a key -/

/-- The request carries a key of the project, whether it is revoked or not. -/
def Holds (D : Deployment) (credentials : Option PyStr) (p : Uuid) (db : Database) : Prop :=
  ∃ token keyId row, credentials = some token ∧
    hashApiKey D.sha256 token = .ok row.keyHash ∧ db.apiKeys.get? keyId = some row ∧
    row.projectId = p

variable {credentials : Option PyStr} {now : Time}

theorem holds_of_authenticate (h : authenticate D.sha256 credentials now db = .ok (p, db')) :
    Holds D credentials p db := by
  obtain ⟨token, keyHash, keyId, row, htoken, hhash, hfound, -, hproject, -⟩ :=
    authenticate_eq_ok_iff.1 h
  have hmem : (keyId, row) ∈ db.store.keysHashed keyHash := by simp [hfound]
  obtain rfl := of_decide_eq_true (Rows.mem_select.1 hmem).2
  exact ⟨token, keyId, row, htoken, hhash, get?_of_keysHashed hfound, hproject⟩

theorem Holds.serve (h : Holds D credentials p db) {a : Action D.maxEventPayloadBytes}
    (ha : Unused D a db) : Holds D credentials p (serve D a db).2 := by
  obtain ⟨token, keyId, row, htoken, hhash, hrow, hproject⟩ := h
  obtain ⟨row', hrow', hhash', hproject'⟩ := (keyMoves_serve ha).kept hrow
  exact ⟨token, keyId, row', htoken, by rw [hhash', hhash], hrow', hproject'.trans hproject⟩

theorem Holds.exec (h : Holds D credentials p db) (hl : (service D).Meets (Admitted D) l db) :
    Holds D credentials p ((service D).exec l db) :=
  hl.invariant (P := Holds D credentials p) (fun hs ha => hs.serve ha.1) h

/-- **A key belongs to one project.** -/
theorem Holds.eq_of_authenticate (h : Holds D credentials p db) (hdb : Integral db) {q : Uuid}
    (hauth : authenticate D.sha256 credentials now db = .ok (q, db')) : q = p := by
  obtain ⟨token, keyId, row, htoken, hhash, hrow, rfl⟩ := h
  obtain ⟨token', keyId', row', htoken', hhash', hrow', rfl⟩ := holds_of_authenticate hauth
  obtain rfl := Option.some.inj (htoken.symm.trans htoken')
  have hkey := hdb.keyHash keyId keyId' row row' hrow hrow'
    (Except.ok.inj (hhash.symm.trans hhash'))
  subst hkey
  rw [Option.some.inj (hrow.symm.trans hrow')]

end Runs

end Hookit.Tenancy
