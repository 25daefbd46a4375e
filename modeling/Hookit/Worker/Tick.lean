import Hookit.Database
import Hookit.Worker.Batch

/-!
# `run_once` on the database

One tick of a worker as a transaction on the whole database: the recovery of leases, the claim of
due deliveries with their endpoints and events, the loop over them, and the commit, or the rollback
if the loop raises.

`MayClaim` is what the statement of `claim_due_deliveries` promises of the rows that it returns:
rows that another transaction has locked are skipped, and PostgreSQL may return rows that are due at
one time in any order. `get?_tick` says what a tick does to a delivery.
-/

namespace Hookit

open Foundations

/-! ## The rows as the worker sees them -/

/-- The columns that the worker reads. -/
def DeliveryRow.delivery (r : DeliveryRow) : Delivery where
  eventId := r.eventId.val
  endpointId := r.endpointId.val
  status := r.status
  attemptCount := r.attemptCount
  nextAttemptAt := r.nextAttemptAt
  leasedUntil := r.leasedUntil
  claimedBy := r.claimedBy

/-- The row with the columns that the worker writes. -/
def DeliveryRow.written (r : DeliveryRow) (d : Delivery) (updatedAt : Time) : DeliveryRow :=
  { r with
    status := d.status
    attemptCount := d.attemptCount
    nextAttemptAt := d.nextAttemptAt
    leasedUntil := d.leasedUntil
    claimedBy := d.claimedBy
    updatedAt }

def EndpointRow.endpoint (id : Uuid) (row : EndpointRow) : Endpoint where
  id := id.val
  projectId := row.projectId.val
  url := row.url
  eventTypes := row.eventTypes
  status := row.status
  payloadFormat := row.payloadFormat
  rateLimitRps := row.rateLimitRps

def EventRow.event (id : Uuid) (row : EventRow) : Event Json.StoredObject where
  id := id.val
  projectId := row.projectId.val
  type := row.type
  payload := row.payload
  idempotencyKey := row.idempotencyKey

/-- The row that an attempt is stored in. -/
def DeliveryAttempt.attemptRow (a : DeliveryAttempt) (deliveryId : Uuid) (createdAt : Time) :
    AttemptRow where
  deliveryId
  attemptNumber := a.attemptNumber
  responseStatus := a.responseStatus
  responseBody := a.responseBody
  error := a.error
  durationMs := some a.durationMs
  workerId := some a.workerId
  createdAt

/-- The row after `_recover_expired_leases`. -/
def DeliveryRow.recovered (now : Time) (r : DeliveryRow) : DeliveryRow :=
  if leaseExpired now r.delivery then r.written (recoverRow r.delivery) now else r

/-- The row after `claim_due_deliveries`, which has returned it. -/
def DeliveryRow.claim (cfg : Settings) (worker : PyStr) (now : Time) (r : DeliveryRow) :
    DeliveryRow :=
  r.written (claimRow cfg worker now r.delivery) now

/-! ## The tick -/

/-- What a tick draws, beside the rows that it claims. -/
structure TickDraws where
  /-- The worker's name. -/
  worker : PyStr
  /-- The clock of `_recover_expired_leases`. -/
  recoverNow : Time
  /-- The clock of `claim_due_deliveries`. -/
  claimNow : Time
  /-- The rows that the claim returns, in their order. -/
  claimed : List Uuid
  surroundings : Uuid → Surroundings Json.StoredObject
  /-- The `updated_at` of a delivery and the `created_at` of its attempt. -/
  settledAt : Uuid → Time
  /-- The id of the attempt on a delivery. -/
  attemptId : Uuid → Uuid

namespace Database

variable (db : Database)

/-- `_recover_expired_leases`. -/
def recoverExpiredLeases (now : Time) : Database :=
  { db with deliveries := db.deliveries.modify fun _ r => r.recovered now }

/-- The updates of `claim_due_deliveries`. -/
def claim (cfg : Settings) (worker : PyStr) (now : Time) (claimed : List Uuid) : Database :=
  { db with
    deliveries := db.deliveries.modify fun k r =>
      if claimed.contains k then r.claim cfg worker now else r }

/-- A claimed delivery with its endpoint and its event. -/
def claimed? (id : Uuid) : Option (Claimed Json.StoredObject) := do
  let r ← db.deliveries.get? id
  let endpoint ← db.endpoints.get? r.endpointId
  let event ← db.events.get? r.eventId
  return ⟨id.val, r.delivery, endpoint.endpoint r.endpointId, event.event r.eventId⟩

/-- The claimed deliveries with what the world supplies for each. -/
def batch (draws : TickDraws) :
    List (Uuid × Claimed Json.StoredObject × Surroundings Json.StoredObject) :=
  draws.claimed.filterMap fun id => (db.claimed? id).map fun c => (id, c, draws.surroundings id)

/-- What the loop leaves of a delivery. -/
def settledRow (draws : TickDraws) (settled : List (Uuid × Settled)) (k : Uuid) (r : DeliveryRow) :
    DeliveryRow :=
  match settled.find? fun e => e.1 = k with
  | some e => r.written e.2.row (draws.settledAt k)
  | none => r

/-- The attempts that the loop adds. -/
def newAttempts (draws : TickDraws) (settled : List (Uuid × Settled)) : List (Uuid × AttemptRow) :=
  settled.map fun e =>
    (draws.attemptId e.1, e.2.attempt.attemptRow e.1 (draws.settledAt e.1))

/-- The updates and inserts of the loop. -/
def settle (draws : TickDraws) (settled : List (Uuid × Settled)) : Database :=
  { db with
    deliveries := db.deliveries.modify (settledRow draws settled)
    attempts := db.attempts.insertAll (newAttempts draws settled) }

/-- The store in which the loop of `run_once` starts. -/
def claiming (cfg : Settings) (draws : TickDraws) : Database :=
  (db.recoverExpiredLeases draws.recoverNow).claim cfg draws.worker draws.claimNow draws.claimed

/-- The outcomes of the loop, with the deliveries that they are of. -/
def outcomes (lib : UrlLib) (cfg : Settings) (draws : TickDraws) :
    Except PyError (List (Uuid × Settled)) := do
  let batch := (db.claiming cfg draws).batch draws
  let outs ← processBatch lib cfg draws.worker [] (batch.map Prod.snd)
  return (batch.map Prod.fst).zip outs

end Database

/-- `run_once` and the commit or the rollback of `_worker_loop` after it. -/
def tick (lib : UrlLib) (cfg : Settings) (draws : TickDraws) (db : Database) : Database :=
  match db.outcomes lib cfg draws with
  | .ok settled => (db.claiming cfg draws).settle draws settled
  | .error _ => db

/-! ## What the loop returns -/

section Loop

variable {lib : UrlLib} {cfg : Settings} {worker : PyStr} {π : Type}

/-- The pause may only raise where the endpoint has been seen. -/
theorem pauseBefore_subset {seen seen' seen₁ : List EndpointId} {c : Claimed π}
    (hsub : seen' ⊆ seen) (h : pauseBefore seen c = .ok seen₁) :
    ∃ seen₂, pauseBefore seen' c = .ok seen₂ ∧ seen₂ ⊆ seen₁ := by
  obtain ⟨hiff, hmem⟩ := pauseBefore_spec seen c
  obtain ⟨hiff', hmem'⟩ := pauseBefore_spec seen' c
  obtain ⟨seen₂, h₂⟩ := hiff'.2 fun hc => hiff.1 ⟨seen₁, h⟩ (hsub hc)
  refine ⟨seen₂, h₂, fun e he => (hmem _ h e).2 ?_⟩
  exact ((hmem' _ h₂ e).1 he).imp (fun h => hsub h) id

theorem processBatch_cons_eq_ok_iff {seen : List EndpointId} {c : Claimed π}
    {env : Surroundings π} {rest : List (Claimed π × Surroundings π)} {outs : List Settled} :
    processBatch lib cfg worker seen ((c, env) :: rest) = .ok outs ↔
      ∃ seen' out outs', pauseBefore seen c = .ok seen' ∧
        processDelivery lib cfg worker c env = .ok out ∧
        processBatch lib cfg worker seen' rest = .ok outs' ∧ out :: outs' = outs := by
  simp only [processBatch, bind_eq_ok_iff, pure_eq_ok_iff]
  constructor
  · rintro ⟨seen', hseen, out, hout, outs', houts, heq⟩
    exact ⟨seen', out, outs', hseen, hout, houts, heq⟩
  · rintro ⟨seen', out, outs', hseen, hout, houts, heq⟩
    exact ⟨seen', hseen, out, hout, outs', houts, heq⟩

/-- There is one outcome for each delivery of the batch, what processing it returns. -/
theorem processBatch_spec {seen : List EndpointId}
    {batch : List (Uuid × Claimed π × Surroundings π)} {outs : List Settled}
    (h : processBatch lib cfg worker seen (batch.map Prod.snd) = .ok outs) :
    ((batch.map Prod.fst).zip outs).map Prod.fst = batch.map Prod.fst ∧
      ∀ e ∈ (batch.map Prod.fst).zip outs, ∃ b ∈ batch, b.1 = e.1 ∧
        processDelivery lib cfg worker b.2.1 b.2.2 = .ok e.2 := by
  induction batch generalizing seen outs with
  | nil => exact ⟨rfl, nofun⟩
  | cons b batch ih =>
    obtain ⟨k, c, env⟩ := b
    obtain ⟨seen', out, outs', -, hout, houts, rfl⟩ := processBatch_cons_eq_ok_iff.1 h
    obtain ⟨hkeys, hmem⟩ := ih houts
    refine ⟨congrArg (k :: ·) hkeys, fun e he => ?_⟩
    rcases List.mem_cons.1 he with rfl | he
    · exact ⟨_, List.mem_cons_self, rfl, hout⟩
    · obtain ⟨b, hb, hkey, hout⟩ := hmem e he
      exact ⟨b, List.mem_cons_of_mem _ hb, hkey, hout⟩

/-- **A part of a batch** that is processed is processed to the same outcomes alone. -/
theorem processBatch_filter (p : Uuid → Bool) {seen seen' : List EndpointId}
    {batch : List (Uuid × Claimed π × Surroundings π)} {outs : List Settled}
    (hsub : seen' ⊆ seen)
    (h : processBatch lib cfg worker seen (batch.map Prod.snd) = .ok outs) :
    ∃ outs', processBatch lib cfg worker seen' ((batch.filter fun b => p b.1).map Prod.snd) =
        .ok outs' ∧
      ((batch.filter fun b => p b.1).map Prod.fst).zip outs' =
        ((batch.map Prod.fst).zip outs).filter fun e => p e.1 := by
  induction batch generalizing seen seen' outs with
  | nil => exact ⟨[], rfl, rfl⟩
  | cons b batch ih =>
    obtain ⟨k, c, env⟩ := b
    obtain ⟨seen₁, out, outs₁, hseen, hout, houts, rfl⟩ := processBatch_cons_eq_ok_iff.1 h
    cases hk : p k with
    | true =>
      obtain ⟨seen₂, hseen₂, hsub₂⟩ := pauseBefore_subset hsub hseen
      obtain ⟨outs', houts', hzip⟩ := ih hsub₂ houts
      refine ⟨out :: outs', ?_, ?_⟩
      · simp only [List.filter_cons, hk, if_true, List.map_cons]
        exact processBatch_cons_eq_ok_iff.2 ⟨seen₂, out, outs', hseen₂, hout, houts', rfl⟩
      · simp [hk, hzip]
    | false =>
      have hsub₁ : seen' ⊆ seen₁ := fun e he =>
        ((pauseBefore_spec seen c).2 _ hseen e).2 (.inl (hsub he))
      obtain ⟨outs', houts', hzip⟩ := ih hsub₁ houts
      exact ⟨outs', by simpa [hk] using houts', by simp [hk, hzip]⟩

end Loop

/-! ## What a tick does to a delivery -/

section Rows

variable {lib : UrlLib} {cfg : Settings} {draws : TickDraws} {db : Database}
  {settled : List (Uuid × Settled)}

theorem outcomes_eq_ok_iff : db.outcomes lib cfg draws = .ok settled ↔
    ∃ outs, processBatch lib cfg draws.worker []
        (((db.claiming cfg draws).batch draws).map Prod.snd) = .ok outs ∧
      (((db.claiming cfg draws).batch draws).map Prod.fst).zip outs = settled := by
  simp only [Database.outcomes, bind_eq_ok_iff, pure_eq_ok_iff]

/-- What a delivery is when the loop starts. -/
def claimingRow (cfg : Settings) (draws : TickDraws) (k : Uuid) (r : DeliveryRow) : DeliveryRow :=
  if draws.claimed.contains k then
    (r.recovered draws.recoverNow).claim cfg draws.worker draws.claimNow
  else r.recovered draws.recoverNow

theorem claimingRow_of_mem {k : Uuid} (h : k ∈ draws.claimed) (r : DeliveryRow) :
    claimingRow cfg draws k r =
      (r.recovered draws.recoverNow).claim cfg draws.worker draws.claimNow :=
  if_pos (List.contains_iff_mem.2 h)

theorem claimingRow_of_notMem {k : Uuid} (h : k ∉ draws.claimed) (r : DeliveryRow) :
    claimingRow cfg draws k r = r.recovered draws.recoverNow :=
  if_neg fun hc => h (List.contains_iff_mem.1 hc)

theorem deliveries_claiming : (db.claiming cfg draws).deliveries =
    db.deliveries.modify (claimingRow cfg draws) :=
  Rows.modify_modify (T := db.deliveries) (fun _ r => r.recovered draws.recoverNow)
    fun k r => if draws.claimed.contains k then r.claim cfg draws.worker draws.claimNow else r

theorem get?_claiming (k : Uuid) : (db.claiming cfg draws).deliveries.get? k =
    (db.deliveries.get? k).map (claimingRow cfg draws k) := by
  rw [deliveries_claiming, Rows.get?_modify]

theorem tick_of_ok (h : db.outcomes lib cfg draws = .ok settled) :
    tick lib cfg draws db = (db.claiming cfg draws).settle draws settled := by
  rw [tick, h]

theorem tick_of_error {e : PyError} (h : db.outcomes lib cfg draws = .error e) :
    tick lib cfg draws db = db := by
  rw [tick, h]

@[simp] theorem recovered_eventId (now : Time) (r : DeliveryRow) :
    (r.recovered now).eventId = r.eventId := by
  unfold DeliveryRow.recovered
  split <;> rfl

@[simp] theorem recovered_endpointId (now : Time) (r : DeliveryRow) :
    (r.recovered now).endpointId = r.endpointId := by
  unfold DeliveryRow.recovered
  split <;> rfl

@[simp] theorem recovered_attemptCount (now : Time) (r : DeliveryRow) :
    (r.recovered now).attemptCount = r.attemptCount := by
  unfold DeliveryRow.recovered
  split <;> rfl

theorem mem_batch_iff {b : Uuid × Claimed Json.StoredObject × Surroundings Json.StoredObject} :
    b ∈ db.batch draws ↔ b.1 ∈ draws.claimed ∧ db.claimed? b.1 = some b.2.1 ∧
      b.2.2 = draws.surroundings b.1 := by
  obtain ⟨k, c, env⟩ := b
  simp only [Database.batch, List.mem_filterMap, Option.map_eq_some_iff, Prod.mk.injEq]
  constructor
  · rintro ⟨_, hk, c', hc, rfl, rfl, rfl⟩
    exact ⟨hk, hc, rfl⟩
  · rintro ⟨hk, hc, rfl⟩
    exact ⟨k, hk, c, hc, rfl, rfl, rfl⟩

/-- The deliveries of a batch are among the claimed ones, in their order. -/
theorem batch_sublist (draws : TickDraws) (db : Database) :
    ((db.batch draws).map Prod.fst).Sublist draws.claimed := by
  unfold Database.batch
  induction draws.claimed with
  | nil => exact .slnil
  | cons k l ih =>
    rw [List.filterMap_cons]
    cases db.claimed? k with
    | none => exact ih.cons k
    | some c => exact ih.cons_cons k

theorem outcomes_keys (h : db.outcomes lib cfg draws = .ok settled) :
    settled.map Prod.fst = ((db.claiming cfg draws).batch draws).map Prod.fst := by
  obtain ⟨outs, houts, rfl⟩ := outcomes_eq_ok_iff.1 h
  exact (processBatch_spec houts).1

theorem outcomes_nodup (hnodup : draws.claimed.Nodup)
    (h : db.outcomes lib cfg draws = .ok settled) : (settled.map Prod.fst).Nodup := by
  rw [outcomes_keys h]
  exact (batch_sublist draws _).nodup hnodup

/-- An outcome is of a delivery that was claimed. -/
theorem mem_outcomes (h : db.outcomes lib cfg draws = .ok settled) {e : Uuid × Settled}
    (he : e ∈ settled) : e.1 ∈ draws.claimed ∧ ∃ c,
      (db.claiming cfg draws).claimed? e.1 = some c ∧
        processDelivery lib cfg draws.worker c (draws.surroundings e.1) = .ok e.2 := by
  obtain ⟨outs, houts, rfl⟩ := outcomes_eq_ok_iff.1 h
  obtain ⟨b, hb, hkey, hout⟩ := (processBatch_spec houts).2 e he
  obtain ⟨hclaimed, hc, henv⟩ := mem_batch_iff.1 hb
  rw [← hkey]
  exact ⟨hclaimed, b.2.1, hc, henv ▸ hout⟩

end Rows

/-! ## The rows that are claimed -/

/-- The statement of `claim_due_deliveries` may return these rows: due ones that nobody has locked,
first due first, and if not all of them then a full batch of the first. -/
structure MayClaim (cfg : Settings) (now : Time) (locked : Uuid → Prop) (db : Database)
    (claimed : List Uuid) : Prop where
  nodup : claimed.Nodup
  due : ∀ id ∈ claimed, ∃ r, db.deliveries.get? id = some r ∧ isDue now r.delivery = true ∧
    ¬ locked id
  sorted : claimed.Pairwise fun id id' => ∀ r r', db.deliveries.get? id = some r →
    db.deliveries.get? id' = some r' → r.nextAttemptAt ≤ r'.nextAttemptAt
  length : claimed.length ≤ cfg.workerBatchSize
  full : ∀ id r, db.deliveries.get? id = some r → isDue now r.delivery = true → ¬ locked id →
    id ∉ claimed → claimed.length = cfg.workerBatchSize ∧
      ∀ id' ∈ claimed, ∀ r', db.deliveries.get? id' = some r' → r'.nextAttemptAt ≤ r.nextAttemptAt

/-- The rows that are claimed if rows that are due at one time come in the order of insertion. -/
def claimDueDeliveries (cfg : Settings) (now : Time) (locked : Uuid → Bool) (db : Database) :
    List Uuid :=
  (((db.deliveries.select fun k r => isDue now r.delivery && !locked k).mergeSort
    fun a b => a.2.nextAttemptAt ≤ b.2.nextAttemptAt).take cfg.workerBatchSize).map Prod.fst

/-- **The claim** returns rows that it may return. -/
theorem mayClaim_claimDueDeliveries (cfg : Settings) (now : Time) (locked : Uuid → Bool)
    (db : Database) :
    MayClaim cfg now (fun k => locked k = true) db (claimDueDeliveries cfg now locked db) := by
  set rows := db.deliveries.select fun k r => isDue now r.delivery && !locked k with hrows
  set le : Uuid × DeliveryRow → Uuid × DeliveryRow → Bool :=
    fun a b => a.2.nextAttemptAt ≤ b.2.nextAttemptAt with hle
  set sorted := rows.mergeSort le with hsorted
  have hperm : sorted.Perm rows := List.mergeSort_perm rows le
  have hnodup : (sorted.map Prod.fst).Nodup :=
    (hperm.map Prod.fst).nodup_iff.2 (db.deliveries.nodup_select _)
  have hpairwise : sorted.Pairwise fun a b => a.2.nextAttemptAt ≤ b.2.nextAttemptAt := by
    have hle_sorted : sorted.Pairwise fun a b => le a b = true :=
      List.pairwise_mergeSort ?_ ?_ rows
    · exact hle_sorted.imp of_decide_eq_true
    · intro a b c hab hbc
      exact decide_eq_true ((of_decide_eq_true hab).trans (of_decide_eq_true hbc))
    · intro a b
      simpa [hle] using le_total a.2.nextAttemptAt b.2.nextAttemptAt
  have hget : ∀ e ∈ sorted, db.deliveries.get? e.1 = some e.2 ∧ isDue now e.2.delivery = true ∧
      locked e.1 = false := by
    intro e he
    obtain ⟨hmem, hdue⟩ := Rows.mem_select.1 (hperm.mem_iff.1 he)
    simp only [Bool.and_eq_true, Bool.not_eq_true'] at hdue
    exact ⟨Rows.get?_eq_some_iff.2 hmem, hdue⟩
  have hval : ∀ e ∈ sorted, ∀ r, db.deliveries.get? e.1 = some r → r = e.2 := fun e he r hr =>
    Option.some.inj (hr.symm.trans (hget e he).1)
  have htake : claimDueDeliveries cfg now locked db =
      (sorted.take cfg.workerBatchSize).map Prod.fst := rfl
  rw [htake]
  refine ⟨?nodup, ?due, ?sorted, by simp, ?full⟩
  case nodup =>
    rw [List.map_take]
    exact (List.take_sublist _ _).nodup hnodup
  case due =>
    intro id hid
    obtain ⟨e, he, rfl⟩ := List.mem_map.1 hid
    obtain ⟨hr, hdue, hfree⟩ := hget e (List.mem_of_mem_take he)
    exact ⟨e.2, hr, hdue, by simp [hfree]⟩
  case sorted =>
    rw [List.pairwise_map]
    refine (hpairwise.sublist (List.take_sublist _ _)).imp_of_mem ?_
    intro a b ha hb hab r r' hr hr'
    rwa [hval a (List.mem_of_mem_take ha) r hr, hval b (List.mem_of_mem_take hb) r' hr']
  case full =>
    intro id r hr hdue hfree hid
    have hmem : (id, r) ∈ sorted := by
      refine hperm.mem_iff.2 (Rows.mem_select.2 ⟨Rows.get?_eq_some_iff.1 hr, ?_⟩)
      simpa [hdue] using hfree
    have hdrop : (id, r) ∈ sorted.drop cfg.workerBatchSize := by
      rw [← List.take_append_drop cfg.workerBatchSize sorted, List.mem_append] at hmem
      exact hmem.resolve_left fun h => hid (List.mem_map_of_mem h)
    have hlong : cfg.workerBatchSize < sorted.length := by
      by_contra hshort
      rw [List.drop_eq_nil_of_le (not_lt.1 hshort)] at hdrop
      cases hdrop
    refine ⟨by simp [hlong.le], fun id' hid' r' hr' => ?_⟩
    obtain ⟨e, he, rfl⟩ := List.mem_map.1 hid'
    rw [hval e (List.mem_of_mem_take he) r' hr']
    rw [← List.take_append_drop cfg.workerBatchSize sorted, List.pairwise_append] at hpairwise
    exact hpairwise.2.2 e he (id, r) hdrop

end Hookit
