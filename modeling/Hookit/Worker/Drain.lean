import Hookit.Foundations.Totals
import Hookit.Worker.Tick

/-!
# What is left to do for the workers

`remaining` is the number of attempts that the deliveries of a store may still get, and `allowance`
counts with them those that a finished delivery has not used. Every outcome of a tick lowers
both by one (`length_add_remaining_tick_le`, `length_add_allowance_tick_le`), and a tick of an only
worker has an outcome if something is due (`outcomes_ne_nil`).
-/

namespace Hookit

open Foundations

/-- `max(1, max_delivery_attempts)`: a first attempt is always made. -/
def Settings.attempts (cfg : Settings) : ℕ := max 1 cfg.maxDeliveryAttempts.toNat

/-- The delivery is succeeded or dead-lettered. -/
def DeliveryRow.Finished (r : DeliveryRow) : Prop :=
  r.status = .succeeded ∨ r.status = .deadLettered

instance (r : DeliveryRow) : Decidable r.Finished := by
  unfold DeliveryRow.Finished
  infer_instance

/-- The attempts that a delivery may still get, if nobody redrives it. -/
def DeliveryRow.remaining (cfg : Settings) (r : DeliveryRow) : ℕ :=
  if r.Finished then 0 else max 1 (cfg.attempts - r.attemptCount)

/-- The attempts that a delivery may still get, beside one for each time that it is redriven. -/
def DeliveryRow.allowance (cfg : Settings) (r : DeliveryRow) : ℕ :=
  if r.Finished then cfg.attempts - r.attemptCount else max 1 (cfg.attempts - r.attemptCount)

theorem DeliveryRow.allowance_bounds (cfg : Settings) (r : DeliveryRow) :
    cfg.attempts - r.attemptCount ≤ r.allowance cfg ∧
      r.allowance cfg ≤ max 1 (cfg.attempts - r.attemptCount) := by
  unfold DeliveryRow.allowance
  split
  · exact ⟨le_rfl, le_max_right _ _⟩
  · exact ⟨le_max_right _ _, le_rfl⟩

/-- The attempts that are left in a store. -/
def Database.remaining (cfg : Settings) (db : Database) : ℕ :=
  db.deliveries.total (DeliveryRow.remaining cfg)

/-- The allowances of a store. -/
def Database.allowance (cfg : Settings) (db : Database) : ℕ :=
  db.deliveries.total (DeliveryRow.allowance cfg)

variable {lib : UrlLib} {cfg : Settings} {draws : TickDraws} {db : Database}
  {settled : List (Uuid × Settled)}

theorem remaining_eq_zero_iff {r : DeliveryRow} : r.remaining cfg = 0 ↔ r.Finished := by
  unfold DeliveryRow.remaining
  split
  · next h => exact ⟨fun _ => h, fun _ => rfl⟩
  · next h => exact ⟨fun hzero => by omega, fun hf => absurd hf h⟩

/-- **Nothing is left** exactly if every delivery is succeeded or dead-lettered. -/
theorem database_remaining_eq_zero_iff : db.remaining cfg = 0 ↔
    ∀ k r, db.deliveries.get? k = some r → r.Finished := by
  simp only [Database.remaining, Rows.total_eq_zero_iff, remaining_eq_zero_iff]

/-! ## One delivery -/

/-- **An outcome is one more attempt**, and there is another one to come only below the limit. -/
theorem processDelivery_status {π : Type} {worker : PyStr} {c : Claimed π} {env : Surroundings π}
    {out : Settled} (h : processDelivery lib cfg worker c env = .ok out) :
    out.row.attemptCount = c.row.attemptCount + 1 ∧
      (out.row.status = .succeeded ∨ out.row.status = .deadLettered ∨
        out.row.status = .pending ∧ c.row.attemptCount + 1 < cfg.attempts) := by
  unfold processDelivery at h
  rcases prepareDelivery_cases lib c.endpoint c.event c.row env.timestamp with
    ⟨-, hp | ⟨request, -, -, hp⟩⟩ | ⟨-, e, hp⟩ <;> rw [hp] at h
  · obtain ⟨-, rfl⟩ := refuseDelivery_eq_ok_iff.1 h
    exact ⟨rfl, .inr (.inl rfl)⟩
  · obtain ⟨hdecide, -⟩ := settleDelivery_eq_ok_iff.1 h
    rcases decideDelivery_eq_ok_iff.1 hdecide with ⟨-, hrow⟩ | ⟨-, -, hrow⟩ | ⟨-, hlt, -, hrow⟩ <;>
      rw [hrow]
    · exact ⟨rfl, .inl rfl⟩
    · exact ⟨rfl, .inr (.inl rfl)⟩
    · refine ⟨rfl, .inr (.inr ⟨rfl, ?_⟩)⟩
      unfold Settings.attempts
      omega
  · cases h

/-- A row that `claim_due_deliveries` may return is not finished. -/
theorem not_finished_of_isDue {now claimNow : Time} {r : DeliveryRow}
    (h : isDue claimNow (r.recovered now).delivery = true) : ¬ r.Finished := by
  have hstatus : (r.recovered now).status = .pending := by
    simp only [isDue, decide_eq_true_eq] at h
    exact h.1
  unfold DeliveryRow.recovered at hstatus
  rintro (hr | hr) <;> split at hstatus
  · next hexpired => simp [leaseExpired, DeliveryRow.delivery, hr] at hexpired
  · simp [hr] at hstatus
  · next hexpired => simp [leaseExpired, DeliveryRow.delivery, hr] at hexpired
  · simp [hr] at hstatus

/-- The recovery of a lease is no attempt. -/
theorem remaining_recovered (now : Time) (r : DeliveryRow) :
    (r.recovered now).remaining cfg = r.remaining cfg ∧
      (r.recovered now).allowance cfg = r.allowance cfg := by
  unfold DeliveryRow.recovered
  split
  · next hexpired =>
    have hstatus : r.status = .inFlight := (of_decide_eq_true hexpired).1
    simp [DeliveryRow.remaining, DeliveryRow.allowance, DeliveryRow.Finished, hstatus,
      DeliveryRow.written, recoverRow, DeliveryRow.delivery]
  · exact ⟨rfl, rfl⟩

/-- A delivery that is not finished. -/
theorem remaining_of_not_finished (cfg : Settings) {r : DeliveryRow} (h : ¬ r.Finished) :
    r.remaining cfg = max 1 (cfg.attempts - r.attemptCount) ∧
      r.allowance cfg = max 1 (cfg.attempts - r.attemptCount) := by
  exact ⟨if_neg h, if_neg h⟩

/-- **An outcome takes one** from what the delivery may still get. -/
theorem remaining_written {r x : DeliveryRow} {d : Delivery} {updatedAt : Time}
    (h : ¬ r.Finished) (hcount : d.attemptCount = r.attemptCount + 1)
    (hstatus : d.status = .succeeded ∨ d.status = .deadLettered ∨
      d.status = .pending ∧ r.attemptCount + 1 < cfg.attempts) :
    1 + (x.written d updatedAt).remaining cfg ≤ r.remaining cfg ∧
      1 + (x.written d updatedAt).allowance cfg ≤ r.allowance cfg := by
  obtain ⟨hremaining, hallowance⟩ := remaining_of_not_finished cfg h
  rw [hremaining, hallowance]
  rcases hstatus with hd | hd | ⟨hd, hlt⟩ <;>
    simp only [DeliveryRow.remaining, DeliveryRow.allowance, DeliveryRow.Finished,
      DeliveryRow.written, hd, hcount, reduceCtorEq, or_false, or_true, or_self, if_true, if_false]
  · omega
  · omega
  · omega

/-- The claim is no attempt. -/
theorem remaining_claim {worker : PyStr} {now claimNow : Time} {r : DeliveryRow}
    (h : ¬ r.Finished) :
    ((r.recovered now).claim cfg worker claimNow).remaining cfg = r.remaining cfg ∧
      ((r.recovered now).claim cfg worker claimNow).allowance cfg = r.allowance cfg := by
  obtain ⟨hremaining, hallowance⟩ := remaining_of_not_finished cfg h
  rw [hremaining, hallowance]
  simp [DeliveryRow.remaining, DeliveryRow.allowance, DeliveryRow.Finished, DeliveryRow.claim,
    DeliveryRow.written, claimRow, DeliveryRow.delivery]

/-! ## One tick -/

/-- The rows that the tick claims are ones that its statement may return. -/
def ClaimsDue (cfg : Settings) (draws : TickDraws) (db : Database) : Prop :=
  ∃ locked, MayClaim cfg draws.claimNow locked (db.recoverExpiredLeases draws.recoverNow)
    draws.claimed

theorem get?_recoverExpiredLeases (now : Time) (k : Uuid) :
    (db.recoverExpiredLeases now).deliveries.get? k =
      (db.deliveries.get? k).map (DeliveryRow.recovered now) := Rows.get?_modify _

/-- A claimed delivery is there, and not finished. -/
theorem exists_of_mem_claimed (h : ClaimsDue cfg draws db) {k : Uuid} (hk : k ∈ draws.claimed) :
    ∃ r, db.deliveries.get? k = some r ∧ ¬ r.Finished := by
  obtain ⟨locked, hclaim⟩ := h
  obtain ⟨r, hr, hdue, -⟩ := hclaim.due k hk
  rw [get?_recoverExpiredLeases] at hr
  obtain ⟨r', hr', rfl⟩ := Option.map_eq_some_iff.1 hr
  exact ⟨r', hr', not_finished_of_isDue hdue⟩

/-- What a tick that commits makes of a delivery. -/
def tickRow (cfg : Settings) (draws : TickDraws) (settled : List (Uuid × Settled)) (k : Uuid)
    (r : DeliveryRow) : DeliveryRow :=
  Database.settledRow draws settled k (claimingRow cfg draws k r)

theorem deliveries_tick (h : db.outcomes lib cfg draws = .ok settled) :
    (tick lib cfg draws db).deliveries = db.deliveries.modify (tickRow cfg draws settled) := by
  rw [tick_of_ok h]
  refine (congrArg (Rows.modify · _) deliveries_claiming).trans ?_
  exact Rows.modify_modify _ _

/-- **What a tick does to a delivery**: an outcome, if it has been processed; else the recovery of
its lease, at most. -/
theorem tickRow_cases (hclaim : ClaimsDue cfg draws db)
    (h : db.outcomes lib cfg draws = .ok settled) {k : Uuid} {r : DeliveryRow}
    (hr : db.deliveries.get? k = some r) :
    (¬ r.Finished ∧ ∃ out, (k, out) ∈ settled ∧
      out.attempt.attemptNumber = r.attemptCount + 1 ∧
      out.row.attemptCount = r.attemptCount + 1 ∧
      (out.row.status = .succeeded ∨ out.row.status = .deadLettered ∨
        out.row.status = .pending ∧ r.attemptCount + 1 < cfg.attempts) ∧
      tickRow cfg draws settled k r = (claimingRow cfg draws k r).written out.row
        (draws.settledAt k)) ∨
    (k ∉ settled.map Prod.fst ∧ tickRow cfg draws settled k r = claimingRow cfg draws k r) := by
  cases hfind : settled.find? fun e => e.1 = k with
  | none =>
    refine .inr ⟨fun hk => ?_, by simp only [tickRow, Database.settledRow, hfind]⟩
    obtain ⟨e, he, rfl⟩ := List.mem_map.1 hk
    exact List.find?_eq_none.1 hfind e he (decide_eq_true rfl)
  | some e =>
    have he := List.mem_of_find?_eq_some hfind
    have hkey : e.1 = k := by simpa using List.find?_some hfind
    obtain ⟨hclaimed, c, hc, hout⟩ := mem_outcomes h he
    rw [hkey] at hclaimed hc
    obtain ⟨r', hr', hnot⟩ := exists_of_mem_claimed hclaim hclaimed
    obtain rfl := Option.some.inj (hr.symm.trans hr')
    obtain ⟨row, hrow, hrest⟩ := Option.bind_eq_some_iff.1 hc
    obtain ⟨endpoint, -, hrest⟩ := Option.bind_eq_some_iff.1 hrest
    obtain ⟨event, -, hc⟩ := Option.bind_eq_some_iff.1 hrest
    rw [get?_claiming, hr, Option.map_some] at hrow
    have hcount : c.row.attemptCount = r.attemptCount := by
      rw [← Option.some.inj hc, ← Option.some.inj hrow]
      simp only [DeliveryRow.delivery, claimingRow]
      split <;> simp [DeliveryRow.claim, DeliveryRow.written, claimRow, DeliveryRow.delivery]
    obtain ⟨hattempt, hstatus⟩ := processDelivery_status hout
    obtain ⟨-, hnumber, -, -⟩ := processDelivery_decided hout
    rw [hcount] at hattempt hstatus hnumber
    refine .inl ⟨hnot, e.2, hkey ▸ he, hnumber, hattempt, hstatus, ?_⟩
    simp only [tickRow, Database.settledRow, hfind]

/-- Every row pays for its outcome. -/
theorem weight_tickRow_le (hclaim : ClaimsDue cfg draws db)
    (h : db.outcomes lib cfg draws = .ok settled) {k : Uuid} {r : DeliveryRow}
    (hr : db.deliveries.get? k = some r) :
    (if k ∈ settled.map Prod.fst then 1 else 0) + (tickRow cfg draws settled k r).remaining cfg ≤
        r.remaining cfg ∧
      (if k ∈ settled.map Prod.fst then 1 else 0) +
        (tickRow cfg draws settled k r).allowance cfg ≤ r.allowance cfg := by
  rcases tickRow_cases hclaim h hr with ⟨hnot, out, hk, -, hcount, hstatus, hrow⟩ | ⟨hk, hrow⟩
  · rw [if_pos (List.mem_map_of_mem hk), hrow]
    exact remaining_written hnot hcount hstatus
  · rw [if_neg hk, hrow, Nat.zero_add, Nat.zero_add]
    by_cases hclaimed : k ∈ draws.claimed
    · obtain ⟨r', hr', hnot⟩ := exists_of_mem_claimed hclaim hclaimed
      obtain rfl := Option.some.inj (hr.symm.trans hr')
      rw [claimingRow_of_mem hclaimed]
      exact ⟨(remaining_claim hnot).1.le, (remaining_claim hnot).2.le⟩
    · rw [claimingRow_of_notMem hclaimed]
      exact ⟨(remaining_recovered _ r).1.le, (remaining_recovered _ r).2.le⟩

/-- The deliveries with an outcome are there. -/
theorem get?_ne_none_of_outcome (hclaim : ClaimsDue cfg draws db)
    (h : db.outcomes lib cfg draws = .ok settled) {k : Uuid} (hk : k ∈ settled.map Prod.fst) :
    db.deliveries.get? k ≠ none := by
  obtain ⟨e, he, rfl⟩ := List.mem_map.1 hk
  obtain ⟨r, hr, -⟩ := exists_of_mem_claimed hclaim (mem_outcomes h he).1
  rw [hr]
  exact Option.some_ne_none r

theorem ClaimsDue.nodup_outcomes (hclaim : ClaimsDue cfg draws db)
    (h : db.outcomes lib cfg draws = .ok settled) : (settled.map Prod.fst).Nodup := by
  obtain ⟨locked, hclaim⟩ := hclaim
  exact outcomes_nodup hclaim.nodup h

/-- **Each outcome of a tick** is one of the attempts that were left. -/
theorem length_add_remaining_tick_le (hclaim : ClaimsDue cfg draws db)
    (h : db.outcomes lib cfg draws = .ok settled) :
    settled.length + (tick lib cfg draws db).remaining cfg ≤ db.remaining cfg := by
  rw [Database.remaining, deliveries_tick h, ← List.length_map (f := Prod.fst)]
  exact Rows.length_add_total_modify_le (hclaim.nodup_outcomes h)
    (fun _ hk => get?_ne_none_of_outcome hclaim h hk)
    fun _ _ hr => (weight_tickRow_le hclaim h hr).1

/-- **Each outcome of a tick** is paid for by an allowance. -/
theorem length_add_allowance_tick_le (hclaim : ClaimsDue cfg draws db)
    (h : db.outcomes lib cfg draws = .ok settled) :
    settled.length + (tick lib cfg draws db).allowance cfg ≤ db.allowance cfg := by
  rw [Database.allowance, deliveries_tick h, ← List.length_map (f := Prod.fst)]
  exact Rows.length_add_total_modify_le (hclaim.nodup_outcomes h)
    (fun _ hk => get?_ne_none_of_outcome hclaim h hk)
    fun _ _ hr => (weight_tickRow_le hclaim h hr).2

/-- **A tick of the only worker** has an outcome if something is due. -/
theorem outcomes_ne_nil (hbatch : cfg.workerBatchSize ≠ 0)
    (hclaim : MayClaim cfg draws.claimNow (fun _ => False)
      (db.recoverExpiredLeases draws.recoverNow) draws.claimed)
    (hloads : ∀ k ∈ draws.claimed, ((db.claiming cfg draws).claimed? k).isSome = true)
    (hdue : ∃ k r, (db.recoverExpiredLeases draws.recoverNow).deliveries.get? k = some r ∧
      isDue draws.claimNow r.delivery = true)
    (h : db.outcomes lib cfg draws = .ok settled) : settled ≠ [] := by
  have hclaimed : draws.claimed ≠ [] := by
    intro hnil
    obtain ⟨k, r, hr, hk⟩ := hdue
    have hfull := (hclaim.full k r hr hk not_false (by simp [hnil])).1
    rw [hnil] at hfull
    exact hbatch hfull.symm
  obtain ⟨k, hk⟩ := List.exists_mem_of_ne_nil _ hclaimed
  obtain ⟨c, hc⟩ := Option.isSome_iff_exists.1 (hloads k hk)
  have hmem : (k, c, draws.surroundings k) ∈ (db.claiming cfg draws).batch draws :=
    mem_batch_iff.2 ⟨hk, hc, rfl⟩
  have hkeys := outcomes_keys h
  rintro rfl
  have := hkeys ▸ List.mem_map_of_mem (f := Prod.fst) hmem
  exact List.not_mem_nil this

end Hookit
