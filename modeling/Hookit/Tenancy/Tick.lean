import Hookit.Tenancy.Store
import Hookit.Worker.Tick

/-!
# A tick in the store of one project

A tick of a worker is shared by all projects: it takes what is due from any of them, and if one
delivery of the batch raises, all of them are rolled back. A tick that commits does in the store of
a project what a tick would do there that claims the project's share (`tenant_tick`).
-/

namespace Hookit.Tenancy

open Foundations

variable {db : Database} {q : Uuid} {lib : UrlLib} {cfg : Settings} {draws : TickDraws}
  {settled : List (Uuid × Settled)}

/-- The tick claims the deliveries of one project only. -/
def ownClaims (db : Database) (q : Uuid) (draws : TickDraws) : TickDraws :=
  { draws with claimed := draws.claimed.filter fun k => deliveryOwner db k = some q }

/-! ## The statements keep what a delivery is of -/

theorem keepsKeys_claimingRow : KeepsKeys (claimingRow cfg draws) := by
  intro k r
  unfold claimingRow DeliveryRow.claim DeliveryRow.written
  split <;> simp

theorem keepsKeys_settledRow : KeepsKeys (Database.settledRow draws settled) := by
  intro k r
  unfold Database.settledRow DeliveryRow.written
  split <;> simp

theorem claiming_eq : db.claiming cfg draws = workOn db (claimingRow cfg draws) [] :=
  Database.ext rfl rfl rfl rfl deliveries_claiming rfl rfl rfl rfl rfl rfl rfl

theorem settle_eq : db.settle draws settled =
    workOn db (Database.settledRow draws settled) (Database.newAttempts draws settled) := rfl

theorem Integral.claiming (hdb : Integral db) : Integral (db.claiming cfg draws) := by
  rw [claiming_eq]
  exact hdb.workOn keepsKeys_claimingRow Rows.unused_nil (by simp)

theorem deliveryOwner_claiming (k : Uuid) :
    deliveryOwner (db.claiming cfg draws) k = deliveryOwner db k := by
  rw [claiming_eq]
  exact deliveryOwner_workOn keepsKeys_claimingRow k

theorem tenant_claiming (q : Uuid) : tenant (db.claiming cfg draws) q =
    (tenant db q).claiming cfg (ownClaims db q draws) := by
  rw [claiming_eq, tenant_workOn keepsKeys_claimingRow Rows.unused_nil, List.filter_nil, claiming_eq]
  refine workOn_congr fun k r hr => ?_
  have hown : deliveryOwner db k = some q := by
    rw [get?_deliveries] at hr
    obtain ⟨hr, hq⟩ := Option.filter_eq_some_iff.1 hr
    rw [deliveryOwner, hr]
    exact of_decide_eq_true hq
  have hmem : k ∈ (ownClaims db q draws).claimed ↔ k ∈ draws.claimed := by
    simp [ownClaims, hown]
  by_cases hk : k ∈ draws.claimed
  · rw [claimingRow_of_mem hk, claimingRow_of_mem (hmem.2 hk)]
    rfl
  · rw [claimingRow_of_notMem hk, claimingRow_of_notMem (mt hmem.1 hk)]
    rfl

/-! ## The loop -/

/-- What is loaded with a delivery of the project is in its store. -/
theorem claimed?_tenant (hdb : Integral db) {k : Uuid} (hown : deliveryOwner db k = some q) :
    (tenant db q).claimed? k = db.claimed? k := by
  obtain ⟨r, hr, howner⟩ := Option.bind_eq_some_iff.1 hown
  obtain ⟨endpoint, event, hendpoint, hevent, heq⟩ := hdb.deliveries k r hr
  have hproject : endpoint.projectId = q := by simpa [ownerOf, hendpoint] using howner
  have hr' : (tenant db q).deliveries.get? k = some r := by
    rw [get?_deliveries, hr, Option.filter_some, if_pos (decide_eq_true howner)]
  have hendpoint' : (tenant db q).endpoints.get? r.endpointId = some endpoint := by
    rw [get?_endpoints, hendpoint, Option.filter_some, if_pos (decide_eq_true hproject)]
  have hevent' : (tenant db q).events.get? r.eventId = some event := by
    rw [get?_events, hevent, Option.filter_some, if_pos (decide_eq_true (heq.symm.trans hproject))]
  simp only [Database.claimed?, hr, hr', hendpoint, hendpoint', hevent, hevent', bind,
    Option.bind_some]

theorem batch_tenant (hdb : Integral db) (hsame : ∀ k, deliveryOwner db k = deliveryOwner db' k) :
    (tenant db q).batch (ownClaims db' q draws) =
      (db.batch draws).filter fun b => deliveryOwner db' b.1 = some q := by
  unfold Database.batch ownClaims
  simp only
  induction draws.claimed with
  | nil => rfl
  | cons k l ih =>
    by_cases hown : deliveryOwner db' k = some q
    · have hk := claimed?_tenant hdb ((hsame k).trans hown)
      simp only [List.filter_cons, hown, decide_true, if_true, List.filterMap_cons, hk]
      cases db.claimed? k with
      | none => exact ih
      | some c => simp [hown, ih]
    · simp only [List.filter_cons, hown, decide_false, Bool.false_eq_true, if_false,
        List.filterMap_cons]
      cases db.claimed? k with
      | none => exact ih
      | some c => simp [hown, ih]

theorem outcomes_tenant (hdb : Integral db) (h : db.outcomes lib cfg draws = .ok settled) :
    (tenant db q).outcomes lib cfg (ownClaims db q draws) =
      .ok (settled.filter fun e => deliveryOwner db e.1 = some q) := by
  obtain ⟨outs, houts, rfl⟩ := outcomes_eq_ok_iff.1 h
  have hbatch : (tenant (db.claiming cfg draws) q).batch (ownClaims db q draws) =
      ((db.claiming cfg draws).batch draws).filter fun b => deliveryOwner db b.1 = some q :=
    batch_tenant hdb.claiming deliveryOwner_claiming
  obtain ⟨outs', houts', hzip⟩ := processBatch_filter (fun k => decide (deliveryOwner db k = some q))
    (List.Subset.refl []) houts
  rw [← hbatch, tenant_claiming] at houts' hzip
  exact outcomes_eq_ok_iff.2 ⟨outs', houts', hzip⟩

/-! ## The tick -/

/-- The attempts of a tick are new ones. -/
def NewAttempts (lib : UrlLib) (cfg : Settings) (draws : TickDraws) (db : Database) : Prop :=
  ∀ settled, db.outcomes lib cfg draws = .ok settled →
    db.attempts.Unused (Database.newAttempts draws settled)

/-- An outcome is of a delivery that is there. -/
theorem get?_of_mem_outcomes (h : db.outcomes lib cfg draws = .ok settled) {e : Uuid × Settled}
    (he : e ∈ settled) : ∃ r, db.deliveries.get? e.1 = some r := by
  obtain ⟨-, c, hc, -⟩ := mem_outcomes h he
  obtain ⟨r, hr, -⟩ := Option.bind_eq_some_iff.1 hc
  rw [get?_claiming] at hr
  obtain ⟨r', hr', -⟩ := Option.map_eq_some_iff.1 hr
  exact ⟨r', hr'⟩

theorem Integral.tick (hdb : Integral db) (hnew : NewAttempts lib cfg draws db) :
    Integral (tick lib cfg draws db) := by
  cases h : db.outcomes lib cfg draws with
  | error e => rwa [tick_of_error h]
  | ok settled =>
    rw [tick_of_ok h, settle_eq]
    have hclaiming : Integral (db.claiming cfg draws) := hdb.claiming
    refine hclaiming.workOn keepsKeys_settledRow (hnew settled h) fun a ha => ?_
    obtain ⟨e, he, rfl⟩ := List.mem_map.1 ha
    obtain ⟨r, hr⟩ := get?_of_mem_outcomes h he
    have hthere : (db.claiming cfg draws).deliveries.get? e.1 ≠ none := by
      rw [get?_claiming, hr]
      exact Option.some_ne_none _
    exact hthere

/-- **A tick that commits** does to the store of a project what a tick there does that claims the
project's share. -/
theorem tenant_tick (hdb : Integral db) (hnew : NewAttempts lib cfg draws db)
    (h : db.outcomes lib cfg draws = .ok settled) (q : Uuid) :
    tenant (tick lib cfg draws db) q = tick lib cfg (ownClaims db q draws) (tenant db q) := by
  have hunused : (db.claiming cfg draws).attempts.Unused (Database.newAttempts draws settled) :=
    hnew settled h
  rw [tick_of_ok h, tick_of_ok (outcomes_tenant hdb h), settle_eq,
    tenant_workOn keepsKeys_settledRow hunused, tenant_claiming, settle_eq]
  have hattempts : (Database.newAttempts draws settled).filter (fun e =>
      deliveryOwner (db.claiming cfg draws) e.2.deliveryId = some q) =
      Database.newAttempts (ownClaims db q draws)
        (settled.filter fun e => deliveryOwner db e.1 = some q) := by
    simp only [deliveryOwner_claiming, Database.newAttempts, List.filter_map]
    rfl
  rw [hattempts]
  refine workOn_congr fun k r hr => ?_
  have hown : deliveryOwner db k = some q := by
    rw [← tenant_claiming, get?_deliveries] at hr
    obtain ⟨hr, hq⟩ := Option.filter_eq_some_iff.1 hr
    have hclaiming : deliveryOwner (db.claiming cfg draws) k = some q := by
      rw [deliveryOwner, hr]
      exact of_decide_eq_true hq
    rwa [deliveryOwner_claiming] at hclaiming
  have hfind : (settled.filter fun e => deliveryOwner db e.1 = some q).find? (fun e => e.1 = k) =
      settled.find? fun e => e.1 = k := by
    rw [List.find?_filter]
    congr 1
    funext e
    by_cases hk : e.1 = k
    · simp [hk, hown]
    · simp [hk]
  simp only [Database.settledRow, hfind]
  rfl

end Hookit.Tenancy
