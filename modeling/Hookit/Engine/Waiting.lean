import Hookit.Engine.Journal

/-!
# No delivery is stuck

`committed_waits`: however transactions interleave and wherever they are rolled back, a committed
delivery is pending, succeeded or dead-lettered, and a pending one is due at most `1.1` retry caps
after the clock reading of the transition that made it pending. From then on the `WHERE` clause of
every claim accepts it, and once the transaction that holds it, if any, has ended, so does its
`SKIP LOCKED`.
-/

namespace Hookit.Engine

open Foundations

variable {π : Type} {lib : UrlLib} {cfg : Settings}

/-- After a rollback of its holder a row can be selected. -/
theorem selects_rollback {s : State π} {d : DeliveryId} {r : Delivery} {p : Delivery → Bool}
    (hr : s.deliveries.rows d = some r) (hp : p r = true) {t : Tid}
    (hheld : ∀ t' v, s.deliveries.held d = some (t', v) → t' = t) (t' : Tid) :
    (s.rollback t).selects t' p d = true := by
  have hnone : (s.deliveries.rollback t).held d = none := by
    refine Option.eq_none_iff_forall_ne_some.2 fun x hx => ?_
    obtain ⟨hx, hne⟩ := Table.rollback_held_iff.1 hx
    exact hne (hheld _ _ hx)
  refine State.selects_iff.2 ⟨Table.free_iff.2 (.inl hnone), r, ?_, hp⟩
  exact (Table.visible_of_unheld hnone).trans hr

/-- **A committed delivery is at rest, and a pending one will be due.** -/
theorem committed_waits (hbase : 0 ≤ cfg.retryBaseSeconds) (hcap : 0 ≤ cfg.retryCapSeconds)
    {s : State π} (h : (engine lib cfg).Reachable s) {d : DeliveryId} {r : Delivery}
    (hr : s.deliveries.rows d = some r) :
    (r.status = .pending ∨ r.status = .succeeded ∨ r.status = .deadLettered) ∧
    (r.status = .pending → ∃ before tr after reading,
      historyOf d s.journal = before ++ tr :: after ∧ (∀ x ∈ after, x = .locked) ∧
      Lifecycle.pendingAt tr = some reading ∧ reading ≤ s.clock ∧
      r.nextAttemptAt ≤ reading + 11 / 10 * cfg.retryCapSeconds ∧
      ∀ now, reading + 11 / 10 * cfg.retryCapSeconds ≤ now → isDue now r = true ∧
        ∀ t t', (∀ t'' v, s.deliveries.held d = some (t'', v) → t'' = t) →
          (s.rollback t).selects t' (isDue now) d = true) := by
  obtain ⟨⟨hlife, hread⟩, hrest⟩ := (timely_of_reachable h).dossiers.rows d r hr
  refine ⟨hrest, fun hs => ?_⟩
  obtain ⟨before, tr, after, reading, hhist, hafter, htr, hle⟩ := hlife.pending_due hbase hcap hs
  have hclock : reading ≤ s.clock := by
    refine hread tr ?_ reading htr
    rw [hhist]
    exact List.mem_append_right _ List.mem_cons_self
  have hdue : ∀ now, reading + 11 / 10 * cfg.retryCapSeconds ≤ now → isDue now r = true :=
    fun now hnow => Lifecycle.isDue_iff.2 ⟨hs, hle.trans hnow⟩
  exact ⟨before, tr, after, reading, hhist, hafter, htr, hclock, hle, fun now hnow =>
    ⟨hdue now hnow, fun t t' hheld => selects_rollback hr (hdue now hnow) hheld t'⟩⟩

/-- A delivery that failed once, in a store with the default settings. -/
theorem committed_waits_failed : ∃ (s : State Unit) (r : Delivery),
    (engine receiverHost defaultSettings).Reachable s ∧ s.deliveries.rows 1 = some r ∧
    r.status = .pending ∧ ∃ reading ≤ s.clock, r.nextAttemptAt ≤ reading + 11 / 10 * 3600 := by
  have hrun : ((engine receiverHost defaultSettings).run
      (ingestion 0 ++ tickUpToPost 1 ++ tickAfterPost 1 (.response 500 [])) init).map (fun s =>
        (s.deliveries.rows 1).any (·.status = .pending)) = some true := by
    decide +kernel
  obtain ⟨s, hs, hp⟩ := Machine.exists_reachable_of_run (fun _ _ => True)
    (fun _ _ _ => trivial) hrun
  obtain ⟨r, hr, hp⟩ := (Option.any_eq_true _ _).1 hp
  obtain ⟨before, tr, after, reading, -, -, -, hclock, hle, -⟩ :=
    (committed_waits (by decide) (by decide +kernel) hs hr).2
      (of_decide_eq_true hp)
  exact ⟨s, r, hs, hr, of_decide_eq_true hp, reading, hclock, hle⟩

end Hookit.Engine
