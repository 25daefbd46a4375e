import Hookit.Engine.Moves

/-!
# Leases

A claim puts a lease on a delivery, and the lease is taken off when the delivery is recovered,
redriven or scheduled for a retry. `process_delivery` leaves it on a delivery that succeeds or is
dead-lettered. `leased_iff_inFlight` is what holds as long as no attempt ends a delivery that is
under a lease: every version of a row has a lease exactly while it is in flight.
`not_leased_iff_inFlight` is the ordinary run in which a claimed delivery succeeds and keeps it.
-/

namespace Hookit.Engine

open Foundations

variable {π : Type} {lib : UrlLib} {cfg : Settings}

/-- The row has a lease exactly while it is in flight. -/
def LeaseMatches (r : Delivery) : Prop := r.leasedUntil.isSome = true ↔ r.status = .inFlight

instance (r : Delivery) : Decidable (LeaseMatches r) := by
  unfold LeaseMatches
  infer_instance

/-- The action records the attempt of a delivery under a lease, and the attempt is the last: the
destination is refused, or the answer is a success or a failure with no attempts left. -/
def EndsLeased (lib : UrlLib) (cfg : Settings) (a : Act π) (s : State π) : Prop :=
  ∃ t tx job d r, s.txs t = .running tx ∧ s.deliveries.visible t d = some r ∧
    r.leasedUntil.isSome = true ∧
    ((∃ job' endpoint event timestamp, a = .send t endpoint event timestamp ∧
        tx.phase = .working job ∧ s.next t job = some (d, job') ∧
        validateUrlNotSsrf lib endpoint.url = .error .ssrfError) ∨
      ∃ post answer durationMs now draw, a = .answer t answer durationMs now draw ∧
        tx.phase = .posting job d post ∧
        (answeredAttempt d r answer durationMs tx.worker).Storable ∧
        (answer.succeeded = true ∨ cfg.maxDeliveryAttempts ≤ (r.attemptCount + 1 : ℕ)))

section Moves

variable {a : Act π} {s s' : State π} {t : Tid} {tx : Tx} {job job' : Job} {d : DeliveryId}
  {r : Delivery}

/-- A delivery whose destination is not refused is POSTed or the transaction is rolled back: its
row stays. -/
theorem deliveries_of_send {endpoint : Endpoint} {event : Event π} {timestamp : ℤ}
    (h : step lib cfg (.send t endpoint event timestamp) s = some s') (ht : s.txs t = .running tx)
    (hphase : tx.phase = .working job) (hnext : s.next t job = some (d, job'))
    (hr : s.deliveries.visible t d = some r)
    (hpass : validateUrlNotSsrf lib endpoint.url ≠ .error .ssrfError) :
    s'.deliveries = s.deliveries ∨ s' = s.rollback t := by
  have hprepare : prepareDelivery lib endpoint event r timestamp ≠ .ok none := by
    rcases validateUrlNotSsrf_cases lib endpoint.url with ⟨-, hv | hv⟩ | ⟨-, hv⟩
    · simp [prepareDelivery, hv]
    · exact absurd hv hpass
    · simp [prepareDelivery, hv]
  simp only [step, Act.tid?, ht, stepTx, hphase, hnext, hr] at h
  obtain ⟨-, h⟩ := Option.ite_none_right_eq_some.1 h
  split at h
  · exact .inr (Option.some.inj h).symm
  · exact absurd ‹_› hprepare
  · exact .inl (Option.some.inj h ▸ rfl)

/-- An answer whose attempt is not storable rolls the transaction back. -/
theorem rollback_of_answer {post : ℕ} {answer : Answer} {durationMs : ℕ} {now : Time} {draw : Draw}
    (h : step lib cfg (.answer t answer durationMs now draw) s = some s')
    (ht : s.txs t = .running tx) (hphase : tx.phase = .posting job d post)
    (hr : s.deliveries.visible t d = some r)
    (hstore : ¬ (answeredAttempt d r answer durationMs tx.worker).Storable) :
    s' = s.rollback t := by
  simp only [step, Act.tid?, ht, stepTx, hphase, hr] at h
  obtain ⟨-, h⟩ := Option.ite_none_right_eq_some.1 h
  cases hsettle : settleDelivery cfg d r answer durationMs tx.worker now draw with
  | error e =>
    rw [hsettle] at h
    exact (Option.some.inj h).symm
  | ok out =>
    exact absurd (settleDelivery_eq_ok_iff.1 hsettle).2.1 hstore

/-- **A step keeps the leases matched**, unless it ends a delivery that is under one. -/
theorem versions_of_step (h : s.deliveries.Versions LeaseMatches)
    (hends : ¬ EndsLeased lib cfg a s) (hstep : step lib cfg a s = some s') :
    s'.deliveries.Versions LeaseMatches := by
  have hunleased : ∀ {r : Delivery} {status : DeliveryStatus}, status ≠ .inFlight →
      r.leasedUntil.isSome ≠ true → LeaseMatches { r with status } := by
    intro r status hstatus hlease
    exact ⟨fun h => absurd h hlease, fun h => absurd h hstatus⟩
  cases move_of_step hstep with
  | insertDelivery ht hphase hheld hrow =>
    refine h.write fun r hr => ?_
    obtain rfl := Option.some.inj hr
    exact ⟨nofun, nofun⟩
  | recover ht hnow hnodup hsel => exact h.writeAll fun r _ => ⟨nofun, nofun⟩
  | claim ht hphase hnow hnodup hsel => exact h.writeAll fun r _ => ⟨fun _ => rfl, fun _ => rfl⟩
  | lock ht hsel => exact h.writeAll fun r hr => hr
  | @refuse _ t tx job job' d r endpoint event timestamp ht hphase hnext hr hattempt =>
    by_cases hlease : r.leasedUntil.isSome = true
    · have hpass : validateUrlNotSsrf lib endpoint.url ≠ .error .ssrfError := fun hv =>
        hends ⟨t, tx, job, d, r, ht, hr, hlease,
          .inl ⟨job', endpoint, event, timestamp, rfl, hphase, hnext, hv⟩⟩
      rcases deliveries_of_send hstep ht hphase hnext hr hpass with hsame | hrollback
      · rw [hsame]
        exact h
      · rw [hrollback]
        exact h.rollback
    · refine h.write fun r' hr' => ?_
      obtain rfl := Option.some.inj hr'
      exact hunleased nofun hlease
  | @answer _ t tx job d post r row answer durationMs now draw ht hphase hr hnow hdecide hattempt =>
    by_cases hlease : r.leasedUntil.isSome = true
    · by_cases hstore : (answeredAttempt d r answer durationMs tx.worker).Storable
      · have hretry : ¬ (answer.succeeded = true ∨
            cfg.maxDeliveryAttempts ≤ (r.attemptCount + 1 : ℕ)) := fun hlast =>
          hends ⟨t, tx, job, d, r, ht, hr, hlease,
            .inr ⟨post, answer, durationMs, now, draw, rfl, hphase, hstore, hlast⟩⟩
        refine h.write fun r' hr' => ?_
        obtain rfl := Option.some.inj hr'
        rcases decideDelivery_eq_ok_iff.1 hdecide with ⟨hs, -⟩ | ⟨-, hmax, -⟩ | ⟨-, -, -, rfl⟩
        · exact absurd (.inl hs) hretry
        · exact absurd (.inr hmax) hretry
        · exact ⟨nofun, nofun⟩
      · rw [rollback_of_answer hstep ht hphase hr hstore]
        exact h.rollback
    · refine h.write fun r' hr' => ?_
      obtain rfl := Option.some.inj hr'
      rcases decideDelivery_eq_ok_iff.1 hdecide with ⟨-, rfl⟩ | ⟨-, -, rfl⟩ | ⟨-, -, -, rfl⟩
      · exact hunleased nofun hlease
      · exact hunleased nofun hlease
      · exact ⟨nofun, nofun⟩
  | update ht hphase hnow hsel => exact h.writeAll fun r _ => ⟨nofun, nofun⟩
  | commit ht hfinished => exact h.commit
  | abort htid ht => exact h.rollback
  | _ => exact h

end Moves

/-- **As long as no attempt ends a delivery under a lease, every version of every row has a lease
exactly while it is in flight**: the committed rows and what open transactions have made of
them. -/
theorem leased_iff_inFlight {s : State π}
    (h : (engine lib cfg).ReachableIf (fun a s => ¬ EndsLeased lib cfg a s) s) :
    (∀ d r, s.deliveries.rows d = some r → (r.leasedUntil.isSome = true ↔ r.status = .inFlight)) ∧
      ∀ d t r, s.deliveries.held d = some (t, some r) →
        (r.leasedUntil.isSome = true ↔ r.status = .inFlight) := by
  have hversions : s.deliveries.Versions LeaseMatches :=
    h.invariant (P := fun s => s.deliveries.Versions LeaseMatches) ⟨nofun, nofun⟩
      fun _ _ _ hs hends hstep => versions_of_step hs hends hstep
  exact ⟨hversions.rows, hversions.held⟩

/-- Whether an attempt leaves another one. -/
def leavesRetry (a : Act Unit) (s : State Unit) : Bool :=
  match a with
  | .send _ endpoint _ _ => match validateUrlNotSsrf receiverHost endpoint.url with
    | .ok _ => true
    | .error _ => false
  | .answer t answer _ _ _ =>
    match s.txs t with
    | .running tx =>
      match tx.phase with
      | .posting _ d _ => !answer.succeeded && (s.deliveries.visible t d).all fun r =>
          ((r.attemptCount + 1 : ℕ) : ℤ) < defaultSettings.maxDeliveryAttempts
      | _ => true
    | _ => true
  | _ => true

theorem not_endsLeased_of_leavesRetry (a : Act Unit) (s : State Unit)
    (h : leavesRetry a s = true) : ¬ EndsLeased receiverHost defaultSettings a s := by
  rintro ⟨t, tx, job, d, r, ht, hr, -, ⟨job', endpoint, event, timestamp, rfl, -, -, hurl⟩ |
    ⟨post, answer, durationMs, now, draw, rfl, hphase, -, hlast⟩⟩
  · simp [leavesRetry, hurl] at h
  · simp only [leavesRetry, ht, hphase, hr, Option.all_some, Bool.and_eq_true, Bool.not_eq_true',
      decide_eq_true_eq] at h
    rcases hlast with hsucceeded | hmax
    · rw [h.1] at hsucceeded
      cases hsucceeded
    · exact absurd hmax (not_le.2 h.2)

/-- A delivery that failed and is claimed again is under its lease. -/
theorem leased_iff_inFlight_claimed : ∃ (s : State Unit) (r : Delivery),
    (engine receiverHost defaultSettings).ReachableIf
      (fun a s => ¬ EndsLeased receiverHost defaultSettings a s) s ∧
    s.deliveries.held 1 = some (2, some r) ∧ r.attemptCount = 1 ∧ r.leasedUntil.isSome = true ∧
      r.status = .inFlight := by
  have hrun : ((engine receiverHost defaultSettings).runIf leavesRetry
      (ingestion 0 ++ tickUpToPost 1 ++ tickAfterPost 1 (.response 500 []) ++
        [.advance 10, .recover 2 (.ofString "worker") 10 [], .claim 2 10 [1]]) init).map (fun s =>
        (s.deliveries.held 1).any fun v => v.1 = 2 ∧
          v.2.any fun r => r.status = .inFlight ∧ r.attemptCount = 1) =
      some true := by
    decide +kernel
  obtain ⟨s, hs, hp⟩ := Machine.exists_reachable_of_runIf not_endsLeased_of_leavesRetry hrun
  obtain ⟨⟨t, v⟩, hheld, hp⟩ := (Option.any_eq_true _ _).1 hp
  obtain ⟨rfl, hv⟩ := of_decide_eq_true hp
  obtain ⟨r, rfl, hr⟩ := (Option.any_eq_true _ _).1 hv
  obtain ⟨hstatus, hcount⟩ := of_decide_eq_true hr
  exact ⟨s, r, hs, hheld, hcount, ((leased_iff_inFlight hs).2 1 2 r hheld).2 hstatus, hstatus⟩

/-- **A delivery that succeeds keeps its lease.** -/
theorem not_leased_iff_inFlight : ∃ s : State Unit,
    (engine receiverHost defaultSettings).Reachable s ∧
    ∃ r, s.deliveries.rows 1 = some r ∧ r.leasedUntil.isSome = true ∧ r.status = .succeeded := by
  have hrun : ((engine receiverHost defaultSettings).run
      (ingestion 0 ++ tickUpToPost 1 ++ tickAfterPost 1 (.response 200 [])) init).map (fun s =>
        (s.deliveries.rows 1).any fun r => r.leasedUntil.isSome = true ∧ r.status = .succeeded) =
      some true := by
    decide +kernel
  obtain ⟨s, hs, hp⟩ := Machine.exists_reachable_of_run (fun _ _ => True)
    (fun _ _ _ => trivial) hrun
  obtain ⟨r, hr, hp⟩ := (Option.any_eq_true _ _).1 hp
  exact ⟨s, hs, r, hr, of_decide_eq_true hp⟩

end Hookit.Engine
