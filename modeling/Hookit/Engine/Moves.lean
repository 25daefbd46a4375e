import Hookit.Engine.Machine

/-!
# What one step of the engine does

`Move` lists the outcomes of a step, one constructor for each statement that goes through, with
everything `step` has checked, and one (`abort`) for every way in which a transaction is rolled
back. `move_of_step` is the only place where `step` is unfolded; every invariant of the engine is
proved by cases on `Move`.
-/

namespace Hookit.Engine

open Foundations

variable {π : Type} (lib : UrlLib) (cfg : Settings)

/-- The outcomes of a step. -/
inductive Move : Act π → State π → State π → Prop
  | advance {s : State π} {now : Time} (hnow : s.clock ≤ now) :
      Move (.advance now) s { s with clock := now }
  | beginIngest {s : State π} {t : Tid} {now : Time} (ht : s.txs t = .unused)
      (hnow : now ≤ s.clock) :
      Move (.beginIngest t now) s (s.put t s.deliveries ⟨.ingesting now, [], [], []⟩)
  | insertDelivery {s : State π} {t : Tid} {tx : Tx} {d : DeliveryId} {eventId : EventId}
      {endpointId : EndpointId} {now : Time} (ht : s.txs t = .running tx)
      (hphase : tx.phase = .ingesting now) (hheld : s.deliveries.held d = none)
      (hrow : s.deliveries.rows d = none) :
      Move (.insertDelivery t d eventId endpointId) s
        (s.put t (s.deliveries.write t d (some (.new eventId endpointId now)))
          { tx with trail := tx.trail ++ [(d, .created now)] })
  | recover {s : State π} {t : Tid} {worker : PyStr} {now : Time} {ds : List DeliveryId}
      (ht : s.txs t = .unused) (hnow : now ≤ s.clock) (hnodup : ds.Nodup)
      (hsel : ∀ d ∈ ds, s.selects t (leaseExpired now) d = true) :
      Move (.recover t worker now ds) s
        (s.put t (s.deliveries.writeAll t ds recoverRow)
          ⟨.recovered, worker, [], ds.map fun d => (d, .recovered now)⟩)
  | claim {s : State π} {t : Tid} {tx : Tx} {now : Time} {ds : List DeliveryId}
      (ht : s.txs t = .running tx) (hphase : tx.phase = .recovered) (hnow : now ≤ s.clock)
      (hnodup : ds.Nodup) (hsel : ∀ d ∈ ds, s.selects t (isDue now) d = true) :
      Move (.claim t now ds) s
        (s.put t (s.deliveries.writeAll t ds (claimRow cfg tx.worker now))
          { tx with
            phase := .working (.tick ds)
            trail := tx.trail ++ ds.map fun d => (d, .claimed now) })
  | lock {s : State π} {t : Tid} {worker : PyStr} {d : DeliveryId} (ht : s.txs t = .unused)
      (hsel : s.selects t (fun _ => true) d = true) :
      Move (.lock t worker d) s
        (s.put t (s.deliveries.writeAll t [d] id)
          ⟨.working (.fastForward d cfg.maxDeliveryAttempts.toNat), worker, [], [(d, .locked)]⟩)
  | refuse {s : State π} {t : Tid} {tx : Tx} {job job' : Job} {d : DeliveryId} {r : Delivery}
      {endpoint : Endpoint} {event : Event π} {timestamp : ℤ} (ht : s.txs t = .running tx)
      (hphase : tx.phase = .working job) (hnext : s.next t job = some (d, job'))
      (hr : s.deliveries.visible t d = some r)
      (hattempt : s.collides tx (refusedAttempt d r tx.worker) = false) :
      Move (.send t endpoint event timestamp) s
        (s.put t (s.deliveries.write t d
            (some { r with attemptCount := r.attemptCount + 1, status := .deadLettered }))
          { tx with
            phase := .working job'
            inserted := tx.inserted ++ [refusedAttempt d r tx.worker]
            trail := tx.trail ++ [(d, .refused)] })
  | post {s : State π} {t : Tid} {tx : Tx} {job job' : Job} {d : DeliveryId} {r : Delivery}
      {endpoint : Endpoint} {event : Event π} {timestamp : ℤ} {request : Request π}
      (ht : s.txs t = .running tx) (hphase : tx.phase = .working job)
      (hnext : s.next t job = some (d, job')) (hr : s.deliveries.visible t d = some r)
      (hendpoint : endpoint.id = r.endpointId) (hevent : event.id = r.eventId)
      (hprepare : prepareDelivery lib endpoint event r timestamp = .ok (some request)) :
      Move (.send t endpoint event timestamp) s
        { s.put t s.deliveries { tx with phase := .posting job' d s.posts.length } with
          posts := s.posts ++ [⟨t, d, request⟩] }
  | answer {s : State π} {t : Tid} {tx : Tx} {job : Job} {d : DeliveryId} {post : ℕ}
      {r row : Delivery} {answer : Answer} {durationMs : ℕ} {now : Time} {draw : Draw}
      (ht : s.txs t = .running tx) (hphase : tx.phase = .posting job d post)
      (hr : s.deliveries.visible t d = some r) (hnow : now ≤ s.clock)
      (hdecide : decideDelivery cfg r answer now draw = .ok row)
      (hattempt : s.collides tx (answeredAttempt d r answer durationMs tx.worker) = false) :
      Move (.answer t answer durationMs now draw) s
        (s.put t (s.deliveries.write t d (some row))
          { tx with
            phase := .working job
            inserted := tx.inserted ++ [answeredAttempt d r answer durationMs tx.worker]
            trail := tx.trail ++ [(d, .answered (r.attemptCount + 1) answer now)] })
  | read {s : State π} {t : Tid} {d : DeliveryId} {r : Delivery} (ht : s.txs t = .unused)
      (hr : s.deliveries.visible t d = some r) (hstatus : r.status = .deadLettered) :
      Move (.read t d) s (s.put t s.deliveries ⟨.read d, [], [], []⟩)
  | update {s : State π} {t : Tid} {tx : Tx} {d : DeliveryId} {now : Time}
      (ht : s.txs t = .running tx) (hphase : tx.phase = .read d) (hnow : now ≤ s.clock)
      (hsel : s.selects t (fun _ => true) d = true) :
      Move (.update t now) s
        (s.put t (s.deliveries.writeAll t [d] (redriveRow now))
          { tx with phase := .updated d, trail := tx.trail ++ [(d, .redriven now)] })
  | commit {s : State π} {t : Tid} {tx : Tx} (ht : s.txs t = .running tx)
      (hfinished : s.finished t tx.phase = true) : Move (.commit t) s (s.commit t tx)
  | abort {s : State π} {a : Act π} {t : Tid} (htid : a.tid? = some t)
      (ht : s.txs t = .unused ∨ ∃ tx, s.txs t = .running tx) : Move a s (s.rollback t)

variable {lib cfg}

theorem move_of_stepNew {a : Act π} {t : Tid} {s s' : State π} (htid : a.tid? = some t)
    (ht : s.txs t = .unused) (h : stepNew cfg t a s = some s') : Move lib cfg a s s' := by
  cases a with
  | beginIngest t' now =>
    obtain rfl := Option.some.inj htid
    obtain ⟨hnow, ⟨⟩⟩ := Option.ite_none_right_eq_some.1 h
    exact .beginIngest ht hnow
  | recover t' worker now ds =>
    obtain rfl := Option.some.inj htid
    obtain ⟨⟨hnow, hnodup, hsel⟩, ⟨⟩⟩ := Option.ite_none_right_eq_some.1 h
    exact .recover ht hnow hnodup hsel
  | lock t' worker d =>
    obtain rfl := Option.some.inj htid
    obtain ⟨hsel, ⟨⟩⟩ := Option.ite_none_right_eq_some.1 h
    exact .lock ht hsel
  | read t' d =>
    obtain rfl := Option.some.inj htid
    simp only [stepNew] at h
    split at h
    · split_ifs at h with hstatus
      · obtain rfl := Option.some.inj h
        exact .read ht ‹_› hstatus
      · obtain rfl := Option.some.inj h
        exact .abort rfl (.inl ht)
    · obtain rfl := Option.some.inj h
      exact .abort rfl (.inl ht)
  | _ => cases h

theorem move_of_stepTx {a : Act π} {t : Tid} {tx : Tx} {s s' : State π} (htid : a.tid? = some t)
    (ht : s.txs t = .running tx) (h : stepTx lib cfg t tx a s = some s') :
    Move lib cfg a s s' := by
  have habort : Move lib cfg a s (s.rollback t) := .abort htid (.inr ⟨tx, ht⟩)
  cases a with
  | insertDelivery t' d eventId endpointId =>
    obtain rfl := Option.some.inj htid
    simp only [stepTx] at h
    split at h
    · obtain ⟨⟨hheld, hrow⟩, ⟨⟩⟩ := Option.ite_none_right_eq_some.1 h
      exact .insertDelivery ht ‹_› hheld hrow
    · cases h
  | claim t' now ds =>
    obtain rfl := Option.some.inj htid
    obtain ⟨⟨hphase, hnow, hnodup, -, -, hsel⟩, ⟨⟩⟩ := Option.ite_none_right_eq_some.1 h
    exact .claim ht hphase hnow hnodup hsel
  | send t' endpoint event timestamp =>
    obtain rfl := Option.some.inj htid
    simp only [stepTx] at h
    split at h
    · split at h
      · cases h
      · split at h
        · cases h
        · obtain ⟨⟨hendpoint, hevent⟩, h⟩ := Option.ite_none_right_eq_some.1 h
          split at h <;> obtain rfl := Option.some.inj h
          · exact habort
          · unfold State.record
            split
            · exact habort
            · obtain ⟨-, rfl⟩ := refuseDelivery_eq_ok_iff.1 ‹_›
              split_ifs with hcollides
              · exact habort
              · exact .refuse ht ‹_› ‹_› ‹_› (by simpa using hcollides)
          · exact .post ht ‹_› ‹_› ‹_› hendpoint hevent ‹_›
    · cases h
  | answer t' answer durationMs now draw =>
    obtain rfl := Option.some.inj htid
    simp only [stepTx] at h
    split at h
    · split at h
      · cases h
      · obtain ⟨hnow, h⟩ := Option.ite_none_right_eq_some.1 h
        obtain rfl := Option.some.inj h
        unfold State.record
        split
        · exact habort
        · rename_i out hout
          obtain ⟨hdecide, -, hattempt⟩ := settleDelivery_eq_ok_iff.1 hout
          rw [hattempt]
          split_ifs with hcollides
          · exact habort
          · exact .answer ht ‹_› ‹_› hnow hdecide (by simpa using hcollides)
    · cases h
  | update t' now =>
    obtain rfl := Option.some.inj htid
    simp only [stepTx] at h
    split at h
    · obtain ⟨⟨hnow, hsel⟩, ⟨⟩⟩ := Option.ite_none_right_eq_some.1 h
      exact .update ht ‹_› hnow hsel
    · cases h
  | commit t' =>
    obtain rfl := Option.some.inj htid
    obtain ⟨hfinished, ⟨⟩⟩ := Option.ite_none_right_eq_some.1 h
    exact .commit ht hfinished
  | rollback t' =>
    obtain rfl := Option.some.inj htid
    obtain rfl := Option.some.inj h
    exact habort
  | _ => cases h

/-- **Every step is a move.** -/
theorem move_of_step {a : Act π} {s s' : State π} (h : step lib cfg a s = some s') :
    Move lib cfg a s s' := by
  cases ha : a.tid? with
  | none =>
    cases a with
    | advance now =>
      obtain ⟨hnow, ⟨⟩⟩ := Option.ite_none_right_eq_some.1 h
      exact .advance hnow
    | _ => cases ha
  | some t =>
    have hclock : ∀ now, a ≠ .advance now := by
      rintro now rfl
      cases ha
    cases ht : s.txs t with
    | unused => exact move_of_stepNew ha ht (by simpa only [step, ha, ht] using h)
    | running tx => exact move_of_stepTx ha ht (by simpa only [step, ha, ht] using h)
    | committed => simp [step, ha, ht] at h
    | rolledBack => simp [step, ha, ht] at h

end Hookit.Engine
