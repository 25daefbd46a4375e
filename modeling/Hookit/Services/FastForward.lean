import Hookit.Foundations.Raise
import Hookit.Worker.Batch

/-!
# `app/services/showcase.py`: driving a delivery to the dead-letter queue

`fastForwardToDeadLetter` is `_fast_forward_to_dead_letter`: the row as its `SELECT ... FOR UPDATE`
finds it, up to `max_delivery_attempts` iterations that end at a dead-lettered row, and the row as
it is read again after the commit, which expires it.

The loop does not look for a row that has succeeded, and nothing holds the row after the commit.
`drivesToDeadLetter_iff`: it leaves succeeded deliveries alone, keeps to the number of attempts and
returns what it should exactly when it never meets one with an iteration to go (`NeverSucceeded`)
and the row is read again as dead-lettered as it was committed (`RereadAlike`).
-/

namespace Hookit

open Foundations

variable {π : Type}

/-- How the blocking `SELECT ... FOR UPDATE` ends. -/
inductive LockResult
  /-- An `OperationalError`: the lock is not there within five seconds. -/
  | timedOut
  | missing
  | found (row : Delivery)

/-- One pass of the loop: the row before it, the request that is POSTed and what
`process_delivery` leaves. -/
structure Iteration (π : Type) where
  before : Delivery
  posted : Option (Request π)
  after : Except PyError Settled

/-- What the loop is about, apart from the delivery's row. -/
structure Target (π : Type) where
  delivery : DeliveryId
  endpoint : Endpoint
  event : Event π

section Definitions

variable (lib : UrlLib) (cfg : Settings) (worker : PyStr) (target : Target π)

/-- The delivery as `process_delivery` takes it. -/
def Target.claimed (target : Target π) (row : Delivery) : Claimed π :=
  ⟨target.delivery, row, target.endpoint, target.event⟩

/-- The request that `process_delivery` POSTs. -/
def posted (row : Delivery) (env : Surroundings π) : Option (Request π) :=
  (prepareDelivery lib target.endpoint target.event row env.timestamp).toOption.join

/-- The passes of the loop, of which `rounds` are left. -/
def iterations : (rounds : ℕ) → (ℕ → Surroundings π) → Delivery → List (Iteration π)
  | 0, _, _ => []
  | rounds + 1, envs, row =>
    if row.status = .deadLettered then []
    else
      let after := processDelivery lib cfg worker (target.claimed row) (envs 0)
      ⟨row, posted lib target row (envs 0), after⟩ ::
        match after with
        | .ok out => iterations rounds (fun i => envs (i + 1)) out.row
        | .error _ => []

/-- The row that the loop leaves, or the exception that ends it. -/
def drivenRow (row : Delivery) (passes : List (Iteration π)) : Except PyError Delivery :=
  match passes.getLast? with
  | none => .ok row
  | some pass => pass.after.map Settled.row

/-- `range(settings.max_delivery_attempts)`. -/
def passesOf (envs : ℕ → Surroundings π) : LockResult → List (Iteration π)
  | .found row => iterations lib cfg worker target cfg.maxDeliveryAttempts.toNat envs row
  | _ => []

/-- What `_fast_forward_to_dead_letter` leaves: the row that it commits, if it commits one, and how
it ends. -/
structure Driven where
  committed : Option Delivery
  result : Except PyError (Option DeliveryId)

/-- The `return` after the commit: `delivery.status` is read again, by a `SELECT` that finds the row
or finds it gone. -/
def returned (target : Target π) : (reread : Option Delivery) → Except PyError (Option DeliveryId)
  | none => .error .objectDeletedError
  | some row => .ok (if row.status = .deadLettered then some target.delivery else none)

/-- `_fast_forward_to_dead_letter`. -/
def fastForwardToDeadLetter (envs : ℕ → Surroundings π) (lock : LockResult)
    (reread : Option Delivery) : Driven :=
  match lock with
  | .timedOut | .missing => ⟨none, .ok none⟩
  | .found row =>
    match drivenRow row (passesOf lib cfg worker target envs lock) with
    | .error e => ⟨none, .error e⟩
    | .ok row => ⟨some row, returned target reread⟩

/-- A delivery that has succeeded is not POSTed, and keeps its status and its attempts. -/
def Iteration.LeavesSucceeded (pass : Iteration π) : Prop :=
  pass.before.status = .succeeded → pass.posted = none ∧
    ∀ out, pass.after = .ok out → out.row.status = .succeeded ∧
      out.row.attemptCount = pass.before.attemptCount

/-- What the function is for. -/
structure DrivesToDeadLetter (envs : ℕ → Surroundings π) (lock : LockResult)
    (reread : Option Delivery) : Prop where
  leavesSucceeded : ∀ pass ∈ passesOf lib cfg worker target envs lock, pass.LeavesSucceeded
  /-- A pending delivery that was never redriven has fewer than `max 1 M` attempts
  (`Engine.Lifecycle.attemptCount_lt`). -/
  posts : ∀ row, lock = .found row → row.status = .pending →
    (row.attemptCount : ℤ) < max 1 cfg.maxDeliveryAttempts →
    (((passesOf lib cfg worker target envs lock).filterMap Iteration.posted).length : ℤ) ≤
      max 1 cfg.maxDeliveryAttempts - row.attemptCount
  returns : (fastForwardToDeadLetter lib cfg worker target envs lock reread).result =
      .ok (some target.delivery) ↔
    ∃ row, (fastForwardToDeadLetter lib cfg worker target envs lock reread).committed = some row ∧
      row.status = .deadLettered
  /-- It returns the delivery's id or `None`. -/
  result : ∀ result,
    (fastForwardToDeadLetter lib cfg worker target envs lock reread).result = .ok result →
      result = none ∨ result = some target.delivery

/-! ## When it is not met by a success -/

/-- The answer to an attempt. -/
def answerTo (env : Surroundings π) (attemptCount : ℕ) : Answer :=
  env.answer
    { url := target.endpoint.url
      payloadFormat := target.endpoint.payloadFormat
      eventId := target.event.id
      eventType := target.event.type
      payload := target.event.payload
      timestamp := env.timestamp
      attempt := attemptCount + 1 }

/-- The attempt can be stored. -/
def Recordable (env : Surroundings π) (attemptCount : ℕ) : Prop :=
  (answerTo target env attemptCount).Storable ∧ FitsCounter (attemptCount + 1) ∧
    FitsCounter env.durationMs ∧ worker.storable = true

/-- The answer is a success that can be stored. -/
def Succeeds (env : Surroundings π) (attemptCount : ℕ) : Prop :=
  (answerTo target env attemptCount).succeeded = true ∧ Recordable worker target env attemptCount

/-- The answer is a failure that can be stored, with another attempt to come. -/
def Retries (env : Surroundings π) (attemptCount : ℕ) : Prop :=
  (answerTo target env attemptCount).succeeded = false ∧
    (attemptCount + 1 : ℕ) < cfg.maxDeliveryAttempts ∧
    BackoffInRange (attemptCount + 1) cfg.retryBaseSeconds cfg.retryCapSeconds env.now env.draw ∧
    Recordable worker target env attemptCount

/-- The answer is a failure that can be stored, with no attempt to come. -/
def GivesUp (env : Surroundings π) (attemptCount : ℕ) : Prop :=
  (answerTo target env attemptCount).succeeded = false ∧
    cfg.maxDeliveryAttempts ≤ (attemptCount + 1 : ℕ) ∧ Recordable worker target env attemptCount

/-- The SSRF check refuses the destination, and this can be stored. -/
def Refuses (attemptCount : ℕ) : Prop :=
  validateUrlNotSsrf lib target.endpoint.url = .error .ssrfError ∧
    FitsCounter (attemptCount + 1) ∧ worker.storable = true

/-- After failures only, no attempt but that of the last of `rounds` passes is a success. -/
def FailsUntilLast (rounds : ℕ) (envs : ℕ → Surroundings π) (attemptCount : ℕ) : Prop :=
  ∀ i, i + 1 < rounds → (∀ j < i, Retries cfg worker target (envs j) (attemptCount + j)) →
    ¬ Succeeds worker target (envs i) (attemptCount + i)

/-- The delivery is not found succeeded, and it does not succeed with a pass to come. Where the SSRF
check does not let the request through, the first holds and the second need not. -/
def NeverSucceeded (envs : ℕ → Surroundings π) (lock : LockResult) : Prop :=
  ∀ row, lock = .found row →
    (row.status = .succeeded → cfg.maxDeliveryAttempts ≤ 0 ∨
      validateUrlNotSsrf lib target.endpoint.url = .error .valueError ∨
      (validateUrlNotSsrf lib target.endpoint.url = .error .ssrfError ∧
        ¬ Refuses lib worker target row.attemptCount)) ∧
    (row.status ≠ .succeeded → row.status ≠ .deadLettered →
      validateUrlNotSsrf lib target.endpoint.url = .ok () →
      FailsUntilLast cfg worker target cfg.maxDeliveryAttempts.toNat envs row.attemptCount)

/-- After failures with another attempt to come, one of `rounds` passes gives the delivery up. -/
def GivesUpWithin (rounds : ℕ) (envs : ℕ → Surroundings π) (attemptCount : ℕ) : Prop :=
  ∃ i < rounds, (∀ j < i, Retries cfg worker target (envs j) (attemptCount + j)) ∧
    GivesUp cfg worker target (envs i) (attemptCount + i)

/-- After failures with another attempt to come, the last of `rounds` passes is a success. -/
def SucceedsLast (rounds : ℕ) (envs : ℕ → Surroundings π) (attemptCount : ℕ) : Prop :=
  ∃ i, i + 1 = rounds ∧ (∀ j < i, Retries cfg worker target (envs j) (attemptCount + j)) ∧
    Succeeds worker target (envs i) (attemptCount + i)

/-- The delivery is found dead-lettered, or its passes dead-letter it. -/
def EndsDeadLettered (envs : ℕ → Surroundings π) (row : Delivery) : Prop :=
  row.status = .deadLettered ∨ 0 < cfg.maxDeliveryAttempts ∧
    (Refuses lib worker target row.attemptCount ∨
      validateUrlNotSsrf lib target.endpoint.url = .ok () ∧
        GivesUpWithin cfg worker target cfg.maxDeliveryAttempts.toNat envs row.attemptCount)

/-- The delivery is left without a pass, or its last pass is a success. -/
def EndsOtherwise (envs : ℕ → Surroundings π) (row : Delivery) : Prop :=
  row.status ≠ .deadLettered ∧ (cfg.maxDeliveryAttempts ≤ 0 ∨
    validateUrlNotSsrf lib target.endpoint.url = .ok () ∧
      SucceedsLast cfg worker target cfg.maxDeliveryAttempts.toNat envs row.attemptCount)

/-- The row that is read after the commit is there and dead-lettered if the delivery ends
dead-lettered, and not if it ends otherwise. -/
def RereadAlike (envs : ℕ → Surroundings π) (lock : LockResult) (reread : Option Delivery) : Prop :=
  ∀ row, lock = .found row →
    (EndsDeadLettered lib cfg worker target envs row →
      ∃ row', reread = some row' ∧ row'.status = .deadLettered) ∧
    (EndsOtherwise lib cfg worker target envs row →
      ∀ row', reread = some row' → row'.status ≠ .deadLettered)

end Definitions

/-! ## One pass -/

section Pass

variable {lib : UrlLib} {cfg : Settings} {worker : PyStr} {target : Target π} {row : Delivery}
  {env : Surroundings π}

theorem posted_of_ok (h : validateUrlNotSsrf lib target.endpoint.url = .ok ()) :
    (posted lib target row env).isSome = true := by
  simp [posted, prepareDelivery, h, Except.toOption]

theorem posted_of_error {e : PyError}
    (h : validateUrlNotSsrf lib target.endpoint.url = .error e) : posted lib target row env = none := by
  cases e <;> simp [posted, prepareDelivery, h, Except.toOption]

/-- Where the request is let through, a pass returns if its decision is reached and can be stored. -/
theorem processDelivery_eq_ok_iff (h : validateUrlNotSsrf lib target.endpoint.url = .ok ())
    {out : Settled} : processDelivery lib cfg worker (target.claimed row) env = .ok out ↔
      decideDelivery cfg row (answerTo target env row.attemptCount) env.now env.draw =
          .ok out.row ∧ Recordable worker target env row.attemptCount ∧
        out.attempt = answeredAttempt target.delivery row (answerTo target env row.attemptCount)
          env.durationMs worker := by
  have hstore := @answeredAttempt_storable_iff target.delivery row
    (answerTo target env row.attemptCount) env.durationMs worker
  rw [Recordable, ← hstore, ← settleDelivery_eq_ok_iff]
  simp only [processDelivery, Target.claimed, prepareDelivery, h]
  rfl

/-- **What a pass leaves**, where the request is let through. -/
theorem processDelivery_cases (h : validateUrlNotSsrf lib target.endpoint.url = .ok ()) :
    (Succeeds worker target env row.attemptCount ∧
      ∃ out, processDelivery lib cfg worker (target.claimed row) env = .ok out ∧
        out.row.status = .succeeded ∧ out.row.attemptCount = row.attemptCount + 1) ∨
    (Retries cfg worker target env row.attemptCount ∧
      ∃ out, processDelivery lib cfg worker (target.claimed row) env = .ok out ∧
        out.row.status = .pending ∧ out.row.attemptCount = row.attemptCount + 1) ∨
    (GivesUp cfg worker target env row.attemptCount ∧
      ∃ out, processDelivery lib cfg worker (target.claimed row) env = .ok out ∧
        out.row.status = .deadLettered) ∨
    (¬ Succeeds worker target env row.attemptCount ∧
      ¬ Retries cfg worker target env row.attemptCount ∧
      ¬ GivesUp cfg worker target env row.attemptCount ∧
      ∃ e, processDelivery lib cfg worker (target.claimed row) env = .error e) := by
  have hraises : (∀ out, processDelivery lib cfg worker (target.claimed row) env ≠ .ok out) →
      ∃ e, processDelivery lib cfg worker (target.claimed row) env = .error e := by
    intro hnot
    cases hres : processDelivery lib cfg worker (target.claimed row) env with
    | error e => exact ⟨e, rfl⟩
    | ok out => exact absurd hres (hnot out)
  by_cases hstore : Recordable worker target env row.attemptCount
  swap
  · refine .inr (.inr (.inr ⟨fun hs => hstore hs.2, fun hr => hstore hr.2.2.2,
      fun hg => hstore hg.2.2, hraises fun out hout => ?_⟩))
    exact hstore ((processDelivery_eq_ok_iff h).1 hout).2.1
  cases hsucceeded : (answerTo target env row.attemptCount).succeeded with
  | true =>
    refine .inl ⟨⟨hsucceeded, hstore⟩, ⟨{ row with
      attemptCount := row.attemptCount + 1, status := .succeeded }, _⟩,
      (processDelivery_eq_ok_iff h).2 ⟨decideDelivery_eq_ok_iff.2 (.inl ⟨hsucceeded, rfl⟩), hstore,
        rfl⟩, rfl, rfl⟩
  | false =>
    rcases le_or_gt cfg.maxDeliveryAttempts (row.attemptCount + 1 : ℕ) with hlast | hmore
    · exact .inr (.inr (.inl ⟨⟨hsucceeded, hlast, hstore⟩, ⟨{ row with
        attemptCount := row.attemptCount + 1, status := .deadLettered }, _⟩,
        (processDelivery_eq_ok_iff h).2
          ⟨decideDelivery_eq_ok_iff.2 (.inr (.inl ⟨hsucceeded, hlast, rfl⟩)), hstore, rfl⟩, rfl⟩))
    by_cases hback : BackoffInRange (row.attemptCount + 1) cfg.retryBaseSeconds
        cfg.retryCapSeconds env.now env.draw
    · exact .inr (.inl ⟨⟨hsucceeded, hmore, hback, hstore⟩, ⟨_, _⟩, (processDelivery_eq_ok_iff h).2
        ⟨decideDelivery_eq_ok_iff.2 (.inr (.inr ⟨hsucceeded, hmore, hback, rfl⟩)), hstore, rfl⟩,
        rfl, rfl⟩)
    · refine .inr (.inr (.inr ⟨fun hs => Bool.noConfusion (hs.1.symm.trans hsucceeded),
        fun hr => hback hr.2.2.1, fun hg => not_le.2 hmore hg.2.1, hraises fun out hout => ?_⟩))
      rcases decideDelivery_eq_ok_iff.1 ((processDelivery_eq_ok_iff h).1 hout).1 with
        ⟨hs, -⟩ | ⟨-, hlast, -⟩ | ⟨-, -, hin, -⟩
      · rw [hsucceeded] at hs
        cases hs
      · exact absurd hlast (not_le.2 hmore)
      · exact hback hin

theorem Retries.not_succeeds {n : ℕ} (h : Retries cfg worker target env n) :
    ¬ Succeeds worker target env n := by
  intro hs
  rw [Retries, hs.1] at h
  cases h.1

theorem GivesUp.not_succeeds {n : ℕ} (h : GivesUp cfg worker target env n) :
    ¬ Succeeds worker target env n := by
  intro hs
  rw [GivesUp, hs.1] at h
  cases h.1

theorem GivesUp.not_retries {n : ℕ} (h : GivesUp cfg worker target env n) :
    ¬ Retries cfg worker target env n := fun hr => not_le.2 hr.2.1 h.2.1

/-- Where the check refuses the destination, a pass dead-letters the delivery. -/
theorem processDelivery_of_error {e : PyError}
    (h : validateUrlNotSsrf lib target.endpoint.url = .error e) {out : Settled} :
    processDelivery lib cfg worker (target.claimed row) env = .ok out ↔
      Refuses lib worker target row.attemptCount ∧
        out = ⟨{ row with attemptCount := row.attemptCount + 1, status := .deadLettered },
          refusedAttempt target.delivery row worker⟩ := by
  have hstore := @refusedAttempt_storable_iff target.delivery row worker
  rcases validateUrlNotSsrf_cases lib target.endpoint.url with ⟨-, hv | hv⟩ | ⟨-, hv⟩
  · rw [hv] at h
    cases h
  · rw [Refuses, and_iff_right hv, ← hstore, ← refuseDelivery_eq_ok_iff]
    simp only [processDelivery, Target.claimed, prepareDelivery, hv]
    rfl
  · obtain rfl := Except.error.inj (hv.symm.trans h)
    refine iff_of_false ?_ (by simp [Refuses, hv])
    simp only [processDelivery, Target.claimed, prepareDelivery, h]
    intro hok
    cases hok

end Pass

/-! ## The loop -/

section Loop

variable {lib : UrlLib} {cfg : Settings} {worker : PyStr} {target : Target π} {row : Delivery}
  {envs : ℕ → Surroundings π} {rounds : ℕ}

theorem iterations_deadLettered (h : row.status = .deadLettered) :
    iterations lib cfg worker target rounds envs row = [] := by
  cases rounds with
  | zero => rfl
  | succ rounds => rw [iterations, if_pos h]

theorem iterations_succ (h : row.status ≠ .deadLettered) :
    iterations lib cfg worker target (rounds + 1) envs row =
      ⟨row, posted lib target row (envs 0),
        processDelivery lib cfg worker (target.claimed row) (envs 0)⟩ ::
      match processDelivery lib cfg worker (target.claimed row) (envs 0) with
      | .ok out => iterations lib cfg worker target rounds (fun i => envs (i + 1)) out.row
      | .error _ => [] := by
  rw [iterations, if_neg h]

/-- A row that has succeeded is attempted again if there is a pass to come. -/
theorem not_leavesSucceeded (h : validateUrlNotSsrf lib target.endpoint.url = .ok ())
    (hs : row.status = .succeeded) :
    (∀ pass ∈ iterations lib cfg worker target rounds envs row, pass.LeavesSucceeded) ↔
      rounds = 0 := by
  cases rounds with
  | zero => simp [iterations]
  | succ rounds =>
    refine iff_of_false (fun hall => ?_) (Nat.succ_ne_zero _)
    rw [iterations_succ (by rw [hs]; decide)] at hall
    have hnone : posted lib target row (envs 0) = none := ((List.forall_mem_cons.1 hall).1 hs).1
    have hposted := @posted_of_ok π lib target row (envs 0) h
    rw [hnone] at hposted
    cases hposted

theorem failsUntilLast_of_succeeds {attemptCount : ℕ}
    (h : Succeeds worker target (envs 0) attemptCount) :
    FailsUntilLast cfg worker target (rounds + 1) envs attemptCount ↔ rounds = 0 := by
  constructor
  · intro hall
    by_contra hrounds
    exact hall 0 (by omega) (by simp) h
  · rintro rfl i hi
    omega

theorem failsUntilLast_of_retries {attemptCount : ℕ}
    (hfail : ¬ Succeeds worker target (envs 0) attemptCount)
    (hretry : Retries cfg worker target (envs 0) attemptCount) :
    FailsUntilLast cfg worker target (rounds + 1) envs attemptCount ↔
      FailsUntilLast cfg worker target rounds (fun i => envs (i + 1)) (attemptCount + 1) := by
  have hshift : ∀ i, attemptCount + 1 + i = attemptCount + (i + 1) := fun i => by omega
  constructor
  · intro hall i hi hbefore
    rw [hshift]
    refine hall (i + 1) (by omega) fun j hj => ?_
    cases j with
    | zero => exact hretry
    | succ j =>
      have := hbefore j (by omega)
      rwa [hshift] at this
  · intro hall i hi hbefore
    cases i with
    | zero => exact hfail
    | succ i =>
      rw [← hshift]
      refine hall i (by omega) fun j hj => ?_
      rw [hshift]
      exact hbefore (j + 1) (by omega)

theorem failsUntilLast_of_stops {attemptCount : ℕ}
    (hfail : ¬ Succeeds worker target (envs 0) attemptCount)
    (hretry : ¬ Retries cfg worker target (envs 0) attemptCount) :
    FailsUntilLast cfg worker target rounds envs attemptCount := by
  intro i hi hbefore
  cases i with
  | zero => exact hfail
  | succ i => exact absurd (hbefore 0 (Nat.succ_pos i)) hretry

/-- **The loop leaves succeeded deliveries alone** if it fails until its last pass. -/
theorem leavesSucceeded_iff (h : validateUrlNotSsrf lib target.endpoint.url = .ok ())
    (hs : row.status ≠ .succeeded) (hd : row.status ≠ .deadLettered) :
    (∀ pass ∈ iterations lib cfg worker target rounds envs row, pass.LeavesSucceeded) ↔
      FailsUntilLast cfg worker target rounds envs row.attemptCount := by
  induction rounds generalizing row envs with
  | zero => simp [iterations, FailsUntilLast]
  | succ rounds ih =>
    have hfirst : (⟨row, posted lib target row (envs 0),
        processDelivery lib cfg worker (target.claimed row) (envs 0)⟩ : Iteration π).LeavesSucceeded :=
      fun hs' => absurd hs' hs
    rw [iterations_succ hd, List.forall_mem_cons, and_iff_right hfirst]
    rcases @processDelivery_cases _ lib cfg worker target row (envs 0) h with
      ⟨hsuccess, out, hout, hstatus, hcount⟩ | ⟨hretry, out, hout, hstatus, hcount⟩ |
        ⟨hgives, out, hout, hstatus⟩ | ⟨hfail, hretry, -, e, hout⟩
    · rw [hout, failsUntilLast_of_succeeds hsuccess]
      exact not_leavesSucceeded h hstatus
    · rw [hout, failsUntilLast_of_retries hretry.not_succeeds hretry, ← hcount]
      exact ih (by rw [hstatus]; decide) (by rw [hstatus]; decide)
    · rw [hout]
      dsimp only
      rw [iterations_deadLettered hstatus]
      exact iff_of_true (by simp) (failsUntilLast_of_stops hgives.not_succeeds hgives.not_retries)
    · rw [hout]
      exact iff_of_true (by simp) (failsUntilLast_of_stops hfail hretry)

/-- **The number of POSTs** of a loop that leaves succeeded deliveries alone. -/
theorem length_posts_le (h : validateUrlNotSsrf lib target.endpoint.url = .ok ())
    (hs : row.status ≠ .succeeded) (hd : row.status ≠ .deadLettered)
    (hleaves : FailsUntilLast cfg worker target rounds envs row.attemptCount) :
    (((iterations lib cfg worker target rounds envs row).filterMap Iteration.posted).length : ℤ) ≤
      max 1 (cfg.maxDeliveryAttempts - row.attemptCount) := by
  induction rounds generalizing row envs with
  | zero => simp [iterations]
  | succ rounds ih =>
    obtain ⟨request, hrequest⟩ := Option.isSome_iff_exists.1 (@posted_of_ok π lib target row (envs 0) h)
    have hfirst : (⟨row, posted lib target row (envs 0),
        processDelivery lib cfg worker (target.claimed row) (envs 0)⟩ : Iteration π).posted =
      some request := hrequest
    rw [iterations_succ hd, List.filterMap_cons_some hfirst, List.length_cons]
    rcases @processDelivery_cases _ lib cfg worker target row (envs 0) h with
      ⟨hsuccess, out, hout, hstatus, hcount⟩ | ⟨hretry, out, hout, hstatus, hcount⟩ |
        ⟨-, out, hout, hstatus⟩ | ⟨-, -, -, e, hout⟩
    · obtain rfl := (failsUntilLast_of_succeeds hsuccess).1 hleaves
      simp [hout, iterations]
    · rw [hout]
      have hle := @ih out.row (fun i => envs (i + 1)) (by rw [hstatus]; decide)
        (by rw [hstatus]; decide)
        (by rw [hcount]; exact (failsUntilLast_of_retries hretry.not_succeeds hretry).1 hleaves)
      have hmore := hretry.2.1
      rw [hcount] at hle
      push_cast at hle hmore ⊢
      omega
    · simp [hout, iterations_deadLettered hstatus]
    · simp [hout]

/-! ### The row that is committed -/

theorem drivenRow_nil : drivenRow (π := π) row [] = .ok row := rfl

/-- The passes after the first start from the row that it leaves. -/
theorem drivenRow_iterations (hd : row.status ≠ .deadLettered) :
    drivenRow row (iterations lib cfg worker target (rounds + 1) envs row) =
      match processDelivery lib cfg worker (target.claimed row) (envs 0) with
      | .ok out => drivenRow out.row
          (iterations lib cfg worker target rounds (fun i => envs (i + 1)) out.row)
      | .error e => .error e := by
  rw [iterations_succ hd]
  cases hout : processDelivery lib cfg worker (target.claimed row) (envs 0) with
  | error e => rfl
  | ok out =>
    dsimp only
    unfold drivenRow
    rw [List.getLast?_cons]
    cases (iterations lib cfg worker target rounds (fun i => envs (i + 1)) out.row).getLast? with
    | none => rfl
    | some pass => rfl

/-- What holds of some pass after failures, of the first or of the rest. -/
theorem exists_after_retries {n : ℕ} {Q : ℕ → Surroundings π → ℕ → Prop}
    (hretry : Retries cfg worker target (envs 0) n) (hfirst : ¬ Q 0 (envs 0) n) :
    (∃ i, (∀ j < i, Retries cfg worker target (envs j) (n + j)) ∧ Q i (envs i) (n + i)) ↔
      ∃ i, (∀ j < i, Retries cfg worker target (envs (j + 1)) (n + 1 + j)) ∧
        Q (i + 1) (envs (i + 1)) (n + 1 + i) := by
  have hshift : ∀ i, n + 1 + i = n + (i + 1) := fun i => by omega
  constructor
  · rintro ⟨i, hbefore, hq⟩
    cases i with
    | zero => exact absurd hq hfirst
    | succ i =>
      refine ⟨i, fun j hj => ?_, hshift i ▸ hq⟩
      rw [hshift]
      exact hbefore (j + 1) (by omega)
  · rintro ⟨i, hbefore, hq⟩
    refine ⟨i + 1, fun j hj => ?_, hshift i ▸ hq⟩
    cases j with
    | zero => exact hretry
    | succ j =>
      rw [← hshift]
      exact hbefore j (by omega)

theorem givesUpWithin_of_retries {n : ℕ} (hretry : Retries cfg worker target (envs 0) n) :
    GivesUpWithin cfg worker target (rounds + 1) envs n ↔
      GivesUpWithin cfg worker target rounds (fun i => envs (i + 1)) (n + 1) := by
  have hfirst : ¬ (0 < rounds + 1 ∧ GivesUp cfg worker target (envs 0) n) :=
    fun h => h.2.not_retries hretry
  have hafter := exists_after_retries
    (Q := fun i env n => i < rounds + 1 ∧ GivesUp cfg worker target env n) hretry hfirst
  simp only [Nat.add_lt_add_iff_right] at hafter
  simpa only [GivesUpWithin, and_left_comm] using hafter

theorem succeedsLast_of_retries {n : ℕ} (hretry : Retries cfg worker target (envs 0) n) :
    SucceedsLast cfg worker target (rounds + 1) envs n ↔
      SucceedsLast cfg worker target rounds (fun i => envs (i + 1)) (n + 1) := by
  have hfirst : ¬ (0 + 1 = rounds + 1 ∧ Succeeds worker target (envs 0) n) :=
    fun h => hretry.not_succeeds h.2
  have hafter := exists_after_retries
    (Q := fun i env n => i + 1 = rounds + 1 ∧ Succeeds worker target env n) hretry hfirst
  simp only [Nat.add_right_cancel_iff] at hafter
  simpa only [SucceedsLast, Nat.add_right_cancel_iff, and_left_comm] using hafter

/-- Without a retry at first, only the first pass counts. -/
theorem forall_retries_iff {n i : ℕ} (hretry : ¬ Retries cfg worker target (envs 0) n) :
    (∀ j < i, Retries cfg worker target (envs j) (n + j)) ↔ i = 0 := by
  constructor
  · intro h
    by_contra hi
    exact hretry (h 0 (Nat.pos_of_ne_zero hi))
  · rintro rfl
    simp

theorem givesUpWithin_of_stops {n : ℕ} (hretry : ¬ Retries cfg worker target (envs 0) n) :
    GivesUpWithin cfg worker target (rounds + 1) envs n ↔ GivesUp cfg worker target (envs 0) n := by
  constructor
  · rintro ⟨i, -, hbefore, hgives⟩
    obtain rfl := (forall_retries_iff hretry).1 hbefore
    exact hgives
  · exact fun hgives => ⟨0, Nat.succ_pos rounds, by simp, hgives⟩

theorem succeedsLast_of_stops {n : ℕ} (hretry : ¬ Retries cfg worker target (envs 0) n) :
    SucceedsLast cfg worker target (rounds + 1) envs n ↔
      rounds = 0 ∧ Succeeds worker target (envs 0) n := by
  constructor
  · rintro ⟨i, hi, hbefore, hsuccess⟩
    obtain rfl := (forall_retries_iff hretry).1 hbefore
    exact ⟨by omega, hsuccess⟩
  · rintro ⟨rfl, hsuccess⟩
    exact ⟨0, rfl, by simp, hsuccess⟩

/-- **What is committed**, after passes that fail until the last: a delivery that is given up, or one
that succeeds at last. -/
theorem drivenRow_spec (h : validateUrlNotSsrf lib target.endpoint.url = .ok ())
    (hd : row.status ≠ .deadLettered)
    (hmax : cfg.maxDeliveryAttempts ≤ (row.attemptCount + (rounds + 1) : ℕ))
    (hleaves : FailsUntilLast cfg worker target (rounds + 1) envs row.attemptCount) :
    ((∃ r, drivenRow row (iterations lib cfg worker target (rounds + 1) envs row) = .ok r ∧
        r.status = .deadLettered) ↔
      GivesUpWithin cfg worker target (rounds + 1) envs row.attemptCount) ∧
    ((∃ r, drivenRow row (iterations lib cfg worker target (rounds + 1) envs row) = .ok r ∧
        r.status ≠ .deadLettered) ↔
      SucceedsLast cfg worker target (rounds + 1) envs row.attemptCount) := by
  induction rounds using Nat.strongRecOn generalizing row envs with
  | _ rounds ih =>
    rw [drivenRow_iterations hd]
    rcases @processDelivery_cases _ lib cfg worker target row (envs 0) h with
      ⟨hsuccess, out, hout, hstatus, -⟩ | ⟨hretry, out, hout, hstatus, hcount⟩ |
        ⟨hgives, out, hout, hstatus⟩ | ⟨hfail, hretry, hgives, e, hout⟩
    · -- a success is the last pass
      obtain rfl := (failsUntilLast_of_succeeds hsuccess).1 hleaves
      have hretry : ¬ Retries cfg worker target (envs 0) row.attemptCount :=
        fun hr => hr.not_succeeds hsuccess
      have hgives : ¬ GivesUp cfg worker target (envs 0) row.attemptCount :=
        fun hg => hg.not_succeeds hsuccess
      rw [hout, givesUpWithin_of_stops hretry, succeedsLast_of_stops hretry]
      simp [iterations, drivenRow_nil, hstatus, hsuccess, hgives]
    · -- a retry leaves at least one pass
      have hmore := hretry.2.1
      obtain ⟨rounds, rfl⟩ : ∃ m, rounds = m + 1 := ⟨rounds - 1, by omega⟩
      rw [hout, givesUpWithin_of_retries hretry, succeedsLast_of_retries hretry, ← hcount]
      refine ih rounds (by omega) (by rw [hstatus]; decide) (by rw [hcount]; omega) ?_
      rw [hcount]
      exact (failsUntilLast_of_retries hretry.not_succeeds hretry).1 hleaves
    · rw [hout, givesUpWithin_of_stops hgives.not_retries, succeedsLast_of_stops hgives.not_retries]
      simp [iterations_deadLettered hstatus, drivenRow_nil, hstatus, hgives, hgives.not_succeeds]
    · rw [hout, givesUpWithin_of_stops hretry, succeedsLast_of_stops hretry]
      simp [hgives, hfail]

/-- Where the check raises, the loop has one pass, which POSTs nothing. -/
theorem iterations_of_error {e : PyError}
    (h : validateUrlNotSsrf lib target.endpoint.url = .error e) (hd : row.status ≠ .deadLettered) :
    iterations lib cfg worker target (rounds + 1) envs row =
      [⟨row, none, processDelivery lib cfg worker (target.claimed row) (envs 0)⟩] := by
  rw [iterations_succ hd, posted_of_error h]
  congr 1
  cases hout : processDelivery lib cfg worker (target.claimed row) (envs 0) with
  | error e => rfl
  | ok out =>
    obtain ⟨-, rfl⟩ := (processDelivery_of_error h).1 hout
    exact iterations_deadLettered rfl

theorem leavesSucceeded_iff_of_error {e : PyError}
    (h : validateUrlNotSsrf lib target.endpoint.url = .error e) :
    (∀ pass ∈ iterations lib cfg worker target rounds envs row, pass.LeavesSucceeded) ↔
      (row.status = .succeeded → rounds = 0 ∨ ¬ Refuses lib worker target row.attemptCount) := by
  by_cases hd : row.status = .deadLettered
  · rw [iterations_deadLettered hd]
    exact iff_of_true (by simp) fun hs => by simp [hd] at hs
  cases rounds with
  | zero => simp [iterations]
  | succ rounds =>
    rw [iterations_of_error h hd]
    simp only [List.mem_singleton, forall_eq, Iteration.LeavesSucceeded, true_and,
      Nat.succ_ne_zero, false_or]
    refine imp_congr_right fun hs => ?_
    constructor
    · intro hall hrefuses
      have := (hall _ ((processDelivery_of_error h).2 ⟨hrefuses, rfl⟩)).1
      cases this
    · intro hnot out hout
      exact absurd ((processDelivery_of_error h).1 hout).1 hnot

theorem posts_of_error {e : PyError}
    (h : validateUrlNotSsrf lib target.endpoint.url = .error e) :
    (iterations lib cfg worker target rounds envs row).filterMap Iteration.posted = [] := by
  by_cases hd : row.status = .deadLettered
  · rw [iterations_deadLettered hd]
    rfl
  cases rounds with
  | zero => rfl
  | succ rounds => rw [iterations_of_error h hd]; rfl

/-- Where the check raises, a refusal that can be stored is committed, and nothing else. -/
theorem drivenRow_of_error {e : PyError} (h : validateUrlNotSsrf lib target.endpoint.url = .error e)
    (hd : row.status ≠ .deadLettered) :
    ((∃ r, drivenRow row (iterations lib cfg worker target (rounds + 1) envs row) = .ok r ∧
        r.status = .deadLettered) ↔ Refuses lib worker target row.attemptCount) ∧
    ¬ ∃ r, drivenRow row (iterations lib cfg worker target (rounds + 1) envs row) = .ok r ∧
        r.status ≠ .deadLettered := by
  rw [drivenRow_iterations hd]
  cases hout : processDelivery lib cfg worker (target.claimed row) (envs 0) with
  | error e' =>
    refine ⟨iff_of_false (by simp) fun hrefuses => ?_, by simp⟩
    rw [(processDelivery_of_error h).2 ⟨hrefuses, rfl⟩] at hout
    cases hout
  | ok out =>
    obtain ⟨hrefuses, rfl⟩ := (processDelivery_of_error h).1 hout
    simp [iterations_deadLettered, drivenRow_nil, hrefuses]

end Loop

/-- The loop of a found row leaves succeeded deliveries alone if it meets none. -/
theorem leavesSucceeded_iff_neverSucceeded {lib : UrlLib} {cfg : Settings} {worker : PyStr}
    {target : Target π} {envs : ℕ → Surroundings π} {row : Delivery} :
    (∀ pass ∈ passesOf lib cfg worker target envs (.found row), pass.LeavesSucceeded) ↔
      NeverSucceeded lib cfg worker target envs (.found row) := by
  unfold passesOf NeverSucceeded
  simp only [LockResult.found.injEq, forall_eq']
  have hzero : cfg.maxDeliveryAttempts.toNat = 0 ↔ cfg.maxDeliveryAttempts ≤ 0 := Int.toNat_eq_zero
  rcases validateUrlNotSsrf_cases lib target.endpoint.url with ⟨-, hv | hv⟩ | ⟨-, hv⟩
  · by_cases hs : row.status = .succeeded
    · rw [not_leavesSucceeded hv hs, hzero]
      simp [hs, hv]
    · by_cases hd : row.status = .deadLettered
      · rw [iterations_deadLettered hd]
        simp [hd]
      · rw [leavesSucceeded_iff hv hs hd]
        simp [hs, hd, hv]
  · rw [leavesSucceeded_iff_of_error hv, hzero]
    simp [hv]
  · rw [leavesSucceeded_iff_of_error hv, hzero]
    simp [hv, Refuses]

/-- **What a found row is committed as**, if the loop leaves succeeded deliveries alone. -/
theorem drivenRow_passesOf {lib : UrlLib} {cfg : Settings} {worker : PyStr} {target : Target π}
    {envs : ℕ → Surroundings π} {row : Delivery}
    (h : NeverSucceeded lib cfg worker target envs (.found row)) :
    ((∃ r, drivenRow row (passesOf lib cfg worker target envs (.found row)) = .ok r ∧
        r.status = .deadLettered) ↔ EndsDeadLettered lib cfg worker target envs row) ∧
    ((∃ r, drivenRow row (passesOf lib cfg worker target envs (.found row)) = .ok r ∧
        r.status ≠ .deadLettered) ↔ EndsOtherwise lib cfg worker target envs row) := by
  obtain ⟨hsucceeded, hfails⟩ := h row rfl
  unfold passesOf EndsDeadLettered EndsOtherwise
  dsimp only
  by_cases hd : row.status = .deadLettered
  · simp [iterations_deadLettered hd, drivenRow_nil, hd]
  rcases le_or_gt cfg.maxDeliveryAttempts 0 with hzero | hpos
  · simp [Int.toNat_of_nonpos hzero, iterations, drivenRow_nil, hd, hzero, not_lt.2 hzero]
  obtain ⟨rounds, hrounds⟩ : ∃ rounds, cfg.maxDeliveryAttempts.toNat = rounds + 1 :=
    ⟨cfg.maxDeliveryAttempts.toNat - 1, by omega⟩
  rw [hrounds, or_iff_right hd, and_iff_right hpos, and_iff_right hd, or_iff_right (not_le.2 hpos)]
  rcases validateUrlNotSsrf_cases lib target.endpoint.url with ⟨-, hv | hv⟩ | ⟨-, hv⟩
  · have hs : row.status ≠ .succeeded := fun hs => by simpa [hv, not_le.2 hpos] using hsucceeded hs
    have hspec := @drivenRow_spec _ lib cfg worker target row envs rounds hv hd (by omega)
      (hrounds ▸ hfails hs hd hv)
    have hrefuses : ¬ Refuses lib worker target row.attemptCount := by simp [Refuses, hv]
    rwa [or_iff_right hrefuses, and_iff_right hv, and_iff_right hv]
  · have hspec := @drivenRow_of_error _ lib cfg worker target row envs rounds _ hv hd
    exact ⟨by simpa [hv] using hspec.1, iff_of_false hspec.2 (by simp [hv])⟩
  · have hspec := @drivenRow_of_error _ lib cfg worker target row envs rounds _ hv hd
    exact ⟨by simpa [hv] using hspec.1, iff_of_false hspec.2 (by simp [hv])⟩

/-- What is returned is what the row is read again as. -/
theorem returned_eq_some_iff {target : Target π} {reread : Option Delivery} :
    returned target reread = .ok (some target.delivery) ↔
      ∃ row, reread = some row ∧ row.status = .deadLettered := by
  cases reread with
  | none => simp [returned]
  | some row => by_cases h : row.status = .deadLettered <;> simp [returned, h]

/-- **The delivery's id is returned for a dead-lettered delivery** exactly if the row is read again as
it was committed. -/
theorem returns_iff {lib : UrlLib} {cfg : Settings} {worker : PyStr} {target : Target π}
    {envs : ℕ → Surroundings π} {lock : LockResult} {reread : Option Delivery}
    (h : NeverSucceeded lib cfg worker target envs lock) :
    ((fastForwardToDeadLetter lib cfg worker target envs lock reread).result =
        .ok (some target.delivery) ↔
      ∃ row, (fastForwardToDeadLetter lib cfg worker target envs lock reread).committed =
        some row ∧ row.status = .deadLettered) ↔
      RereadAlike lib cfg worker target envs lock reread := by
  cases lock with
  | timedOut => exact iff_of_true (by simp [fastForwardToDeadLetter]) nofun
  | missing => exact iff_of_true (by simp [fastForwardToDeadLetter]) nofun
  | found row =>
    obtain ⟨hdead, hother⟩ := drivenRow_passesOf h
    simp only [RereadAlike, LockResult.found.injEq, forall_eq', ← hdead, ← hother]
    unfold fastForwardToDeadLetter
    dsimp only
    cases hdriven : drivenRow row (passesOf lib cfg worker target envs (.found row)) with
    | error e => simp
    | ok committed =>
      rw [returned_eq_some_iff]
      by_cases hstatus : committed.status = .deadLettered <;> simp [hstatus]

/-- **What `_fast_forward_to_dead_letter` is for** is met exactly when it meets no delivery that has
succeeded and the row is read again as it was committed. -/
theorem drivesToDeadLetter_iff (lib : UrlLib) (cfg : Settings) (worker : PyStr) (target : Target π)
    (envs : ℕ → Surroundings π) (lock : LockResult) (reread : Option Delivery) :
    DrivesToDeadLetter lib cfg worker target envs lock reread ↔
      NeverSucceeded lib cfg worker target envs lock ∧
        RereadAlike lib cfg worker target envs lock reread := by
  have hnever : (∀ pass ∈ passesOf lib cfg worker target envs lock, pass.LeavesSucceeded) ↔
      NeverSucceeded lib cfg worker target envs lock := by
    cases lock with
    | timedOut => exact iff_of_true (by simp [passesOf]) nofun
    | missing => exact iff_of_true (by simp [passesOf]) nofun
    | found row => exact leavesSucceeded_iff_neverSucceeded
  constructor
  · intro h
    exact ⟨hnever.1 h.leavesSucceeded, (returns_iff (hnever.1 h.leavesSucceeded)).1 h.returns⟩
  · rintro ⟨h, hreread⟩
    refine ⟨hnever.2 h, fun row hrow hpending hlt => ?posts, (returns_iff h).2 hreread,
      fun result hresult => ?result⟩
    case posts =>
      subst hrow
      have hs : row.status ≠ .succeeded := by rw [hpending]; decide
      have hd : row.status ≠ .deadLettered := by rw [hpending]; decide
      dsimp only [passesOf]
      rcases validateUrlNotSsrf_cases lib target.endpoint.url with ⟨-, hv | hv⟩ | ⟨-, hv⟩
      · have hle := length_posts_le hv hs hd ((h row rfl).2 hs hd hv)
        omega
      · rw [posts_of_error hv, List.length_nil]
        omega
      · rw [posts_of_error hv, List.length_nil]
        omega
    case result =>
      cases lock with
      | timedOut => exact .inl (Except.ok.inj hresult).symm
      | missing => exact .inl (Except.ok.inj hresult).symm
      | found row =>
        unfold fastForwardToDeadLetter at hresult
        dsimp only at hresult
        cases hdriven : drivenRow row (passesOf lib cfg worker target envs (.found row)) with
        | error e =>
          rw [hdriven] at hresult
          cases hresult
        | ok committed =>
          rw [hdriven] at hresult
          cases reread with
          | none => cases hresult
          | some row' =>
            obtain rfl := Except.ok.inj hresult
            split <;> simp

/-- A delivery that a worker has brought to its receiver in the meantime. -/
def racedRow : Delivery := { Delivery.new 1 1 0 with status := .succeeded, attemptCount := 1 }

/-- A delivery that is found succeeded is POSTed all the same. -/
theorem not_drivesToDeadLetter : ¬ ∀ (lib : UrlLib) (cfg : Settings) (worker : PyStr)
    (target : Target Unit) (envs : ℕ → Surroundings Unit) (lock : LockResult)
    (reread : Option Delivery), DrivesToDeadLetter lib cfg worker target envs lock reread := by
  intro hall
  have h := hall (namedHost (.ofString "http://receiver.example/hook")
    (.ofString "receiver.example")) defaultSettings (.ofString "worker")
    ⟨1, (claimedAt 1 1).endpoint, (claimedAt 1 1).event⟩
    (fun _ => ⟨0, fun _ => .response 503 [], 0, 0, .zero⟩) (.found racedRow) (some racedRow)
  rcases (leavesSucceeded_iff_neverSucceeded.1 h.leavesSucceeded racedRow rfl).1 rfl with
    h | h | ⟨h, -⟩
  · exact absurd h (by decide)
  · exact absurd h (by decide)
  · exact absurd h (by decide)

end Hookit
