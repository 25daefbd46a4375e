import Hookit.Tenancy.Isolation
import Hookit.Tenancy.Progress

/-!
# What the API reports of attempts

`Numbered` says of a store that every delivery is pending, succeeded or dead-lettered, and that its
attempts, in the order of their insertion, carry the numbers from 1 to its count. Every transaction
keeps it, so in a store that a run has left the routes agree with each other: `attempts_listed` for
`GET /deliveries/{id}/attempts`, and `summary_adds_up` for `GET /metrics/summary`.
-/

namespace Hookit.Tenancy

open Foundations Foundations.Service

variable {D : Deployment} {p : Uuid} {db db' : Database}

/-- The attempts on a delivery. -/
def attemptsOn (db : Database) (k : Uuid) : List (Uuid × AttemptRow) :=
  db.attempts.select fun _ a => a.deliveryId = k

/-- The numbers of attempts, in the order of their insertion. -/
def numbers (attempts : List (Uuid × AttemptRow)) : List ℕ :=
  attempts.map fun e => e.2.attemptNumber

/-- The attempts on the deliveries, and their statuses. -/
structure Numbered (db : Database) : Prop where
  attempts : ∀ k r, db.deliveries.get? k = some r →
    numbers (attemptsOn db k) = List.range' 1 r.attemptCount
  status : ∀ k r, db.deliveries.get? k = some r → r.status = .pending ∨ r.Finished

theorem numbered_empty : Numbered .empty := by
  constructor <;> intro k r hr <;> cases hr

/-! ## A request keeps it -/

theorem attemptsOn_eq (h : db'.attempts = db.attempts) (k : Uuid) :
    attemptsOn db' k = attemptsOn db k := by
  rw [attemptsOn, attemptsOn, h]

/-- **A redrive keeps it**, whatever the status is that it finds. -/
theorem numbered_redriven (hnum : Numbered db) {k : Uuid} {leased : Bool} {now updatedAt : Time}
    (hd : db'.deliveries = db.deliveries.modifyAt k (DeliveryRow.redriven leased now updatedAt))
    (ht : db'.attempts = db.attempts) : Numbered db' := by
  have hget : ∀ {k' r'}, db'.deliveries.get? k' = some r' → ∃ r₀, db.deliveries.get? k' = some r₀ ∧
      r'.attemptCount = r₀.attemptCount ∧ (r'.status = .pending ∨ r' = r₀) := by
    intro k' r' hr'
    rw [hd, Rows.get?_modifyAt] at hr'
    split at hr'
    · obtain ⟨r₀, hr₀, rfl⟩ := Option.map_eq_some_iff.1 hr'
      exact ⟨r₀, hr₀, rfl, .inl rfl⟩
    · exact ⟨r', hr', rfl, .inr rfl⟩
  refine ⟨fun k' r' hr' => ?_, fun k' r' hr' => ?_⟩
  · obtain ⟨r₀, hr₀, hcount, -⟩ := hget hr'
    rw [attemptsOn_eq ht, hcount]
    exact hnum.attempts k' r₀ hr₀
  · obtain ⟨r₀, hr₀, -, hpending | rfl⟩ := hget hr'
    · exact .inl hpending
    · exact hnum.status k' r' hr₀

theorem numbered_moves {call : Call D.maxEventPayloadBytes} (hdb : Integral db)
    (hnum : Numbered db) (h : Moves call db db') : Numbered db' := by
  cases h with
  | same hd ht =>
    refine ⟨fun k r hr => ?_, fun k r hr => hnum.status k r (hd ▸ hr)⟩
    rw [attemptsOn_eq ht]
    exact hnum.attempts k r (hd ▸ hr)
  | deleted endpointId hcall hd ht =>
    have hget : ∀ {k r}, db'.deliveries.get? k = some r →
        db.deliveries.get? k = some r ∧ r.endpointId ≠ endpointId := by
      intro k r hr
      rw [hd] at hr
      obtain ⟨hr, hne⟩ := Option.filter_eq_some_iff.1
        ((Rows.get?_filter (T := db.deliveries) _).symm.trans hr)
      exact ⟨hr, of_decide_eq_true hne⟩
    refine ⟨fun k r hr => ?_, fun k r hr => hnum.status k r (hget hr).1⟩
    obtain ⟨hold, hne⟩ := hget hr
    have hsame : attemptsOn db' k = attemptsOn db k := by
      rw [attemptsOn, ht]
      refine (Rows.select_filter (T := db.attempts) (fun _ a =>
        !(db.deliveries.get? a.deliveryId).any fun r => r.endpointId = endpointId) _).trans ?_
      refine Rows.select_congr fun e _ => ?_
      by_cases hk : e.2.deliveryId = k
      · simp [hk, hold, hne]
      · simp [hk]
    rw [hsame]
    exact hnum.attempts k r hold
  | created ds _ hunused hnew hd ht =>
    have hget : ∀ {k r}, db'.deliveries.get? k = some r →
        db.deliveries.get? k = some r ∨ (k, r) ∈ ds := by
      intro k r hr
      rw [hd] at hr
      exact (Rows.get?_insertAll hunused).1 hr
    refine ⟨fun k r hr => ?_, fun k r hr => ?_⟩
    · rw [attemptsOn_eq ht]
      rcases hget hr with hold | hmem
      · exact hnum.attempts k r hold
      · -- no attempt is on a delivery that is not there
        have hnone : attemptsOn db k = [] := by
          refine List.filter_eq_nil_iff.2 fun e he hk => ?_
          refine hdb.attempts e.1 e.2 (Rows.get?_eq_some_iff.2 he) ?_
          rw [of_decide_eq_true hk]
          exact hunused.2 (k, r) hmem
        rw [hnone, (hnew _ hmem).2]
        rfl
    · rcases hget hr with hold | hmem
      · exact hnum.status k r hold
      · exact .inl (hnew _ hmem).1
  | redriven k r leased now updatedAt _ _ _ hd ht => exact numbered_redriven hnum hd ht

/-! ## A tick keeps it -/

section Tick

variable {lib : UrlLib} {cfg : Settings} {draws : TickDraws} {settled : List (Uuid × Settled)}

/-- The one element under a key. -/
theorem filter_key_eq {β : Type} {l : List (Uuid × β)} (hnodup : (l.map Prod.fst).Nodup) {k : Uuid}
    {b : β} (h : (k, b) ∈ l) : l.filter (fun e => e.1 = k) = [(k, b)] := by
  induction l with
  | nil => cases h
  | cons e l ih =>
    rw [List.map_cons, List.nodup_cons] at hnodup
    rcases List.mem_cons.1 h with rfl | h
    · have hrest : l.filter (fun e => e.1 = k) = [] := by
        refine List.filter_eq_nil_iff.2 fun e he hk => hnodup.1 ?_
        have hmem := List.mem_map_of_mem (f := Prod.fst) he
        rwa [of_decide_eq_true hk] at hmem
      simp [hrest]
    · have hne : e.1 ≠ k := by
        intro hk
        have hmem := List.mem_map_of_mem (f := Prod.fst) h
        exact hnodup.1 (hk ▸ hmem)
      simp [hne, ih hnodup.2 h]

/-- The attempts on a delivery after a tick. -/
theorem attemptsOn_tick (hnew : NewAttempts lib cfg draws db)
    (h : db.outcomes lib cfg draws = .ok settled) (k : Uuid) :
    numbers (attemptsOn (tick lib cfg draws db) k) = numbers (attemptsOn db k) ++
      (settled.filter fun e => e.1 = k).map fun e => e.2.attempt.attemptNumber := by
  have hentries : (tick lib cfg draws db).attempts.entries =
      db.attempts.entries ++ Database.newAttempts draws settled := by
    rw [tick_of_ok h]
    exact Rows.entries_insertAll (hnew settled h)
  simp only [numbers, attemptsOn, Rows.select, hentries, List.filter_append, List.map_append,
    Database.newAttempts, List.filter_map, List.map_map]
  rfl

theorem numbered_tick (hdb : Integral db) (hnum : Numbered db)
    (hnew : NewAttempts lib cfg draws db) (hclaim : ClaimsDue cfg draws db)
    (h : db.outcomes lib cfg draws = .ok settled) : Numbered (tick lib cfg draws db) := by
  have hget : ∀ {k r'}, (tick lib cfg draws db).deliveries.get? k = some r' →
      ∃ r, db.deliveries.get? k = some r ∧ tickRow cfg draws settled k r = r' := by
    intro k r' hr'
    rw [deliveries_tick h, Rows.get?_modify] at hr'
    exact Option.map_eq_some_iff.1 hr'
  -- a delivery without an outcome has not been claimed
  have hclaimed : ∀ {k r}, db.deliveries.get? k = some r → k ∉ settled.map Prod.fst →
      k ∉ draws.claimed := by
    intro k r hr hk hmem
    have hthere : (db.claiming cfg draws).deliveries.get? k ≠ none := by
      rw [get?_claiming, hr]
      exact Option.some_ne_none _
    obtain ⟨c, hc⟩ := Option.isSome_iff_exists.1 (isSome_claimed? hdb.claiming hthere)
    have hbatch : (k, c, draws.surroundings k) ∈ (db.claiming cfg draws).batch draws :=
      mem_batch_iff.2 ⟨hmem, hc, rfl⟩
    rw [outcomes_keys h] at hk
    exact hk (List.mem_map_of_mem hbatch)
  refine ⟨fun k r' hr' => ?_, fun k r' hr' => ?_⟩
  · obtain ⟨r, hr, rfl⟩ := hget hr'
    rw [attemptsOn_tick hnew h, hnum.attempts k r hr]
    rcases tickRow_cases hclaim h hr with ⟨-, out, hk, hnumber, hcount, -, hrow⟩ | ⟨hk, hrow⟩
    · rw [filter_key_eq (hclaim.nodup_outcomes h) hk, hrow]
      simp only [List.map_cons, List.map_nil, hnumber, DeliveryRow.written, hcount]
      rw [List.range'_concat, Nat.one_mul, Nat.add_comm 1]
    · have hnone : settled.filter (fun e => e.1 = k) = [] := by
        refine List.filter_eq_nil_iff.2 fun e he hkey => hk ?_
        exact (of_decide_eq_true hkey : e.1 = k) ▸ List.mem_map_of_mem he
      rw [hnone, List.map_nil, List.append_nil, hrow,
        claimingRow_of_notMem (hclaimed hr hk), recovered_attemptCount]
  · obtain ⟨r, hr, rfl⟩ := hget hr'
    rcases tickRow_cases hclaim h hr with ⟨-, out, -, -, -, hstatus, hrow⟩ | ⟨hk, hrow⟩
    · rw [hrow]
      rcases hstatus with hs | hs | ⟨hs, -⟩
      · exact .inr (.inl hs)
      · exact .inr (.inr hs)
      · exact .inl hs
    · rw [hrow, claimingRow_of_notMem (hclaimed hr hk)]
      have hnot : leaseExpired draws.recoverNow r.delivery = false := by
        rcases hnum.status k r hr with hs | hs | hs <;>
          simp [leaseExpired, DeliveryRow.delivery, hs]
      rw [DeliveryRow.recovered, hnot]
      exact hnum.status k r hr

end Tick

/-! ## Runs -/

section Runs

theorem numbered_serve {a : Action D.maxEventPayloadBytes} (hdb : Integral db)
    (hnum : Numbered db) (ha : Admitted D a db) : Numbered (serve D a db).2 := by
  rcases moves_serve ha.1 with ⟨hd, ht⟩ | ⟨credentials, now, call, answer, rfl, -, hmoves⟩ |
    ⟨project, k, leased, now, updatedAt, r, rfl, -, hd, ht⟩ | ⟨draws, settled, rfl, hout⟩
  · refine ⟨fun k r hr => ?_, fun k r hr => hnum.status k r (hd ▸ hr)⟩
    rw [attemptsOn_eq ht]
    exact hnum.attempts k r (hd ▸ hr)
  · exact numbered_moves hdb hnum hmoves
  · exact numbered_redriven hnum hd ht
  · exact numbered_tick hdb hnum ha.1 ha.2 hout

/-- **Over any run** from a new database. -/
theorem numbered_exec {l : List (Action D.maxEventPayloadBytes)}
    (hl : (service D).Meets (Admitted D) l .empty) :
    Integral ((service D).exec l .empty) ∧ Numbered ((service D).exec l .empty) :=
  hl.invariant (P := fun db => Integral db ∧ Numbered db)
    (fun hs ha => ⟨integral_serve hs.1 ha.1, numbered_serve hs.1 hs.2 ha⟩)
    ⟨integral_empty, numbered_empty⟩

/-- The attempts on a delivery are inserted in the order of their numbers. -/
theorem mergeSort_attemptsOn (hnum : Numbered db) {k : Uuid} {r : DeliveryRow}
    (hr : db.deliveries.get? k = some r) :
    (attemptsOn db k).mergeSort (fun a b => a.2.attemptNumber ≤ b.2.attemptNumber) =
      attemptsOn db k := by
  refine List.mergeSort_of_pairwise ?_
  have hpairwise : (numbers (attemptsOn db k)).Pairwise (· ≤ ·) := by
    rw [hnum.attempts k r hr]
    exact List.pairwise_le_range'
  rw [numbers, List.pairwise_map] at hpairwise
  exact hpairwise.imp fun h => decide_eq_true h

/-- **`GET /deliveries/{id}/attempts`** answers for the deliveries that `GET /deliveries/{id}`
answers for, with the attempts from 1 to the `attempt_count` that it answers. -/
theorem attempts_listed {l : List (Action D.maxEventPayloadBytes)}
    (hl : (service D).Meets (Admitted D) l .empty) (p deliveryId : Uuid)
    {delivery : DeliveryResponse}
    (h : getDelivery p deliveryId ((service D).exec l .empty) = .ok delivery) :
    ∃ attempts, listDeliveryAttempts p deliveryId ((service D).exec l .empty) = .ok attempts ∧
      attempts.map DeliveryAttemptResponse.attemptNumber =
        List.range' 1 delivery.attemptCount := by
  obtain ⟨-, hnum⟩ := numbered_exec hl
  obtain ⟨r, hr, hdelivery⟩ := bind_eq_ok_iff.1 h
  obtain rfl := pure_eq_ok_iff.1 hdelivery
  have hget := (getOr404_eq_ok_iff.1 hr).1
  have hattempts := hnum.attempts deliveryId r hget
  have hsorted := mergeSort_attemptsOn hnum hget
  refine ⟨(attemptsOn ((service D).exec l .empty) deliveryId).map DeliveryAttemptResponse.ofRow,
    ?_, ?_⟩
  · rw [listDeliveryAttempts, hr]
    exact congrArg (fun l => Except.ok (l.map DeliveryAttemptResponse.ofRow)) hsorted
  · rw [List.map_map]
    exact hattempts

/-- The one attempt of the delivery of `deliveredRun`. -/
theorem attempts_listed_deliveredRun :
    ∃ attempts, listDeliveryAttempts (.ofNat 1) (.ofNat 5)
        ((service sampleDeployment).exec deliveredRun .empty) = .ok attempts ∧
      attempts.map DeliveryAttemptResponse.attemptNumber = List.range' 1 1 :=
  attempts_listed deliveredRun_admitted (.ofNat 1) (.ofNat 5) rfl

/-- The attempts on the deliveries of a project, delivery by delivery. -/
theorem length_projectAttempts (hnum : Numbered db) (p : Uuid) :
    (db.projectAttempts p).length =
      ((db.projectDeliveries p).map fun e => e.2.attemptCount).sum := by
  have hmem : ∀ k, db.deliveryOf p k = decide (k ∈ (db.projectDeliveries p).map Prod.fst) := by
    intro k
    refine (Bool.eq_iff_iff).2 ?_
    rw [decide_eq_true_iff, Database.deliveryOf, Option.any_eq_true]
    constructor
    · rintro ⟨r, hr, hown⟩
      exact List.mem_map.2 ⟨(k, r), Rows.mem_select.2 ⟨Rows.get?_eq_some_iff.1 hr, hown⟩, rfl⟩
    · intro hk
      obtain ⟨e, he, rfl⟩ := List.mem_map.1 hk
      obtain ⟨hentry, hown⟩ := Rows.mem_select.1 he
      exact ⟨e.2, Rows.get?_eq_some_iff.2 hentry, hown⟩
  have hcount : ∀ e ∈ db.projectDeliveries p,
      (db.attempts.entries.filter fun a => a.2.deliveryId = e.1).length = e.2.attemptCount := by
    intro e he
    have hattempts := hnum.attempts e.1 e.2 (Rows.get?_eq_some_iff.2 (Rows.mem_select.1 he).1)
    have hlength := congrArg List.length hattempts
    rwa [numbers, List.length_map, List.length_range'] at hlength
  have hsplit := Rows.length_filter_mem db.attempts.entries (fun a => a.2.deliveryId)
    (db.deliveries.nodup_select fun _ r => db.endpointOf p r)
  simp only [Database.projectAttempts, Rows.select, hmem]
  refine hsplit.trans ?_
  rw [List.map_map]
  exact congrArg List.sum (List.map_congr_left hcount)

/-- A status that no delivery has is not counted. -/
theorem statusCount_eq_zero (hnum : Numbered db) {status : DeliveryStatus}
    (hpending : status ≠ .pending) (hsucceeded : status ≠ .succeeded)
    (hdead : status ≠ .deadLettered) (p : Uuid) : db.statusCount p status = 0 := by
  refine List.countP_eq_zero.2 fun e he => ?_
  rw [decide_eq_true_eq]
  rintro rfl
  rcases hnum.status e.1 e.2 (Rows.get?_eq_some_iff.2 (Rows.mem_select.1 he).1) with h | h | h
  · exact hpending h
  · exact hsucceeded h
  · exact hdead h

/-- **`GET /metrics/summary` adds up**: the deliveries of the project are pending, succeeded or
dead-lettered, its attempts are those that its deliveries count, and there is a success rate unless
all are pending. -/
theorem summary_adds_up {l : List (Action D.maxEventPayloadBytes)}
    (hl : (service D).Meets (Admitted D) l .empty) (p : Uuid) (now : Time) :
    let db := (service D).exec l .empty
    let summary := deliverySummary db p now
    summary.totals.inFlight = 0 ∧ summary.totals.failed = 0 ∧
      summary.totals.pending + summary.totals.succeeded + summary.totals.deadLettered =
        (db.projectDeliveries p).length ∧
      summary.attemptsTotal = ((db.projectDeliveries p).map fun e => e.2.attemptCount).sum ∧
      (summary.successRate = none ↔
        ∀ e ∈ db.projectDeliveries p, e.2.status = .pending) := by
  obtain ⟨-, hnum⟩ := numbered_exec hl
  generalize (service D).exec l .empty = db at hnum
  have hinFlight : db.statusCount p .inFlight = 0 :=
    statusCount_eq_zero hnum (by decide) (by decide) (by decide) p
  have hfailed : db.statusCount p .failed = 0 :=
    statusCount_eq_zero hnum (by decide) (by decide) (by decide) p
  have hstatus : ∀ e ∈ db.projectDeliveries p, e.2.status = .pending ∨ e.2.Finished := fun e he =>
    hnum.status e.1 e.2 (Rows.get?_eq_some_iff.2 (Rows.mem_select.1 he).1)
  have hall : ∀ {l : List (Uuid × DeliveryRow)},
      (∀ e ∈ l, e.2.status = .pending ∨ e.2.Finished) →
      l.countP (fun e => e.2.status = .pending) + l.countP (fun e => e.2.status = .succeeded) +
        l.countP (fun e => e.2.status = .deadLettered) = l.length := by
    intro l hl
    induction l with
    | nil => rfl
    | cons e l ih =>
      have hrest := ih fun e he => hl e (List.mem_cons_of_mem _ he)
      simp only [List.countP_cons, List.length_cons]
      rcases hl e (by simp) with h | h | h <;> simp [h] <;> omega
  refine ⟨hinFlight, hfailed, hall hstatus, length_projectAttempts hnum p, ?_⟩
  change successRate (statusTotals db p) = none ↔ _
  rw [successRate_eq_none_iff, Nat.add_eq_zero_iff]
  change db.statusCount p .succeeded = 0 ∧ db.statusCount p .deadLettered = 0 ↔ _
  rw [Database.statusCount, Database.statusCount, List.countP_eq_zero, List.countP_eq_zero]
  constructor
  · rintro ⟨hsucceeded, hdead⟩ e he
    rcases hstatus e he with h | h | h
    · exact h
    · exact absurd (decide_eq_true h) (hsucceeded e he)
    · exact absurd (decide_eq_true h) (hdead e he)
  · intro hpending
    constructor <;> intro e he <;> simp [hpending e he]

/-- One delivery, succeeded, with one attempt. -/
theorem summary_adds_up_deliveredRun :
    let db := (service sampleDeployment).exec deliveredRun .empty
    let summary := deliverySummary db (.ofNat 1) 4
    summary.totals.inFlight = 0 ∧ summary.totals.failed = 0 ∧
      summary.totals.pending + summary.totals.succeeded + summary.totals.deadLettered =
        (db.projectDeliveries (.ofNat 1)).length ∧
      summary.attemptsTotal =
        ((db.projectDeliveries (.ofNat 1)).map fun e => e.2.attemptCount).sum ∧
      (summary.successRate = none ↔
        ∀ e ∈ db.projectDeliveries (.ofNat 1), e.2.status = .pending) :=
  summary_adds_up deliveredRun_admitted (.ofNat 1) 4

end Runs

end Hookit.Tenancy
