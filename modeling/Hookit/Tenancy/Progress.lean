import Hookit.Foundations.Budget
import Hookit.Tenancy.Moves
import Hookit.Worker.Drain

/-!
# How much the workers have to do

* `attempts_made_le`: over any run of the API and the workers there are at most
  `max(1, max_delivery_attempts)` attempts for each delivery that is created, and one for each
  redrive that commits.
* `drains`: ticks of an only worker, each at a time at which something is due if anything is left to
  do, finish every delivery.
-/

namespace Hookit.Tenancy

open Foundations Foundations.Service

variable {D : Deployment} {p : Uuid} {db db' : Database}

/-! ## The budget of attempts -/

section Budget

/-- The attempts that a transaction commits. -/
def attemptsMade (D : Deployment) : Action D.maxEventPayloadBytes → Database → ℕ
  | .tick draws, db =>
    match db.outcomes D.urls D.settings draws with
    | .ok settled => settled.length
    | .error _ => 0
  | _, _ => 0

/-- The deliveries that a transaction creates. -/
def created (D : Deployment) (a : Action D.maxEventPayloadBytes) (db : Database) : ℕ :=
  (serve D a db).2.deliveries.entries.length - db.deliveries.entries.length

/-- The deliveries that a transaction redrives. -/
def redriven (D : Deployment) : Action D.maxEventPayloadBytes → Database → ℕ
  | .request credentials now (.redriveDelivery deliveryId at' updatedAt), db =>
    match (serve D (.request credentials now (.redriveDelivery deliveryId at' updatedAt)) db).1 with
    | .ok _ => 1
    | .error _ => 0
  | .commitRedrive _ deliveryId _ _ _, db => if (db.deliveries.get? deliveryId).isSome then 1 else 0
  | _, _ => 0

/-- A tick claims rows that its statement may return. -/
def Claims (D : Deployment) : Action D.maxEventPayloadBytes → Database → Prop
  | .tick draws, db => ClaimsDue D.settings draws db
  | _, _ => True

/-- What a transaction draws is in no use, and a tick claims what it may. -/
def Admitted (D : Deployment) (a : Action D.maxEventPayloadBytes) (db : Database) : Prop :=
  Unused D a db ∧ Claims D a db

/-- **A redrive pays for one attempt**, whatever the status is that it finds. -/
theorem allowance_redriven_le (cfg : Settings) (leased : Bool) (now updatedAt : Time)
    (r : DeliveryRow) :
    (r.redriven leased now updatedAt).allowance cfg ≤ r.allowance cfg + 1 := by
  have hredriven := ((r.redriven leased now updatedAt).allowance_bounds cfg).2
  have hcount : (r.redriven leased now updatedAt).attemptCount = r.attemptCount := rfl
  have hbefore := (r.allowance_bounds cfg).1
  omega

/-- What a request pays for. -/
theorem allowance_moves (cfg : Settings) {call : Call D.maxEventPayloadBytes}
    (h : Moves call db db') :
    db'.allowance cfg ≤ db.allowance cfg +
        cfg.attempts * (db'.deliveries.entries.length - db.deliveries.entries.length) ∨
      (∃ k now updatedAt, call = .redriveDelivery k now updatedAt) ∧
        db'.allowance cfg ≤ db.allowance cfg + 1 := by
  unfold Database.allowance
  cases h with
  | same hd _ =>
    rw [hd]
    exact .inl (Nat.le_add_right _ _)
  | deleted endpointId _ hd _ =>
    rw [hd]
    exact .inl ((Rows.total_filter_le _).trans (Nat.le_add_right _ _))
  | created ds _ hunused hnew hd _ =>
    refine .inl ?_
    have hsum : (ds.map fun e => e.2.allowance cfg) = ds.map fun _ => cfg.attempts := by
      refine List.map_congr_left fun e he => ?_
      obtain ⟨hstatus, hcount⟩ := hnew e he
      have hpending : ¬ e.2.Finished := by simp [DeliveryRow.Finished, hstatus]
      rw [(remaining_of_not_finished cfg hpending).2, hcount, Settings.attempts]
      omega
    rw [hd, Rows.total_insertAll hunused, Rows.entries_insertAll hunused, hsum, List.map_const',
      List.sum_replicate, List.length_append, Nat.add_sub_cancel_left, smul_eq_mul, Nat.mul_comm]
  | redriven k r leased now updatedAt hcall hr hdead hd _ =>
    rw [hd]
    exact .inr ⟨⟨k, now, updatedAt, hcall⟩, Rows.total_modifyAt_le fun v _ =>
      allowance_redriven_le cfg leased now updatedAt v⟩

/-- Only a tick that commits makes attempts. -/
theorem attemptsMade_cases (a : Action D.maxEventPayloadBytes) (db : Database) :
    attemptsMade D a db = 0 ∨ ∃ draws settled, a = .tick draws ∧
      db.outcomes D.urls D.settings draws = .ok settled ∧
        attemptsMade D a db = settled.length := by
  cases a with
  | request c now call => exact .inl rfl
  | createProject name id createdAt => exact .inl rfl
  | createApiKey project name draws => exact .inl rfl
  | deleteApiKey project keyId now => exact .inl rfl
  | commitRedrive project k leased now updatedAt => exact .inl rfl
  | tick draws =>
    simp only [attemptsMade]
    cases hout : db.outcomes D.urls D.settings draws with
    | error e => exact .inl rfl
    | ok settled => exact .inr ⟨draws, settled, rfl, hout, rfl⟩

/-- **Each transaction** pays for the attempts that it commits. -/
theorem allowance_serve_le {a : Action D.maxEventPayloadBytes} (ha : Unused D a db)
    (hclaim : Claims D a db) :
    attemptsMade D a db + (serve D a db).2.allowance D.settings ≤ db.allowance D.settings +
      (D.settings.attempts * created D a db + redriven D a db) := by
  rcases attemptsMade_cases a db with hzero | ⟨draws, settled, rfl, hout, hmade⟩
  · rw [hzero, Nat.zero_add]
    rcases moves_serve ha with ⟨hd, -⟩ | ⟨credentials, now, call, answer, rfl, hanswer, hmoves⟩ |
      ⟨project, k, leased, now, updatedAt, r, rfl, hr, hd, -⟩ | ⟨draws, settled, rfl, hout⟩
    · rw [Database.allowance, hd]
      exact Nat.le_add_right _ _
    · rcases allowance_moves D.settings hmoves with hle | ⟨⟨k, at', updatedAt, rfl⟩, hle⟩
      · simp only [created]
        omega
      · simp only [redriven, hanswer]
        omega
    · have hle : (serve D (.commitRedrive project k leased now updatedAt) db).2.allowance D.settings ≤
          db.allowance D.settings + 1 := by
        rw [Database.allowance, hd]
        exact Rows.total_modifyAt_le fun v _ => allowance_redriven_le D.settings leased now updatedAt v
      simp only [redriven, hr, Option.isSome_some, if_true]
      omega
    · have hle := length_add_allowance_tick_le hclaim hout
      simp only [serve]
      omega
  · have hle := length_add_allowance_tick_le hclaim hout
    rw [hmade]
    simp only [serve]
    omega

/-- With no row locked, the statement returns what is due. -/
theorem mayClaim_of_eq {cfg : Settings} {now : Time} {claimed : List Uuid}
    (h : claimDueDeliveries cfg now (fun _ => false) db = claimed) :
    MayClaim cfg now (fun _ => False) db claimed := by
  have hclaim := mayClaim_claimDueDeliveries cfg now (fun _ => false) db
  rw [h] at hclaim
  simpa using hclaim

theorem claimsDue_of_eq {cfg : Settings} {draws : TickDraws}
    (h : claimDueDeliveries cfg draws.claimNow (fun _ => false)
      (db.recoverExpiredLeases draws.recoverNow) = draws.claimed) : ClaimsDue cfg draws db :=
  ⟨_, mayClaim_of_eq h⟩

/-- **The attempts of a run are paid for**: there are at most `max(1, max_delivery_attempts)` for
each delivery that is created, and one for each redrive that commits. -/
theorem attempts_made_le {l : List (Action D.maxEventPayloadBytes)}
    (hl : (service D).Meets (Admitted D) l .empty) :
    (service D).spent (attemptsMade D) l .empty ≤
      D.settings.attempts * (service D).spent (created D) l .empty +
        (service D).spent (redriven D) l .empty := by
  have hbudget := hl.spent_add_le (fun _ => True) (fun _ _ => trivial)
    (fun _ h => allowance_serve_le h.1 h.2) trivial
  rw [spent_mul_add] at hbudget
  have hempty : Database.empty.allowance D.settings = 0 := rfl
  omega

/-- A tick that claims one delivery, with the status code that the receiver answers. -/
def tickOf (now : ℤ) (deliveryId attemptId : Uuid) (statusCode : ℕ) : TickDraws where
  worker := PyStr.ofString "worker"
  recoverNow := now
  claimNow := now
  claimed := [deliveryId]
  surroundings _ := ⟨now, fun _ => .response statusCode [], 5, now, .zero⟩
  settledAt _ := now
  attemptId _ := attemptId

/-- The receiver answers `200`. -/
def oneTick (now : ℤ) (deliveryId : Uuid) : TickDraws := tickOf now deliveryId deliveryId 200

theorem newAttempts_tickOf {now : ℤ} {deliveryId attemptId : Uuid} {statusCode : ℕ}
    (h : db.attempts.get? attemptId = none) :
    NewAttempts sampleDeployment.urls sampleDeployment.settings
      (tickOf now deliveryId attemptId statusCode) db := by
  intro settled hout
  have hkey : ∀ k ∈ settled.map Prod.fst, k = deliveryId := by
    intro k hk
    obtain ⟨e, he, rfl⟩ := List.mem_map.1 hk
    exact List.mem_singleton.1 (mem_outcomes hout he).1
  refine ⟨?_, fun e he => ?_⟩
  · have hnodup := (outcomes_nodup (List.nodup_singleton _) hout).map_on
      (f := fun _ => attemptId) fun k hk k' hk' _ => (hkey k hk).trans (hkey k' hk').symm
    rw [List.map_map] at hnodup
    rwa [Database.newAttempts, List.map_map]
  · obtain ⟨e', -, rfl⟩ := List.mem_map.1 he
    exact h

theorem newAttempts_of_claimed_nil {lib : UrlLib} {cfg : Settings} {draws : TickDraws}
    (h : draws.claimed = []) : NewAttempts lib cfg draws db := by
  intro settled hout
  have hnone : settled = [] := by
    refine List.eq_nil_iff_forall_not_mem.2 fun e he => ?_
    have hclaimed := (mem_outcomes hout he).1
    rw [h] at hclaimed
    cases hclaimed
  rw [hnone]
  exact Rows.unused_nil

/-- No key of the store has the hash of a new one. -/
theorem newKey_of_entries {sha256 : Bytes → PyStr} {draws : KeyDraws}
    (h : ∀ e ∈ db.apiKeys.entries,
      (Handles.hashApiKey sha256 draws.plaintext).toOption ≠ some e.2.keyHash) (keyHash : PyStr)
    (hhash : Handles.hashApiKey sha256 draws.plaintext = .ok keyHash) (k : Uuid) (r : ApiKeyRow)
    (hr : db.apiKeys.get? k = some r) : r.keyHash ≠ keyHash := by
  intro heq
  refine h _ (Rows.get?_eq_some_iff.1 hr) ?_
  rw [hhash, heq]
  rfl

/-- A project, its key, and its endpoint. -/
def registrationOf (name secret key : String) (project keyId endpointId : ℕ) :
    List (Action sampleDeployment.maxEventPayloadBytes) :=
  [.createProject (PyStr.ofString name) (.ofNat project) .epoch,
    .createApiKey (.ofNat project) (PyStr.ofString "key")
      ⟨.ofNat keyId, PyStr.ofString secret, .epoch⟩,
    .request (some (PyStr.ofString key)) 1 (.createEndpoint
      ⟨PyStr.ofString "http://receiver.example", ⟨[PyStr.ofString "t"], by decide, by decide⟩,
        .active, .raw, none⟩ ⟨.ofNat endpointId, sampleSecret, 1, .epoch⟩)]

def registration : List (Action sampleDeployment.maxEventPayloadBytes) :=
  registrationOf "a" "secret-of-a" "whk_secret-of-a" 1 2 3

theorem emptyPayload_fits :
    ((Json.obj []).dumps (PyStr.ofString ",") (PyStr.ofString ":")).length ≤
      sampleDeployment.maxEventPayloadBytes := by
  decide +kernel

/-- An event for it. -/
def publicationOf (key : String) (now : ℤ) (eventId deliveryId : ℕ) :
    Action sampleDeployment.maxEventPayloadBytes :=
  .request (some (PyStr.ofString key)) now (.publishEvent
    ⟨PyStr.ofString "t", by decide, by decide, by decide, [], emptyPayload_fits⟩ none
    ⟨.ofNat eventId, fun _ => .ofNat deliveryId, now, .epoch, now⟩)

def publication : Action sampleDeployment.maxEventPayloadBytes :=
  publicationOf "whk_secret-of-a" 2 4 5

/-- And the tick that delivers it. -/
def deliveredRun : List (Action sampleDeployment.maxEventPayloadBytes) :=
  registration ++ publication :: [.tick (oneTick 3 (.ofNat 5))]

theorem deliveredRun_admitted : (service sampleDeployment).Meets (Admitted sampleDeployment)
    deliveredRun .empty := by
  refine ⟨⟨rfl, trivial⟩, ⟨⟨rfl, fun keyHash _ k r hr => ?_⟩, trivial⟩, ⟨?_, trivial⟩,
    ⟨?_, trivial⟩, ⟨newAttempts_tickOf rfl, ?_⟩, trivial⟩
  · cases hr
  · intro project db' h
    obtain ⟨rfl, rfl⟩ := Prod.mk.inj (Except.ok.inj h)
    rfl
  · intro project db' h
    obtain ⟨rfl, rfl⟩ := Prod.mk.inj (Except.ok.inj h)
    exact ⟨rfl, List.nodup_singleton _, fun e _ => rfl⟩
  · exact claimsDue_of_eq (by decide +kernel)

/-- The delivery fails, is redriven and fails, and a second redrive that has checked it before the
first commits. -/
def redrivenRun : List (Action sampleDeployment.maxEventPayloadBytes) :=
  registration ++ publication ::
    [.tick (tickOf 3 (.ofNat 5) (.ofNat 6) 500),
      .request (some (PyStr.ofString "whk_secret-of-a")) 4 (.redriveDelivery (.ofNat 5) 4 4),
      .tick (tickOf 5 (.ofNat 5) (.ofNat 7) 500),
      .commitRedrive (.ofNat 1) (.ofNat 5) true 6 6,
      .tick (tickOf 7 (.ofNat 5) (.ofNat 8) 200)]

theorem redrivenRun_admitted : (service sampleDeployment).Meets (Admitted sampleDeployment)
    redrivenRun .empty := by
  have hstart := meets_append.1 deliveredRun_admitted
  refine meets_append.2 ⟨hstart.1, hstart.2.1, ⟨newAttempts_tickOf rfl, ?_⟩,
    ⟨fun _ _ _ => trivial, trivial⟩, ⟨newAttempts_tickOf rfl, ?_⟩, ⟨fun _ _ => rfl, trivial⟩,
    ⟨newAttempts_tickOf rfl, ?_⟩, trivial⟩ <;>
  · exact claimsDue_of_eq (by decide +kernel)

/-- Three attempts are made: one for the delivery, and one for each redrive. -/
theorem attempts_made_le_redrivenRun :
    (service sampleDeployment).spent (attemptsMade sampleDeployment) redrivenRun .empty = 3 ∧
    (service sampleDeployment).spent (attemptsMade sampleDeployment) redrivenRun .empty ≤
      sampleDeployment.settings.attempts *
          (service sampleDeployment).spent (created sampleDeployment) redrivenRun .empty +
        (service sampleDeployment).spent (redriven sampleDeployment) redrivenRun .empty :=
  ⟨by decide +kernel, attempts_made_le redrivenRun_admitted⟩

end Budget

/-! ## Draining -/

section Drain

/-- A tick of the only worker that commits, at a time at which a delivery is due unless all are
finished. -/
structure PollsDue (D : Deployment) (draws : TickDraws) (db : Database) : Prop where
  unused : NewAttempts D.urls D.settings draws db
  claims : MayClaim D.settings draws.claimNow (fun _ => False)
    (db.recoverExpiredLeases draws.recoverNow) draws.claimed
  commits : ∃ settled, db.outcomes D.urls D.settings draws = .ok settled
  due : (∃ k r, db.deliveries.get? k = some r ∧ ¬ r.Finished) →
    ∃ k r, (db.recoverExpiredLeases draws.recoverNow).deliveries.get? k = some r ∧
      isDue draws.claimNow r.delivery = true

/-- Nothing happens but such ticks. -/
def Polls (D : Deployment) : Action D.maxEventPayloadBytes → Database → Prop
  | .tick draws, db => PollsDue D draws db
  | _, _ => False

/-- What is claimed can be loaded. -/
theorem isSome_claimed? (hdb : Integral db) {k : Uuid} (hk : db.deliveries.get? k ≠ none) :
    (db.claimed? k).isSome = true := by
  obtain ⟨r, hr⟩ := Option.ne_none_iff_exists'.1 hk
  obtain ⟨endpoint, event, hendpoint, hevent, -⟩ := hdb.deliveries k r hr
  simp [Database.claimed?, hr, hendpoint, hevent]

/-- **A tick at a time at which something is due** leaves less to do. -/
theorem remaining_polls {draws : TickDraws} (hbatch : D.settings.workerBatchSize ≠ 0)
    (hdb : Integral db) (h : PollsDue D draws db) :
    (tick D.urls D.settings draws db).remaining D.settings ≤ db.remaining D.settings ∧
      (db.remaining D.settings ≠ 0 → (tick D.urls D.settings draws db).remaining D.settings <
        db.remaining D.settings) := by
  obtain ⟨settled, hout⟩ := h.commits
  have hclaim : ClaimsDue D.settings draws db := ⟨_, h.claims⟩
  have hle := length_add_remaining_tick_le hclaim hout
  refine ⟨by omega, fun hleft => ?_⟩
  have hunfinished : ∃ k r, db.deliveries.get? k = some r ∧ ¬ r.Finished := by
    by_contra hall
    push Not at hall
    exact hleft (database_remaining_eq_zero_iff.2 hall)
  have hloads : ∀ k ∈ draws.claimed, ((db.claiming D.settings draws).claimed? k).isSome = true := by
    intro k hk
    obtain ⟨r, hr, -⟩ := exists_of_mem_claimed hclaim hk
    refine isSome_claimed? hdb.claiming ?_
    rw [get?_claiming, hr]
    exact Option.some_ne_none _
  have hne := outcomes_ne_nil hbatch h.claims hloads (h.due hunfinished) hout
  have hlength := List.length_pos_iff.2 hne
  omega

/-- **The workers finish every delivery**: after as many such ticks as there are attempts left, at
most, every delivery is succeeded or dead-lettered. -/
theorem drains (hbatch : D.settings.workerBatchSize ≠ 0) (hdb : Integral db)
    {l : List (Action D.maxEventPayloadBytes)} (hl : (service D).Meets (Polls D) l db)
    (hlength : db.remaining D.settings ≤ l.length) {k : Uuid} {r : DeliveryRow}
    (hr : ((service D).exec l db).deliveries.get? k = some r) : r.Finished := by
  have hzero := hl.eq_zero_of_le_length Integral (Database.remaining D.settings) ?_ ?_ hdb hlength
  · exact database_remaining_eq_zero_iff.1 hzero k r hr
  · intro a db hdb ha
    cases a with
    | tick draws => exact hdb.tick ha.unused
    | request c now call => exact ha.elim
    | createProject name id createdAt => exact ha.elim
    | createApiKey project name draws => exact ha.elim
    | deleteApiKey project keyId now => exact ha.elim
    | commitRedrive project k leased now updatedAt => exact ha.elim
  · intro a db hdb ha
    cases a with
    | tick draws => exact remaining_polls hbatch hdb ha
    | request c now call => exact ha.elim
    | createProject name id createdAt => exact ha.elim
    | createApiKey project name draws => exact ha.elim
    | deleteApiKey project keyId now => exact ha.elim
    | commitRedrive project k leased now updatedAt => exact ha.elim

/-- A project with an endpoint, an event, and its delivery. -/
def oneDelivery : Database :=
  { Database.empty with
    projects := Rows.empty.insert (.ofNat 1) ⟨PyStr.ofString "a", .epoch⟩
    endpoints := Rows.empty.insert (.ofNat 2)
      ⟨.ofNat 1, PyStr.ofString "http://receiver.example", [PyStr.ofString "t"], sampleSecret, .active,
        .raw, none, .epoch, 0⟩
    events := Rows.empty.insert (.ofNat 3)
      ⟨.ofNat 1, PyStr.ofString "t", ⟨[], [], rfl⟩, none, .epoch⟩
    deliveries := Rows.empty.insert (.ofNat 4)
      ⟨.ofNat 3, .ofNat 2, .pending, 0, 0, none, none, .epoch, 0⟩ }

theorem integral_oneDelivery : Integral oneDelivery := by
  constructor
  · intro k r hr
    cases hr
  · intro k k' r r' hr
    cases hr
  · intro k r hr
    have hmem : (k, r) ∈ oneDelivery.endpoints.entries := Rows.get?_eq_some_iff.1 hr
    obtain rfl := (Prod.mk.inj (List.mem_singleton.1 hmem)).2
    exact fun h => Option.some_ne_none _ h
  · intro k r hr
    have hmem : (k, r) ∈ oneDelivery.events.entries := Rows.get?_eq_some_iff.1 hr
    obtain rfl := (Prod.mk.inj (List.mem_singleton.1 hmem)).2
    exact fun h => Option.some_ne_none _ h
  · intro k r hr
    have hmem : (k, r) ∈ oneDelivery.deliveries.entries := Rows.get?_eq_some_iff.1 hr
    obtain rfl := (Prod.mk.inj (List.mem_singleton.1 hmem)).2
    exact ⟨_, _, rfl, rfl, rfl⟩
  · intro k a ha
    cases ha
  · intro k r hr
    cases hr

theorem pollsDue_oneTick : PollsDue sampleDeployment (oneTick 1 (.ofNat 4)) oneDelivery where
  unused := newAttempts_tickOf rfl
  claims := mayClaim_of_eq (by decide +kernel)
  commits := ⟨_, rfl⟩
  due _ := ⟨.ofNat 4, _, rfl, by decide +kernel⟩

/-- One tick finishes it. -/
theorem drains_oneTick : ∃ r, ((service sampleDeployment).exec [.tick (oneTick 1 (.ofNat 4))]
    oneDelivery).deliveries.get? (.ofNat 4) = some r ∧ r.Finished :=
  ⟨_, rfl, drains (by decide) integral_oneDelivery (l := [.tick (oneTick 1 (.ofNat 4))])
    (k := .ofNat 4) ⟨pollsDue_oneTick, trivial⟩ (by decide +kernel) rfl⟩

end Drain

end Hookit.Tenancy
