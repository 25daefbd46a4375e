import Hookit.Foundations.Lists
import Hookit.Worker.Process

/-!
# `app/worker/delivery_worker.py`: one tick

What `_recover_expired_leases` and `claim_due_deliveries` do to a row, the loop of `run_once`
over the claimed batch, and what the transaction of `_worker_loop` around it leaves
(`workerTick`): everything the loop returned if it returned, nothing if it raised.

`tickPersists_iff` says when every delivery of the batch keeps its attempt and its decision:
exactly when no delivery of the batch is poisonous, that is, when each is `Harmless`. A receiver
alone can make one poisonous, and with it the outcomes of the whole batch are lost
(`not_tickPersists_nul`).
-/

namespace Hookit

open Foundations

variable {π : Type}

/-! ## Recovering and claiming -/

/-- The `WHERE` clause of `_recover_expired_leases`. -/
def leaseExpired (now : Time) (r : Delivery) : Bool :=
  r.status = .inFlight ∧ r.leasedUntil.any fun leasedUntil => leasedUntil < now

/-- The update of `_recover_expired_leases`. -/
def recoverRow (r : Delivery) : Delivery :=
  { r with status := .pending, leasedUntil := none }

/-- The `WHERE` clause of `claim_due_deliveries`. -/
def isDue (now : Time) (r : Delivery) : Bool :=
  r.status = .pending ∧ r.nextAttemptAt ≤ now

/-- The update of `claim_due_deliveries`. -/
def claimRow (cfg : Settings) (worker : PyStr) (now : Time) (r : Delivery) : Delivery :=
  { r with
    status := .inFlight
    leasedUntil := some (now + cfg.workerLeaseSeconds)
    claimedBy := some worker }

/-! ## The loop -/

/-- A claimed delivery with the endpoint and the event loaded beside it. -/
structure Claimed (π : Type) where
  id : DeliveryId
  row : Delivery
  endpoint : Endpoint
  event : Event π

/-- What the world supplies while one delivery is processed. -/
structure Surroundings (π : Type) where
  timestamp : ℤ
  answer : Request π → Answer
  durationMs : ℕ
  now : Time
  draw : Draw

/-- `process_delivery`. -/
def processDelivery (lib : UrlLib) (cfg : Settings) (worker : PyStr) (c : Claimed π)
    (env : Surroundings π) : Except PyError Settled := do
  match ← prepareDelivery lib c.endpoint c.event c.row env.timestamp with
  | none => refuseDelivery c.id c.row worker
  | some request =>
    settleDelivery cfg c.id c.row (env.answer request) env.durationMs worker env.now env.draw

/-- `time.sleep`: its argument in nanoseconds must fit 64 bits. -/
def timeSleep (seconds : ℚ) : Except PyError Unit :=
  if 2 ^ 63 ≤ ⌈seconds * 10 ^ 9⌉ then .error .overflowError else .ok ()

/-- `sleep_for_rate_limit`. -/
def sleepForRateLimit : Option RateLimit → Except PyError Unit
  | none => .ok ()
  | some rateLimitRps => timeSleep (1 / rateLimitRps.1)

/-- The start of the loop body of `run_once`: wait where the endpoint has been seen, else add it
to the ones seen. -/
def pauseBefore (seen : List EndpointId) (c : Claimed π) : Except PyError (List EndpointId) :=
  if c.row.endpointId ∈ seen then do
    sleepForRateLimit c.endpoint.rateLimitRps
    return seen
  else return c.row.endpointId :: seen

/-- The loop of `run_once`, with the endpoints seen so far. -/
def processBatch (lib : UrlLib) (cfg : Settings) (worker : PyStr) :
    List EndpointId → List (Claimed π × Surroundings π) → Except PyError (List Settled)
  | _, [] => .ok []
  | seen, (c, env) :: rest => do
    let seen' ← pauseBefore seen c
    let out ← processDelivery lib cfg worker c env
    let outs ← processBatch lib cfg worker seen' rest
    return out :: outs

/-- What the tick's transaction leaves committed: `_worker_loop` commits when `run_once` returns
and rolls back when it raises. -/
def workerTick (lib : UrlLib) (cfg : Settings) (worker : PyStr)
    (batch : List (Claimed π × Surroundings π)) : List Settled :=
  match processBatch lib cfg worker [] batch with
  | .ok outs => outs
  | .error _ => []

/-- One attempt of the delivery and one status decision. -/
def Decided (c : Claimed π) (out : Settled) : Prop :=
  out.attempt.deliveryId = c.id ∧ out.attempt.attemptNumber = c.row.attemptCount + 1 ∧
    out.row.attemptCount = c.row.attemptCount + 1 ∧ out.row.AtRest

instance (c : Claimed π) (out : Settled) : Decidable (Decided c out) := by
  unfold Decided
  infer_instance

/-- The tick leaves exactly one attempt and one decision for each delivery of its batch. -/
def TickPersists (lib : UrlLib) (cfg : Settings) (worker : PyStr)
    (batch : List (Claimed π × Surroundings π)) : Prop :=
  List.Forall₂ (fun c out => Decided c.1 out) batch (workerTick lib cfg worker batch)

instance (lib : UrlLib) (cfg : Settings) (worker : PyStr)
    (batch : List (Claimed π × Surroundings π)) : Decidable (TickPersists lib cfg worker batch) := by
  unfold TickPersists
  infer_instance

/-- Nothing in the processing of the delivery raises: `rateLimited` says that an earlier delivery
of the batch went to the same endpoint. -/
structure Harmless (lib : UrlLib) (cfg : Settings) (worker : PyStr) (rateLimited : Prop)
    (c : Claimed π) (env : Surroundings π) : Prop where
  /-- The pause before it is one that `time.sleep` takes. -/
  sleep : rateLimited → ∀ r, c.endpoint.rateLimitRps = some r → ⌈1 / r.1 * 10 ^ 9⌉ < 2 ^ 63
  /-- The endpoint's URL has a host. -/
  host : HasHost lib c.endpoint.url
  /-- The number of the attempt is one that its column takes. -/
  number : FitsCounter (c.row.attemptCount + 1)
  /-- The worker's name is storable. -/
  worker : worker.storable = true
  /-- What is stored of the answer is storable. -/
  answer : ∀ request,
    prepareDelivery lib c.endpoint c.event c.row env.timestamp = .ok (some request) →
    (env.answer request).Storable
  /-- The duration is one that its column takes. -/
  duration : ∀ request,
    prepareDelivery lib c.endpoint c.event c.row env.timestamp = .ok (some request) →
    FitsCounter env.durationMs
  /-- The instant of a retry is one that `datetime` takes. -/
  backoff : ∀ request,
    prepareDelivery lib c.endpoint c.event c.row env.timestamp = .ok (some request) →
    (env.answer request).succeeded = false →
    (c.row.attemptCount + 1 : ℕ) < cfg.maxDeliveryAttempts →
    BackoffInRange (c.row.attemptCount + 1) cfg.retryBaseSeconds cfg.retryCapSeconds env.now
      env.draw

/-! ## When one delivery raises -/

theorem sleepForRateLimit_eq_ok_iff {rps : Option RateLimit} :
    sleepForRateLimit rps = .ok () ↔ ∀ r, rps = some r → ⌈1 / r.1 * 10 ^ 9⌉ < 2 ^ 63 := by
  cases rps with
  | none => simp [sleepForRateLimit]
  | some r =>
    simp only [sleepForRateLimit, timeSleep, Option.some.injEq, forall_eq']
    split_ifs with h
    · exact ⟨nofun, fun h' => absurd h (not_le.2 h')⟩
    · exact ⟨fun _ => not_le.1 h, fun _ => rfl⟩

/-- The part before the POST raises exactly where the URL has no host. -/
theorem prepareDelivery_cases (lib : UrlLib) (ep : Endpoint) (ev : Event π) (r : Delivery)
    (ts : ℤ) :
    (HasHost lib ep.url ∧ (prepareDelivery lib ep ev r ts = .ok none ∨
      ∃ request : Request π, request.attempt = r.attemptCount + 1 ∧ request.eventId = ev.id ∧
        prepareDelivery lib ep ev r ts = .ok (some request))) ∨
    (¬ HasHost lib ep.url ∧ ∃ e, prepareDelivery lib ep ev r ts = .error e) := by
  rcases validateUrlNotSsrf_cases lib ep.url with ⟨hh, hv | hv⟩ | ⟨hh, hv⟩
  · exact .inl ⟨hh, .inr ⟨_, rfl, rfl, by simp only [prepareDelivery, hv]; rfl⟩⟩
  · exact .inl ⟨hh, .inl (by simp [prepareDelivery, hv])⟩
  · exact .inr ⟨hh, .valueError, by simp [prepareDelivery, hv]⟩

/-- A decision is for one more attempt, and leaves the row at rest. -/
theorem decideDelivery_spec {cfg : Settings} {r row : Delivery} {a : Answer} {now : Time}
    {draw : Draw} (h : decideDelivery cfg r a now draw = .ok row) :
    row.attemptCount = r.attemptCount + 1 ∧ row.AtRest := by
  rcases decideDelivery_eq_ok_iff.1 h with ⟨-, rfl⟩ | ⟨-, -, rfl⟩ | ⟨-, -, -, rfl⟩
  · exact ⟨rfl, .inr (.inl rfl)⟩
  · exact ⟨rfl, .inr (.inr rfl)⟩
  · exact ⟨rfl, .inl rfl⟩

/-- **What processing one delivery returns is decided.** -/
theorem processDelivery_decided {lib : UrlLib} {cfg : Settings} {worker : PyStr} {c : Claimed π}
    {env : Surroundings π} {out : Settled} (h : processDelivery lib cfg worker c env = .ok out) :
    Decided c out := by
  unfold processDelivery at h
  rcases prepareDelivery_cases lib c.endpoint c.event c.row env.timestamp with
    ⟨-, hp | ⟨request, -, -, hp⟩⟩ | ⟨-, e, hp⟩ <;> rw [hp] at h
  · obtain ⟨-, rfl⟩ := refuseDelivery_eq_ok_iff.1 h
    exact ⟨rfl, rfl, rfl, .inr (.inr rfl)⟩
  · obtain ⟨hdec, -, hatt⟩ := settleDelivery_eq_ok_iff.1 h
    obtain ⟨hcount, hrest⟩ := decideDelivery_spec hdec
    exact ⟨by rw [hatt]; rfl, by rw [hatt]; rfl, hcount, hrest⟩
  · cases h

/-- A decision is reached exactly where no retry is due out of range. -/
theorem exists_decideDelivery_iff {cfg : Settings} {r : Delivery} {a : Answer} {now : Time}
    {draw : Draw} : (∃ row, decideDelivery cfg r a now draw = .ok row) ↔
      (a.succeeded = false → (r.attemptCount + 1 : ℕ) < cfg.maxDeliveryAttempts →
        BackoffInRange (r.attemptCount + 1) cfg.retryBaseSeconds cfg.retryCapSeconds now draw) := by
  simp only [decideDelivery_eq_ok_iff, exists_or, exists_and_left, exists_eq, and_true]
  cases a.succeeded
  · simp only [Bool.false_eq_true, true_and, false_or, forall_const, ← not_lt]
    tauto
  · simp

/-- Processing one delivery returns exactly where everything after the pause is harmless. -/
theorem exists_processDelivery_iff {lib : UrlLib} {cfg : Settings} {worker : PyStr}
    {c : Claimed π} {env : Surroundings π} :
    (∃ out, processDelivery lib cfg worker c env = .ok out) ↔
      Harmless lib cfg worker False c env := by
  unfold processDelivery
  rcases prepareDelivery_cases lib c.endpoint c.event c.row env.timestamp with
    ⟨hh, hp | ⟨request, -, -, hp⟩⟩ | ⟨hh, e, hp⟩
  · rw [hp]
    constructor
    · rintro ⟨out, h⟩
      obtain ⟨hstore, -⟩ := refuseDelivery_eq_ok_iff.1 h
      obtain ⟨hnumber, hw⟩ := refusedAttempt_storable_iff.1 hstore
      exact ⟨nofun, hh, hnumber, hw, by simp [hp], by simp [hp], by simp [hp]⟩
    · intro h
      exact ⟨_, refuseDelivery_eq_ok_iff.2
        ⟨refusedAttempt_storable_iff.2 ⟨h.number, h.worker⟩, rfl⟩⟩
  · rw [hp]
    constructor
    · rintro ⟨out, h⟩
      obtain ⟨hdec, hstore, -⟩ := settleDelivery_eq_ok_iff.1 h
      obtain ⟨hanswer, hnumber, hms, hw⟩ := answeredAttempt_storable_iff.1 hstore
      have hback := exists_decideDelivery_iff.1 ⟨_, hdec⟩
      have hrequest : ∀ request', prepareDelivery lib c.endpoint c.event c.row env.timestamp =
          .ok (some request') → request' = request := by
        intro request' hr
        rw [hp] at hr
        exact (Option.some.inj (Except.ok.inj hr)).symm
      exact ⟨nofun, hh, hnumber, hw, fun _ hr => hrequest _ hr ▸ hanswer, fun _ _ => hms,
        fun _ hr => hrequest _ hr ▸ hback⟩
    · intro h
      obtain ⟨row, hdec⟩ := exists_decideDelivery_iff.2 (h.backoff request hp)
      exact ⟨⟨row, _⟩, settleDelivery_eq_ok_iff.2 ⟨hdec, answeredAttempt_storable_iff.2
        ⟨h.answer request hp, h.number, h.duration request hp, h.worker⟩, rfl⟩⟩
  · rw [hp]
    exact ⟨fun ⟨_, h⟩ => (nomatch h), fun h => absurd h.host hh⟩

theorem harmless_iff {lib : UrlLib} {cfg : Settings} {worker : PyStr} {rateLimited : Prop}
    {c : Claimed π} {env : Surroundings π} :
    Harmless lib cfg worker rateLimited c env ↔
      (rateLimited → sleepForRateLimit c.endpoint.rateLimitRps = .ok ()) ∧
        Harmless lib cfg worker False c env := by
  rw [sleepForRateLimit_eq_ok_iff]
  exact ⟨fun h => ⟨h.sleep, { h with sleep := nofun }⟩, fun h => { h.2 with sleep := h.1 }⟩

/-! ## When the tick raises -/

/-- The endpoints of the deliveries. -/
def endpointIds (batch : List (Claimed π × Surroundings π)) : List EndpointId :=
  batch.map fun c => c.1.row.endpointId

/-- The pause returns exactly where its sleep does, and then the endpoint has been seen. -/
theorem pauseBefore_spec (seen : List EndpointId) (c : Claimed π) :
    ((∃ seen', pauseBefore seen c = .ok seen') ↔
      (c.row.endpointId ∈ seen → sleepForRateLimit c.endpoint.rateLimitRps = .ok ())) ∧
    ∀ seen', pauseBefore seen c = .ok seen' →
      ∀ e, e ∈ seen' ↔ e ∈ seen ∨ e = c.row.endpointId := by
  unfold pauseBefore
  by_cases hmem : c.row.endpointId ∈ seen
  · rw [if_pos hmem]
    cases hs : sleepForRateLimit c.endpoint.rateLimitRps with
    | error e => exact ⟨⟨fun ⟨_, h⟩ => (nomatch h), fun h => nomatch h hmem⟩, fun _ h => nomatch h⟩
    | ok u =>
      refine ⟨⟨fun _ _ => rfl, fun _ => ⟨seen, rfl⟩⟩, fun seen' h e => ?_⟩
      obtain rfl := Except.ok.inj h
      exact ⟨.inl, fun h => h.elim id fun he => he ▸ hmem⟩
  · rw [if_neg hmem]
    refine ⟨⟨fun _ h => absurd h hmem, fun _ => ⟨_, rfl⟩⟩, fun seen' h e => ?_⟩
    obtain rfl := Except.ok.inj h
    exact List.mem_cons.trans or_comm

/-- **The loop returns exactly where every delivery is harmless.** -/
theorem exists_processBatch_iff (lib : UrlLib) (cfg : Settings) (worker : PyStr) :
    ∀ (batch : List (Claimed π × Surroundings π)) (seen : List EndpointId),
      (∃ outs, processBatch lib cfg worker seen batch = .ok outs) ↔
        ∀ before c after, batch = before ++ c :: after →
          Harmless lib cfg worker (c.1.row.endpointId ∈ seen ∨
            c.1.row.endpointId ∈ endpointIds before) c.1 c.2
  | [], seen => by simp [processBatch]
  | (c, env) :: rest, seen => by
    rw [forall_split_cons]
    simp only [endpointIds, List.map_nil, List.not_mem_nil, or_false]
    rw [harmless_iff, ← exists_processDelivery_iff, ← (pauseBefore_spec seen c).1]
    simp only [processBatch, bind, Except.bind, pure, Except.pure]
    cases hp : pauseBefore seen c with
    | error e => simp
    | ok seen' =>
      cases hout : processDelivery lib cfg worker c env with
      | error e => simp
      | ok out =>
        have ih := exists_processBatch_iff lib cfg worker rest seen'
        have hseen := (pauseBefore_spec seen c).2 seen' hp
        simp only [hseen, endpointIds, or_assoc] at ih
        simp only [List.map_cons, List.mem_cons, Except.ok.injEq, exists_eq', true_and, and_true]
        rw [← ih]
        cases processBatch lib cfg worker seen' rest <;> simp

/-- What the loop returns is decided, delivery by delivery. -/
theorem processBatch_decided {lib : UrlLib} {cfg : Settings} {worker : PyStr} :
    ∀ {batch : List (Claimed π × Surroundings π)} {seen : List EndpointId} {outs : List Settled},
      processBatch lib cfg worker seen batch = .ok outs →
      List.Forall₂ (fun c out => Decided c.1 out) batch outs
  | [], seen, outs, h => by
    obtain rfl := Except.ok.inj h
    exact .nil
  | (c, env) :: rest, seen, outs, h => by
    simp only [processBatch, bind, Except.bind] at h
    cases hp : pauseBefore seen c with
    | error e => rw [hp] at h; cases h
    | ok seen' =>
      cases hout : processDelivery lib cfg worker c env with
      | error e => rw [hp, hout] at h; cases h
      | ok out =>
        cases houts : processBatch lib cfg worker seen' rest with
        | error e => rw [hp, hout] at h; simp only [houts] at h; cases h
        | ok outs' =>
          rw [hp, hout] at h
          simp only [houts] at h
          obtain rfl := Except.ok.inj h
          exact .cons (processDelivery_decided hout) (processBatch_decided houts)

/-- **A tick keeps the outcomes of its batch exactly when every delivery of it is harmless.** -/
theorem tickPersists_iff (lib : UrlLib) (cfg : Settings) (worker : PyStr)
    (batch : List (Claimed π × Surroundings π)) :
    TickPersists lib cfg worker batch ↔
      ∀ before c env after, batch = before ++ (c, env) :: after →
        Harmless lib cfg worker (c.row.endpointId ∈ endpointIds before) c env := by
  have hloop := exists_processBatch_iff lib cfg worker batch []
  simp only [List.not_mem_nil, false_or, Prod.forall] at hloop
  rw [← hloop]
  unfold TickPersists workerTick
  cases h : processBatch lib cfg worker [] batch with
  | ok outs => exact ⟨fun _ => ⟨outs, rfl⟩, fun _ => processBatch_decided h⟩
  | error e =>
    refine ⟨fun hall => ?_, nofun⟩
    cases hall
    cases h

/-! ## A poisonous answer -/

/-- A library in which one URL has a host, a name. -/
def namedHost (url host : PyStr) : UrlLib where
  hostname u := if u = url then .ok (some host) else .error ()
  ipAddress _ := none

/-- Settings with the defaults of the source. -/
def defaultSettings : Settings where
  maxDeliveryAttempts := 6
  retryBaseSeconds := 10
  retryCapSeconds := 3600
  workerBatchSize := 10
  workerLeaseSeconds := 60
  workerName := []

/-- A freshly claimed delivery to an endpoint at `http://receiver.example/hook`. -/
def claimedAt (d : DeliveryId) (endpointId : EndpointId) : Claimed Unit where
  id := d
  row := claimRow defaultSettings (.ofString "worker") 0 (.new 1 endpointId 0)
  endpoint :=
    { id := endpointId
      projectId := 1
      url := .ofString "http://receiver.example/hook"
      eventTypes := [.ofString "price.tick"]
      status := .active
      payloadFormat := .raw
      rateLimitRps := none }
  event :=
    { id := 1
      projectId := 1
      type := .ofString "price.tick"
      payload := ()
      idempotencyKey := none }

/-- A receiver that answers `200` with the text. -/
def answering (text : PyStr) : Surroundings Unit where
  timestamp := 0
  answer _ := .response 200 text
  durationMs := 5
  now := 1
  draw := .zero

/-- **One receiver's U+0000 loses the batch.** Two deliveries to different endpoints are both
answered `200`; alone the first is kept, but beside a second whose text has U+0000 nothing is. -/
theorem not_tickPersists_nul :
    TickPersists (namedHost (.ofString "http://receiver.example/hook")
        (.ofString "receiver.example")) defaultSettings (.ofString "worker")
      [(claimedAt 1 1, answering (.ofString "ok"))] ∧
    ¬ TickPersists (namedHost (.ofString "http://receiver.example/hook")
        (.ofString "receiver.example")) defaultSettings (.ofString "worker")
      [(claimedAt 1 1, answering (.ofString "ok")), (claimedAt 2 2, answering [0])] := by
  decide +kernel

end Hookit
