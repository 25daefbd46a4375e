import Hookit.Foundations.Machine
import Hookit.Foundations.Table
import Hookit.Worker.Batch

/-!
# The delivery engine

The deliveries and their attempts under any number of concurrent transactions, one action a
statement: ingestion, worker ticks, redrives and dead-letter fast-forwards.

* A tick is `_recover_expired_leases`, `claim_due_deliveries`, then for each claimed delivery
  `process_delivery`, split at its POST: `send` runs up to the POST and `answer` what follows it,
  so that any other transaction, a mode switch at the receiver or a crash fits in between.
* A redrive is the plain `SELECT` with its status check (`read`) and the `UPDATE` by primary key
  (`update`), which waits for the row lock and then applies to the latest committed version.
* A fast-forward takes the row lock by a blocking `SELECT ... FOR UPDATE` (`lock`) and then
  processes the one delivery at most `max_delivery_attempts` times.
* Every transaction can be rolled back at any point. An exception inside `process_delivery`
  rolls it back as well.

What the database chooses (which rows a query returns) and what the world supplies (clock
readings, rows loaded beside a delivery, answers) is in the action; `step` checks that the choice
is one the query allows. A transaction may act on a clock reading taken earlier.

`journal` and `trail` are history variables: what committed transactions did to each delivery, in
commit order, and what an open one has done so far. `posts` lists every POST sent.
-/

namespace Hookit.Engine

open Foundations

/-- Transactions; no identifier is used twice. -/
abbrev Tid := ℕ

/-- What a transaction does to a delivery. -/
inductive Transition
  | created (now : Time)
  | recovered (now : Time)
  | claimed (now : Time)
  /-- Locked by a fast-forward. -/
  | locked
  /-- An attempt that the SSRF check refused. -/
  | refused
  /-- An attempt with its answer, decided at `now`. -/
  | answered (attemptNumber : ℕ) (answer : Answer) (now : Time)
  | redriven (now : Time)
  deriving DecidableEq

/-- A POST that a transaction has sent for a delivery. -/
structure Post (π : Type) where
  tid : Tid
  delivery : DeliveryId
  request : Request π

/-- What remains of the loop around `process_delivery`. -/
inductive Job
  | tick (todo : List DeliveryId)
  | fastForward (delivery : DeliveryId) (rounds : ℕ)
  deriving DecidableEq

/-- Where a transaction stands. -/
inductive Phase
  | ingesting (now : Time)
  /-- After `_recover_expired_leases`. -/
  | recovered
  /-- Between two deliveries. -/
  | working (job : Job)
  /-- Waiting for the answer to POST number `post`. -/
  | posting (job : Job) (delivery : DeliveryId) (post : ℕ)
  /-- A redrive that has read a dead-lettered row. -/
  | read (delivery : DeliveryId)
  /-- A redrive after its `UPDATE`. -/
  | updated (delivery : DeliveryId)
  deriving DecidableEq

/-- An open transaction: its phase, the name it works under, the attempts it has inserted and
what it has done so far. -/
structure Tx where
  phase : Phase
  worker : PyStr
  inserted : List DeliveryAttempt
  trail : List (DeliveryId × Transition)

inductive TxState
  | unused
  | running (tx : Tx)
  | committed
  | rolledBack

structure State (π : Type) where
  deliveries : Table Tid DeliveryId Delivery
  /-- The committed attempts, in commit order. -/
  attempts : List DeliveryAttempt
  txs : Tid → TxState
  posts : List (Post π)
  journal : List (DeliveryId × Transition)
  clock : Time

variable {π : Type}

/-- The empty store. -/
def init : State π where
  deliveries := .empty
  attempts := []
  txs _ := .unused
  posts := []
  journal := []
  clock := 0

namespace State

/-- Replace the open transaction `t` and the table it works on. -/
def put (s : State π) (t : Tid) (deliveries : Table Tid DeliveryId Delivery) (tx : Tx) : State π :=
  { s with deliveries, txs := Function.update s.txs t (.running tx) }

def commit (s : State π) (t : Tid) (tx : Tx) : State π :=
  { s with
    deliveries := s.deliveries.commit t
    attempts := s.attempts ++ tx.inserted
    journal := s.journal ++ tx.trail
    txs := Function.update s.txs t .committed }

def rollback (s : State π) (t : Tid) : State π :=
  { s with
    deliveries := s.deliveries.rollback t
    txs := Function.update s.txs t .rolledBack }

variable {s : State π} {t t' : Tid} {tx tx' : Tx}

theorem running_put {T : Table Tid DeliveryId Delivery} :
    (s.put t T tx).txs t' = .running tx' ↔
      (t' = t ∧ tx = tx') ∨ (t' ≠ t ∧ s.txs t' = .running tx') := by
  simp [put, update_apply_eq_iff]

theorem running_commit :
    (s.commit t tx).txs t' = .running tx' ↔ t' ≠ t ∧ s.txs t' = .running tx' := by
  simp [commit, update_apply_eq_iff]

theorem running_rollback :
    (s.rollback t).txs t' = .running tx' ↔ t' ≠ t ∧ s.txs t' = .running tx' := by
  simp [rollback, update_apply_eq_iff]

/-- The attempt collides in `UNIQUE(delivery_id, attempt_number)` with a committed attempt or
with one of the transaction's own. -/
def collides (s : State π) (tx : Tx) (a : DeliveryAttempt) : Bool :=
  (s.attempts ++ tx.inserted).any fun b =>
    b.deliveryId = a.deliveryId ∧ b.attemptNumber = a.attemptNumber

/-- The flush at the end of `process_delivery`: the row and the new attempt. An exception ends
the transaction, as does the unique constraint. -/
def record (s : State π) (t : Tid) (tx : Tx) (d : DeliveryId) (tr : Transition) (phase : Phase) :
    Except PyError Settled → State π
  | .error _ => s.rollback t
  | .ok out =>
    if s.collides tx out.attempt then s.rollback t
    else s.put t (s.deliveries.write t d (some out.row))
      { tx with phase, inserted := tx.inserted ++ [out.attempt], trail := tx.trail ++ [(d, tr)] }

/-- The delivery that the loop processes next, with what then remains of the loop. The loop of a
fast-forward ends when it finds the delivery dead-lettered. -/
def next (s : State π) (t : Tid) : Job → Option (DeliveryId × Job)
  | .tick [] => none
  | .tick (d :: todo) => some (d, .tick todo)
  | .fastForward _ 0 => none
  | .fastForward d (rounds + 1) =>
    match s.deliveries.visible t d with
    | some r => if r.status = .deadLettered then none else some (d, .fastForward d rounds)
    | none => none

/-- The transaction has reached its `session.commit()`. -/
def finished (s : State π) (t : Tid) : Phase → Bool
  | .ingesting _ => true
  | .working job => (s.next t job).isNone
  | .updated _ => true
  | .recovered | .posting _ _ _ | .read _ => false

/-- Transaction `t` can lock row `d` at once and sees a version of it that meets `p`. -/
def selects (s : State π) (t : Tid) (p : Delivery → Bool) (d : DeliveryId) : Bool :=
  s.deliveries.free t d && (s.deliveries.visible t d).any p

/-- The sort key of `claim_due_deliveries`. -/
def nextAttemptAt (s : State π) (t : Tid) (d : DeliveryId) : Time :=
  ((s.deliveries.visible t d).map (·.nextAttemptAt)).getD 0

end State

/-- The update of `redrive_delivery` and of `redrive`. -/
def redriveRow (now : Time) (r : Delivery) : Delivery :=
  { r with status := .pending, nextAttemptAt := now, leasedUntil := none }

inductive Act (π : Type)
  | advance (now : Time)
  | beginIngest (t : Tid) (now : Time)
  | insertDelivery (t : Tid) (d : DeliveryId) (eventId : EventId) (endpointId : EndpointId)
  | recover (t : Tid) (worker : PyStr) (now : Time) (ds : List DeliveryId)
  | claim (t : Tid) (now : Time) (ds : List DeliveryId)
  | lock (t : Tid) (worker : PyStr) (d : DeliveryId)
  | send (t : Tid) (endpoint : Endpoint) (event : Event π) (timestamp : ℤ)
  | answer (t : Tid) (answer : Answer) (durationMs : ℕ) (now : Time) (draw : Draw)
  | read (t : Tid) (d : DeliveryId)
  | update (t : Tid) (now : Time)
  | commit (t : Tid)
  | rollback (t : Tid)

variable (lib : UrlLib) (cfg : Settings)

/-- The statements of a transaction that is already open. -/
def stepTx (t : Tid) (tx : Tx) : Act π → State π → Option (State π)
  | .insertDelivery _ d eventId endpointId, s =>
    match tx.phase with
    | .ingesting now =>
      -- the primary key is a fresh UUID
      if s.deliveries.held d = none ∧ s.deliveries.rows d = none then
        some <| s.put t (s.deliveries.write t d (some (.new eventId endpointId now)))
          { tx with trail := tx.trail ++ [(d, .created now)] }
      else none
    | _ => none
  | .claim _ now ds, s =>
    if tx.phase = .recovered ∧ now ≤ s.clock ∧ ds.Nodup ∧ ds.length ≤ cfg.workerBatchSize ∧
        ds.Pairwise (fun d d' => s.nextAttemptAt t d ≤ s.nextAttemptAt t d') ∧
        ∀ d ∈ ds, s.selects t (isDue now) d = true then
      some <| s.put t (s.deliveries.writeAll t ds (claimRow cfg tx.worker now))
        { tx with
          phase := .working (.tick ds)
          trail := tx.trail ++ ds.map fun d => (d, .claimed now) }
    else none
  | .send _ endpoint event timestamp, s =>
    match tx.phase with
    | .working job =>
      match s.next t job with
      | none => none
      | some (d, job') =>
        match s.deliveries.visible t d with
        | none => none
        | some r =>
          if endpoint.id = r.endpointId ∧ event.id = r.eventId then
            match prepareDelivery lib endpoint event r timestamp with
            | .error _ => some (s.rollback t)
            | .ok none =>
              some (s.record t tx d .refused (.working job') (refuseDelivery d r tx.worker))
            | .ok (some request) =>
              some
                { s.put t s.deliveries { tx with phase := .posting job' d s.posts.length } with
                  posts := s.posts ++ [⟨t, d, request⟩] }
          else none
    | _ => none
  | .answer _ answer durationMs now draw, s =>
    match tx.phase with
    | .posting job d _ =>
      match s.deliveries.visible t d with
      | none => none
      | some r =>
        if now ≤ s.clock then
          some (s.record t tx d (.answered (r.attemptCount + 1) answer now) (.working job)
            (settleDelivery cfg d r answer durationMs tx.worker now draw))
        else none
    | _ => none
  | .update _ now, s =>
    match tx.phase with
    | .read d =>
      if now ≤ s.clock ∧ s.selects t (fun _ => true) d = true then
        some <| s.put t (s.deliveries.writeAll t [d] (redriveRow now))
          { tx with phase := .updated d, trail := tx.trail ++ [(d, .redriven now)] }
      else none
    | _ => none
  | .commit _, s => if s.finished t tx.phase then some (s.commit t tx) else none
  | .rollback _, s => some (s.rollback t)
  | _, _ => none

/-- The first statements of a transaction. -/
def stepNew (t : Tid) : Act π → State π → Option (State π)
  | .beginIngest _ now, s =>
    if now ≤ s.clock then some (s.put t s.deliveries ⟨.ingesting now, [], [], []⟩) else none
  | .recover _ worker now ds, s =>
    if now ≤ s.clock ∧ ds.Nodup ∧ ∀ d ∈ ds, s.selects t (leaseExpired now) d = true then
      some <| s.put t (s.deliveries.writeAll t ds recoverRow)
        ⟨.recovered, worker, [], ds.map fun d => (d, .recovered now)⟩
    else none
  | .lock _ worker d, s =>
    if s.selects t (fun _ => true) d = true then
      some <| s.put t (s.deliveries.writeAll t [d] id)
        ⟨.working (.fastForward d cfg.maxDeliveryAttempts.toNat), worker, [], [(d, .locked)]⟩
    else none
  | .read _ d, s =>
    match s.deliveries.visible t d with
    | some r =>
      if r.status = .deadLettered then some (s.put t s.deliveries ⟨.read d, [], [], []⟩)
      -- 409
      else some (s.rollback t)
    -- 404
    | none => some (s.rollback t)
  | _, _ => none

/-- The transaction that an action belongs to. -/
def Act.tid? : Act π → Option Tid
  | .advance _ => none
  | .beginIngest t _ | .insertDelivery t _ _ _ | .recover t _ _ _ | .claim t _ _ | .lock t _ _
  | .send t _ _ _ | .answer t _ _ _ _ | .read t _ | .update t _ | .commit t | .rollback t => some t

def step (a : Act π) (s : State π) : Option (State π) :=
  match a with
  | .advance now => if s.clock ≤ now then some { s with clock := now } else none
  | a =>
    match a.tid? with
    | none => none
    | some t =>
      match s.txs t with
      | .unused => stepNew cfg t a s
      | .running tx => stepTx lib cfg t tx a s
      | .committed | .rolledBack => none

/-- The engine with the settings `cfg`. -/
def engine : Machine (State π) (Act π) where
  init := init
  step := step lib cfg

/-! ## Scripts

The statements of an ingestion and of a tick on one delivery, for runs on fixed inputs. -/

/-- Settings that dead-letter at the first failure. -/
def oneAttempt : Settings := { defaultSettings with maxDeliveryAttempts := 1 }

/-- Settings with one retry. -/
def twoAttempts : Settings := { defaultSettings with maxDeliveryAttempts := 2 }

/-- A library that knows the host of the receiver. -/
def receiverHost : UrlLib :=
  namedHost (.ofString "http://receiver.example/hook") (.ofString "receiver.example")

/-- Transaction `t` ingests an event with delivery `1`. -/
def ingestion (t : Tid) : List (Act Unit) :=
  [.beginIngest t 0, .insertDelivery t 1 1 1, .commit t]

/-- Transaction `t` is a tick that claims delivery `1` and POSTs it. -/
def tickUpToPost (t : Tid) : List (Act Unit) :=
  [.recover t (.ofString "worker") 0 [], .claim t 0 [1],
    .send t (claimedAt 1 1).endpoint (claimedAt 1 1).event 0]

/-- The rest of the tick, with the answer to the POST. -/
def tickAfterPost (t : Tid) (answer : Answer) : List (Act Unit) :=
  [.answer t answer 5 0 .zero, .commit t]

/-- Transaction `t` is a tick that tries delivery `1` at a later time. -/
def tickAt (t : Tid) (now : Time) (answer : Answer) : List (Act Unit) :=
  [.advance now, .recover t (.ofString "worker") now [], .claim t now [1],
    .send t (claimedAt 1 1).endpoint (claimedAt 1 1).event 0, .answer t answer 5 now .zero, .commit t]

/-- Transaction `t` is a redrive of delivery `1`. -/
def redriveOf (t : Tid) : List (Act Unit) := [.read t 1, .update t 0, .commit t]

end Hookit.Engine
