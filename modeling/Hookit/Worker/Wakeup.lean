import Hookit.Ingestion.Idempotency

/-!
# `app/worker/__main__.py`

The transactions of `ingest_event` beside one `_worker_loop`, one action a statement.

* A transaction that has queued a delivery executes `NOTIFY` after its inserts and before its
  commit. The notification is queued at the commit on every connection that listens; a rollback
  drops it.
* The loop opens its `LISTEN` connection at its head, claims a batch, processes it, and waits if the
  batch was empty. `run_once` does not fail. Its claim query may find any batch of due deliveries:
  the rows of the other projects and the other loops are not part of the state.
* `_wait_for_notify` leaves the iteration at the first notification, and drops those that arrived
  with it: the end of a wait discards any number of the notifications that are queued.

`snapshot` and `freshlyQueued` are history variables: the deliveries that the last claim query could
see, and the transactions that have queued a delivery since. `awake`: whenever the loop waits with
no notification queued, there is no such transaction, and every delivery is in the snapshot.
-/

namespace Hookit.Wakeup

open Foundations Ingestion

/-! ## States -/

/-- Where `_worker_loop` stands. -/
inductive Loop
  /-- At the head. -/
  | connecting
  /-- Before `run_once`. -/
  | claiming
  /-- In `run_once`, with the number of deliveries claimed. -/
  | processing (n : ℕ)
  /-- About to wait. -/
  | idle
  /-- In `_wait_for_notify`. -/
  | waiting
  /-- In `time.sleep`. -/
  | sleeping
  deriving DecidableEq

/-- The loop is between its claim query and the end of its wait. -/
def Loop.hasClaimed : Loop → Bool
  | .processing _ | .idle | .waiting => true
  | .connecting | .claiming | .sleeping => false

structure State (π : Type) where
  store : Ingestion.State π
  /-- The transactions that have executed `NOTIFY`. -/
  notified : List Tid
  loop : Loop
  /-- `listen_conn`, with the number of notifications queued on it. -/
  listenConn : Option ℕ
  snapshot : List Delivery
  freshlyQueued : List Tid

inductive Act (π : Type)
  | ingest (a : Ingestion.Act π)
  | notify (t : Tid)
  /-- The head of the loop, and whether `_open_listen_conn` succeeds if it is called. -/
  | connect (opened : Bool)
  | claim (n : ℕ)
  /-- The commit of `run_once`. -/
  | processed
  | wait
  /-- A wait ends with a notification. -/
  | wake (discarded : ℕ)
  /-- A wait ends with the fallback timeout. -/
  | timeout (discarded : ℕ)
  /-- A wait ends with the loss of the connection. -/
  | lost
  /-- The end of `time.sleep`. -/
  | slept

variable {π : Type}

def init : State π where
  store := Ingestion.init
  notified := []
  loop := .connecting
  listenConn := none
  snapshot := []
  freshlyQueued := []

/-- `queued_count`. -/
def queuedCount (tx : Tx π) : ℕ :=
  match tx.phase with
  | .inserting plan _ _ _ => plan.activeEndpoints.length
  | _ => 0

/-- The commit of a request, after which the store is `store`. -/
def State.commit (s : State π) (store : Ingestion.State π) (t : Tid) (tx : Tx π) : State π :=
  { s with
    store
    listenConn := if t ∈ s.notified then s.listenConn.map (· + 1) else s.listenConn
    freshlyQueued := if tx.deliveries = [] then s.freshlyQueued else s.freshlyQueued ++ [t] }

variable (bodyHash : PyStr → π → PyStr)

/-- A statement of `ingest_event` other than `NOTIFY`, or of an edit of the endpoints. -/
def stepIngest (a : Ingestion.Act π) (s : State π) : Option (State π) :=
  (Ingestion.step bodyHash a s.store).bind fun store =>
    match a, s.store.txs a.tid with
    | .commit t, .running tx =>
      -- `NOTIFY` comes before the commit
      if queuedCount tx = 0 ∨ t ∈ s.notified then some (s.commit store t tx) else none
    | _, _ => some { s with store }

def stepNotify (t : Tid) (s : State π) : Option (State π) :=
  match s.store.txs t with
  | .running tx =>
    match tx.phase with
    | .inserting _ false [] false =>
      if 0 < queuedCount tx then some { s with notified := s.notified ++ [t] } else none
    | _ => none
  | _ => none

/-- The end of a wait that discards notifications. -/
def State.resume (s : State π) (queued discarded : ℕ) : State π :=
  { s with loop := .connecting, listenConn := some (queued - discarded) }

def step : Act π → State π → Option (State π)
  | .ingest a, s => stepIngest bodyHash a s
  | .notify t, s => stepNotify t s
  | .connect opened, s =>
    match s.loop, s.listenConn with
    | .connecting, some _ => some { s with loop := .claiming }
    | .connecting, none =>
      some { s with loop := .claiming, listenConn := if opened then some 0 else none }
    | _, _ => none
  | .claim n, s =>
    match s.loop with
    | .claiming =>
      some { s with loop := .processing n, snapshot := s.store.deliveries, freshlyQueued := [] }
    | _ => none
  | .processed, s =>
    match s.loop with
    | .processing 0 => some { s with loop := .idle }
    | .processing (_ + 1) => some { s with loop := .connecting }
    | _ => none
  | .wait, s =>
    match s.loop, s.listenConn with
    | .idle, some _ => some { s with loop := .waiting }
    | .idle, none => some { s with loop := .sleeping }
    | _, _ => none
  | .wake discarded, s =>
    match s.loop, s.listenConn with
    | .waiting, some queued =>
      if 1 ≤ discarded ∧ discarded ≤ queued then some (s.resume queued discarded) else none
    | _, _ => none
  | .timeout discarded, s =>
    match s.loop, s.listenConn with
    | .waiting, some queued =>
      if discarded ≤ queued then some (s.resume queued discarded) else none
    | _, _ => none
  | .lost, s =>
    match s.loop with
    | .waiting => some { s with loop := .sleeping, listenConn := none }
    | _ => none
  | .slept, s =>
    match s.loop with
    | .sleeping => some { s with loop := .connecting }
    | _ => none

/-- Ingestion beside the worker loop. -/
def wakeup : Machine (State π) (Act π) where
  init := init
  step := step bodyHash

variable {bodyHash}

/-! ## What a request queues -/

/-- The request has inserted or is yet to insert `queued_count` deliveries, and none outside the
flush. -/
def Counted (tx : Tx π) : Prop :=
  match tx.phase with
  | .inserting plan _ endpoints _ =>
    tx.deliveries.length + endpoints.length = plan.activeEndpoints.length
  | _ => tx.deliveries = []

theorem Counted.queuedCount_pos {tx : Tx π} (h : Counted tx) (hd : tx.deliveries ≠ []) :
    0 < queuedCount tx := by
  have hlength : 0 < tx.deliveries.length := List.length_pos_iff.2 hd
  unfold Counted at h
  unfold queuedCount
  cases hphase : tx.phase with
  | inserting plan event endpoints record =>
    simp only [hphase] at h ⊢
    omega
  | _ =>
    simp only [hphase] at h
    exact absurd h hd

section Moves

variable {s s' : Ingestion.State π} {a : Ingestion.Act π}

/-- A step writes the state of one transaction. -/
theorem counted_update {txs : Tid → TxState π} {t : Tid} {x : TxState π}
    (h : ∀ t tx, txs t = .running tx → Counted tx) (hx : ∀ tx, x = .running tx → Counted tx)
    (t' : Tid) (tx : Tx π) (ht' : Function.update txs t x t' = .running tx) : Counted tx := by
  rcases eq_or_ne t' t with rfl | hne
  · exact hx tx (by rwa [Function.update_self] at ht')
  · exact h t' tx (by rwa [Function.update_of_ne hne] at ht')

theorem counted_violate {t : Tid} {tx₀ : Tx π} (h : ∀ t tx, s.txs t = .running tx → Counted tx)
    (t' : Tid) (tx : Tx π) (ht' : (s.violate t tx₀).txs t' = .running tx) : Counted tx := by
  unfold State.violate at ht'
  split at ht'
  · refine counted_update h ?_ t' tx ht'
    rintro _ ⟨⟩
    exact rfl
  · refine counted_update h ?_ t' tx ht'
    rintro _ ⟨⟩

/-- Every step of the ingestion keeps its requests counted. -/
theorem counted_move (hmove : Move bodyHash a s s') (h : ∀ t tx, s.txs t = .running tx → Counted tx) :
    ∀ t tx, s'.txs t = .running tx → Counted tx := by
  cases hmove with
  | hit | miss =>
    refine counted_update h ?_
    rintro _ ⟨⟩
    exact rfl
  | fanOut ht hphase =>
    refine counted_update h ?_
    rintro _ ⟨⟩
    have htx := h _ _ ht
    simp only [Counted, hphase] at htx
    simp only [Counted, htx, List.length_nil, Nat.zero_add]
  | event ht hphase | record ht hphase =>
    refine counted_update h ?_
    rintro _ ⟨⟩
    have htx := h _ _ ht
    simp only [Counted, hphase] at htx ⊢
    exact htx
  | delivery ht hphase =>
    refine counted_update h ?_
    rintro _ ⟨⟩
    have htx := h _ _ ht
    simp only [Counted, hphase, List.length_cons, List.length_append, List.length_nil] at htx ⊢
    omega
  | orphan | duplicate => exact counted_violate h
  | reread ht hphase =>
    refine counted_update h ?_
    rintro _ ⟨⟩
    have htx := h _ _ ht
    simp only [Counted, hphase] at htx ⊢
    exact htx
  | lost | commit | reply | edit | edited | abort =>
    refine counted_update h ?_
    rintro _ ⟨⟩

theorem deliveries_violate (s : Ingestion.State π) (t : Tid) (tx : Tx π) :
    (s.violate t tx).deliveries = s.deliveries := by
  unfold State.violate
  split <;> rfl

/-- A delivery is committed by the commit of the request that inserts it. -/
theorem mem_deliveries_of_move (hmove : Move bodyHash a s s') {delivery : Delivery}
    (hd : delivery ∈ s'.deliveries) : delivery ∈ s.deliveries ∨
      ∃ t tx, a = .commit t ∧ s.txs t = .running tx ∧ delivery ∈ tx.deliveries := by
  cases hmove with
  | commit ht => exact (List.mem_append.1 hd).imp_right fun hd => ⟨_, _, rfl, ht, hd⟩
  | edited => exact .inl (List.mem_of_mem_filter hd)
  | orphan | duplicate => exact .inl (by rwa [deliveries_violate] at hd)
  | _ => exact .inl hd

end Moves

/-! ## The invariant -/

/-- A claim query that has missed a commit leaves a notification on the connection. -/
structure Inv (s : State π) : Prop where
  counted : ∀ t tx, s.store.txs t = .running tx → Counted tx
  seen : s.freshlyQueued = [] → ∀ delivery ∈ s.store.deliveries, delivery ∈ s.snapshot
  queued : s.loop.hasClaimed = true → s.freshlyQueued ≠ [] → s.listenConn ≠ some 0

section Steps

variable {s s' : State π}

theorem inv_init : Inv (init : State π) where
  counted _ _ ht := nomatch ht
  seen _ _ hd := absurd hd List.not_mem_nil
  queued h := nomatch h

/-- A step of the loop that makes no claim. -/
theorem Inv.loop (h : Inv s) {loop : Loop} {listenConn : Option ℕ}
    (hloop : loop.hasClaimed = true → s.loop.hasClaimed = true ∧ listenConn = s.listenConn) :
    Inv { s with loop, listenConn } where
  counted := h.counted
  seen := h.seen
  queued hclaimed := by
    obtain ⟨hbefore, rfl⟩ := hloop hclaimed
    exact h.queued hbefore

theorem Inv.claim (h : Inv s) (n : ℕ) : Inv
    { s with loop := .processing n, snapshot := s.store.deliveries, freshlyQueued := [] } where
  counted := h.counted
  seen _ _ hd := hd
  queued _ hne := absurd rfl hne

theorem Inv.ingest (h : Inv s) {store : Ingestion.State π}
    (hcounted : ∀ t tx, store.txs t = .running tx → Counted tx)
    (hdeliveries : ∀ delivery ∈ store.deliveries, delivery ∈ s.store.deliveries) :
    Inv { s with store } where
  counted := hcounted
  seen hnil delivery hd := h.seen hnil delivery (hdeliveries delivery hd)
  queued := h.queued

/-- The commit of a request. If it has queued a delivery, it has executed `NOTIFY`. -/
theorem Inv.commit (h : Inv s) {store : Ingestion.State π} {t : Tid} {tx : Tx π}
    (ht : s.store.txs t = .running tx) (hnotify : queuedCount tx = 0 ∨ t ∈ s.notified)
    (hcounted : ∀ t tx, store.txs t = .running tx → Counted tx)
    (hdeliveries : ∀ delivery ∈ store.deliveries,
      delivery ∈ s.store.deliveries ∨ delivery ∈ tx.deliveries) : Inv (s.commit store t tx) := by
  by_cases hnil : tx.deliveries = []
  · refine ⟨hcounted, fun hfresh delivery hd => ?_, fun hclaimed hfresh => ?_⟩
    · simp only [State.commit, if_pos hnil] at hfresh ⊢
      refine h.seen hfresh delivery ((hdeliveries delivery hd).resolve_right ?_)
      rw [hnil]
      exact List.not_mem_nil
    · simp only [State.commit, if_pos hnil] at hclaimed hfresh ⊢
      have hqueued := h.queued hclaimed hfresh
      split_ifs
      · cases hconn : s.listenConn <;> simp
      · exact hqueued
  · have hnotified : t ∈ s.notified :=
      hnotify.resolve_left ((h.counted t tx ht).queuedCount_pos hnil).ne'
    refine ⟨hcounted, fun hfresh => ?_, fun _ _ => ?_⟩
    · simp only [State.commit, if_neg hnil] at hfresh
      exact absurd hfresh (List.append_ne_nil_of_right_ne_nil _ (List.cons_ne_nil _ _))
    · simp only [State.commit, if_pos hnotified]
      cases hconn : s.listenConn <;> simp

theorem Inv.stepIngest (h : Inv s) {a : Ingestion.Act π}
    (hs : stepIngest bodyHash a s = some s') : Inv s' := by
  obtain ⟨store, hstore, hs⟩ := Option.bind_eq_some_iff.1 hs
  have hmove := move_of_step hstore
  have hcounted := counted_move hmove h.counted
  split at hs
  · rename_i t tx _ ht
    obtain ⟨hnotify, ⟨⟩⟩ := Option.ite_none_right_eq_some.1 hs
    refine h.commit ht hnotify hcounted fun delivery hd => ?_
    refine (mem_deliveries_of_move hmove hd).imp_right ?_
    rintro ⟨t', tx', ⟨⟩, ht', hd⟩
    obtain rfl : tx = tx' := TxState.running.inj (ht.symm.trans ht')
    exact hd
  · rename_i hother
    obtain rfl := Option.some.inj hs
    refine h.ingest hcounted fun delivery hd => ?_
    refine (mem_deliveries_of_move hmove hd).resolve_right ?_
    rintro ⟨t, tx, rfl, ht, -⟩
    exact hother t tx rfl ht

theorem Inv.stepNotify (h : Inv s) {t : Tid} (hs : stepNotify t s = some s') : Inv s' := by
  unfold Wakeup.stepNotify at hs
  split at hs
  · split at hs
    · obtain ⟨-, ⟨⟩⟩ := Option.ite_none_right_eq_some.1 hs
      exact ⟨h.counted, h.seen, h.queued⟩
    · cases hs
  · cases hs

theorem Inv.step (h : Inv s) {a : Act π} (hs : step bodyHash a s = some s') : Inv s' := by
  cases a with
  | ingest a => exact h.stepIngest hs
  | notify t => exact h.stepNotify hs
  | connect opened =>
    simp only [Wakeup.step] at hs
    split at hs
    · obtain rfl := Option.some.inj hs
      exact h.loop nofun
    · obtain rfl := Option.some.inj hs
      exact h.loop nofun
    · cases hs
  | claim n =>
    simp only [Wakeup.step] at hs
    split at hs
    · obtain rfl := Option.some.inj hs
      exact h.claim n
    · cases hs
  | processed =>
    simp only [Wakeup.step] at hs
    split at hs
    · rename_i hloop
      obtain rfl := Option.some.inj hs
      exact h.loop fun _ => ⟨by rw [hloop]; rfl, rfl⟩
    · obtain rfl := Option.some.inj hs
      exact h.loop nofun
    · cases hs
  | wait =>
    simp only [Wakeup.step] at hs
    split at hs
    · rename_i hloop _
      obtain rfl := Option.some.inj hs
      exact h.loop fun _ => ⟨by rw [hloop]; rfl, rfl⟩
    · obtain rfl := Option.some.inj hs
      exact h.loop nofun
    · cases hs
  | wake discarded | timeout discarded =>
    simp only [Wakeup.step] at hs
    split at hs
    · obtain ⟨-, ⟨⟩⟩ := Option.ite_none_right_eq_some.1 hs
      exact h.loop nofun
    · cases hs
  | lost | slept =>
    simp only [Wakeup.step] at hs
    split at hs
    · obtain rfl := Option.some.inj hs
      exact h.loop nofun
    · cases hs

end Steps

theorem inv_of_reachable {s : State π} (h : (wakeup bodyHash).Reachable s) : Inv s :=
  h.invariant inv_init fun _ _ _ h hs => h.step hs

/-! ## No lost wake-up -/

/-- **A loop that waits has missed no delivery.** Whenever it is about to wait or waits, with an
open connection and no notification queued on it, no transaction that queued a delivery has
committed since its last claim query, and every delivery was there for the query to see. -/
theorem awake {s : State π} (h : (wakeup bodyHash).Reachable s)
    (hloop : s.loop = .idle ∨ s.loop = .waiting) (hqueue : s.listenConn = some 0) :
    s.freshlyQueued = [] ∧ ∀ delivery ∈ s.store.deliveries, delivery ∈ s.snapshot := by
  have hinv := inv_of_reachable h
  have hclaimed : s.loop.hasClaimed = true := by
    rcases hloop with hloop | hloop <;> rw [hloop] <;> rfl
  have hfresh : s.freshlyQueued = [] := by
    by_contra hne
    exact hinv.queued hclaimed hne hqueue
  exact ⟨hfresh, hinv.seen hfresh⟩

/-- A request is ingested while the loop waits: it is woken up, and waits again. -/
def nap : List (Act Bool) :=
  [.ingest (.createEndpoint 0 subscriber), .ingest (.commit 0), .connect true, .claim 0,
    .processed, .wait, .ingest (.lookup 1 (order true)), .ingest (.fanOut 1 0 11),
    .ingest (.insertEvent 1), .ingest (.insertDelivery 1), .ingest (.insertRecord 1), .notify 1,
    .ingest (.commit 1), .wake 1, .connect true, .claim 1, .processed, .connect true, .claim 0,
    .processed, .wait]

theorem awake_nap : ∃ s : State Bool, (wakeup payloadHash).Reachable s ∧ s.loop = .waiting ∧
    s.store.deliveries ≠ [] ∧ ∀ delivery ∈ s.store.deliveries, delivery ∈ s.snapshot := by
  have hrun : ((wakeup payloadHash).run nap init).map (fun s => decide (s.loop = .waiting) &&
      decide (s.listenConn = some 0) && decide (s.store.deliveries ≠ [])) = some true := by
    decide +kernel
  obtain ⟨s, hs, hp⟩ := Machine.exists_reachable_of_run (fun _ _ => True) (fun _ _ _ => trivial)
    hrun
  simp only [Bool.and_eq_true, decide_eq_true_eq] at hp
  obtain ⟨⟨hloop, hqueue⟩, hdeliveries⟩ := hp
  exact ⟨s, hs, hloop, hdeliveries, (awake hs (.inr hloop) hqueue).2⟩

end Hookit.Wakeup
