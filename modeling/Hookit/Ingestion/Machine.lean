import Hookit.Foundations.Machine
import Hookit.Foundations.Table
import Hookit.Models

/-!
# `app/services/event_ingestion.py`

Any number of concurrent `ingest_event` transactions beside the creation, the update and the
deletion of endpoints (`app/routers/endpoints.py`), one action a statement.

* `lookup` is the first `SELECT` of the idempotency record, `fanOut` the `SELECT` of the active
  endpoints. What follows is the flush inside the savepoint: the event, then its deliveries and the
  record, which nothing orders among themselves.
* An insert into the unique index of the records waits while another transaction has an uncommitted
  record with the key, and fails if there is a committed one. An insert of a delivery checks the
  foreign key: it waits while the deletion of the endpoint is uncommitted, fails if the endpoint is
  gone, and else keeps a share lock on the endpoint that a deletion waits for.
* An insert that fails raises `IntegrityError`. A request with a key rolls back to the savepoint,
  which nothing was inserted before, and reads the record again (`reread`); one without a key lets
  the exception out.

The body hash is a parameter: nothing here depends on how it is computed.

`drawn` and `left` are history variables: which transaction has drawn an event id, and the rows that
a transaction has left behind by its commit.
-/

namespace Hookit.Ingestion

open Foundations

abbrev Tid := ℕ

/-- The columns of `uq_idempotency_records_project_key`. -/
abbrev RecordKey := ProjectId × PyStr

/-- The arguments of `ingest_event`. -/
structure Call (π : Type) where
  projectId : ProjectId
  eventType : PyStr
  payload : π
  idempotencyKey : Option PyStr
  deriving DecidableEq

/-- What `ingest_event` has computed before its inserts. -/
structure Plan where
  eventId : EventId
  now : Time
  activeEndpoints : List EndpointId
  deriving DecidableEq

/-- How a request ends. -/
inductive Response
  | created (eventId : EventId) (queuedDeliveries : ℕ)
  /-- `409` -/
  | conflict
  /-- An exception that nothing catches. -/
  | error
  deriving DecidableEq

/-- The response to a request whose key has a record. -/
def replay (record : IdempotencyRecord) (requestHash : PyStr) : Response :=
  if record.requestHash ≠ requestHash then .conflict
  else .created record.eventId record.queuedDeliveries

section Rows

variable {π : Type} (bodyHash : PyStr → π → PyStr)

namespace Call

/-- The key of the request's record. -/
def key (call : Call π) : Option RecordKey :=
  call.idempotencyKey.map fun key => (call.projectId, key)

theorem key_eq_some_iff {call : Call π} {key : RecordKey} :
    call.key = some key ↔ call.projectId = key.1 ∧ call.idempotencyKey = some key.2 := by
  obtain ⟨projectId, k⟩ := key
  cases h : call.idempotencyKey <;> simp [Call.key, h]

/-- `request_hash`. -/
def requestHash (call : Call π) : PyStr := bodyHash call.eventType call.payload

/-- The `Event` that the request inserts. -/
def event (call : Call π) (plan : Plan) : Event π where
  id := plan.eventId
  projectId := call.projectId
  type := call.eventType
  payload := call.payload
  idempotencyKey := call.idempotencyKey

/-- The `IdempotencyRecord` that the request inserts. -/
def record (call : Call π) (plan : Plan) (key : PyStr) : IdempotencyRecord where
  projectId := call.projectId
  idempotencyKey := key
  eventId := plan.eventId
  queuedDeliveries := plan.activeEndpoints.length
  requestHash := call.requestHash bodyHash

end Call

/-- The `Delivery` to one of the endpoints. -/
def Plan.delivery (plan : Plan) (endpointId : EndpointId) : Delivery :=
  .new plan.eventId endpointId plan.now

end Rows

/-- Where `ingest_event` stands. -/
inductive Phase
  /-- The lookup has found no record, or there is no key. -/
  | looked
  /-- In the flush; still to insert are the event, the deliveries to the endpoints, the record. -/
  | inserting (plan : Plan) (event : Bool) (endpoints : List EndpointId) (record : Bool)
  /-- After `nested.rollback()`. -/
  | violated
  /-- With the response from a record. -/
  | returned (response : Response)
  deriving DecidableEq

/-- An open `ingest_event` transaction with the rows that it has inserted. -/
structure Tx (π : Type) where
  call : Call π
  phase : Phase
  events : List (Event π)
  deliveries : List Delivery
  deriving DecidableEq

inductive TxState (π : Type)
  | unused
  | running (tx : Tx π)
  /-- An edit of the endpoints, with the endpoint it deletes. -/
  | editing (deleted : Option EndpointId)
  | answered (call : Call π) (response : Response)
  /-- Rolled back without an answer, or the end of an edit. -/
  | ended
  deriving DecidableEq

structure State (π : Type) where
  endpoints : Table Tid EndpointId Endpoint
  /-- The endpoint ids in use, in the order of their creation. -/
  endpointIds : List EndpointId
  records : Table Tid RecordKey IdempotencyRecord
  /-- The committed events. -/
  events : List (Event π)
  /-- The committed deliveries. -/
  deliveries : List Delivery
  /-- The share locks of the foreign key checks. -/
  shares : List (Tid × EndpointId)
  txs : Tid → TxState π
  drawn : EventId → Option Tid
  left : Tid → List (Event π) × List Delivery

variable {π : Type}

def init : State π where
  endpoints := .empty
  endpointIds := []
  records := .empty
  events := []
  deliveries := []
  shares := []
  txs _ := .unused
  drawn _ := none
  left _ := ([], [])

namespace State

/-- The query for the active endpoints of the project that are subscribed to the type. -/
def fanOut (s : State π) (projectId : ProjectId) (eventType : PyStr) : List EndpointId :=
  s.endpointIds.filter fun endpointId => (s.endpoints.rows endpointId).any fun endpoint =>
    endpoint.projectId = projectId ∧ endpoint.status = .active ∧ eventType ∈ endpoint.eventTypes

def put (s : State π) (t : Tid) (tx : Tx π) : State π :=
  { s with txs := Function.update s.txs t (.running tx) }

/-- Roll back, and leave the transaction in the given state. -/
def rollback (s : State π) (t : Tid) (tx : TxState π) : State π :=
  { s with
    endpoints := s.endpoints.rollback t
    records := s.records.rollback t
    shares := s.shares.filter fun share => share.1 ≠ t
    txs := Function.update s.txs t tx }

/-- The commit of a request that has inserted its rows. -/
def commit (s : State π) (t : Tid) (tx : Tx π) (response : Response) : State π :=
  { s with
    records := s.records.commit t
    events := s.events ++ tx.events
    deliveries := s.deliveries ++ tx.deliveries
    shares := s.shares.filter fun share => share.1 ≠ t
    txs := Function.update s.txs t (.answered tx.call response)
    left := Function.update s.left t (tx.events, tx.deliveries) }

/-- The commit of an edit. A deletion cascades to the deliveries of the endpoint. -/
def commitEdit (s : State π) (t : Tid) (deleted : Option EndpointId) : State π :=
  { s with
    endpoints := s.endpoints.commit t
    deliveries := s.deliveries.filter fun delivery => deleted ≠ some delivery.endpointId
    txs := Function.update s.txs t .ended }

/-- The `IntegrityError` of an insert. -/
def violate (s : State π) (t : Tid) (tx : Tx π) : State π :=
  match tx.call.idempotencyKey with
  | some _ => s.rollback t (.running ⟨tx.call, .violated, [], []⟩)
  | none => s.rollback t (.answered tx.call .error)

end State

inductive Act (π : Type)
  | lookup (t : Tid) (call : Call π)
  | fanOut (t : Tid) (now : Time) (eventId : EventId)
  | insertEvent (t : Tid)
  | insertDelivery (t : Tid)
  | insertRecord (t : Tid)
  | reread (t : Tid)
  | createEndpoint (t : Tid) (endpoint : Endpoint)
  | updateEndpoint (t : Tid) (endpoint : Endpoint)
  | deleteEndpoint (t : Tid) (endpointId : EndpointId)
  | commit (t : Tid)
  | abort (t : Tid)

variable (bodyHash : PyStr → π → PyStr)

/-- The first statements of a transaction. -/
def stepNew (t : Tid) : Act π → State π → Option (State π)
  | .lookup _ call, s =>
    match call.key.bind (s.records.visible t) with
    | some record =>
      some (s.put t ⟨call, .returned (replay record (call.requestHash bodyHash)), [], []⟩)
    | none => some (s.put t ⟨call, .looked, [], []⟩)
  | .createEndpoint _ endpoint, s =>
    -- the primary key is a fresh UUID
    if endpoint.id ∉ s.endpointIds ∧ s.endpoints.held endpoint.id = none ∧
        s.endpoints.rows endpoint.id = none then
      some
        { s with
          endpoints := s.endpoints.write t endpoint.id (some endpoint)
          endpointIds := s.endpointIds ++ [endpoint.id]
          txs := Function.update s.txs t (.editing none) }
    else none
  | .updateEndpoint _ endpoint, s =>
    match s.endpoints.visible t endpoint.id with
    | some row =>
      if s.endpoints.free t endpoint.id = true ∧ endpoint.projectId = row.projectId then
        some
          { s with
            endpoints := s.endpoints.write t endpoint.id (some endpoint)
            txs := Function.update s.txs t (.editing none) }
      else none
    | none => none
  | .deleteEndpoint _ endpointId, s =>
    match s.endpoints.visible t endpointId with
    | some _ =>
      if s.endpoints.free t endpointId = true ∧ ∀ share ∈ s.shares, share.2 ≠ endpointId then
        some
          { s with
            endpoints := s.endpoints.write t endpointId none
            txs := Function.update s.txs t (.editing (some endpointId)) }
      else none
    | none => none
  | _, _ => none

/-- The statements of a request after the first. -/
def stepTx (t : Tid) (tx : Tx π) : Act π → State π → Option (State π)
  | .fanOut _ now eventId, s =>
    match tx.phase with
    | .looked =>
      -- the event id is a fresh UUID
      if s.drawn eventId = none then
        let activeEndpoints := s.fanOut tx.call.projectId tx.call.eventType
        some
          { s.put t { tx with
              phase := .inserting ⟨eventId, now, activeEndpoints⟩ true activeEndpoints
                tx.call.idempotencyKey.isSome } with
            drawn := Function.update s.drawn eventId (some t) }
      else none
    | _ => none
  | .insertEvent _, s =>
    match tx.phase with
    | .inserting plan true endpoints record =>
      some (s.put t { tx with
        phase := .inserting plan false endpoints record
        events := tx.events ++ [tx.call.event plan] })
    | _ => none
  | .insertDelivery _, s =>
    match tx.phase with
    | .inserting plan false (endpointId :: endpoints) record =>
      match s.endpoints.held endpointId with
      -- an uncommitted deletion
      | some (_, none) => none
      | _ =>
        match s.endpoints.rows endpointId with
        | some _ =>
          some
            { s.put t { tx with
                phase := .inserting plan false endpoints record
                deliveries := tx.deliveries ++ [plan.delivery endpointId] } with
              shares := s.shares ++ [(t, endpointId)] }
        | none => some (s.violate t tx)
    | _ => none
  | .insertRecord _, s =>
    match tx.phase, tx.call.idempotencyKey with
    | .inserting plan false endpoints true, some key =>
      if s.records.free t (tx.call.projectId, key) then
        match s.records.visible t (tx.call.projectId, key) with
        | some _ => some (s.violate t tx)
        | none =>
          some
            { s.put t { tx with phase := .inserting plan false endpoints false } with
              records := s.records.write t (tx.call.projectId, key)
                (some (tx.call.record bodyHash plan key)) }
      else none
    | _, _ => none
  | .reread _, s =>
    match tx.phase with
    | .violated =>
      match tx.call.key.bind (s.records.visible t) with
      | some record =>
        some (s.put t { tx with
          phase := .returned (replay record (tx.call.requestHash bodyHash)) })
      -- `scalar_one` raises
      | none => some (s.rollback t (.answered tx.call .error))
    | _ => none
  | .commit _, s =>
    match tx.phase with
    | .inserting plan false [] false =>
      some (s.commit t tx (.created plan.eventId plan.activeEndpoints.length))
    | .returned response => some (s.rollback t (.answered tx.call response))
    | _ => none
  | .abort _, s => some (s.rollback t .ended)
  | _, _ => none

/-- The end of an edit. -/
def stepEdit (t : Tid) (deleted : Option EndpointId) : Act π → State π → Option (State π)
  | .commit _, s => some (s.commitEdit t deleted)
  | .abort _, s => some (s.rollback t .ended)
  | _, _ => none

def Act.tid : Act π → Tid
  | .lookup t _ | .fanOut t _ _ | .insertEvent t | .insertDelivery t | .insertRecord t
  | .reread t | .createEndpoint t _ | .updateEndpoint t _ | .deleteEndpoint t _ | .commit t
  | .abort t => t

def step (a : Act π) (s : State π) : Option (State π) :=
  match s.txs a.tid with
  | .unused => stepNew bodyHash a.tid a s
  | .running tx => stepTx bodyHash a.tid tx a s
  | .editing deleted => stepEdit a.tid deleted a s
  | .answered _ _ | .ended => none

/-- The tables of the events with their transactions. -/
def ingestion : Machine (State π) (Act π) where
  init := init
  step := step bodyHash

/-! ## Moves -/

/-- The outcomes of a step. -/
inductive Move : Act π → State π → State π → Prop
  | hit {s : State π} {t : Tid} {call : Call π} {key : RecordKey} {record : IdempotencyRecord}
      (ht : s.txs t = .unused) (hkey : call.key = some key)
      (hrow : s.records.visible t key = some record) :
      Move (.lookup t call) s
        (s.put t ⟨call, .returned (replay record (call.requestHash bodyHash)), [], []⟩)
  | miss {s : State π} {t : Tid} {call : Call π} (ht : s.txs t = .unused) :
      Move (.lookup t call) s (s.put t ⟨call, .looked, [], []⟩)
  | fanOut {s : State π} {t : Tid} {tx : Tx π} {now : Time} {eventId : EventId}
      (ht : s.txs t = .running tx) (hphase : tx.phase = .looked) (hid : s.drawn eventId = none) :
      Move (.fanOut t now eventId) s
        { s.put t { tx with
            phase := .inserting ⟨eventId, now, s.fanOut tx.call.projectId tx.call.eventType⟩ true
              (s.fanOut tx.call.projectId tx.call.eventType) tx.call.idempotencyKey.isSome } with
          drawn := Function.update s.drawn eventId (some t) }
  | event {s : State π} {t : Tid} {tx : Tx π} {plan : Plan} {endpoints : List EndpointId}
      {record : Bool} (ht : s.txs t = .running tx)
      (hphase : tx.phase = .inserting plan true endpoints record) :
      Move (.insertEvent t) s (s.put t { tx with
        phase := .inserting plan false endpoints record
        events := tx.events ++ [tx.call.event plan] })
  | delivery {s : State π} {t : Tid} {tx : Tx π} {plan : Plan} {endpointId : EndpointId}
      {endpoints : List EndpointId} {record : Bool} (ht : s.txs t = .running tx)
      (hphase : tx.phase = .inserting plan false (endpointId :: endpoints) record) :
      Move (.insertDelivery t) s
        { s.put t { tx with
            phase := .inserting plan false endpoints record
            deliveries := tx.deliveries ++ [plan.delivery endpointId] } with
          shares := s.shares ++ [(t, endpointId)] }
  | record {s : State π} {t : Tid} {tx : Tx π} {plan : Plan} {endpoints : List EndpointId}
      {key : PyStr} (ht : s.txs t = .running tx)
      (hphase : tx.phase = .inserting plan false endpoints true)
      (hkey : tx.call.idempotencyKey = some key)
      (hfree : s.records.free t (tx.call.projectId, key) = true)
      (hrow : s.records.visible t (tx.call.projectId, key) = none) :
      Move (.insertRecord t) s
        { s.put t { tx with phase := .inserting plan false endpoints false } with
          records := s.records.write t (tx.call.projectId, key)
            (some (tx.call.record bodyHash plan key)) }
  | orphan {s : State π} {t : Tid} {tx : Tx π} {plan : Plan} {endpointId : EndpointId}
      {endpoints : List EndpointId} {record : Bool} (ht : s.txs t = .running tx)
      (hphase : tx.phase = .inserting plan false (endpointId :: endpoints) record)
      (hrow : s.endpoints.rows endpointId = none) : Move (.insertDelivery t) s (s.violate t tx)
  | duplicate {s : State π} {t : Tid} {tx : Tx π} {plan : Plan} {endpoints : List EndpointId}
      {key : PyStr} {record : IdempotencyRecord} (ht : s.txs t = .running tx)
      (hphase : tx.phase = .inserting plan false endpoints true)
      (hkey : tx.call.idempotencyKey = some key)
      (hrow : s.records.visible t (tx.call.projectId, key) = some record) :
      Move (.insertRecord t) s (s.violate t tx)
  | reread {s : State π} {t : Tid} {tx : Tx π} {key : RecordKey} {record : IdempotencyRecord}
      (ht : s.txs t = .running tx) (hphase : tx.phase = .violated) (hkey : tx.call.key = some key)
      (hrow : s.records.visible t key = some record) :
      Move (.reread t) s
        (s.put t { tx with phase := .returned (replay record (tx.call.requestHash bodyHash)) })
  | lost {s : State π} {t : Tid} {tx : Tx π} (ht : s.txs t = .running tx)
      (hphase : tx.phase = .violated)
      (hrow : ∀ key, tx.call.key = some key → s.records.visible t key = none) :
      Move (.reread t) s (s.rollback t (.answered tx.call .error))
  | commit {s : State π} {t : Tid} {tx : Tx π} {plan : Plan} (ht : s.txs t = .running tx)
      (hphase : tx.phase = .inserting plan false [] false) :
      Move (.commit t) s (s.commit t tx (.created plan.eventId plan.activeEndpoints.length))
  | reply {s : State π} {t : Tid} {tx : Tx π} {response : Response} (ht : s.txs t = .running tx)
      (hphase : tx.phase = .returned response) :
      Move (.commit t) s (s.rollback t (.answered tx.call response))
  | edit {s : State π} {a : Act π} {endpointIds : List EndpointId} {endpointId : EndpointId}
      {row : Option Endpoint} {deleted : Option EndpointId} (ht : s.txs a.tid = .unused)
      (hfree : s.endpoints.free a.tid endpointId = true)
      (hdelete : row = none ∨ deleted ≠ none → a = .deleteEndpoint a.tid endpointId) :
      Move a s
        { s with
          endpoints := s.endpoints.write a.tid endpointId row
          endpointIds
          txs := Function.update s.txs a.tid (.editing deleted) }
  | edited {s : State π} {t : Tid} {deleted : Option EndpointId} (ht : s.txs t = .editing deleted) :
      Move (.commit t) s (s.commitEdit t deleted)
  | abort {s : State π} {t : Tid}
      (ht : (∃ tx, s.txs t = .running tx) ∨ ∃ deleted, s.txs t = .editing deleted) :
      Move (.abort t) s (s.rollback t .ended)

variable {bodyHash}

theorem move_of_stepNew {a : Act π} {s s' : State π} (ht : s.txs a.tid = .unused)
    (h : stepNew bodyHash a.tid a s = some s') : Move bodyHash a s s' := by
  cases a with
  | lookup t call =>
    simp only [stepNew] at h
    split at h <;> obtain rfl := Option.some.inj h
    · rename_i record hrecord
      obtain ⟨key, hkey, hrow⟩ := Option.bind_eq_some_iff.1 hrecord
      exact .hit ht hkey hrow
    · exact .miss ht
  | createEndpoint t endpoint =>
    obtain ⟨⟨-, hheld, -⟩, ⟨⟩⟩ := Option.ite_none_right_eq_some.1 h
    exact .edit (a := .createEndpoint t endpoint) ht (Table.free_iff.2 (.inl hheld)) (by simp)
  | updateEndpoint t endpoint =>
    simp only [stepNew] at h
    split at h
    · obtain ⟨⟨hfree, -⟩, ⟨⟩⟩ := Option.ite_none_right_eq_some.1 h
      exact .edit (a := .updateEndpoint t endpoint) ht hfree (by simp)
    · cases h
  | deleteEndpoint t endpointId =>
    simp only [stepNew] at h
    split at h
    · obtain ⟨⟨hfree, -⟩, ⟨⟩⟩ := Option.ite_none_right_eq_some.1 h
      exact .edit (a := .deleteEndpoint t endpointId) ht hfree
        fun _ => rfl
    · cases h
  | _ => cases h

theorem move_of_stepTx {a : Act π} {tx : Tx π} {s s' : State π} (ht : s.txs a.tid = .running tx)
    (h : stepTx bodyHash a.tid tx a s = some s') : Move bodyHash a s s' := by
  cases a with
  | fanOut t now eventId =>
    simp only [stepTx] at h
    split at h
    · obtain ⟨hid, ⟨⟩⟩ := Option.ite_none_right_eq_some.1 h
      exact .fanOut ht ‹_› hid
    · cases h
  | insertEvent t =>
    simp only [stepTx] at h
    split at h
    · obtain rfl := Option.some.inj h
      exact .event ht ‹_›
    · cases h
  | insertDelivery t =>
    simp only [stepTx] at h
    split at h
    · split at h
      · cases h
      · split at h <;> obtain rfl := Option.some.inj h
        · exact .delivery ht ‹_›
        · exact .orphan ht ‹_› ‹_›
    · cases h
  | insertRecord t =>
    simp only [stepTx] at h
    split at h
    · obtain ⟨hfree, h⟩ := Option.ite_none_right_eq_some.1 h
      split at h <;> obtain rfl := Option.some.inj h
      · exact .duplicate ht ‹_› ‹_› ‹_›
      · exact .record ht ‹_› ‹_› hfree ‹_›
    · cases h
  | reread t =>
    simp only [stepTx] at h
    split at h
    · split at h <;> obtain rfl := Option.some.inj h
      · rename_i record hrecord
        obtain ⟨key, hkey, hrow⟩ := Option.bind_eq_some_iff.1 hrecord
        exact .reread ht ‹_› hkey hrow
      · rename_i hnone
        refine .lost ht ‹_› fun key hkey => ?_
        rw [hkey] at hnone
        exact hnone
    · cases h
  | commit t =>
    simp only [stepTx] at h
    split at h
    · obtain rfl := Option.some.inj h
      exact .commit ht ‹_›
    · obtain rfl := Option.some.inj h
      exact .reply ht ‹_›
    · cases h
  | abort t =>
    obtain rfl := Option.some.inj h
    exact .abort (.inl ⟨tx, ht⟩)
  | _ => cases h

/-- **Every step is a move.** -/
theorem move_of_step {a : Act π} {s s' : State π} (h : step bodyHash a s = some s') :
    Move bodyHash a s s' := by
  unfold step at h
  split at h
  · exact move_of_stepNew ‹_› h
  · exact move_of_stepTx ‹_› h
  · rename_i deleted ht
    cases a with
    | commit t =>
      obtain rfl := Option.some.inj h
      exact .edited ht
    | abort t =>
      obtain rfl := Option.some.inj h
      exact .abort (.inr ⟨deleted, ht⟩)
    | _ => cases h
  · cases h
  · cases h

end Hookit.Ingestion
