import Hookit.Foundations.Machine
import Hookit.Foundations.Newest
import Hookit.Foundations.Table
import Hookit.Services.Inbox

/-!
# Concurrent requests at the receivers

Any number of transactions around `record_received_request`, one action a statement: the `INSERT` of
the flush, the `SELECT` of the stale ids, the `DELETE` and the commit. A statement sees the committed
rows and those of its own transaction; a `DELETE` skips rows that are gone and waits for rows that
another transaction has deleted and not yet committed.

`log` is a history variable: the rows of the committed transactions, in commit order. A row keeps
its key for ever, and `ids` lists the keys that have been used.

Each transaction prunes by what its `SELECT` saw. `inbox_newest`: as long as no transaction comes
too late (`Late`), every inbox holds the newest twenty of all requests that were committed for the
endpoint. `not_newest_of_late`: one that does leaves a row too many, and `not_inbox_newest` is a run
in which it happens.
-/

namespace Hookit.LiveTail

open Foundations Newest

abbrev Tid := ℕ

/-- A row with its id. -/
abbrev Received := Uuid × ReceivedRow

/-- The last statement of `record_received_request` that has been executed. -/
inductive Phase
  | inserted
  /-- After the `SELECT`, which saw the rows `seen`, newest first. -/
  | selected (seen : List Received)
  | deleted (seen : List Received)

/-- An open transaction, with the row that it has inserted. -/
structure Tx where
  own : Received
  phase : Phase

inductive TxState
  | unused
  | running (tx : Tx)
  | committed
  | rolledBack

structure State where
  requests : Table Tid Uuid ReceivedRow
  ids : List Uuid
  txs : Tid → TxState
  log : List Received

def init : State where
  requests := .empty
  ids := []
  txs _ := .unused
  log := []

/-- `stale_ids`: the rows of the endpoint past the first `_INBOX_KEEP`. -/
def staleIds (seen : List Received) : List Uuid := (seen.drop inboxKeep).map Prod.fst

/-- The rows of an endpoint, newest first. -/
def newestFirst (rows : List Received) (endpointId : Uuid) : List Received :=
  Keyset.below inboxKey (rows.filter fun r => r.2.endpointId = endpointId) none

namespace State

variable (s : State)

/-- The rows that a statement of transaction `t` sees. -/
def visible (t : Tid) : List Received :=
  s.ids.filterMap fun id => (s.requests.visible t id).map fun row => (id, row)

/-- The committed rows. -/
def committed : List Received :=
  s.ids.filterMap fun id => (s.requests.rows id).map fun row => (id, row)

/-- The committed inbox of an endpoint, newest first. -/
def inbox (endpointId : Uuid) : List Received := newestFirst s.committed endpointId

/-- All requests that were committed for an endpoint, newest first. -/
def received (endpointId : Uuid) : List Received := newestFirst s.log endpointId

def put (t : Tid) (requests : Table Tid Uuid ReceivedRow) (ids : List Uuid) (tx : Tx) : State :=
  { s with requests, ids, txs := Function.update s.txs t (.running tx) }

def commit (t : Tid) (tx : Tx) : State :=
  { s with
    requests := s.requests.commit t
    txs := Function.update s.txs t .committed
    log := s.log ++ [tx.own] }

def rollback (t : Tid) : State :=
  { s with
    requests := s.requests.rollback t
    txs := Function.update s.txs t .rolledBack }

end State

inductive Act
  | insert (t : Tid) (id : Uuid) (row : ReceivedRow)
  | select (t : Tid)
  | delete (t : Tid)
  | commit (t : Tid)
  | rollback (t : Tid)

def Act.tid : Act → Tid
  | .insert t _ _ | .select t | .delete t | .commit t | .rollback t => t

/-- The statements of a transaction after the first. -/
def stepTx (t : Tid) (tx : Tx) : Act → State → Option State
  | .select _, s =>
    match tx.phase with
    | .inserted =>
      some (s.put t s.requests s.ids
        { tx with phase := .selected (newestFirst (s.visible t) tx.own.2.endpointId) })
    | _ => none
  | .delete _, s =>
    match tx.phase with
    | .selected seen =>
      if staleIds seen ≠ [] ∧ (staleIds seen).all (fun id =>
          (s.requests.visible t id).isNone || s.requests.free t id) = true then
        some (s.put t (s.requests.deleteAll t (staleIds seen)) s.ids
          { tx with phase := .deleted seen })
      else none
    | _ => none
  | .commit _, s =>
    match tx.phase with
    | .inserted => none
    | .selected seen => if staleIds seen = [] then some (s.commit t tx) else none
    | .deleted _ => some (s.commit t tx)
  | .rollback _, s => some (s.rollback t)
  | .insert _ _ _, _ => none

def step (a : Act) (s : State) : Option State :=
  match s.txs a.tid with
  | .unused =>
    match a with
    | .insert t id row =>
      -- the primary key is a fresh UUID
      if s.ids.all (fun id' => id' ≠ id) = true then
        if StorableReceived row.cut then
          some (s.put t (s.requests.write t id (some row.cut)) (s.ids ++ [id])
            ⟨(id, row.cut), .inserted⟩)
        else some (s.rollback t)
      else none
    | _ => none
  | .running tx => stepTx a.tid tx a s
  | .committed | .rolledBack => none

/-- The table of the received requests with its transactions. -/
def receivers : Machine State Act where
  init := init
  step := step

/-! ## Moves -/

/-- What the `SELECT` of the transaction saw. -/
def Phase.seen? : Phase → Option (List Received)
  | .inserted => none
  | .selected seen => some seen
  | .deleted seen => some seen

/-- The ids that the transaction has deleted. -/
def Phase.gone : Phase → List Uuid
  | .deleted seen => staleIds seen
  | _ => []

/-- The outcomes of a step. -/
inductive Move : Act → State → State → Prop
  | insert {s : State} {t : Tid} {id : Uuid} {row : ReceivedRow} (ht : s.txs t = .unused)
      (hfresh : id ∉ s.ids) :
      Move (.insert t id row) s
        (s.put t (s.requests.write t id (some row.cut)) (s.ids ++ [id])
          ⟨(id, row.cut), .inserted⟩)
  | select {s : State} {t : Tid} {tx : Tx} (ht : s.txs t = .running tx)
      (hphase : tx.phase = .inserted) :
      Move (.select t) s (s.put t s.requests s.ids
        { tx with phase := .selected (newestFirst (s.visible t) tx.own.2.endpointId) })
  | delete {s : State} {t : Tid} {tx : Tx} {seen : List Received} (ht : s.txs t = .running tx)
      (hphase : tx.phase = .selected seen)
      (hfree : ∀ id ∈ staleIds seen, (s.requests.visible t id).isSome = true →
        s.requests.free t id = true) :
      Move (.delete t) s
        (s.put t (s.requests.deleteAll t (staleIds seen)) s.ids
          { tx with phase := .deleted seen })
  | commit {s : State} {t : Tid} {tx : Tx} {seen : List Received} (ht : s.txs t = .running tx)
      (hseen : tx.phase.seen? = some seen) (hgone : tx.phase.gone = staleIds seen) :
      Move (.commit t) s (s.commit t tx)
  | rollback {s : State} {a : Act} (hcommit : ∀ t, a ≠ .commit t) : Move a s (s.rollback a.tid)

/-- **Every step is a move.** -/
theorem move_of_step {a : Act} {s s' : State} (h : step a s = some s') : Move a s s' := by
  unfold step at h
  split at h
  · rename_i ht
    split at h
    · rename_i t id row
      obtain ⟨hfresh, h⟩ := Option.ite_none_right_eq_some.1 h
      have hfresh' : id ∉ s.ids := fun hmem => by
        simpa using List.all_eq_true.1 hfresh id hmem
      split_ifs at h with hstorable <;> obtain rfl := Option.some.inj h
      · exact .insert ht hfresh'
      · exact @Move.rollback s (.insert t id row) fun _ heq => by cases heq
    · cases h
  · rename_i tx ht
    cases a with
    | insert t id row => cases h
    | select t =>
      simp only [stepTx] at h
      split at h
      · obtain rfl := Option.some.inj h
        exact .select ht ‹_›
      · cases h
    | delete t =>
      simp only [stepTx] at h
      split at h
      · obtain ⟨⟨-, hall⟩, ⟨⟩⟩ := Option.ite_none_right_eq_some.1 h
        refine .delete ht ‹_› fun id hid hsome => ?_
        have := List.all_eq_true.1 hall id hid
        rw [Bool.or_eq_true] at this
        refine this.resolve_left fun hnone => ?_
        have hnone' : s.requests.visible t id = none := Option.isNone_iff_eq_none.1 hnone
        rw [hnone'] at hsome
        cases hsome
      · cases h
    | commit t =>
      simp only [stepTx] at h
      split at h
      · cases h
      · rename_i seen hphase
        obtain ⟨hstale, ⟨⟩⟩ := Option.ite_none_right_eq_some.1 h
        exact .commit ht (by rw [hphase]; rfl) (by rw [hphase, hstale]; rfl)
      · rename_i seen hphase
        obtain rfl := Option.some.inj h
        exact .commit ht (by rw [hphase]; rfl) (by rw [hphase]; rfl)
    | rollback t =>
      obtain rfl := Option.some.inj h
      exact @Move.rollback s (.rollback t) fun _ heq => by cases heq
  · cases h
  · cases h

/-! ## The invariant -/

/-- What the `SELECT` of transaction `tx` saw. -/
structure SeenInv (s : State) (tx : Tx) (seen : List Received) : Prop where
  decreasing : (seen.map inboxKey).Pairwise (· > ·)
  own : tx.own ∈ seen
  endpoint : ∀ r ∈ seen, r.2.endpointId = tx.own.2.endpointId
  logged : ∀ r ∈ seen, r = tx.own ∨ r ∈ s.log

/-- What holds of an open transaction. -/
structure TxInv (s : State) (t : Tid) (tx : Tx) : Prop where
  used : tx.own.1 ∈ s.ids
  fresh : tx.own.1 ∉ s.log.map Prod.fst
  own : s.requests.Holds t tx.own.1
  holds : ∀ id, s.requests.Holds t id → id = tx.own.1 ∨ id ∈ tx.phase.gone
  /-- It sees the committed rows and its own, less what it has deleted. -/
  visible : ∀ id, s.requests.visible t id =
    if id ∈ tx.phase.gone then none
    else if id = tx.own.1 then some tx.own.2 else s.requests.rows id
  seen : ∀ seen, tx.phase.seen? = some seen → SeenInv s tx seen

/-- The invariant of the table. -/
structure Inv (s : State) : Prop where
  ids : s.ids.Nodup
  used : ∀ id ∈ s.log.map Prod.fst, id ∈ s.ids
  logged : (s.log.map Prod.fst).Nodup
  rows : ∀ id row, s.requests.rows id = some row → (id, row) ∈ s.log
  held : ∀ id t v, s.requests.held id = some (t, v) → ∃ tx, s.txs t = .running tx
  running : ∀ t tx, s.txs t = .running tx → TxInv s t tx

/-- The committed rows are those of all requests with fewer than twenty newer ones for their
endpoint. -/
def Newest (s : State) : Prop := ∀ id row, s.requests.rows id = some row ↔ (id, row) ∈ s.log ∧
  newer inboxKey (s.log.filter fun r => r.2.endpointId = row.endpointId) (inboxKey (id, row)) <
    inboxKeep

theorem running_put {s : State} {t t' : Tid} {tx tx' : Tx}
    {requests : Table Tid Uuid ReceivedRow} {ids : List Uuid} :
    (s.put t requests ids tx).txs t' = .running tx' ↔
      (t' = t ∧ tx = tx') ∨ (t' ≠ t ∧ s.txs t' = .running tx') := by
  simp [State.put, update_apply_eq_iff]

section Lists

variable {s : State} (hinv : Inv s)
include hinv

theorem Inv.eq_of_logged {id : Uuid} {row row' : ReceivedRow} (h : (id, row) ∈ s.log)
    (h' : (id, row') ∈ s.log) : row = row' :=
  (Prod.mk.inj (List.inj_on_of_nodup_map hinv.logged h h' rfl)).2

theorem Inv.mem_ids {id : Uuid} {row : ReceivedRow} (h : s.requests.rows id = some row) :
    id ∈ s.ids :=
  hinv.used id (List.mem_map_of_mem (hinv.rows id row h))

theorem Inv.mem_committed {id : Uuid} {row : ReceivedRow} :
    (id, row) ∈ s.committed ↔ s.requests.rows id = some row := by
  simp only [State.committed, List.mem_filterMap, Option.map_eq_some_iff, Prod.mk.injEq]
  constructor
  · rintro ⟨id', -, row', hrow, rfl, rfl⟩
    exact hrow
  · exact fun h => ⟨id, hinv.mem_ids h, row, h, rfl, rfl⟩

omit hinv in
/-- A list of rows by distinct ids has distinct keys. -/
theorem nodup_keys_filterMap {ids : List Uuid} (hids : ids.Nodup)
    (f : Uuid → Option ReceivedRow) :
    ((ids.filterMap fun id => (f id).map fun row => (id, row)).map inboxKey).Nodup := by
  refine List.Nodup.of_map (fun k => (ofLex k).2) ?_
  rw [List.map_map]
  refine hids.sublist ?_
  induction ids with
  | nil => exact .slnil
  | cons id ids ih =>
    cases h : f id with
    | none =>
      rw [List.filterMap_cons_none (by rw [h]; rfl)]
      exact (ih hids.of_cons).cons id
    | some row =>
      rw [List.filterMap_cons_some (by rw [h]; rfl)]
      exact (ih hids.of_cons).cons_cons id

theorem Inv.nodup_keys_log : (s.log.map inboxKey).Nodup := by
  refine List.Nodup.of_map (fun k => (ofLex k).2) ?_
  rw [List.map_map]
  exact hinv.logged

end Lists

/-! ## Steps -/

section Moves

variable {s s' : State} {t t' : Tid} {tx tx' : Tx}

/-- What is deleted was seen. -/
theorem TxInv.gone_cases (h : TxInv s t tx) {id : Uuid} (hid : id ∈ tx.phase.gone) :
    id = tx.own.1 ∨ ∃ row, (id, row) ∈ s.log ∧ row.endpointId = tx.own.2.endpointId := by
  cases hphase : tx.phase with
  | inserted => simp [hphase, Phase.gone] at hid
  | selected seen => simp [hphase, Phase.gone] at hid
  | deleted seen =>
    have hseen := h.seen seen (by rw [hphase]; rfl)
    rw [hphase] at hid
    obtain ⟨r, hr, rfl⟩ := List.mem_map.1 hid
    have hr := List.mem_of_mem_drop hr
    rcases hseen.logged r hr with rfl | hlog
    · exact .inl rfl
    · exact .inr ⟨r.2, hlog, hseen.endpoint r hr⟩

/-- Another transaction's step does not touch what transaction `t` depends on. -/
theorem TxInv.frame (h : TxInv s t tx) (hids : s.ids ⊆ s'.ids) (hlog : s.log ⊆ s'.log)
    (hfresh : tx.own.1 ∉ s'.log.map Prod.fst)
    (hholds : ∀ id, s'.requests.Holds t id ↔ s.requests.Holds t id)
    (hvisible : ∀ id, s'.requests.visible t id =
      if id ∈ tx.phase.gone then none
      else if id = tx.own.1 then some tx.own.2 else s'.requests.rows id) : TxInv s' t tx where
  used := hids h.used
  fresh := hfresh
  own := (hholds _).2 h.own
  holds id hid := h.holds id ((hholds id).1 hid)
  visible := hvisible
  seen seen hseen :=
    { h.seen seen hseen with
      logged := fun r hr => ((h.seen seen hseen).logged r hr).imp_right fun hmem => hlog hmem }

/-- **A statement of one transaction keeps the invariant** if it keeps the transaction's own. -/
theorem Inv.put (h : Inv s) {requests : Table Tid Uuid ReceivedRow}
    (hst : s.requests.Statement t requests) {ids : List Uuid} (hnodup : ids.Nodup)
    (hids : s.ids ⊆ ids) (htx : TxInv (s.put t requests ids tx) t tx) :
    Inv (s.put t requests ids tx) where
  ids := hnodup
  used id hid := hids (h.used id hid)
  logged := h.logged
  rows id row hrow := h.rows id row ((congrFun hst.rows id).symm.trans hrow)
  held id t' v hv := by
    rcases eq_or_ne t' t with rfl | hne
    · exact ⟨tx, running_put.2 (.inl ⟨rfl, rfl⟩)⟩
    · obtain ⟨tx', ht'⟩ := h.held id t' v ((hst.held_iff hne).1 hv)
      exact ⟨tx', running_put.2 (.inr ⟨hne, ht'⟩)⟩
  running t' tx' ht' := by
    rcases running_put.1 ht' with ⟨rfl, rfl⟩ | ⟨hne, ht'⟩
    · exact htx
    · have h' := h.running t' tx' ht'
      refine h'.frame hids (List.Subset.refl _) h'.fresh
        (fun id => exists_congr fun v => hst.held_iff hne) fun id => ?_
      refine (hst.visible_eq hne).trans ((h'.visible id).trans ?_)
      rw [show (s.put t requests ids tx).requests.rows id = s.requests.rows id from
        congrFun hst.rows id]

theorem Inv.insert (h : Inv s) (ht : s.txs t = .unused) {id : Uuid} (hfresh : id ∉ s.ids)
    (row : ReceivedRow) :
    Inv (s.put t (s.requests.write t id (some row)) (s.ids ++ [id]) ⟨(id, row), .inserted⟩) := by
  have hholds : ∀ id', ¬ s.requests.Holds t id' := by
    rintro id' ⟨v, hv⟩
    obtain ⟨tx, htx⟩ := h.held id' t v hv
    rw [ht] at htx
    cases htx
  have hnone : s.requests.held id = none := by
    refine Option.eq_none_iff_forall_ne_some.2 ?_
    rintro ⟨t', v⟩ hv
    obtain ⟨tx', ht'⟩ := h.held id t' v hv
    have h' := h.running t' tx' ht'
    rcases h'.holds id ⟨v, hv⟩ with rfl | hgone
    · exact hfresh h'.used
    · rcases h'.gone_cases hgone with rfl | ⟨row, hlog, -⟩
      · exact hfresh h'.used
      · exact hfresh (h.used id (List.mem_map_of_mem hlog))
  have hlog : id ∉ s.log.map Prod.fst := fun hmem => hfresh (h.used id hmem)
  refine h.put (.write (Table.free_iff.2 (.inl hnone)) _)
    (List.nodup_append.2 ⟨h.ids, List.nodup_singleton id, fun a ha b hb hab => ?_⟩)
    (List.subset_append_left _ _) ?_
  · obtain rfl := List.mem_singleton.1 hb
    exact hfresh (hab ▸ ha)
  · refine ⟨List.mem_append_right _ (List.mem_singleton_self id), hlog, ⟨_, Table.write_held_self⟩,
      fun id' hid' => .inl ?_, fun id' => ?_, nofun⟩
    · by_contra hne
      obtain ⟨v, hv⟩ := hid'
      exact hholds id' ⟨v, (Table.write_held_of_ne hne).symm.trans hv⟩
    · simp only [Phase.gone, List.not_mem_nil, if_false]
      rcases eq_or_ne id' id with rfl | hne
      · rw [if_pos rfl]
        exact Table.visible_of_held Table.write_held_self
      · rw [if_neg hne]
        exact (Table.visible_write_of_ne hne).trans (Table.visible_of_not_holds (hholds id'))

theorem Inv.select (h : Inv s) (ht : s.txs t = .running tx) (hphase : tx.phase = .inserted) :
    Inv (s.put t s.requests s.ids
      { tx with phase := .selected (newestFirst (s.visible t) tx.own.2.endpointId) }) := by
  have htx := h.running t tx ht
  have hgone : tx.phase.gone = [] := by rw [hphase]; rfl
  have hvisible : ∀ id row, (id, row) ∈ s.visible t ↔
      id ∈ s.ids ∧ s.requests.visible t id = some row := by
    intro id row
    simp only [State.visible, List.mem_filterMap, Option.map_eq_some_iff, Prod.mk.injEq]
    constructor
    · rintro ⟨id', hid, row', hrow, rfl, rfl⟩
      exact ⟨hid, hrow⟩
    · rintro ⟨hid, hrow⟩
      exact ⟨id, hid, row, hrow, rfl, rfl⟩
  refine h.put (.refl t _) h.ids (List.Subset.refl _)
    ⟨htx.used, htx.fresh, htx.own, fun id hid => .inl ?_, fun id => ?_, fun seen hseen => ?_⟩
  · simpa [hgone] using htx.holds id hid
  · have := htx.visible id
    rw [hgone] at this
    exact this
  · obtain rfl := Option.some.inj hseen
    refine ⟨Keyset.below_decreasing ?_ none, Keyset.mem_below.2 ⟨List.mem_filter.2
      ⟨(hvisible _ _).2 ⟨htx.used, ?_⟩, decide_eq_true rfl⟩, rfl⟩, fun r hr => ?_, fun r hr => ?_⟩
    · exact (nodup_keys_filterMap h.ids _).sublist (List.filter_sublist.map _)
    · rw [htx.visible, hgone, if_neg List.not_mem_nil, if_pos rfl]
    · exact of_decide_eq_true (List.mem_filter.1 (Keyset.mem_below.1 hr).1).2
    · obtain ⟨id, row⟩ := r
      have hrow := ((hvisible id row).1 (List.mem_filter.1 (Keyset.mem_below.1 hr).1).1).2
      rw [htx.visible, hgone, if_neg List.not_mem_nil] at hrow
      split at hrow
      · rename_i hid
        exact .inl (Prod.ext hid (Option.some.inj hrow).symm)
      · exact .inr (h.rows id row hrow)

theorem Inv.delete (h : Inv s) (ht : s.txs t = .running tx) {seen : List Received}
    (hphase : tx.phase = .selected seen)
    (hfree : ∀ id ∈ staleIds seen, (s.requests.visible t id).isSome = true →
      s.requests.free t id = true) :
    Inv (s.put t (s.requests.deleteAll t (staleIds seen)) s.ids
      { tx with phase := .deleted seen }) := by
  have htx := h.running t tx ht
  have hgone : tx.phase.gone = [] := by rw [hphase]; rfl
  have hst := Table.Statement.deleteAll hfree
  refine h.put hst h.ids (List.Subset.refl _)
    ⟨htx.used, htx.fresh, ?_, fun id hid => ?_, fun id => ?_, fun seen' hseen => ?_⟩
  · rcases hst.held tx.own.1 with heq | ⟨-, hholds⟩
    · obtain ⟨v, hv⟩ := htx.own
      exact ⟨v, heq.trans hv⟩
    · exact hholds
  · rcases Table.holds_deleteAll hid with hstale | hid
    · exact .inr hstale
    · exact .inl (by simpa [hgone] using htx.holds id hid)
  · have hid := htx.visible id
    rw [hgone, if_neg List.not_mem_nil] at hid
    exact Table.visible_deleteAll.trans (by rw [hid]; rfl)
  · obtain rfl := Option.some.inj hseen
    have hseen := htx.seen seen (by rw [hphase]; rfl)
    exact ⟨hseen.decreasing, hseen.own, hseen.endpoint, hseen.logged⟩

theorem Inv.rollback (h : Inv s) (t : Tid) : Inv (s.rollback t) where
  ids := h.ids
  used := h.used
  logged := h.logged
  rows := h.rows
  held id t' v hv := by
    obtain ⟨hv, hne⟩ := Table.rollback_held_iff.1 hv
    obtain ⟨tx, ht'⟩ := h.held id t' v hv
    exact ⟨tx, (Function.update_of_ne hne _ _).trans ht'⟩
  running t' tx' ht' := by
    have hne : t' ≠ t := by
      rintro rfl
      simp [State.rollback] at ht'
    have ht' : s.txs t' = .running tx' := (Function.update_of_ne hne _ _).symm.trans ht'
    have h' := h.running t' tx' ht'
    refine h'.frame (List.Subset.refl _) (List.Subset.refl _) h'.fresh (fun id => ?_) fun id =>
      (Table.visible_rollback hne).trans (h'.visible id)
    exact exists_congr fun v => Table.rollback_held_iff.trans (and_iff_left hne)

/-- Two open transactions have inserted different rows. -/
theorem Inv.own_ne (h : Inv s) (ht : s.txs t = .running tx) (ht' : s.txs t' = .running tx')
    (hne : t' ≠ t) : tx'.own.1 ≠ tx.own.1 := by
  intro heq
  obtain ⟨v, hv⟩ := (h.running t' tx' ht').own
  exact hne ((h.running t tx ht).own.eq (heq ▸ hv))

theorem Inv.commit (h : Inv s) (ht : s.txs t = .running tx) : Inv (s.commit t tx) := by
  have htx := h.running t tx ht
  have hlog : ∀ id, id ∈ (s.log ++ [tx.own]).map Prod.fst ↔
      id ∈ s.log.map Prod.fst ∨ id = tx.own.1 := by
    simp
  refine ⟨h.ids, fun id hid => ?used, ?logged, fun id row hrow => ?rows, fun id t' v hv => ?held,
    fun t' tx' ht' => ?running⟩
  case used =>
    rcases (hlog id).1 hid with hid | rfl
    · exact h.used id hid
    · exact htx.used
  case logged =>
    show ((s.log ++ [tx.own]).map Prod.fst).Nodup
    rw [List.map_append, List.nodup_append]
    refine ⟨h.logged, List.nodup_singleton _, fun k hk k' hk' heq => ?_⟩
    obtain rfl := List.mem_singleton.1 hk'
    exact htx.fresh (heq ▸ hk)
  case rows =>
    have hrow : s.requests.visible t id = some row := hrow
    rw [htx.visible] at hrow
    split at hrow
    · cases hrow
    · split at hrow
      · rename_i hid
        obtain rfl := Option.some.inj hrow
        exact List.mem_append_right _ (List.mem_singleton.2 (Prod.ext hid rfl))
      · exact List.mem_append_left _ (h.rows id row hrow)
  case held =>
    obtain ⟨hv, hne⟩ := Table.commit_held_iff.1 hv
    obtain ⟨tx', ht'⟩ := h.held id t' v hv
    exact ⟨tx', (Function.update_of_ne hne _ _).trans ht'⟩
  case running =>
    have hne : t' ≠ t := by
      rintro rfl
      simp [State.commit] at ht'
    have ht' : s.txs t' = .running tx' := (Function.update_of_ne hne _ _).symm.trans ht'
    have h' := h.running t' tx' ht'
    have hheld : ∀ id, (s.requests.commit t).Holds t' id ↔ s.requests.Holds t' id := fun id =>
      exists_congr fun v => Table.commit_held_iff.trans (and_iff_left hne)
    refine h'.frame (List.Subset.refl _) (List.subset_append_left _ _) (fun hid => ?_) hheld
      fun id => ?_
    · rcases (hlog _).1 hid with hid | hid
      · exact h'.fresh hid
      · exact h.own_ne ht ht' hne hid
    · have hold := h'.visible id
      show (s.requests.commit t).visible t' id = _
      rcases (s.requests.commit t).visible_cases t' id with hv | ⟨hnot, hv⟩
      · -- a row that it holds
        rw [← Table.visible_of_held (Table.commit_held_iff.1 hv).1, hold]
        rcases h'.holds id ((hheld id).1 ⟨_, hv⟩) with rfl | hgone
        · simp
        · simp [hgone]
      · rw [hheld] at hnot
        rw [hv]
        have hown : id ≠ tx'.own.1 := by
          rintro rfl
          exact hnot h'.own
        rw [if_neg hown]
        split
        · -- a row that was gone before it could delete it
          rename_i hgone
          rw [if_pos hgone, Table.visible_of_not_holds hnot] at hold
          obtain ⟨row, hlogged, -⟩ := (h'.gone_cases hgone).resolve_left hown
          show s.requests.visible t id = none
          rw [htx.visible, hold]
          have hne' : id ≠ tx.own.1 := by
            rintro rfl
            exact htx.fresh (List.mem_map.2 ⟨_, hlogged, rfl⟩)
          rw [if_neg hne', ite_self]
        · rfl

theorem Inv.move {a : Act} (h : Inv s) (hmove : Move a s s') : Inv s' := by
  cases hmove with
  | insert ht hfresh => exact h.insert ht hfresh _
  | select ht hphase => exact h.select ht hphase
  | delete ht hphase hfree => exact h.delete ht hphase hfree
  | commit ht hseen hgone => exact h.commit ht
  | rollback hcommit => exact h.rollback _

/-- The rows that a commit leaves: what was there and the new one, less what is stale. -/
theorem Inv.rows_commit (h : Inv s) (ht : s.txs t = .running tx) {seen : List Received}
    (hseen : tx.phase.seen? = some seen) (hgone : tx.phase.gone = staleIds seen) {id : Uuid}
    {row : ReceivedRow} : (s.commit t tx).requests.rows id = some row ↔
      (s.requests.rows id = some row ∨ (id, row) = tx.own) ∧ (id, row) ∉ seen.drop inboxKeep := by
  have htx := h.running t tx ht
  have hlogged := (htx.seen seen hseen).logged
  have hnot : ∀ {id : Uuid} {row : ReceivedRow}, (id, row) ∈ s.log → id ≠ tx.own.1 := by
    rintro id row hmem rfl
    exact htx.fresh (List.mem_map.2 ⟨_, hmem, rfl⟩)
  have hstale : s.requests.rows id = some row ∨ (id, row) = tx.own →
      (id ∈ staleIds seen ↔ (id, row) ∈ seen.drop inboxKeep) := by
    intro hin
    refine ⟨fun hid => ?_, fun hdrop => List.mem_map.2 ⟨_, hdrop, rfl⟩⟩
    obtain ⟨⟨id', row'⟩, hr, rfl⟩ := List.mem_map.1 hid
    rcases hin with hrow | hown <;> rcases hlogged _ (List.mem_of_mem_drop hr) with hown' | hlog
    · exact absurd (congrArg Prod.fst hown') (hnot (h.rows id' row hrow))
    · exact h.eq_of_logged hlog (h.rows id' row hrow) ▸ hr
    · exact (hown.trans hown'.symm) ▸ hr
    · exact absurd (congrArg Prod.fst hown) (hnot hlog)
  show s.requests.visible t id = some row ↔ _
  rw [htx.visible, hgone]
  by_cases hin : s.requests.rows id = some row ∨ (id, row) = tx.own
  · rw [← hstale hin, and_iff_right hin]
    by_cases hid : id ∈ staleIds seen
    · simp [hid]
    · rw [if_neg hid]
      refine iff_of_true ?_ hid
      rcases hin with hrow | hown
      · rw [if_neg (hnot (h.rows _ row hrow)), hrow]
      · rw [← hown, if_pos rfl]
  · refine iff_of_false (fun hrow => ?_) fun hright => hin hright.1
    split at hrow
    · cases hrow
    · split at hrow
      · rename_i hid
        exact hin (.inr (Prod.ext hid (Option.some.inj hrow).symm))
      · exact hin (.inl hrow)

/-- Transaction `t` comes too late with its commit: a request that its `SELECT` did not see is in
the inbox of its endpoint, the inbox is full, and its own request is to stay. -/
def Late (a : Act) (s : State) : Prop := ∃ t tx seen, a = .commit t ∧ s.txs t = .running tx ∧
  tx.phase.seen? = some seen ∧ inboxKeep ≤ (s.inbox tx.own.2.endpointId).length ∧
  (∃ r ∈ s.inbox tx.own.2.endpointId, r ∉ seen) ∧ tx.own ∉ seen.drop inboxKeep

theorem Inv.mem_inbox (h : Inv s) {e id : Uuid} {row : ReceivedRow} :
    (id, row) ∈ s.inbox e ↔ s.requests.rows id = some row ∧ row.endpointId = e := by
  rw [State.inbox, newestFirst, Keyset.mem_below, List.mem_filter, h.mem_committed]
  simp

theorem Inv.inbox_decreasing (h : Inv s) (e : Uuid) :
    ((s.inbox e).map inboxKey).Pairwise (· > ·) := by
  have hkeys : (s.committed.map inboxKey).Nodup := nodup_keys_filterMap h.ids _
  exact Keyset.below_decreasing (hkeys.sublist (List.filter_sublist.map _)) none

/-- The inbox keeps the newest. -/
theorem Newest.keeps (hnewest : Newest s) (h : Inv s) (e : Uuid) :
    Keeps inboxKey inboxKeep (s.log.filter fun r => r.2.endpointId = e) (s.inbox e) := by
  refine ⟨nodup_of_decreasing (h.inbox_decreasing e), ?_⟩
  rintro ⟨id, row⟩
  rw [h.mem_inbox, hnewest id row, List.mem_filter, decide_eq_true_eq]
  constructor
  · rintro ⟨⟨hlog, hlt⟩, rfl⟩
    exact ⟨⟨hlog, rfl⟩, hlt⟩
  · rintro ⟨⟨hlog, rfl⟩, hlt⟩
    exact ⟨⟨hlog, hlt⟩, rfl⟩

section Commit

variable (h : Inv s) (hnewest : Newest s) (ht : s.txs t = .running tx) {seen : List Received}
  (hseen : tx.phase.seen? = some seen) (hgone : tx.phase.gone = staleIds seen)
include h hnewest ht hseen hgone

omit hnewest hgone in
/-- What the transaction saw is its own row and requests that were committed for its endpoint. -/
theorem seen_subset : ∀ r ∈ seen, r = tx.own ∨
    r ∈ s.log.filter fun r => r.2.endpointId = tx.own.2.endpointId := by
  intro r hr
  have hseenInv := (h.running t tx ht).seen seen hseen
  exact (hseenInv.logged r hr).imp_right fun hlog =>
    List.mem_filter.2 ⟨hlog, decide_eq_true (hseenInv.endpoint r hr)⟩

omit hnewest hseen hgone in
theorem nodup_keys_logged : ((s.log.filter fun r =>
      r.2.endpointId = tx.own.2.endpointId).map inboxKey).Nodup ∧
    inboxKey tx.own ∉ (s.log.filter fun r =>
      r.2.endpointId = tx.own.2.endpointId).map inboxKey := by
  refine ⟨h.nodup_keys_log.sublist (List.filter_sublist.map _), fun hmem => ?_⟩
  obtain ⟨r, hr, hkey⟩ := List.mem_map.1 hmem
  exact (h.running t tx ht).fresh (List.mem_map.2
    ⟨r, (List.mem_filter.1 hr).1, congrArg (fun k => (ofLex k).2) hkey⟩)

omit hnewest in
/-- What the commit leaves of its endpoint, in terms of the inbox before it. -/
theorem rows_commit_iff {id : Uuid} {row : ReceivedRow}
    (he : row.endpointId = tx.own.2.endpointId) :
    (s.commit t tx).requests.rows id = some row ↔
      ((id, row) ∈ s.inbox tx.own.2.endpointId ∨ (id, row) = tx.own) ∧
        (id, row) ∉ seen.drop inboxKeep := by
  rw [h.rows_commit ht hseen hgone, h.mem_inbox, and_iff_left he]

/-- **A commit that is not late keeps the newest**, for its endpoint by `mem_pruned_iff`, for the
others because nothing of theirs was seen. -/
theorem Newest.commit (hlate : ¬ Late (.commit t) s) : Newest (s.commit t tx) := by
  have hseenInv := (h.running t tx ht).seen seen hseen
  obtain ⟨hkeys, hown⟩ := nodup_keys_logged h ht
  intro id row
  show _ ↔ (id, row) ∈ s.log ++ [tx.own] ∧ newer inboxKey
    ((s.log ++ [tx.own]).filter fun r => r.2.endpointId = row.endpointId) _ < inboxKeep
  rw [List.filter_append]
  by_cases he : row.endpointId = tx.own.2.endpointId
  · have hcond : (∀ r ∈ s.inbox tx.own.2.endpointId, r ∈ seen) ∨
        (s.inbox tx.own.2.endpointId).length < inboxKeep ∨ tx.own ∈ seen.drop inboxKeep := by
      by_contra hnot
      push Not at hnot
      exact hlate ⟨t, tx, seen, rfl, ht, hseen, hnot.2.1, hnot.1, hnot.2.2⟩
    rw [rows_commit_iff h ht hseen hgone he,
      mem_pruned_iff hkeys hown (hnewest.keeps h _) hseenInv.decreasing hseenInv.own
        (seen_subset h ht hseen) hcond, he]
    simp [he]
  · have hne : (id, row) ≠ tx.own := fun heq => he (congrArg (fun r => r.2.endpointId) heq)
    have hdrop : (id, row) ∉ seen.drop inboxKeep := fun hmem =>
      he (hseenInv.endpoint _ (List.mem_of_mem_drop hmem))
    rw [h.rows_commit ht hseen hgone, hnewest id row]
    simp [hne, hdrop, Ne.symm he]

/-- **A late commit leaves a row too many.** -/
theorem not_newest_of_late (hlate : Late (.commit t) s) : ¬ Newest (s.commit t tx) := by
  obtain ⟨t', tx', seen', hcommit, ht', hseen', hfull, hunseen, hstay⟩ := hlate
  obtain rfl := Act.commit.inj hcommit
  obtain rfl := TxState.running.inj (ht.symm.trans ht')
  obtain rfl := Option.some.inj (hseen.symm.trans hseen')
  have hseenInv := (h.running t tx ht).seen seen hseen
  obtain ⟨hkeys, hown⟩ := nodup_keys_logged h ht
  intro hnext
  refine not_pruned hkeys hown (hnewest.keeps h _) hseenInv.decreasing hseenInv.own
    (seen_subset h ht hseen) hunseen hfull hstay ?_
  rintro ⟨id, row⟩
  by_cases he : row.endpointId = tx.own.2.endpointId
  · rw [← rows_commit_iff h ht hseen hgone he, hnext id row]
    simp [State.commit, he]
  · have hne : (id, row) ≠ tx.own := fun heq => he (congrArg (fun r => r.2.endpointId) heq)
    simp [h.mem_inbox, he, hne]

end Commit

/-- **A step that is not late keeps the newest.** -/
theorem Newest.move {a : Act} (hnewest : Newest s) (h : Inv s) (hmove : Move a s s')
    (hlate : ¬ Late a s) : Newest s' := by
  cases hmove with
  | commit ht hseen hgone => exact hnewest.commit h ht hseen hgone hlate
  | _ => exact hnewest

end Moves

theorem inv_init : Inv init where
  ids := List.nodup_nil
  used := nofun
  logged := List.nodup_nil
  rows := nofun
  held := nofun
  running := nofun

theorem newest_init : Newest init := by
  intro id row
  simp [init]

theorem inv_of_reachable {s : State} (h : receivers.Reachable s) : Inv s :=
  h.invariant inv_init fun _ _ _ hinv hstep => hinv.move (move_of_step hstep)

/-- **As long as no commit comes too late, every inbox is the newest twenty** of all requests that
were committed for its endpoint, and what a transaction deletes is its own endpoint's. -/
theorem inbox_newest {s : State} (h : receivers.ReachableIf (fun a s => ¬ Late a s) s) :
    (∀ e, s.inbox e = (s.received e).take inboxKeep) ∧
    (∀ e, (s.inbox e).length ≤ inboxKeep) ∧
    ∀ t tx id row, s.txs t = .running tx → s.requests.held id = some (t, none) →
      s.requests.rows id = some row → row.endpointId = tx.own.2.endpointId := by
  have hall : Inv s ∧ Newest s :=
    h.invariant (P := fun s => Inv s ∧ Newest s) ⟨inv_init, newest_init⟩
      fun _ _ _ hs hlate hstep =>
        ⟨hs.1.move (move_of_step hstep), hs.2.move hs.1 (move_of_step hstep) hlate⟩
  obtain ⟨hinv, hnewest⟩ := hall
  have htake : ∀ e, s.inbox e = (s.received e).take inboxKeep := by
    intro e
    have hkeys : ((s.log.filter fun r => r.2.endpointId = e).map inboxKey).Nodup :=
      hinv.nodup_keys_log.sublist (List.filter_sublist.map _)
    exact (hnewest.keeps hinv e).eq_take hkeys (hinv.inbox_decreasing e)
  refine ⟨htake, fun e => ?_, fun t tx id row ht hheld hrow => ?_⟩
  · rw [htake]
    exact List.length_take_le _ _
  · have htx := hinv.running t tx ht
    have hlog := hinv.rows id row hrow
    rcases htx.holds id ⟨_, hheld⟩ with rfl | hgone
    · exact absurd (List.mem_map.2 ⟨_, hlog, rfl⟩) htx.fresh
    · rcases htx.gone_cases hgone with rfl | ⟨row', hlog', he⟩
      · exact absurd (List.mem_map.2 ⟨_, hlog, rfl⟩) htx.fresh
      · exact hinv.eq_of_logged hlog' hlog ▸ he

/-! ## Two at once -/

/-- A request number `n` for endpoint `1`. -/
def request (n : ℕ) : ReceivedRow where
  endpointId := .ofNat 1
  eventType := []
  attempt := 1
  verified := true
  responseStatus := 200
  signatureHeader := none
  timestampHeader := none
  body := []
  receivedAt := n

/-- Transactions `0, …, n - 1` one after the other. -/
def inTurn : ℕ → List Act
  | 0 => []
  | n + 1 => inTurn n ++ [.insert n (.ofNat n) (request n), .select n, .commit n]

/-- Whether the commit of a transaction is not `Late`. -/
def commitsInTime (a : Act) (s : State) : Bool :=
  match a with
  | .commit t =>
    match s.txs t with
    | .running tx => tx.phase.seen?.all fun seen =>
        (s.inbox tx.own.2.endpointId).length < inboxKeep ||
          (s.inbox tx.own.2.endpointId).all (seen.contains ·)
    | _ => true
  | _ => true

theorem not_late_of_commitsInTime (a : Act) (s : State) (h : commitsInTime a s = true) :
    ¬ Late a s := by
  rintro ⟨t, tx, seen, rfl, ht, hseen, hfull, ⟨r, hr, hnot⟩, -⟩
  simp only [commitsInTime, ht, hseen, Option.all_some, Bool.or_eq_true, decide_eq_true_eq,
    List.all_eq_true, List.contains_iff_mem] at h
  rcases h with hlt | hall
  · exact absurd hfull (not_le.2 hlt)
  · exact hnot (hall r hr)

/-- Two transactions at once, before the inbox is full, and then others until one prunes it. -/
def overfull : List Act :=
  [.insert 21 (.ofNat 21) (request 21), .insert 22 (.ofNat 22) (request 22), .select 21,
    .select 22, .commit 22, .commit 21] ++ inTurn 18 ++
  [.insert 23 (.ofNat 23) (request 23), .select 23, .delete 23, .commit 23]

/-- Of twenty-one requests the inbox has the newest twenty. -/
theorem inbox_newest_first : ∃ s, receivers.ReachableIf (fun a s => ¬ Late a s) s ∧
    (s.received (.ofNat 1)).length = 21 ∧ (s.inbox (.ofNat 1)).length = 20 ∧
    s.inbox (.ofNat 1) = (s.received (.ofNat 1)).take inboxKeep := by
  have hrun : (receivers.runIf commitsInTime overfull init).map (fun s =>
      decide ((s.received (.ofNat 1)).length = 21 ∧ (s.inbox (.ofNat 1)).length = 20)) =
      some true := by
    decide +kernel
  obtain ⟨s, hs, hp⟩ := Machine.exists_reachable_of_runIf not_late_of_commitsInTime hrun
  obtain ⟨hall, hkept⟩ := of_decide_eq_true hp
  exact ⟨s, hs, hall, hkept, (inbox_newest hs).1 _⟩

/-- Two transactions insert into a full inbox, both find the same row stale, and both commit. -/
def atOnce : List Act :=
  inTurn 20 ++ [.insert 20 (.ofNat 20) (request 20), .insert 21 (.ofNat 21) (request 21),
    .select 20, .select 21, .delete 20, .commit 20, .delete 21, .commit 21]

/-- **Two requests at once leave a row too many in the inbox.** -/
theorem not_inbox_newest : ∃ s, receivers.Reachable s ∧
    inboxKeep < (s.inbox (.ofNat 1)).length := by
  have hrun : (receivers.run atOnce init).map (fun s =>
      decide (inboxKeep < (s.inbox (.ofNat 1)).length)) = some true := by
    decide +kernel
  obtain ⟨s, hs, hp⟩ := Machine.exists_reachable_of_run (fun _ _ => True)
    (fun _ _ _ => trivial) hrun
  exact ⟨s, hs, of_decide_eq_true hp⟩

end Hookit.LiveTail
