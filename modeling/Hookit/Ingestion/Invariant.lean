import Hookit.Ingestion.Machine

/-!
# The invariant of the ingestion

`Inv` relates the committed records, events and deliveries to the requests that left them: every
record has one creator, whose commit left the event and its deliveries (`Inv.creator`); whoever has
left rows is the creator of the record for its key, if it has one (`Inv.left`); and a request that
was answered was answered from the record (`Inv.answered`).

The unique index carries the argument. A request holds an uncommitted record only while there is no
committed one with the key (`Inv.held`), so a record is never replaced, and an insert that fails on
the index has a committed record to read. `EndpointsKept` excludes the other way for an insert to
fail. The condition `W` on the endpoints that a request has selected is a parameter.
-/

namespace Hookit.Ingestion

open Foundations

variable {π : Type} {bodyHash : PyStr → π → PyStr} {W : Tid → Call π → List EndpointId → Prop}

/-- The committed events with the key. -/
def State.eventsOf (s : State π) (projectId : ProjectId) (key : PyStr) : List (Event π) :=
  s.events.filter fun event => event.projectId = projectId ∧ event.idempotencyKey = some key

/-- An insert of a delivery finds its endpoint, or else there is a committed record with the key
of the request. -/
def EndpointsKept (a : Act π) (s : State π) : Prop :=
  ∀ t tx plan endpointId endpoints record key, a = .insertDelivery t → s.txs t = .running tx →
    tx.phase = .inserting plan false (endpointId :: endpoints) record → tx.call.key = some key →
    s.endpoints.rows endpointId ≠ none ∨ s.records.rows key ≠ none

/-- The request of transaction `t` was answered with the event of `plan`, and has left it with its
deliveries. -/
structure Created (W : Tid → Call π → List EndpointId → Prop) (s : State π) (t : Tid)
    (call : Call π) (plan : Plan) : Prop where
  answered : s.txs t = .answered call (.created plan.eventId plan.activeEndpoints.length)
  left : s.left t = ([call.event plan], plan.activeEndpoints.map plan.delivery)
  drawn : s.drawn plan.eventId = some t
  seen : W t call plan.activeEndpoints

/-- What holds of an open request. -/
structure TxInv (bodyHash : PyStr → π → PyStr) (W : Tid → Call π → List EndpointId → Prop)
    (s : State π) (t : Tid) (tx : Tx π) : Prop where
  looked : tx.phase = .looked → tx.events = [] ∧ tx.deliveries = []
  inserting : ∀ plan event endpoints record, tx.phase = .inserting plan event endpoints record →
    W t tx.call plan.activeEndpoints ∧ s.drawn plan.eventId = some t ∧
    tx.events = (if event then [] else [tx.call.event plan]) ∧
    tx.deliveries ++ endpoints.map plan.delivery = plan.activeEndpoints.map plan.delivery ∧
    (record = false → ∀ key, tx.call.key = some key →
      s.records.held key = some (t, some (tx.call.record bodyHash plan key.2)))
  violated : tx.phase = .violated →
    ∃ key record, tx.call.key = some key ∧ s.records.rows key = some record
  returned : ∀ response, tx.phase = .returned response → ∃ key record, tx.call.key = some key ∧
    s.records.rows key = some record ∧ response = replay record (tx.call.requestHash bodyHash)

/-- The invariant of the ingestion. -/
structure Inv (bodyHash : PyStr → π → PyStr) (W : Tid → Call π → List EndpointId → Prop)
    (s : State π) : Prop where
  creator : ∀ key record, s.records.rows key = some record → ∃ t call plan,
    Created W s t call plan ∧ call.key = some key ∧ record = call.record bodyHash plan key.2
  left : ∀ t, s.left t ≠ ([], []) → ∃ call plan, Created W s t call plan ∧
    ∀ key, call.key = some key → s.records.rows key = some (call.record bodyHash plan key.2)
  events : ∀ projectId key, (s.eventsOf projectId key).map (·.id) =
    (s.records.rows (projectId, key)).toList.map (·.eventId)
  leftEvents : ∀ event ∈ s.events, ∃ t, event ∈ (s.left t).1
  leftDeliveries : ∀ delivery ∈ s.deliveries, ∃ t, delivery ∈ (s.left t).2
  held : ∀ key t v, s.records.held key = some (t, v) → s.records.rows key = none ∧
    ∃ tx plan endpoints, s.txs t = .running tx ∧
      tx.phase = .inserting plan false endpoints false ∧ tx.call.key = some key
  running : ∀ t tx, s.txs t = .running tx → TxInv bodyHash W s t tx
  answered : ∀ t call response key, s.txs t = .answered call response → call.key = some key →
    ∃ record, s.records.rows key = some record ∧
      response = replay record (call.requestHash bodyHash)

section Moves

variable {s s' : State π} {t : Tid} {tx tx' : Tx π}

theorem TxInv.frame (h : TxInv bodyHash W s t tx)
    (hheld : ∀ key v, s.records.held key = some (t, v) → s'.records.held key = some (t, v))
    (hrows : ∀ key record, s.records.rows key = some record → s'.records.rows key = some record)
    (hdrawn : ∀ e t', s.drawn e = some t' → s'.drawn e = some t') : TxInv bodyHash W s' t tx where
  looked := h.looked
  inserting plan event endpoints record hphase := by
    obtain ⟨hseen, hid, hevents, hdeliveries, hrecord⟩ :=
      h.inserting plan event endpoints record hphase
    exact ⟨hseen, hdrawn _ _ hid, hevents, hdeliveries, fun hr key hkey =>
      hheld _ _ (hrecord hr key hkey)⟩
  violated hphase := by
    obtain ⟨key, record, hkey, hrow⟩ := h.violated hphase
    exact ⟨key, record, hkey, hrows key record hrow⟩
  returned response hphase := by
    obtain ⟨key, record, hkey, hrow, hresponse⟩ := h.returned response hphase
    exact ⟨key, record, hkey, hrows key record hrow, hresponse⟩

/-! What is left to show of a transaction, by its phase. -/

theorem TxInv.of_looked (hphase : tx.phase = .looked) (hevents : tx.events = [])
    (hdeliveries : tx.deliveries = []) : TxInv bodyHash W s t tx := by
  constructor <;> simp [hphase, hevents, hdeliveries]

theorem TxInv.of_inserting {plan : Plan} {event record : Bool} {endpoints : List EndpointId}
    (hphase : tx.phase = .inserting plan event endpoints record)
    (hseen : W t tx.call plan.activeEndpoints) (hid : s.drawn plan.eventId = some t)
    (hevents : tx.events = if event then [] else [tx.call.event plan])
    (hdeliveries : tx.deliveries ++ endpoints.map plan.delivery =
      plan.activeEndpoints.map plan.delivery)
    (hrecord : record = false → ∀ key, tx.call.key = some key →
      s.records.held key = some (t, some (tx.call.record bodyHash plan key.2))) :
    TxInv bodyHash W s t tx := by
  refine ⟨?_, fun plan' event' endpoints' record' heq => ?_, ?_, ?_⟩
  case refine_2 =>
    cases hphase.symm.trans heq
    exact ⟨hseen, hid, hevents, hdeliveries, hrecord⟩
  all_goals simp [hphase]

theorem TxInv.of_violated {key : RecordKey} {record : IdempotencyRecord}
    (hphase : tx.phase = .violated) (hkey : tx.call.key = some key)
    (hrow : s.records.rows key = some record) : TxInv bodyHash W s t tx := by
  refine ⟨?_, ?_, fun _ => ⟨key, record, hkey, hrow⟩, ?_⟩ <;> simp [hphase]

theorem TxInv.of_returned {key : RecordKey} {record : IdempotencyRecord}
    (hphase : tx.phase = .returned (replay record (tx.call.requestHash bodyHash)))
    (hkey : tx.call.key = some key) (hrow : s.records.rows key = some record) :
    TxInv bodyHash W s t tx := by
  refine ⟨?_, ?_, ?_, fun response heq => ⟨key, record, hkey, hrow, ?_⟩⟩
  case refine_4 => exact (Phase.returned.inj (hphase.symm.trans heq)).symm
  all_goals simp [hphase]

theorem Created.frame {call : Call π} {plan : Plan} (h : Created W s t call plan)
    (htxs : s'.txs t = s.txs t) (hleft : s'.left t = s.left t)
    (hdrawn : ∀ e t', s.drawn e = some t' → s'.drawn e = some t') : Created W s' t call plan where
  answered := htxs.trans h.answered
  left := hleft.trans h.left
  drawn := hdrawn _ _ h.drawn
  seen := h.seen

/-- **A step that commits no record** leaves the requests that were answered alone. -/
theorem Inv.statement (h : Inv bodyHash W s) {st : TxState π}
    (ht : ∀ call response, s.txs t ≠ .answered call response)
    (htxs : s'.txs = Function.update s.txs t st) (hevents : s'.events = s.events)
    (hdeliveries : ∀ delivery ∈ s'.deliveries, delivery ∈ s.deliveries) (hleft : s'.left = s.left)
    (hrows : s'.records.rows = s.records.rows)
    (hother : ∀ key t' v, t' ≠ t →
      (s'.records.held key = some (t', v) ↔ s.records.held key = some (t', v)))
    (hdrawn : ∀ e t', s.drawn e = some t' → s'.drawn e = some t')
    (hheld : ∀ key v, s'.records.held key = some (t, v) → s.records.rows key = none ∧
      ∃ tx plan endpoints, st = .running tx ∧ tx.phase = .inserting plan false endpoints false ∧
        tx.call.key = some key)
    (hrunning : ∀ tx, st = .running tx → TxInv bodyHash W s' t tx)
    (hanswered : ∀ call response key, st = .answered call response → call.key = some key →
      ∃ record, s.records.rows key = some record ∧
        response = replay record (call.requestHash bodyHash)) : Inv bodyHash W s' := by
  have hself : s'.txs t = st := htxs ▸ Function.update_self ..
  have hne : ∀ {t' : Tid}, t' ≠ t → s'.txs t' = s.txs t' := fun hne =>
    htxs ▸ Function.update_of_ne hne _ _
  have hcreated : ∀ {t' : Tid} {call : Call π} {plan : Plan}, Created W s t' call plan →
      Created W s' t' call plan := by
    intro t' call plan hc
    refine hc.frame (hne ?_) (congrFun hleft t') hdrawn
    rintro rfl
    exact ht _ _ hc.answered
  refine ⟨fun key record hrow => ?creator, fun t' hleft' => ?left, fun projectId key => ?events,
    fun event hevent => ?leftEvents, fun delivery hdelivery => ?leftDeliveries,
    fun key t' v hv => ?held, fun t' tx ht' => ?running,
    fun t' call response key ht' hkey => ?answered⟩
  case creator =>
    obtain ⟨t', call, plan, hc, hkey, hrecord⟩ := h.creator key record (hrows ▸ hrow)
    exact ⟨t', call, plan, hcreated hc, hkey, hrecord⟩
  case left =>
    obtain ⟨call, plan, hc, hrecord⟩ := h.left t' (hleft ▸ hleft')
    exact ⟨call, plan, hcreated hc, fun key hkey => hrows ▸ hrecord key hkey⟩
  case events =>
    rw [State.eventsOf, hevents, hrows]
    exact h.events projectId key
  case leftEvents =>
    rw [hleft]
    exact h.leftEvents event (hevents ▸ hevent)
  case leftDeliveries =>
    rw [hleft]
    exact h.leftDeliveries delivery (hdeliveries delivery hdelivery)
  case held =>
    rw [hrows]
    rcases eq_or_ne t' t with rfl | heq
    · rw [hself]
      exact hheld key v hv
    · rw [hne heq]
      exact h.held key t' v ((hother key t' v heq).1 hv)
  case running =>
    rcases eq_or_ne t' t with rfl | heq
    · exact hrunning tx (hself.symm.trans ht')
    · exact (h.running t' tx ((hne heq).symm.trans ht')).frame
        (fun key v hv => (hother key t' v heq).2 hv) (fun key record hr => hrows ▸ hr) hdrawn
  case answered =>
    rw [hrows]
    rcases eq_or_ne t' t with rfl | heq
    · exact hanswered call response key (hself.symm.trans ht') hkey
    · exact h.answered t' call response key ((hne heq).symm.trans ht') hkey

/-- A request that holds a record has inserted it as the last of its statements. -/
theorem Inv.holder (h : Inv bodyHash W s) (ht : s.txs t = .running tx) {key : RecordKey}
    {v : Option IdempotencyRecord} (hv : s.records.held key = some (t, v)) :
    ∃ plan endpoints, tx.phase = .inserting plan false endpoints false ∧
      tx.call.key = some key := by
  obtain ⟨-, tx', plan, endpoints, ht', hphase, hkey⟩ := h.held key t v hv
  rw [ht] at ht'
  obtain rfl := TxState.running.inj ht'
  exact ⟨plan, endpoints, hphase, hkey⟩

/-- Before that statement a request holds no record. -/
theorem Inv.not_held_of_phase (h : Inv bodyHash W s) (ht : s.txs t = .running tx)
    (hphase : ∀ plan endpoints, tx.phase ≠ .inserting plan false endpoints false)
    (key : RecordKey) (v : Option IdempotencyRecord) : s.records.held key ≠ some (t, v) := by
  intro hv
  obtain ⟨plan, endpoints, hphase', -⟩ := h.holder ht hv
  exact hphase plan endpoints hphase'

/-- Only an open request holds a record. -/
theorem Inv.not_held_of_not_running (h : Inv bodyHash W s) (ht : ∀ tx, s.txs t ≠ .running tx)
    (key : RecordKey) (v : Option IdempotencyRecord) : s.records.held key ≠ some (t, v) := by
  intro hv
  obtain ⟨-, tx, _, _, htx, -⟩ := h.held key t v hv
  exact ht tx htx

/-- What an open request sees of a record that it does not hold is the committed row. -/
theorem Inv.visible_eq (h : Inv bodyHash W s) (ht : s.txs t = .running tx)
    (hphase : ∀ plan endpoints, tx.phase ≠ .inserting plan false endpoints false)
    (key : RecordKey) : s.records.visible t key = s.records.rows key := by
  refine Table.visible_of_not_holds ?_
  rintro ⟨v, hv⟩
  exact h.not_held_of_phase ht hphase key v hv

/-- A statement that writes no row but, perhaps, draws an event id. -/
theorem Inv.put (h : Inv bodyHash W s) (ht : s.txs t = .unused ∨ ∃ tx, s.txs t = .running tx)
    {shares : List (Tid × EndpointId)} {drawn : EventId → Option Tid}
    (hdrawn : ∀ e t', s.drawn e = some t' → drawn e = some t')
    (hheld : ∀ key v, s.records.held key = some (t, v) → ∃ plan endpoints,
      tx.phase = .inserting plan false endpoints false ∧ tx.call.key = some key)
    (htx : TxInv bodyHash W { s with drawn } t tx) :
    Inv bodyHash W { s.put t tx with shares, drawn } := by
  refine h.statement (t := t) (fun call response hc => ?_) rfl rfl
    (fun _ hd => hd) rfl rfl (fun _ _ _ _ => Iff.rfl) hdrawn (fun key v hv => ?_)
    (fun tx' heq => ?_)
    nofun
  · rcases ht with ht | ⟨tx', ht⟩ <;> · rw [ht] at hc; cases hc
  · obtain ⟨plan, endpoints, hphase, hkey⟩ := hheld key v hv
    exact ⟨(h.held key t v hv).1, tx, plan, endpoints, rfl, hphase, hkey⟩
  · obtain rfl := TxState.running.inj heq
    exact htx.frame (fun _ _ hv => hv) (fun _ _ hr => hr) fun _ _ hd => hd

/-- A rollback, to the savepoint or of the transaction. -/
theorem Inv.rollback (h : Inv bodyHash W s) {st : TxState π}
    (ht : ∀ call response, s.txs t ≠ .answered call response)
    (hrunning : ∀ tx, st = .running tx → TxInv bodyHash W s t tx ∧
      ∀ plan event endpoints record, tx.phase ≠ .inserting plan event endpoints record)
    (hanswered : ∀ call response key, st = .answered call response → call.key = some key →
      ∃ record, s.records.rows key = some record ∧
        response = replay record (call.requestHash bodyHash)) :
    Inv bodyHash W (s.rollback t st) := by
  refine h.statement (t := t) ht rfl rfl (fun _ hd => hd) rfl rfl
    (fun key t' v hne => Table.rollback_held_iff.trans (and_iff_left hne)) (fun _ _ hd => hd)
    (fun key v hv => absurd rfl (Table.rollback_held_iff.1 hv).2) (fun tx heq => ?_) hanswered
  obtain ⟨htx, hphase⟩ := hrunning tx heq
  exact
    { htx with
      inserting := fun plan event endpoints record heq =>
        absurd heq (hphase plan event endpoints record) }

/-- An insert that fails, in a request with a key only if a record with it is committed. -/
theorem Inv.violate (h : Inv bodyHash W s) (ht : s.txs t = .running tx)
    (hrow : ∀ key, tx.call.key = some key → s.records.rows key ≠ none) :
    Inv bodyHash W (s.violate t tx) := by
  have hnot : ∀ call response, s.txs t ≠ .answered call response := by simp [ht]
  unfold State.violate
  split
  · rename_i key hkey
    refine h.rollback hnot (fun tx' heq => ?_) (by simp)
    obtain rfl := TxState.running.inj heq
    have hkey' : tx.call.key = some (tx.call.projectId, key) := by simp [Call.key, hkey]
    obtain ⟨record, hrecord⟩ := Option.ne_none_iff_exists'.1 (hrow _ hkey')
    exact ⟨.of_violated rfl hkey' hrecord, by simp⟩
  · rename_i hkey
    refine h.rollback hnot (by simp) fun call response key heq hkey' => ?_
    obtain ⟨rfl, -⟩ := TxState.answered.inj heq
    simp [Call.key, hkey] at hkey'

/-- The insert of the record of a request with a key that no committed record has. -/
theorem Inv.record (h : Inv bodyHash W s) (ht : s.txs t = .running tx) {plan : Plan}
    {endpoints : List EndpointId} (hphase : tx.phase = .inserting plan false endpoints true)
    {key : PyStr} (hkey : tx.call.idempotencyKey = some key)
    (hfree : s.records.free t (tx.call.projectId, key) = true)
    (hrow : s.records.visible t (tx.call.projectId, key) = none) :
    Inv bodyHash W
      { s.put t { tx with phase := .inserting plan false endpoints false } with
        records := s.records.write t (tx.call.projectId, key)
          (some (tx.call.record bodyHash plan key)) } := by
  obtain ⟨hseen, hid, hevents, hdeliveries, -⟩ := (h.running t tx ht).inserting _ _ _ _ hphase
  have hkey' : tx.call.key = some (tx.call.projectId, key) := by simp [Call.key, hkey]
  have hnone : s.records.rows (tx.call.projectId, key) = none := by
    rw [← h.visible_eq ht (by simp [hphase])]
    exact hrow
  have hstatement := Table.Statement.write hfree (some (tx.call.record bodyHash plan key))
  refine h.statement (t := t) (by simp [ht]) rfl rfl (fun _ hd => hd) rfl rfl
    (fun key' t' v hne => hstatement.held_iff hne) (fun _ _ hd => hd)
    (fun key' v hv => ?held) (fun tx' heq => ?running) (by simp)
  case held =>
    rcases eq_or_ne key' (tx.call.projectId, key) with rfl | hk
    · exact ⟨hnone, _, plan, endpoints, rfl, rfl, hkey'⟩
    · have hv' : s.records.held key' = some (t, v) := (Table.write_held_of_ne hk).symm.trans hv
      exact absurd hv' (h.not_held_of_phase ht (by simp [hphase]) key' v)
  case running =>
    obtain rfl := TxState.running.inj heq
    refine .of_inserting rfl hseen hid hevents hdeliveries fun _ key'' hkey'' => ?_
    obtain rfl := Option.some.inj (hkey'.symm.trans hkey'')
    exact Table.write_held_self

/-- The rows of the records after the commit of a request. -/
theorem Inv.rows_commit (h : Inv bodyHash W s) (ht : s.txs t = .running tx) {plan : Plan}
    (hphase : tx.phase = .inserting plan false [] false) (key : RecordKey) :
    (tx.call.key = some key → s.records.rows key = none ∧
      (s.records.commit t).rows key = some (tx.call.record bodyHash plan key.2)) ∧
    (tx.call.key ≠ some key → (s.records.commit t).rows key = s.records.rows key) := by
  obtain ⟨-, -, -, -, hrecord⟩ := (h.running t tx ht).inserting _ _ _ _ hphase
  refine ⟨fun hkey => ?_, fun hkey => Table.commit_rows_of_not_holds ?_⟩
  · have hheld := hrecord rfl key hkey
    exact ⟨(h.held key t _ hheld).1, Table.visible_of_held hheld⟩
  · rintro ⟨v, hv⟩
    obtain ⟨_, _, -, hkey'⟩ := h.holder ht hv
    exact hkey hkey'

/-- The commit of a request overwrites no record. -/
theorem Inv.rows_mono (h : Inv bodyHash W s) (ht : s.txs t = .running tx) {plan : Plan}
    (hphase : tx.phase = .inserting plan false [] false) {key : RecordKey}
    {record : IdempotencyRecord} (hrow : s.records.rows key = some record) :
    (s.records.commit t).rows key = some record := by
  obtain ⟨hown, hother⟩ := h.rows_commit ht hphase key
  by_cases hkey : tx.call.key = some key
  · rw [(hown hkey).1] at hrow
    cases hrow
  · exact (hother hkey).trans hrow

/-- A request that has created its event is not the one that commits. -/
theorem Created.commit {t' : Tid} {call : Call π} {plan : Plan} (h : Created W s t' call plan)
    (ht : s.txs t = .running tx) (response : Response) :
    t' ≠ t ∧ Created W (s.commit t tx response) t' call plan := by
  have hne : t' ≠ t := by
    rintro rfl
    have hanswered := h.answered
    rw [ht] at hanswered
    cases hanswered
  exact ⟨hne, h.frame (Function.update_of_ne hne _ _) (Function.update_of_ne hne _ _)
    fun _ _ hd => hd⟩

/-- An open request has left nothing, so its commit takes nothing away. -/
theorem Inv.left_commit (h : Inv bodyHash W s) (ht : s.txs t = .running tx) {t' : Tid}
    (hl : s.left t' ≠ ([], [])) (response : Response) :
    (s.commit t tx response).left t' = s.left t' := by
  obtain ⟨call, plan, hc, -⟩ := h.left t' hl
  exact Function.update_of_ne (hc.commit ht response).1 _ _

/-- The commit of a request adds its event to those with its key. -/
theorem State.eventsOf_commit {plan : Plan} (hevents : tx.events = [tx.call.event plan])
    (response : Response) (projectId : ProjectId) (key : PyStr) :
    (s.commit t tx response).eventsOf projectId key = s.eventsOf projectId key ++
      if tx.call.key = some (projectId, key) then [tx.call.event plan] else [] := by
  simp only [State.eventsOf, State.commit, hevents, List.filter_append]
  congr 1
  by_cases hp : tx.call.projectId = projectId <;>
    by_cases hk : tx.call.idempotencyKey = some key <;>
    simp [Call.key, Call.event, hp, hk]

/-- **The commit of a request creates its record, its event and its deliveries.** -/
theorem Inv.commit (h : Inv bodyHash W s) (ht : s.txs t = .running tx) {plan : Plan}
    (hphase : tx.phase = .inserting plan false [] false) :
    Inv bodyHash W (s.commit t tx (.created plan.eventId plan.activeEndpoints.length)) := by
  obtain ⟨hseen, hid, hevents, hdeliveries, hrecord⟩ :=
    (h.running t tx ht).inserting _ _ _ _ hphase
  simp only [Bool.false_eq_true, if_false] at hevents
  rw [List.map_nil, List.append_nil] at hdeliveries
  set s' := s.commit t tx (.created plan.eventId plan.activeEndpoints.length) with hs'
  have hrows := h.rows_commit ht hphase
  have hmono : ∀ key record, s.records.rows key = some record →
      s'.records.rows key = some record := fun _ _ => h.rows_mono ht hphase
  have htxs : ∀ {t' : Tid} {st : TxState π}, s'.txs t' = st →
      (t' = t ∧ .answered tx.call (.created plan.eventId plan.activeEndpoints.length) = st) ∨
      (t' ≠ t ∧ s.txs t' = st) := update_apply_eq_iff.1
  have hnew : Created W s' t tx.call plan :=
    ⟨Function.update_self .., (Function.update_self ..).trans (Prod.ext hevents hdeliveries), hid,
      hseen⟩
  refine ⟨fun key record hrow => ?creator, fun t' hl => ?left, fun projectId key => ?events,
    fun event hevent => ?leftEvents, fun delivery hdelivery => ?leftDeliveries,
    fun key t' v hv => ?held, fun t' tx' ht' => ?running,
    fun t' call response key ht' hkey => ?answered⟩
  case creator =>
    by_cases hkey : tx.call.key = some key
    · have hrecord' := Option.some.inj (hrow.symm.trans ((hrows key).1 hkey).2)
      exact ⟨t, tx.call, plan, hnew, hkey, hrecord'⟩
    · obtain ⟨t', call, plan', hc, hkey', hrecord⟩ :=
        h.creator key record (((hrows key).2 hkey).symm.trans hrow)
      exact ⟨t', call, plan', (hc.commit ht _).2, hkey', hrecord⟩
  case left =>
    rcases eq_or_ne t' t with rfl | hne
    · exact ⟨tx.call, plan, hnew, fun key hkey => ((hrows key).1 hkey).2⟩
    · have hl' : s.left t' ≠ ([], []) := fun hnil =>
        hl ((Function.update_of_ne hne _ _).trans hnil)
      obtain ⟨call, plan', hc, hrecord⟩ := h.left t' hl'
      exact ⟨call, plan', (hc.commit ht _).2, fun key hkey => hmono key _ (hrecord key hkey)⟩
  case events =>
    rw [State.eventsOf_commit hevents]
    by_cases hkey : tx.call.key = some (projectId, key)
    · obtain ⟨hnone, hsome⟩ := (hrows (projectId, key)).1 hkey
      have hempty := h.events projectId key
      rw [hnone] at hempty
      have hsome' : s'.records.rows (projectId, key) = _ := hsome
      rw [if_pos hkey, List.map_append, hempty, hsome']
      rfl
    · have hsame : s'.records.rows (projectId, key) = _ := (hrows (projectId, key)).2 hkey
      rw [if_neg hkey, List.append_nil, hsame]
      exact h.events projectId key
  case leftEvents =>
    rcases List.mem_append.1 hevent with hevent | hevent
    · obtain ⟨t', hl⟩ := h.leftEvents event hevent
      refine ⟨t', ?_⟩
      rw [h.left_commit ht (by rintro heq; simp [heq] at hl)]
      exact hl
    · exact ⟨t, by simpa [hs', State.commit] using hevent⟩
  case leftDeliveries =>
    rcases List.mem_append.1 hdelivery with hdelivery | hdelivery
    · obtain ⟨t', hl⟩ := h.leftDeliveries delivery hdelivery
      refine ⟨t', ?_⟩
      rw [h.left_commit ht (by rintro heq; simp [heq] at hl)]
      exact hl
    · exact ⟨t, by simpa [hs', State.commit] using hdelivery⟩
  case held =>
    obtain ⟨hv', hne⟩ := Table.commit_held_iff.1 hv
    obtain ⟨hnone, tx', plan', endpoints, ht', hphase', hkey'⟩ := h.held key t' v hv'
    refine ⟨?_, tx', plan', endpoints, (Function.update_of_ne hne _ _).trans ht', hphase', hkey'⟩
    refine ((hrows key).2 fun hkey => ?_).trans hnone
    rw [hrecord rfl key hkey] at hv'
    exact hne (Prod.mk.inj (Option.some.inj hv')).1.symm
  case running =>
    obtain ⟨-, hst⟩ | ⟨hne, ht'⟩ := htxs ht'
    · cases hst
    · exact (h.running t' tx' ht').frame (fun key v hv => Table.commit_held_of_ne hv hne) hmono
        fun _ _ hd => hd
  case answered =>
    obtain ⟨-, hst⟩ | ⟨-, ht'⟩ := htxs ht'
    · obtain ⟨rfl, rfl⟩ := TxState.answered.inj hst
      refine ⟨_, ((hrows key).1 hkey).2, ?_⟩
      simp [replay, Call.record]
    · obtain ⟨record, hrow, hresponse⟩ := h.answered t' call response key ht' hkey
      exact ⟨record, hmono key record hrow, hresponse⟩

end Moves

/-- **Every move keeps the invariant**, if it finds the endpoints of its deliveries. -/
theorem Inv.move {a : Act π} {s s' : State π} (h : Inv bodyHash W s) (hmove : Move bodyHash a s s')
    (hkept : EndpointsKept a s)
    (hW : ∀ t now eventId tx, a = .fanOut t now eventId → s.txs t = .running tx →
      W t tx.call (s.fanOut tx.call.projectId tx.call.eventType)) : Inv bodyHash W s' := by
  cases hmove with
  | @hit _ t call key record ht hkey hrow =>
    have hunheld := h.not_held_of_not_running (t := t) (by simp [ht])
    refine h.put (.inl ht) (fun _ _ hd => hd) (fun key v hv => absurd hv (hunheld key v))
      (.of_returned rfl hkey ?_)
    rw [← Table.visible_of_not_holds]
    · exact hrow
    · rintro ⟨v, hv⟩
      exact hunheld key v hv
  | @miss _ t call ht =>
    have hunheld := h.not_held_of_not_running (t := t) (by simp [ht])
    exact h.put (.inl ht) (fun _ _ hd => hd) (fun key v hv => absurd hv (hunheld key v))
      (.of_looked rfl rfl rfl)
  | @fanOut _ t tx now eventId ht hphase hid =>
    obtain ⟨hevents, hdeliveries⟩ := (h.running t tx ht).looked hphase
    refine h.put (.inr ⟨tx, ht⟩) (fun e t' hd => ?_)
      (fun key v hv => absurd hv (h.not_held_of_phase ht (by simp [hphase]) key v))
      (.of_inserting rfl (hW t now eventId tx rfl ht) (Function.update_self ..) hevents ?_
        fun hr key hkey => ?_)
    · refine (Function.update_of_ne ?_ _ _).trans hd
      rintro rfl
      rw [hid] at hd
      cases hd
    · rw [hdeliveries]
      rfl
    · obtain ⟨k, hk, -⟩ := Option.map_eq_some_iff.1 hkey
      rw [hk] at hr
      cases hr
  | @event _ t tx plan endpoints record ht hphase =>
    obtain ⟨hseen, hid, hevents, hdeliveries, hrecord⟩ :=
      (h.running t tx ht).inserting _ _ _ _ hphase
    exact h.put (.inr ⟨tx, ht⟩) (fun _ _ hd => hd)
      (fun key v hv => absurd hv (h.not_held_of_phase ht (by simp [hphase]) key v))
      (.of_inserting rfl hseen hid (by simp [hevents]) hdeliveries hrecord)
  | @delivery _ t tx plan endpointId endpoints record ht hphase =>
    obtain ⟨hseen, hid, hevents, hdeliveries, hrecord⟩ :=
      (h.running t tx ht).inserting _ _ _ _ hphase
    refine h.put (.inr ⟨tx, ht⟩) (fun _ _ hd => hd) (fun key v hv => ?_)
      (.of_inserting rfl hseen hid hevents ?_ hrecord)
    · obtain ⟨plan', endpoints', hphase', hkey⟩ := h.holder ht hv
      rw [hphase] at hphase'
      cases hphase'
      exact ⟨plan, endpoints, rfl, hkey⟩
    · rw [List.append_assoc]
      exact hdeliveries
  | record ht hphase hkey hfree hrow => exact h.record ht hphase hkey hfree hrow
  | @orphan _ t tx plan endpointId endpoints record ht hphase hrow =>
    refine h.violate ht fun key hkey => ?_
    exact (hkept t tx plan endpointId endpoints record key rfl ht hphase hkey).resolve_left
      (not_not_intro hrow)
  | @duplicate _ t tx plan endpoints key record ht hphase hkey hrow =>
    refine h.violate ht fun key' hkey' => ?_
    obtain rfl : (tx.call.projectId, key) = key' := by
      simpa [Call.key, hkey] using hkey'
    rw [← h.visible_eq ht (by simp [hphase]), hrow]
    exact Option.some_ne_none record
  | @reread _ t tx key record ht hphase hkey hrow =>
    refine h.put (.inr ⟨tx, ht⟩) (fun _ _ hd => hd)
      (fun key' v hv => absurd hv (h.not_held_of_phase ht (by simp [hphase]) key' v))
      (.of_returned rfl hkey ?_)
    rw [← h.visible_eq ht (by simp [hphase])]
    exact hrow
  | @lost _ t tx ht hphase hrow =>
    obtain ⟨key, record, hkey, hrecord⟩ := (h.running t tx ht).violated hphase
    have hnone := hrow key hkey
    rw [h.visible_eq ht (by simp [hphase]), hrecord] at hnone
    cases hnone
  | commit ht hphase => exact h.commit ht hphase
  | @reply _ t tx response ht hphase =>
    obtain ⟨key, record, hkey, hrow, hresponse⟩ := (h.running t tx ht).returned response hphase
    refine h.rollback (by simp [ht]) (by simp) fun call' response' key' heq hkey' => ?_
    obtain ⟨rfl, rfl⟩ := TxState.answered.inj heq
    obtain rfl := Option.some.inj (hkey.symm.trans hkey')
    exact ⟨record, hrow, hresponse⟩
  | edit ht hfree hdelete =>
    exact h.statement (t := a.tid) (by simp [ht]) rfl rfl (fun _ hd => hd) rfl rfl
      (fun _ _ _ _ => Iff.rfl) (fun _ _ hd => hd)
      (fun key v hv => absurd hv (h.not_held_of_not_running (by simp [ht]) key v))
      (by simp) (by simp)
  | @edited _ t deleted ht =>
    exact h.statement (t := t) (by simp [ht]) rfl rfl
      (fun _ hd => List.mem_of_mem_filter hd) rfl rfl (fun _ _ _ _ => Iff.rfl) (fun _ _ hd => hd)
      (fun key v hv => absurd hv (h.not_held_of_not_running (by simp [ht]) key v))
      (by simp) (by simp)
  | abort ht =>
    refine h.rollback (fun call response hc => ?_) (by simp) (by simp)
    rcases ht with ⟨tx, ht⟩ | ⟨deleted, ht⟩ <;> · rw [ht] at hc; cases hc

theorem inv_init : Inv bodyHash W (init : State π) where
  creator := nofun
  left _ hl := absurd rfl hl
  events _ _ := rfl
  leftEvents := nofun
  leftDeliveries := nofun
  held := nofun
  running := nofun
  answered := nofun

/-- The invariant with a weaker condition. -/
theorem Inv.mono {W' : Tid → Call π → List EndpointId → Prop} {s : State π} (h : Inv bodyHash W s)
    (himp : ∀ t call endpoints, W t call endpoints → W' t call endpoints) : Inv bodyHash W' s := by
  have hcreated : ∀ {t : Tid} {call : Call π} {plan : Plan}, Created W s t call plan →
      Created W' s t call plan := fun hc => ⟨hc.answered, hc.left, hc.drawn, himp _ _ _ hc.seen⟩
  refine
    { h with
      creator := fun key record hrow => ?creator
      left := fun t hl => ?left
      running := fun t tx ht =>
        { h.running t tx ht with inserting := fun _ _ _ _ hphase => ?running } }
  case creator =>
    obtain ⟨t, call, plan, hc, hrest⟩ := h.creator key record hrow
    exact ⟨t, call, plan, hcreated hc, hrest⟩
  case left =>
    obtain ⟨call, plan, hc, hrest⟩ := h.left t hl
    exact ⟨call, plan, hcreated hc, hrest⟩
  case running =>
    obtain ⟨hseen, hrest⟩ := (h.running t tx ht).inserting _ _ _ _ hphase
    exact ⟨himp _ _ _ hseen, hrest⟩

end Hookit.Ingestion
