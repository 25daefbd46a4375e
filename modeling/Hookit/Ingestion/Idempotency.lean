import Hookit.Ingestion.Invariant

/-!
# One event for each key

* `idempotent`: while no endpoint is deleted, there is at most one event for each key, its record
  tells what was created, every answered request was answered from the record, and no request but
  the record's creator has left a row.
* `violation_recovered`: the branch for `IntegrityError` finds a record to answer from, as long as
  no endpoint is deleted between the query that selects it and the insert of its delivery.
  `violation_unrecovered` is a run with such a deletion, in which the request fails.
-/

namespace Hookit.Ingestion

open Foundations

variable {π : Type} {bodyHash : PyStr → π → PyStr} {W : Tid → Call π → List EndpointId → Prop}

/-! ## Runs without deletions -/

/-- The action is not the deletion of an endpoint. -/
def NoDelete (a : Act π) (_ : State π) : Prop := ∀ t endpointId, a ≠ .deleteEndpoint t endpointId

/-- The committed deliveries of the event. -/
def State.deliveriesOf (s : State π) (eventId : EventId) : List Delivery :=
  s.deliveries.filter fun delivery => delivery.eventId = eventId

/-- The endpoints to which the request has yet to insert deliveries are there. -/
def Tx.Finds (tx : Tx π) (s : State π) : Prop :=
  ∀ plan event endpoints record, tx.phase = .inserting plan event endpoints record →
    ∀ endpointId ∈ endpoints, s.endpoints.rows endpointId ≠ none

/-- What holds while no endpoint is deleted. -/
structure Present (s : State π) : Prop where
  held : ∀ endpointId t v, s.endpoints.held endpointId = some (t, v) → v ≠ none
  editing : ∀ t deleted, s.txs t = .editing deleted → deleted = none
  finds : ∀ t tx, s.txs t = .running tx → tx.Finds s
  deliveries : ∀ t, ∀ event ∈ (s.left t).1, s.deliveriesOf event.id = (s.left t).2

section Moves

variable {s s' : State π} {t : Tid} {tx : Tx π}

theorem Present.kept (h : Present s) (a : Act π) : EndpointsKept a s :=
  fun t tx plan endpointId _ record _ _ ht hphase _ =>
    .inl (h.finds t tx ht plan false _ record hphase endpointId List.mem_cons_self)

theorem mem_fanOut {projectId : ProjectId} {eventType : PyStr} {endpointId : EndpointId}
    (h : endpointId ∈ s.fanOut projectId eventType) : s.endpoints.rows endpointId ≠ none := by
  intro hnone
  obtain ⟨-, hany⟩ := List.mem_filter.1 h
  rw [hnone] at hany
  cases hany

/-- The deliveries of a request that has created its event are of that event. -/
theorem Created.eventId_eq {call : Call π} {plan : Plan} (h : Created W s t call plan)
    {delivery : Delivery} (hd : delivery ∈ (s.left t).2) : delivery.eventId = plan.eventId := by
  rw [h.left] at hd
  obtain ⟨endpointId, -, rfl⟩ := List.mem_map.1 hd
  rfl

/-- **A step that commits no request** and deletes no endpoint. -/
theorem Present.statement (h : Present s) {st : TxState π}
    (htxs : s'.txs = Function.update s.txs t st)
    (hrows : ∀ endpointId, s.endpoints.rows endpointId ≠ none →
      s'.endpoints.rows endpointId ≠ none)
    (hheld : ∀ endpointId t v, s'.endpoints.held endpointId = some (t, v) → v ≠ none)
    (hedit : ∀ deleted, st = .editing deleted → deleted = none)
    (hrunning : ∀ tx, st = .running tx → tx.Finds s)
    (hdeliveries : s'.deliveries = s.deliveries) (hleft : s'.left = s.left) : Present s' := by
  have hcases : ∀ {t' : Tid} {st' : TxState π}, s'.txs t' = st' →
      st = st' ∨ s.txs t' = st' := by
    intro t' st' ht'
    rw [htxs] at ht'
    exact (update_apply_eq_iff.1 ht').imp And.right And.right
  refine ⟨hheld, fun t' deleted ht' => ?editing,
    fun t' tx ht' plan event endpoints record hphase endpointId hmem => hrows _ ?finds,
    fun t' event hevent => ?deliveries⟩
  case editing =>
    rcases hcases ht' with hst | ht'
    · exact hedit deleted hst
    · exact h.editing t' deleted ht'
  case finds =>
    rcases hcases ht' with hst | ht'
    · exact hrunning tx hst plan event endpoints record hphase endpointId hmem
    · exact h.finds t' tx ht' plan event endpoints record hphase endpointId hmem
  case deliveries =>
    rw [hleft] at hevent
    rw [State.deliveriesOf, hdeliveries, hleft]
    exact h.deliveries t' event hevent

/-- The event of an open request is not that of another. -/
theorem Created.eventId_ne {t' : Tid} {call : Call π} {plan plan' : Plan}
    (h : Created W s t' call plan') (ht : s.txs t = .running tx)
    (hid : s.drawn plan.eventId = some t) : plan.eventId ≠ plan'.eventId := by
  intro heq
  have hdrawn := h.drawn
  rw [← heq, hid] at hdrawn
  exact (h.commit ht .error).1 (Option.some.inj hdrawn).symm

/-- The commit of a request adds the deliveries of its own event. -/
theorem State.deliveriesOf_commit {plan : Plan}
    (hdeliveries : tx.deliveries = plan.activeEndpoints.map plan.delivery) (response : Response)
    (eventId : EventId) : (s.commit t tx response).deliveriesOf eventId =
      s.deliveriesOf eventId ++ if plan.eventId = eventId then tx.deliveries else [] := by
  simp only [State.deliveriesOf, State.commit, List.filter_append, hdeliveries, List.filter_map]
  congr 1
  by_cases heq : plan.eventId = eventId <;>
    simp [heq, Plan.delivery, Delivery.new, Function.comp_def]

theorem Present.commit (h : Present s) (hinv : Inv bodyHash W s) (ht : s.txs t = .running tx)
    {plan : Plan} (hphase : tx.phase = .inserting plan false [] false) (response : Response) :
    Present (s.commit t tx response) := by
  obtain ⟨-, hid, hevents, hdeliveries, -⟩ := (hinv.running t tx ht).inserting _ _ _ _ hphase
  simp only [Bool.false_eq_true, if_false] at hevents
  rw [List.map_nil, List.append_nil] at hdeliveries
  have htxs : ∀ {t' : Tid} {st : TxState π}, (s.commit t tx response).txs t' = st →
      TxState.answered tx.call response = st ∨ s.txs t' = st :=
    fun ht' => (update_apply_eq_iff.1 ht').imp And.right And.right
  refine ⟨h.held, fun t' deleted ht' => ?editing,
    fun t' tx' ht' => ?finds, fun t' event hevent => ?deliveries⟩
  case editing =>
    rcases htxs ht' with hst | ht'
    · cases hst
    · exact h.editing t' deleted ht'
  case finds =>
    rcases htxs ht' with hst | ht'
    · cases hst
    · exact h.finds t' tx' ht'
  case deliveries =>
    rw [State.deliveriesOf_commit hdeliveries]
    rcases eq_or_ne t' t with rfl | hne
    · have hleft : (s.commit t' tx response).left t' = (tx.events, tx.deliveries) :=
        Function.update_self ..
      rw [hleft, hevents] at hevent
      obtain rfl := List.mem_singleton.1 hevent
      have hold : s.deliveriesOf plan.eventId = [] := by
        refine List.filter_eq_nil_iff.2 fun delivery hd heq => ?_
        obtain ⟨t'', hl⟩ := hinv.leftDeliveries delivery hd
        obtain ⟨call, plan', hc, -⟩ := hinv.left t'' (by rintro heq'; simp [heq'] at hl)
        exact hc.eventId_ne ht hid ((of_decide_eq_true heq).symm.trans (hc.eventId_eq hl))
      rw [hleft, show (tx.call.event plan).id = plan.eventId from rfl, hold, if_pos rfl,
        List.nil_append]
    · have hleft : (s.commit t tx response).left t' = s.left t' := Function.update_of_ne hne _ _
      rw [hleft] at hevent ⊢
      obtain ⟨call, plan', hc, -⟩ := hinv.left t' (by rintro heq'; simp [heq'] at hevent)
      have hid' : event.id = plan'.eventId := by
        rw [hc.left] at hevent
        rw [List.mem_singleton.1 hevent]
        rfl
      rw [if_neg (hid' ▸ hc.eventId_ne ht hid), List.append_nil]
      exact h.deliveries t' event hevent

/-- A statement of a request that writes no endpoint. -/
theorem Present.put (h : Present s) {records : Table Tid RecordKey IdempotencyRecord}
    {shares : List (Tid × EndpointId)} {drawn : EventId → Option Tid} (htx : tx.Finds s) :
    Present { s.put t tx with records, shares, drawn } := by
  refine h.statement rfl (fun _ hrow => hrow) h.held (by simp) (fun tx' heq => ?_) rfl rfl
  obtain rfl := TxState.running.inj heq
  exact htx

theorem Present.rollback (h : Present s) {st : TxState π} (hedit : ∀ deleted, st ≠ .editing deleted)
    (hrunning : ∀ tx, st = .running tx → tx.Finds s) : Present (s.rollback t st) :=
  h.statement rfl (fun _ hrow => hrow)
    (fun endpointId t' v hv => h.held endpointId t' v (Table.rollback_held_iff.1 hv).1)
    (fun deleted heq => absurd heq (hedit deleted)) hrunning rfl rfl

/-- A request that is not inserting has nothing to find. -/
theorem Tx.finds_of_phase
    (hphase : ∀ plan event endpoints record, tx.phase ≠ .inserting plan event endpoints record) :
    tx.Finds s :=
  fun plan event endpoints record heq => absurd heq (hphase plan event endpoints record)

theorem Present.violate (h : Present s) : Present (s.violate t tx) := by
  unfold State.violate
  split
  · refine h.rollback (by simp) fun tx' heq => ?_
    obtain rfl := TxState.running.inj heq
    exact Tx.finds_of_phase (by simp)
  · exact h.rollback (by simp) (by simp)

/-- A request that inserts finds what it has found before. -/
theorem Present.finds_next (h : Present s) {tx' : Tx π} {plan : Plan} {event event' : Bool}
    {endpoints endpoints' : List EndpointId} {record record' : Bool} (ht : s.txs t = .running tx)
    (hphase : tx.phase = .inserting plan event endpoints record)
    (hphase' : tx'.phase = .inserting plan event' endpoints' record')
    (hsub : endpoints' ⊆ endpoints) : tx'.Finds s := by
  intro plan'' event'' endpoints'' record'' hphase'' endpointId hmem
  rw [hphase'] at hphase''
  cases hphase''
  exact h.finds t tx ht plan event endpoints record hphase endpointId (hsub hmem)

/-- **Every move but a deletion keeps the endpoints.** -/
theorem Present.move {a : Act π} (h : Present s) (hinv : Inv bodyHash W s)
    (hmove : Move bodyHash a s s') (hno : NoDelete a s) : Present s' := by
  cases hmove with
  | hit ht hkey hrow => exact h.put (Tx.finds_of_phase (by simp))
  | miss ht => exact h.put (Tx.finds_of_phase (by simp))
  | fanOut ht hphase hid =>
    refine h.put fun plan event endpoints record heq endpointId hmem => ?_
    cases heq
    exact mem_fanOut hmem
  | event ht hphase => exact h.put (h.finds_next ht hphase rfl (List.Subset.refl _))
  | delivery ht hphase => exact h.put (h.finds_next ht hphase rfl (List.subset_cons_self _ _))
  | record ht hphase hkey hfree hrow => exact h.put (h.finds_next ht hphase rfl (List.Subset.refl _))
  | orphan ht hphase hrow => exact h.violate
  | duplicate ht hphase hkey hrow => exact h.violate
  | reread ht hphase hkey hrow => exact h.put (Tx.finds_of_phase (by simp))
  | lost ht hphase hrow => exact h.rollback (by simp) (by simp)
  | commit ht hphase => exact h.commit hinv ht hphase _
  | reply ht hphase => exact h.rollback (by simp) (by simp)
  | @edit _ a endpointIds endpointId row deleted ht hfree hdelete =>
    have hnot : ¬ (row = none ∨ deleted ≠ none) := fun hor => hno _ _ (hdelete hor)
    refine h.statement rfl (fun _ hrow => hrow) (fun endpointId' t' v hv => ?_)
      (fun deleted' heq => ?_) nofun rfl rfl
    · rcases eq_or_ne endpointId' endpointId with rfl | hne
      · obtain ⟨-, rfl⟩ := Prod.mk.inj (Option.some.inj (Table.write_held_self.symm.trans hv))
        exact fun hnone => hnot (.inl hnone)
      · exact h.held endpointId' t' v ((Table.write_held_of_ne hne).symm.trans hv)
    · obtain rfl := TxState.editing.inj heq
      exact not_not.1 fun hne => hnot (.inr hne)
  | @edited _ t deleted ht =>
    obtain rfl := h.editing t deleted ht
    refine h.statement rfl (fun endpointId hrow => ?_)
      (fun endpointId t' v hv => h.held endpointId t' v (Table.commit_held_iff.1 hv).1) nofun nofun
      (List.filter_eq_self.2 fun _ _ => by simp) rfl
    change s.endpoints.visible t endpointId ≠ none
    by_cases hholds : s.endpoints.Holds t endpointId
    · obtain ⟨v, hv⟩ := hholds
      rw [Table.visible_of_held hv]
      exact h.held endpointId t v hv
    · rw [Table.visible_of_not_holds hholds]
      exact hrow
  | abort ht => exact h.rollback (by simp) (by simp)

end Moves

/-- The endpoints are what the query of transaction `t` has returned in the run that led to the
state. -/
def Seen (bodyHash : PyStr → π → PyStr) (s : State π) (t : Tid) (call : Call π)
    (endpoints : List EndpointId) : Prop :=
  ∃ s₀ s₁ now eventId, (ingestion bodyHash).ReachableIf NoDelete s₀ ∧
    step bodyHash (.fanOut t now eventId) s₀ = some s₁ ∧
    (ingestion bodyHash).Steps NoDelete s₁ s ∧
    endpoints = s₀.fanOut call.projectId call.eventType

theorem inv_of_noDelete {s : State π} (h : (ingestion bodyHash).ReachableIf NoDelete s) :
    Inv bodyHash (Seen bodyHash s) s ∧ Present s := by
  have key : (ingestion bodyHash).ReachableIf NoDelete s ∧ Inv bodyHash (Seen bodyHash s) s ∧
      Present s := by
    refine h.invariant (P := fun s => (ingestion bodyHash).ReachableIf NoDelete s ∧
      Inv bodyHash (Seen bodyHash s) s ∧ Present s) ⟨.refl _, inv_init, nofun, nofun, nofun, nofun⟩
      fun a s s' ⟨hreach, hinv, hpresent⟩ hno hstep => ?_
    have hmove := move_of_step hstep
    refine ⟨.tail hreach hno hstep, (hinv.mono ?_).move hmove (hpresent.kept a) ?_,
      hpresent.move hinv hmove hno⟩
    · rintro t call endpoints ⟨s₀, s₁, now, eventId, h₀, h₁, hsteps, hseen⟩
      exact ⟨s₀, s₁, now, eventId, h₀, h₁, .tail hsteps hno hstep, hseen⟩
    · rintro t now eventId tx rfl -
      exact ⟨s, s', now, eventId, hreach, hstep, .refl _, rfl⟩
  exact key.2

/-- An event is created by one request. -/
theorem Created.unique {s : State π} {t t' : Tid} {call call' : Call π} {plan plan' : Plan}
    (h : Created W s t call plan) (h' : Created W s t' call' plan')
    (heq : plan'.eventId = plan.eventId) : t' = t := by
  have hdrawn := h'.drawn
  rw [heq, h.drawn] at hdrawn
  exact (Option.some.inj hdrawn).symm

/-- The event of a record is the only one with its key. -/
theorem Inv.eventsOf_eq {s : State π} (h : Inv bodyHash W s) {creator : Tid} {call : Call π}
    {plan : Plan} (hc : Created W s creator call plan) {projectId : ProjectId} {key key' : PyStr}
    (hrow : s.records.rows (projectId, key) = some (call.record bodyHash plan key')) :
    s.eventsOf projectId key = [call.event plan] := by
  have hids := h.events projectId key
  rw [hrow] at hids
  obtain ⟨event, hevent, hid⟩ := List.map_eq_singleton_iff.1 hids
  obtain ⟨t, hl⟩ := h.leftEvents event
    (List.mem_of_mem_filter (hevent ▸ List.mem_singleton_self event))
  obtain ⟨call', plan', hc', -⟩ := h.left t (by rintro heq; simp [heq] at hl)
  rw [hc'.left] at hl
  obtain rfl := List.mem_singleton.1 hl
  obtain rfl := hc.unique hc' hid
  rw [hevent, ← (Prod.mk.inj (hc'.left.symm.trans hc.left)).1]

/-- **One event for each key.** In every state of a run in which no endpoint is deleted: if there is
a record with the key, then there is exactly one event with it, the record's, left behind by one
request with one delivery for each endpoint that the request's query returned, and no other request
with the key has left a row; if there is none, then there is no event. Every request with the key
that was answered was answered from the record. -/
theorem idempotent {s : State π} (h : (ingestion bodyHash).ReachableIf NoDelete s)
    (projectId : ProjectId) (key : PyStr) :
    (∀ record, s.records.rows (projectId, key) = some record →
      record.projectId = projectId ∧ record.idempotencyKey = key ∧
      ∃ creator event, s.eventsOf projectId key = [event] ∧ event.id = record.eventId ∧
        record.requestHash = bodyHash event.type event.payload ∧
        s.left creator = ([event], s.deliveriesOf record.eventId) ∧
        record.queuedDeliveries = (s.deliveriesOf record.eventId).length ∧
        (∃ s₀ s₁ now eventId, (ingestion bodyHash).ReachableIf NoDelete s₀ ∧
          step bodyHash (.fanOut creator now eventId) s₀ = some s₁ ∧
          (ingestion bodyHash).Steps NoDelete s₁ s ∧
          (s.deliveriesOf record.eventId).map (·.endpointId) = s₀.fanOut projectId event.type) ∧
        ∀ t, s.left t ≠ ([], []) → ∃ call response, s.txs t = .answered call response ∧
          (call.key = some (projectId, key) → t = creator)) ∧
    (s.records.rows (projectId, key) = none → s.eventsOf projectId key = []) ∧
    (∀ t call response, s.txs t = .answered call response → call.key = some (projectId, key) →
      ∃ record, s.records.rows (projectId, key) = some record ∧
        (record.requestHash = call.requestHash bodyHash →
          response = .created record.eventId record.queuedDeliveries) ∧
        (record.requestHash ≠ call.requestHash bodyHash → response = .conflict)) ∧
    (∀ event ∈ s.events, ∃ t, event ∈ (s.left t).1) ∧
    ∀ delivery ∈ s.deliveries, ∃ t, delivery ∈ (s.left t).2 := by
  obtain ⟨hinv, hpresent⟩ := inv_of_noDelete h
  refine ⟨fun record hrow => ?record, fun hnone => ?none, fun t call response ht hkey => ?answered,
    hinv.leftEvents, hinv.leftDeliveries⟩
  case record =>
    obtain ⟨creator, call, plan, hc, hkey, rfl⟩ := hinv.creator _ record hrow
    have hproject : call.projectId = projectId := (Call.key_eq_some_iff.1 hkey).1
    have hevents := hinv.eventsOf_eq hc hrow
    have hmem : call.event plan ∈ (s.left creator).1 := by
      rw [hc.left]
      exact List.mem_singleton_self _
    have hdeliveries : s.deliveriesOf plan.eventId = plan.activeEndpoints.map plan.delivery :=
      (hpresent.deliveries creator _ hmem).trans (congrArg Prod.snd hc.left)
    obtain ⟨s₀, s₁, now, eventId, h₀, h₁, hsteps, hseen⟩ := hc.seen
    refine ⟨hproject, rfl, creator, call.event plan, hevents, rfl, rfl, ?left, ?length,
      ⟨s₀, s₁, now, eventId, h₀, h₁, hsteps, ?fanOut⟩, fun t hl => ?others⟩
    case left => exact hc.left.trans (congrArg (Prod.mk _) hdeliveries.symm)
    case length =>
      change plan.activeEndpoints.length = (s.deliveriesOf plan.eventId).length
      rw [hdeliveries, List.length_map]
    case fanOut =>
      change (s.deliveriesOf plan.eventId).map (·.endpointId) = s₀.fanOut projectId call.eventType
      rw [hdeliveries, List.map_map, ← hproject, ← hseen]
      exact List.map_id _
    case others =>
      obtain ⟨call', plan', hc', hrecord⟩ := hinv.left t hl
      refine ⟨call', _, hc'.answered, fun hkey' => hc.unique hc' ?_⟩
      have hsame := (hrecord _ hkey').symm.trans hrow
      exact congrArg IdempotencyRecord.eventId (Option.some.inj hsame)
  case none =>
    have hempty := hinv.events projectId key
    rw [hnone] at hempty
    exact List.map_eq_nil_iff.1 hempty
  case answered =>
    obtain ⟨record, hrow, rfl⟩ := hinv.answered t call response _ ht hkey
    refine ⟨record, hrow, fun heq => ?_, fun hne => ?_⟩
    · simp [replay, heq]
    · simp [replay, hne]

/-- A receiver of orders. -/
def subscriber : Endpoint where
  id := 1
  projectId := 1
  url := .ofString "http://receiver.example/hook"
  eventTypes := [.ofString "order.created"]
  status := .active
  payloadFormat := .raw
  rateLimitRps := none

/-- A request with the key `k`. -/
def order (payload : Bool) : Call Bool :=
  ⟨1, .ofString "order.created", payload, some (.ofString "k")⟩

/-- A hash of the payload only. -/
def payloadHash (_ : PyStr) (payload : Bool) : PyStr :=
  .ofString (if payload then "order" else "other order")

/-- Two requests look up the key before either commits. The first goes on to its commit; the second
then fails on the unique index. -/
def race : List (Act Bool) :=
  [.createEndpoint 0 subscriber, .commit 0, .lookup 1 (order true), .lookup 2 (order true),
    .fanOut 1 0 11, .fanOut 2 0 12, .insertEvent 1, .insertDelivery 1, .insertRecord 1,
    .insertEvent 2, .insertDelivery 2, .commit 1, .insertRecord 2]

theorem race_noDelete {l : List (Act Bool)} (hl : ∀ a ∈ l, ∀ s, NoDelete a s) :
    ∀ a ∈ race ++ l, ∀ s, NoDelete a s := by
  refine List.forall_mem_append.2 ⟨fun a ha s t endpointId heq => ?_, hl⟩
  subst heq
  simp [race] at ha

/-- The second request answers from the record of the first, and a third one with another body is
refused. -/
theorem idempotent_race : ∃ s : State Bool, (ingestion payloadHash).ReachableIf NoDelete s ∧
    ∃ record, s.records.rows (1, .ofString "k") = some record ∧
      record.queuedDeliveries = (s.deliveriesOf record.eventId).length ∧
      s.txs 2 = .answered (order true) (.created record.eventId record.queuedDeliveries) ∧
      s.txs 3 = .answered (order false) .conflict := by
  have hok : ∀ a ∈ race ++ [.reread 2, .commit 2, .lookup 3 (order false), .commit 3], ∀ s,
      NoDelete a s := by
    refine race_noDelete fun a ha s t endpointId heq => ?_
    subst heq
    simp at ha
  have hrun : ((ingestion payloadHash).run
      (race ++ [.reread 2, .commit 2, .lookup 3 (order false), .commit 3]) init).map (fun s =>
        decide (s.txs 2 = .answered (order true) (.created 11 1)) &&
        decide (s.txs 3 = .answered (order false) .conflict)) = some true := by
    decide +kernel
  obtain ⟨s, hs, hp⟩ := Machine.exists_reachable_of_run _ hok hrun
  simp only [Bool.and_eq_true, decide_eq_true_eq] at hp
  obtain ⟨h₂, h₃⟩ := hp
  obtain ⟨hrecord, -, hanswered, -⟩ := idempotent hs 1 (.ofString "k")
  obtain ⟨record, hrow, hcreated, hconflict⟩ := hanswered 2 _ _ h₂ rfl
  obtain ⟨-, -, _, _, -, -, -, -, hqueued, -⟩ := hrecord record hrow
  refine ⟨s, hs, record, hrow, hqueued, h₂.trans (congrArg _ ?_), h₃⟩
  by_cases hhash : record.requestHash = (order true).requestHash payloadHash
  · exact hcreated hhash
  · cases hconflict hhash

/-! ## The branch for `IntegrityError` -/

/-- In a run without deletions every insert of a delivery finds its endpoint. -/
theorem kept_of_noDelete {s : State π} (h : (ingestion bodyHash).ReachableIf NoDelete s) :
    (ingestion bodyHash).ReachableIf EndpointsKept s := by
  have key : (ingestion bodyHash).ReachableIf NoDelete s ∧
      (ingestion bodyHash).ReachableIf EndpointsKept s := by
    refine h.invariant (P := fun s => (ingestion bodyHash).ReachableIf NoDelete s ∧
      (ingestion bodyHash).ReachableIf EndpointsKept s) ⟨.refl _, .refl _⟩
      fun a s s' ⟨hno, hkept⟩ ha hstep => ?_
    exact ⟨.tail hno ha hstep, .tail hkept ((inv_of_noDelete hno).2.kept a) hstep⟩
  exact key.2

theorem inv_of_kept {s : State π} (h : (ingestion bodyHash).ReachableIf EndpointsKept s) :
    Inv bodyHash (fun _ _ _ => True) s :=
  h.invariant inv_init fun _ _ _ hinv hkept hstep =>
    hinv.move (move_of_step hstep) hkept fun _ _ _ _ _ _ => trivial

/-- **A request that fails on an insert finds a record**, where every insert of a delivery finds its
endpoint or a committed record with the key of its request: in every state the second read of a
request that has rolled back to its savepoint returns a row, and every answer to a request with a
key is the record's event or a `409`. -/
theorem violation_recovered {s : State π} (h : (ingestion bodyHash).ReachableIf EndpointsKept s) :
    (∀ t tx, s.txs t = .running tx → tx.phase = .violated → ∃ key record,
      tx.call.key = some key ∧ s.records.visible t key = some record) ∧
    ∀ t call response key, s.txs t = .answered call response → call.key = some key →
      ∃ record, s.records.rows key = some record ∧
        (response = .created record.eventId record.queuedDeliveries ∨ response = .conflict) := by
  have hinv := inv_of_kept h
  refine ⟨fun t tx ht hphase => ?_, fun t call response key ht hkey => ?_⟩
  · obtain ⟨key, record, hkey, hrow⟩ := (hinv.running t tx ht).violated hphase
    refine ⟨key, record, hkey, ?_⟩
    rw [hinv.visible_eq ht (by simp [hphase])]
    exact hrow
  · obtain ⟨record, hrow, rfl⟩ := hinv.answered t call response key ht hkey
    refine ⟨record, hrow, ?_⟩
    unfold replay
    split_ifs
    · exact .inr rfl
    · exact .inl rfl

/-- The loser of a race is about to read the winner's record. -/
theorem violation_recovered_race : ∃ s : State Bool,
    (ingestion payloadHash).ReachableIf EndpointsKept s ∧
    (∃ tx, s.txs 2 = .running tx ∧ tx.phase = .violated) ∧
    ∃ record, s.records.visible 2 (1, .ofString "k") = some record := by
  have hrun : ((ingestion payloadHash).run (race ++ []) init).map (fun s =>
      decide (s.txs 2 = .running ⟨order true, .violated, [], []⟩)) = some true := by
    decide +kernel
  obtain ⟨s, hs, hp⟩ := Machine.exists_reachable_of_run _
    (race_noDelete fun a ha => absurd ha List.not_mem_nil) hrun
  have ht := of_decide_eq_true hp
  obtain ⟨key, record, hkey, hrow⟩ := (violation_recovered (kept_of_noDelete hs)).1 2 _ ht rfl
  obtain rfl : (1, .ofString "k") = key := Option.some.inj hkey
  exact ⟨s, kept_of_noDelete hs, ⟨_, ht, rfl⟩, record, hrow⟩

/-- An endpoint is deleted between the query that selects it and the insert of its delivery. -/
def deletedMeanwhile : List (Act Bool) :=
  [.createEndpoint 0 subscriber, .commit 0, .lookup 1 (order true), .fanOut 1 0 11,
    .deleteEndpoint 2 1, .commit 2, .insertEvent 1, .insertDelivery 1]

/-- **A request that fails on an insert need not find a record.** The endpoint that it has selected
is deleted, its insert violates the foreign key, and there is no record to read: the request fails,
and its event is lost. -/
theorem violation_unrecovered : ∃ s s' : State Bool, (ingestion payloadHash).Reachable s ∧
    (ingestion payloadHash).Steps (fun _ _ => True) s s' ∧
    (∃ tx, s.txs 1 = .running tx ∧ tx.call = order true ∧ tx.phase = .violated) ∧
    s.records.visible 1 (1, .ofString "k") = none ∧
    s'.txs 1 = .answered (order true) .error ∧ s'.events = [] := by
  have hrun : (((ingestion payloadHash).run deletedMeanwhile init).bind fun s =>
      ((ingestion payloadHash).run [.reread 1] s).map fun s' =>
        decide (s.txs 1 = .running ⟨order true, .violated, [], []⟩) &&
        decide (s.records.visible 1 (1, .ofString "k") = none) &&
        decide (s'.txs 1 = .answered (order true) .error) && decide (s'.events = [])) =
      some true := by
    decide +kernel
  obtain ⟨s, s', hs, hs', hp⟩ := Machine.exists_steps_of_run (fun _ _ => True)
    (fun _ _ _ => trivial) hrun
  simp only [Bool.and_eq_true, decide_eq_true_eq] at hp
  obtain ⟨⟨⟨ht, hnone⟩, hanswered⟩, hevents⟩ := hp
  exact ⟨s, s', hs, hs', ⟨_, ht, rfl, rfl⟩, hnone, hanswered, hevents⟩

end Hookit.Ingestion
