import Hookit.Foundations.Lists
import Hookit.Tenancy.Attempts
import Hookit.Tenancy.Visitors

/-!
# What the timeline of the showcase shows

The page of deliveries reads three tables and counts over what it has read. `Worked` says that every
attempt has been made by some worker; the API, the workers and the visitors keep it beside
`Integral` and `Numbered`. `timeline_adds_up`: so after any run of the platform the page is answered,
every delivery on it has the attempts that it counts, and the workers have made exactly these.
-/

namespace Hookit.Tenancy

open Foundations Foundations.Service Seeding Handles

variable {D : Deployment} {p : Uuid} {db db' : Database} {settings : SeedSettings}

/-- Every attempt has been made by a worker. -/
def Worked (db : Database) : Prop :=
  ∀ k a, db.attempts.get? k = some a → a.workerId.isSome = true

/-! ## Every transaction keeps it -/

section Transactions

theorem worked_moves {call : Call D.maxEventPayloadBytes} (h : Worked db)
    (hmoves : Moves call db db') : Worked db' := by
  cases hmoves with
  | same _ hattempts | created _ _ _ _ _ hattempts | redriven _ _ _ _ _ _ _ _ _ hattempts =>
    intro k a ha
    exact h k a (hattempts ▸ ha)
  | deleted endpointId _ _ hattempts =>
    intro k a ha
    rw [hattempts] at ha
    exact h k a (Option.filter_eq_some_iff.1
      ((Rows.get?_filter (T := db.attempts) _).symm.trans ha)).1

theorem worked_tick {lib : UrlLib} {cfg : Settings} {draws : TickDraws}
    {settled : List (Uuid × Settled)} (h : Worked db) (hnew : NewAttempts lib cfg draws db)
    (hout : db.outcomes lib cfg draws = .ok settled) : Worked (tick lib cfg draws db) := by
  intro k a ha
  rw [tick_of_ok hout] at ha
  rcases (Rows.get?_insertAll (hnew settled hout)).1 ha with hold | hmem
  · exact h k a hold
  · obtain ⟨e, -, heq⟩ := List.mem_map.1 hmem
    obtain ⟨-, rfl⟩ := Prod.mk.inj heq
    rfl

/-- What the platform keeps. -/
structure Tracked (db : Database) : Prop where
  integral : Integral db
  numbered : Numbered db
  worked : Worked db

theorem tracked_serve {a : Action D.maxEventPayloadBytes} (h : Tracked db)
    (ha : Admitted D a db) : Tracked (serve D a db).2 := by
  refine ⟨integral_serve h.integral ha.1, numbered_serve h.integral h.numbered ha, ?_⟩
  rcases moves_serve ha.1 with ⟨-, hattempts⟩ | ⟨credentials, now, call, answer, rfl, -, hmoves⟩ |
    ⟨project, k, leased, now, updatedAt, r, rfl, -, -, hattempts⟩ | ⟨draws, settled, rfl, hout⟩
  · intro k a ha
    exact h.worked k a (hattempts ▸ ha)
  · exact worked_moves h.worked hmoves
  · intro k a ha
    exact h.worked k a (hattempts ▸ ha)
  · exact worked_tick h.worked ha.1 hout

/-- A visitor changes a delivery as the project itself might. -/
theorem visit_inv {handles : ShowcaseHandles} {call : Visit} {y : VisitAnswer × Database}
    (h : visit D.settings handles call db = .ok y) :
    y.2 = db ∨ ∃ deliveryId now updatedAt answer,
      handle D handles.projectId (.redriveDelivery deliveryId now updatedAt) db =
        .ok (answer, y.2) := by
  cases call with
  | summary | feed | deliveries =>
    obtain ⟨x, hx, rfl⟩ := map_eq_ok_iff.1 h
    exact .inl (reading_inv hx : x.2 = db)
  | redrive deliveryId latest now updatedAt =>
    obtain ⟨x, hx, rfl⟩ := map_eq_ok_iff.1 h
    cases hid : deliveryId.or latest with
    | none =>
      simp only [redrive, hid] at hx
      obtain rfl := pure_eq_ok_iff.1 hx
      exact .inl rfl
    | some id =>
      rw [redrive_of_some handles.projectId id hid] at hx
      obtain ⟨x', hx', rfl⟩ := map_eq_ok_iff.1 hx
      refine .inr ⟨id, now, updatedAt, .delivery x'.1, ?_⟩
      simp only [handle, hx']
      rfl

theorem tracked_visit {a : ShowcaseHandles × Visit} (h : Tracked db)
    (ha : Resolved settings a db) : Tracked ((visitors D).serve a db).2 := by
  have hintegral := (private_visitors D settings a.1.projectId).kept h.integral ha
  cases hroute : visit D.settings a.1 a.2 db with
  | error e =>
    simp only [visitors, hroute]
    exact h
  | ok y =>
    simp only [visitors, hroute, respond] at hintegral ⊢
    rcases visit_inv hroute with heq | ⟨deliveryId, now, updatedAt, answer, hhandle⟩
    · rw [heq]
      exact h
    · have hunused : Call.Unused a.1.projectId
          (.redriveDelivery deliveryId now updatedAt : Call D.maxEventPayloadBytes) db := trivial
      have hmoves := moves_handle hunused hhandle
      exact ⟨hintegral, numbered_moves h.integral h.numbered hmoves, worked_moves h.worked hmoves⟩

/-- A transaction of the platform as `Happens` has it, with what a tick has claimed. -/
def Scheduled (D : Deployment) (settings : SeedSettings) :
    Action D.maxEventPayloadBytes ⊕ ShowcaseHandles × Visit → Database → Prop :=
  Sum.elim (Admitted D) (Resolved settings)

/-- **Over any run** of the platform. -/
theorem tracked_exec {l : List (Action D.maxEventPayloadBytes ⊕ ShowcaseHandles × Visit)}
    (hdb : Tracked db) (hl : (platform D).Meets (Scheduled D settings) l db) :
    Tracked ((platform D).exec l db) := by
  refine hl.invariant (fun {a s} hs ha => ?_) hdb
  cases a with
  | inl a => exact tracked_serve hs ha
  | inr a => exact tracked_visit hs ha

end Transactions

/-! ## The page -/

section Page

/-- A delivery is on the timeline with the attempts that it counts, each by a worker. -/
theorem exists_timelineItem (h : Tracked db) {e : Uuid × DeliveryRow}
    (he : db.deliveries.get? e.1 = some e.2) :
    ∃ item, timelineItem db e = some item ∧
      item.attempts.map TimelineAttemptItem.attemptNumber = List.range' 1 item.attemptCount ∧
      ∀ attempt ∈ item.attempts, attempt.workerId.isSome = true := by
  obtain ⟨event, hevent, -⟩ := (h.integral.deliveries e.1 e.2 he).owner
  refine ⟨_, Option.bind_eq_some_iff.2 ⟨event, hevent, rfl⟩, ?_, ?_⟩
  · change (((attemptsOn db e.1).mergeSort _).map TimelineAttemptItem.ofRow).map
      TimelineAttemptItem.attemptNumber = _
    rw [mergeSort_attemptsOn h.numbered he, List.map_map]
    exact h.numbered.attempts e.1 e.2 he
  · intro attempt hattempt
    obtain ⟨a, ha, rfl⟩ := List.mem_map.1 hattempt
    have hmem := (List.mergeSort_perm _ _).mem_iff.1 ha
    exact h.worked a.1 a.2 (Rows.get?_eq_some_iff.2 (Rows.mem_select.1 hmem).1)

theorem workerKey_injective : Function.Injective workerKey := by
  rintro ⟨a, m⟩ ⟨b, n⟩ h
  obtain ⟨hcount, hname⟩ := Prod.mk.inj (toLex.injective h)
  exact Prod.ext hname (Int.ofNat.inj (neg_injective hcount))

/-- The numbers of attempts in their order. -/
theorem workers_decreasing (items : List TimelineDeliveryItem) :
    ((attemptsByWorker items).insertionSort fun a b => workerKey a ≤ workerKey b).Pairwise
      fun a b => workerKey a < workerKey b := by
  have htotal : Std.Total fun a b : PyStr × ℕ => workerKey a ≤ workerKey b :=
    ⟨fun a b => le_total (workerKey a) (workerKey b)⟩
  have htrans : IsTrans (PyStr × ℕ) fun a b => workerKey a ≤ workerKey b :=
    ⟨fun _ _ _ => le_trans⟩
  have hsorted := List.pairwise_insertionSort (fun a b => workerKey a ≤ workerKey b)
    (attemptsByWorker items)
  have hnodup : ((attemptsByWorker items).insertionSort
      fun a b => workerKey a ≤ workerKey b).Nodup :=
    (List.perm_insertionSort _ _).nodup_iff.2 (counts_tally _).nodup.of_map
  exact hsorted.imp₂ (fun a b hle hne => lt_of_le_of_ne hle (workerKey_injective.ne hne)) hnodup

/-- **The workers of a page**: each with the number of its attempts, all attempts together. -/
theorem workerStats_spec {items : List TimelineDeliveryItem}
    (hitems : ∀ item ∈ items,
      item.attempts.map TimelineAttemptItem.attemptNumber = List.range' 1 item.attemptCount ∧
        ∀ attempt ∈ item.attempts, attempt.workerId.isSome = true) :
    (∀ name n, ⟨name, n⟩ ∈ workerStats items ↔ 0 < n ∧
      (items.flatMap TimelineDeliveryItem.attempts).countP (fun a => a.workerId = some name) = n) ∧
    ((workerStats items).map WorkerStat.attempts).sum =
      (items.map TimelineDeliveryItem.attemptCount).sum := by
  have hperm := List.perm_insertionSort (fun a b => workerKey a ≤ workerKey b)
    (attemptsByWorker items)
  constructor
  · intro name n
    have hmem : ⟨name, n⟩ ∈ workerStats items ↔ (name, n) ∈ attemptsByWorker items := by
      rw [workerStats, List.mem_map, ← hperm.mem_iff]
      constructor
      · rintro ⟨⟨name', n'⟩, hkv, heq⟩
        obtain ⟨rfl, rfl⟩ := WorkerStat.mk.inj heq
        exact hkv
      · exact fun hkv => ⟨(name, n), hkv, rfl⟩
    rw [hmem, attemptsByWorker, (counts_tally _).mem_iff, count_filterMap]
  · have hlength : ∀ item ∈ items, item.attempts.length = item.attemptCount := by
      intro item hitem
      have h := congrArg List.length (hitems item hitem).1
      rwa [List.length_map, List.length_range'] at h
    have hall : ((items.flatMap TimelineDeliveryItem.attempts).filterMap
        TimelineAttemptItem.workerId).length =
        (items.flatMap TimelineDeliveryItem.attempts).length := by
      rw [List.length_filterMap_eq_countP, List.countP_eq_length]
      intro attempt hattempt
      obtain ⟨item, hitem, hattempt⟩ := List.mem_flatMap.1 hattempt
      exact (hitems item hitem).2 attempt hattempt
    rw [workerStats, List.map_map]
    calc (((attemptsByWorker items).insertionSort fun a b => workerKey a ≤ workerKey b).map
          Prod.snd).sum
        = ((attemptsByWorker items).map Prod.snd).sum := (hperm.map Prod.snd).sum_eq
      _ = _ := sum_tally _
      _ = (items.flatMap TimelineDeliveryItem.attempts).length := hall
      _ = (items.map TimelineDeliveryItem.attemptCount).sum := by
        rw [List.length_flatMap]
        exact congrArg List.sum (List.map_congr_left hlength)

/-- **`GET /showcase/deliveries` adds up**: after any run of the platform from a database without
deliveries, a visitor's call is answered with a page; every delivery on it has the attempts from 1 to
its count; and the workers, those with the most attempts first, have made exactly these attempts. -/
theorem timeline_adds_up {l : List (Action D.maxEventPayloadBytes ⊕ ShowcaseHandles × Visit)}
    (hdb : Integral db) (hdeliveries : db.deliveries = .empty) (hattempts : db.attempts = .empty)
    {handles : ShowcaseHandles} {now : Time}
    (hl : (platform D).Meets (Scheduled D settings) (l ++ [.inr (handles, .deliveries now)]) db) :
    ∃ page, (platform D).serve (.inr (handles, .deliveries now)) ((platform D).exec l db) =
        (.inr (.ok (.deliveries (some page))), (platform D).exec l db) ∧
      (∀ item ∈ page.deliveries,
        item.attempts.map TimelineAttemptItem.attemptNumber = List.range' 1 item.attemptCount) ∧
      (page.workers.Pairwise fun v w =>
        workerKey (v.name, v.attempts) < workerKey (w.name, w.attempts)) ∧
      (∀ name n, ⟨name, n⟩ ∈ page.workers ↔ 0 < n ∧
        (page.deliveries.flatMap TimelineDeliveryItem.attempts).countP
          (fun a => a.workerId = some name) = n) ∧
      (page.workers.map WorkerStat.attempts).sum =
        (page.deliveries.map TimelineDeliveryItem.attemptCount).sum := by
  have hnew : Tracked db := by
    refine ⟨hdb, ⟨fun k r hr => ?_, fun k r hr => ?_⟩, fun k a ha => ?_⟩
    · rw [hdeliveries] at hr
      cases hr
    · rw [hdeliveries] at hr
      cases hr
    · rw [hattempts] at ha
      cases ha
  have htracked := tracked_exec hnew (meets_append.1 hl).1
  generalize (platform D).exec l db = final at htracked ⊢
  have hrows : ∀ e ∈ listRecentDeliveries final handles.receiverEndpointId timelineKeep, _ :=
    fun e he => exists_timelineItem htracked (mem_listRecentDeliveries he).1
  obtain ⟨items, hitems, hall⟩ := exists_mapM hrows
  obtain ⟨hworkers, hsum⟩ := workerStats_spec hall
  obtain ⟨page, hpage, hpageItems, hpageWorkers⟩ : ∃ page,
      showcaseDeliveries D.settings handles now final = some page ∧ page.deliveries = items ∧
        page.workers = workerStats items :=
    ⟨_, Option.bind_eq_some_iff.2 ⟨items, hitems, rfl⟩, rfl, rfl⟩
  refine ⟨page, ?_, ?_⟩
  · rw [← hpage]
    rfl
  rw [hpageItems, hpageWorkers]
  exact ⟨fun item hitem => (hall item hitem).1, List.pairwise_map.2 (workers_decreasing items),
    hworkers, hsum⟩

/-- A price, and the tick that delivers it. -/
def pricedRun : List (Action sampleDeployment.maxEventPayloadBytes ⊕ ShowcaseHandles × Visit) :=
  pricePublished ++ [.inl (.tick (oneTick 3 (.ofNat 7)))]

/-- And a visitor. -/
def watchedRun : List (Action sampleDeployment.maxEventPayloadBytes ⊕ ShowcaseHandles × Visit) :=
  pricedRun ++ [.inr (showcaseHandles, .deliveries 4)]

theorem watchedRun_scheduled : (platform sampleDeployment).Meets
    (Scheduled sampleDeployment showcaseSettings) watchedRun showcased := by
  refine ⟨⟨⟨rfl, fun keyHash _ k r hr => ?_⟩, trivial⟩, ⟨?_, trivial⟩,
    ⟨newAttempts_tickOf rfl, ?_⟩, ⟨?_, trivial⟩, trivial⟩
  · cases hr
  · intro project db' h
    obtain ⟨rfl, rfl⟩ := Prod.mk.inj (Except.ok.inj h)
    exact ⟨rfl, List.nodup_singleton _, fun e _ => rfl⟩
  · exact claimsDue_of_eq (by decide +kernel)
  · decide +kernel

/-- The price is on the page, with its one attempt. -/
theorem timeline_adds_up_watchedRun : ∃ page,
    (platform sampleDeployment).serve (.inr (showcaseHandles, .deliveries 4))
        ((platform sampleDeployment).exec pricedRun showcased) =
      (.inr (.ok (.deliveries (some page))), (platform sampleDeployment).exec pricedRun showcased) ∧
    (∀ item ∈ page.deliveries,
      item.attempts.map TimelineAttemptItem.attemptNumber = List.range' 1 item.attemptCount) ∧
    (page.workers.Pairwise fun v w =>
      workerKey (v.name, v.attempts) < workerKey (w.name, w.attempts)) ∧
    (∀ name n, ⟨name, n⟩ ∈ page.workers ↔ 0 < n ∧
      (page.deliveries.flatMap TimelineDeliveryItem.attempts).countP
        (fun a => a.workerId = some name) = n) ∧
    (page.workers.map WorkerStat.attempts).sum =
      (page.deliveries.map TimelineDeliveryItem.attemptCount).sum :=
  timeline_adds_up integral_showcased rfl rfl watchedRun_scheduled

end Page

end Hookit.Tenancy
