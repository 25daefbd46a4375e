import Hookit.Foundations.Lists
import Hookit.Tenancy.Persistence

/-!
# The benchmark's collection of deliveries

`_fetch_all_succeeded` of `benchmark/runner.py` follows the cursors of `GET /deliveries` while the
service goes on: between two of its requests there may be any transactions of the API and of the
workers. `fetched_once`: what it returns comes newest first, has succeeded, and has each delivery of
the project once that had succeeded before the first request, unless its endpoint is deleted or a
redrive of it commits too late meanwhile.
-/

namespace Hookit.Benchmark

open Foundations Foundations.Keyset Foundations.Service Tenancy

variable (D : Deployment) (credentials : Option PyStr)

/-- What the service does before a request, and the time of the request. -/
abbrev Round := List (Action D.maxEventPayloadBytes) × Time

/-- The query of the request. -/
def succeededOnly : DeliveryFilter := ⟨some .succeeded, none, none, none, none, none⟩

/-- The request for a page. -/
def pageRequest (now : Time) (cursor : Option PyStr) : Action D.maxEventPayloadBytes :=
  .request credentials now (.listDeliveries 200 succeededOnly cursor)

/-- The page of an answer, unless `raise_for_status` raises. -/
def pageOf : Except ApiError Tenancy.Answer → Option (Page DeliveryResponse PyStr)
  | .ok (.deliveries page) => some page
  | _ => none

/-- The cursor that is followed: an empty one counts as none. -/
def following (page : Page DeliveryResponse PyStr) : Option PyStr :=
  page.next.filter (· ≠ [])

/-- `_fetch_all_succeeded`, from a cursor on, if it returns within these rounds. -/
def fetchAllSucceeded : List (Round D) → Option PyStr → Database → Option (List DeliveryResponse)
  | [], _, _ => none
  | (meanwhile, now) :: rounds, cursor, db => do
    let x := serve D (pageRequest D credentials now cursor) ((service D).exec meanwhile db)
    let page ← pageOf x.1
    match following page with
    | none => return page.items
    | some next => return page.items ++ (← fetchAllSucceeded rounds (some next) x.2)

/-- The transactions of these rounds, up to the last request. -/
def fetchRun : List (Round D) → Option PyStr → Database → List (Action D.maxEventPayloadBytes)
  | [], _, _ => []
  | (meanwhile, now) :: rounds, cursor, db =>
    let x := serve D (pageRequest D credentials now cursor) ((service D).exec meanwhile db)
    meanwhile ++ [pageRequest D credentials now cursor] ++
      match (pageOf x.1).bind following with
      | none => []
      | some next => fetchRun rounds (some next) x.2

variable {D credentials} {p : Uuid} {db db' : Database} {now : Time} {cursor : Option PyStr}

/-! ## One request -/

/-- A cursor is not empty. -/
theorem entryCursor_ne_nil (W : Clockwork) (e : Uuid × DeliveryRow) :
    entryCursor DeliveryRow.createdAt e ≠ [] := by
  intro hnil
  have hdecode := decodeCursor_encodeCursor W e.2.createdAt e.1
  have hempty : decodeCursor W [] = none := rfl
  rw [entryCursor] at hnil
  rw [hnil, hempty] at hdecode
  cases hdecode

/-- The rows that a request asks for. -/
abbrev rowsFor (D : Deployment) (p : Uuid) (db : Database) : List (Uuid × DeliveryRow) :=
  deliveriesMatching D.clockwork db p succeededOnly

theorem mem_rowsFor {e : Uuid × DeliveryRow} : e ∈ rowsFor D p db ↔
    db.deliveries.get? e.1 = some e.2 ∧ deliveryOwner db e.1 = some p ∧
      e.2.status = .succeeded := by
  simp only [rowsFor, deliveriesMatching, Rows.mem_select, succeededOnly, Option.all_some,
    Option.all_none, createdWithin, endpointOf_eq, Bool.and_true, Bool.and_eq_true,
    decide_eq_true_eq, deliveryOwner]
  constructor
  · rintro ⟨hmem, howner, hstatus⟩
    have hr := Rows.get?_eq_some_iff.2 hmem
    exact ⟨hr, by rw [hr, Option.bind_some, howner], hstatus⟩
  · rintro ⟨hr, howner, hstatus⟩
    rw [hr, Option.bind_some] at howner
    exact ⟨Rows.get?_eq_some_iff.1 hr, howner, hstatus⟩

/-- **A page** that is answered is one of the rows of the project of the key, in the store after the
request. -/
theorem fetch_of_pageOf (hdb : Integral db) (hkey : Holds D credentials p db)
    {page : Page DeliveryResponse PyStr}
    (h : pageOf (serve D (pageRequest D credentials now cursor) db).1 = some page) :
    ∃ page', fetch (entryKey DeliveryRow.createdAt) (entryCursor DeliveryRow.createdAt)
        (decodeKey D.clockwork) 200
        (rowsFor D p (serve D (pageRequest D credentials now cursor) db).2) cursor = some page' ∧
      page'.map DeliveryResponse.ofRow = page := by
  unfold pageRequest at h ⊢
  cases hauth : authenticate D.sha256 credentials now db with
  | error e =>
    simp only [Tenancy.serve, hauth] at h
    cases h
  | ok x =>
    obtain ⟨q, db₁⟩ := x
    obtain rfl := hkey.eq_of_authenticate hdb hauth
    simp only [Tenancy.serve, hauth] at h ⊢
    cases hroute : listDeliveries D.clockwork 200 q succeededOnly db₁ cursor with
    | error e =>
      simp only [handle, reading, hroute] at h
      cases h
    | ok page₁ =>
      simp only [handle, reading, hroute] at h ⊢
      obtain rfl := Option.some.inj h
      obtain ⟨-, -, page', hpage', heq⟩ :=
        (listing_deliveries D.clockwork 200 q succeededOnly).serve_eq_ok_iff.1 hroute
      exact ⟨page', hpage', heq⟩

/-- The page whose cursor is not followed is the last one. -/
theorem next_eq_none_of_following {rows : List (Uuid × DeliveryRow)}
    {page : Page (Uuid × DeliveryRow) PyStr}
    (hfetch : fetch (entryKey DeliveryRow.createdAt) (entryCursor DeliveryRow.createdAt)
      (decodeKey D.clockwork) 200 rows cursor = some page)
    (h : following (page.map DeliveryResponse.ofRow) = none) : page.next = none := by
  cases hc : page.next with
  | none => rfl
  | some c =>
    obtain ⟨cursor', -, rfl⟩ := fetch_eq_some_iff.1 hfetch
    obtain ⟨e, rfl⟩ := exists_encode_of_next hc
    rw [following, Page.map, hc, Option.filter_some,
      if_pos (decide_eq_true (entryCursor_ne_nil D.clockwork e))] at h
    cases h

/-! ## The loop -/

/-- A delivery that has succeeded stays as it is. -/
theorem succeeded_exec {l : List (Action D.maxEventPayloadBytes)} (hdb : Integral db)
    (hl : (service D).Meets (Admitted D) l db) {k : Uuid} {r : DeliveryRow}
    (hr : db.deliveries.get? k = some r) (howner : deliveryOwner db k = some p)
    (hstatus : r.status = .succeeded) (hspared : (service D).Meets (Spares D r.endpointId) l db)
    (hinTime : (service D).Meets (InTime k) l db) :
    ((service D).exec l db).deliveries.get? k = some r ∧
      deliveryOwner ((service D).exec l db) k = some p := by
  obtain ⟨r', hr', hkept⟩ := kept_exec hl hspared hr
  rw [hkept.succeeded hinTime hstatus] at hr'
  exact ⟨hr', deliveryOwner_exec hdb hl hspared hr howner⟩

/-- **What is returned** is a chain of pages over the stores after the requests. A delivery that has
succeeded before stays as it is in all of them. -/
theorem exists_chain_of_fetch {rounds : List (Round D)} {items : List DeliveryResponse}
    (hdb : Integral db) (hkey : Holds D credentials p db)
    (hrun : (service D).Meets (Admitted D) (fetchRun D credentials rounds cursor db) db)
    (h : fetchAllSucceeded D credentials rounds cursor db = some items) :
    ∃ (dbs : ℕ → Database) (pages : List (Page (Uuid × DeliveryRow) PyStr)),
      Chain (fun m => fetch (entryKey DeliveryRow.createdAt) (entryCursor DeliveryRow.createdAt)
        (decodeKey D.clockwork) 200 (rowsFor D p (dbs m))) 0 cursor pages none ∧
      items = (pages.flatMap Page.items).map DeliveryResponse.ofRow ∧
      ∀ k r, db.deliveries.get? k = some r → deliveryOwner db k = some p →
        r.status = .succeeded →
        (service D).Meets (Spares D r.endpointId) (fetchRun D credentials rounds cursor db) db →
        (service D).Meets (InTime k) (fetchRun D credentials rounds cursor db) db →
        ∀ m, (k, r) ∈ rowsFor D p (dbs m) := by
  induction rounds generalizing cursor db items with
  | nil => cases h
  | cons round rounds ih =>
    obtain ⟨meanwhile, now⟩ := round
    simp only [fetchRun] at hrun ⊢
    simp only [fetchAllSucceeded] at h
    obtain ⟨hfirst, hrest⟩ := meets_append.1 hrun
    set db₁ := (service D).exec meanwhile db with hdb₁
    set x := Tenancy.serve D (pageRequest D credentials now cursor) db₁ with hx
    have hexec : (service D).exec (meanwhile ++ [pageRequest D credentials now cursor]) db = x.2 :=
      exec_append
    rw [hexec] at hrest
    obtain ⟨hmeanwhile, hrequest, -⟩ := meets_append.1 hfirst
    obtain ⟨page, hpage, h⟩ := Option.bind_eq_some_iff.1 h
    obtain ⟨page', hfetch, rfl⟩ := fetch_of_pageOf (integral_of_admitted hdb hmeanwhile)
      (hkey.exec hmeanwhile) hpage
    rw [hpage, Option.bind_some] at hrest ⊢
    -- what has succeeded is in the store of this page
    have hthere : ∀ k r, db.deliveries.get? k = some r → deliveryOwner db k = some p →
        r.status = .succeeded → (service D).Meets (Spares D r.endpointId)
          (meanwhile ++ [pageRequest D credentials now cursor]) db →
        (service D).Meets (InTime k) (meanwhile ++ [pageRequest D credentials now cursor]) db →
        x.2.deliveries.get? k = some r ∧ deliveryOwner x.2 k = some p := by
      rw [← hexec]
      exact fun k r => succeeded_exec hdb hfirst
    cases hnext : following (page'.map DeliveryResponse.ofRow) with
    | none =>
      simp only [hnext] at h ⊢
      obtain rfl := Option.some.inj h
      refine ⟨fun _ => x.2, [page'], ?_, by simp [Page.map],
        fun k r hr howner hstatus hspared hinTime _ => ?_⟩
      · exact next_eq_none_of_following hfetch hnext ▸ .last hfetch
      · rw [List.append_nil] at hspared hinTime
        obtain ⟨hr', howner'⟩ := hthere k r hr howner hstatus hspared hinTime
        exact mem_rowsFor.2 ⟨hr', howner', hstatus⟩
    | some next =>
      simp only [hnext] at h hrest ⊢
      obtain ⟨items', hitems', hitems⟩ := Option.bind_eq_some_iff.1 h
      obtain rfl := Option.some.inj hitems
      have hdb₂ : Integral x.2 := hexec ▸ integral_of_admitted hdb hfirst
      have hkey₂ : Holds D credentials p x.2 := hexec ▸ hkey.exec hfirst
      obtain ⟨dbs, pages, hchain, rfl, hlater⟩ := ih hdb₂ hkey₂ hrest hitems'
      -- the database of this request comes before those of the rest
      obtain ⟨dbs', hzero, hsucc⟩ : ∃ dbs' : ℕ → Database,
          dbs' 0 = x.2 ∧ ∀ m, dbs' (m + 1) = dbs m :=
        ⟨fun m => m.casesOn x.2 dbs, rfl, fun m => rfl⟩
      obtain rfl : (fun m => dbs' (m + 1)) = dbs := funext hsucc
      refine ⟨dbs', page' :: pages, ?_, ?_, ?_⟩
      · have hc : page'.next = some next := (Option.filter_eq_some_iff.1 hnext).1
        exact .more (hzero ▸ hfetch) hc hchain.shift
      · rw [List.flatMap_cons, List.map_append]
        rfl
      · intro k r hr howner hstatus hspared hinTime m
        obtain ⟨hspared₁, hspared₂⟩ := meets_append.1 hspared
        obtain ⟨hinTime₁, hinTime₂⟩ := meets_append.1 hinTime
        obtain ⟨hr', howner'⟩ := hthere k r hr howner hstatus hspared₁ hinTime₁
        cases m with
        | zero =>
          rw [hzero]
          exact mem_rowsFor.2 ⟨hr', howner', hstatus⟩
        | succ m =>
          rw [hexec] at hspared₂ hinTime₂
          exact hlater k r hr' howner' hstatus hspared₂ hinTime₂ m

/-- **The collection is sound and complete** while the service goes on. -/
theorem fetched_once {rounds : List (Round D)} {items : List DeliveryResponse} (hdb : Integral db)
    (hauth : authenticate D.sha256 credentials now db = .ok (p, db'))
    (hrun : (service D).Meets (Admitted D) (fetchRun D credentials rounds none db) db)
    (h : fetchAllSucceeded D credentials rounds none db = some items) :
    (items.map fun x => rowKey x.createdAt x.id).Pairwise (· > ·) ∧
      (∀ x ∈ items, x.status = .succeeded) ∧
      ∀ k r, db.deliveries.get? k = some r → deliveryOwner db k = some p →
        r.status = .succeeded →
        (service D).Meets (Spares D r.endpointId) (fetchRun D credentials rounds none db) db →
        (service D).Meets (InTime k) (fetchRun D credentials rounds none db) db →
        items.filter (fun x => x.id = k) = [DeliveryResponse.ofRow (k, r)] := by
  obtain ⟨dbs, pages, hchain, rfl, hlater⟩ :=
    exists_chain_of_fetch hdb (holds_of_authenticate hauth) hrun h
  have hdecode := decodeKey_entryCursor D.clockwork DeliveryRow.createdAt
  have hnodup : ∀ m, ((rowsFor D p (dbs m)).map (entryKey DeliveryRow.createdAt)).Nodup := fun m =>
    (listing_deliveries D.clockwork 200 p succeededOnly).nodup_keys (dbs m)
  refine ⟨?_, fun x hx => ?_, fun k r hr howner hstatus hspared hinTime => ?_⟩
  · have hpair := (chain_decreasing hdecode (by omega) hnodup hchain rfl).1
    rw [List.map_map]
    exact hpair
  · obtain ⟨e, he, rfl⟩ := List.mem_map.1 hx
    obtain ⟨m, hm⟩ := mem_of_chain hchain he
    exact (mem_rowsFor.1 hm).2.2
  · classical
    have hthere := hlater k r hr howner hstatus hspared hinTime
    have hcount := chain_count_eq_one hdecode (by omega) hnodup hchain rfl
      (by rfl : (none : Option RowKey).all _ = true) hthere
    have hfilter : (pages.flatMap Page.items).filter (fun e => e.1 = k) = [(k, r)] := by
      refine filter_eq_singleton hcount fun e he => ?_
      rw [decide_eq_true_eq]
      refine ⟨?_, fun heq => by rw [heq]⟩
      rintro rfl
      obtain ⟨m, hm⟩ := mem_of_chain hchain he
      have hr' := (mem_rowsFor.1 (hthere m)).1
      rw [(mem_rowsFor.1 hm).1] at hr'
      exact Prod.ext rfl (Option.some.inj hr')
    rw [List.filter_map]
    exact congrArg (List.map DeliveryResponse.ofRow) hfilter

/-- One round, in which `laterRun` comes before the request. -/
def oneRound : List (Round sampleDeployment) := [(laterRun, 10)]

/-- The delivery of `deliveredRun` is collected. -/
theorem fetched_once_oneRound : ∃ items r,
    fetchAllSucceeded sampleDeployment (some (PyStr.ofString "whk_secret-of-a")) oneRound none
      deliveredStore = some items ∧
    deliveredStore.deliveries.get? (.ofNat 5) = some r ∧
    items.filter (fun x => x.id = .ofNat 5) = [DeliveryResponse.ofRow (.ofNat 5, r)] := by
  have hdb : Integral deliveredStore := integral_of_admitted integral_empty deliveredRun_admitted
  have hlast : (pageOf (serve sampleDeployment (pageRequest sampleDeployment
      (some (PyStr.ofString "whk_secret-of-a")) 10 none)
      ((service sampleDeployment).exec laterRun deliveredStore)).1).bind following = none := by
    decide +kernel
  have hrun : fetchRun sampleDeployment (some (PyStr.ofString "whk_secret-of-a")) oneRound none
      deliveredStore = laterRun ++
        [pageRequest sampleDeployment (some (PyStr.ofString "whk_secret-of-a")) 10 none] := by
    simp only [oneRound, fetchRun, hlast, List.append_nil]
  obtain ⟨items, hitems⟩ : ∃ items, fetchAllSucceeded sampleDeployment
      (some (PyStr.ofString "whk_secret-of-a")) oneRound none deliveredStore = some items :=
    Option.isSome_iff_exists.1 (by decide +kernel)
  obtain ⟨r, hr, hstatus⟩ : ∃ r, deliveredStore.deliveries.get? (.ofNat 5) = some r ∧
      r.status = .succeeded := ⟨_, rfl, rfl⟩
  obtain ⟨db', hauth⟩ : ∃ db', authenticate sampleDeployment.sha256
      (some (PyStr.ofString "whk_secret-of-a")) 4 deliveredStore = .ok (.ofNat 1, db') := ⟨_, rfl⟩
  refine ⟨items, r, hitems, hr, (fetched_once hdb hauth ?_ hitems).2.2 _ r hr rfl hstatus ?_ ?_⟩ <;>
    rw [hrun, meets_append]
  · exact ⟨laterRun_admitted, ⟨fun _ _ _ => trivial, trivial⟩, trivial⟩
  · refine ⟨laterRun_spares _, fun _ _ _ h => ?_, trivial⟩
    cases h
  · refine ⟨laterRun_inTime, fun _ _ _ _ _ h => ?_, trivial⟩
    cases h

end Hookit.Benchmark
