import Hookit.Tenancy.Progress

/-!
# What a project sees

* `run_eq_private`: over any run of the API and the workers, a project gets the answers, and its
  rows are what they would be, in a store of its own with its share of the transactions.
* `answers_eq_of_shares_eq`: so nothing that other projects do, or hold, is seen in its answers.
* `sees_delivery_iff`: in a store that a run has left, a project sees a delivery in the list of
  deliveries if and only if it sees it under its event, and if and only if it can read it.
-/

namespace Hookit.Tenancy

open Foundations Foundations.Keyset

variable {D : Deployment} {p : Uuid} {db : Database} {l l' : List (Action D.maxEventPayloadBytes)}

/-- **The shared store serves a project as its own would.** -/
theorem run_eq_private (hdb : Integral db) (hl : (service D).Meets (Unused D) l db) (p : Uuid) :
    (service D).answers (mine D p) l db =
        (service D).answers (mine D p) ((service D).shares (share D p) l db) (tenant db p) ∧
      tenant ((service D).exec l db) p =
        (service D).exec ((service D).shares (share D p) l db) (tenant db p) :=
  (private_service D p).run hdb hl

/-- A second project, beside that of `deliveredRun`: it publishes an event, which is delivered, and
asks for the other project's delivery. Then the first project asks for its own. -/
def besideRun : List (Action sampleDeployment.maxEventPayloadBytes) :=
  registrationOf "b" "secret-of-b" "whk_secret-of-b" 11 12 13 ++
    [publicationOf "whk_secret-of-b" 4 14 15,
      .tick (oneTick 5 (.ofNat 15)),
      .request (some (PyStr.ofString "whk_secret-of-b")) 6 (.getDelivery (.ofNat 5)),
      .request (some (PyStr.ofString "whk_secret-of-a")) 7 (.getDelivery (.ofNat 5))]

def twoProjects : List (Action sampleDeployment.maxEventPayloadBytes) := deliveredRun ++ besideRun

theorem twoProjects_unused :
    (service sampleDeployment).Meets (Unused sampleDeployment) twoProjects .empty := by
  refine Service.meets_append.2 ⟨deliveredRun_admitted.mono fun h => h.1, rfl, ⟨rfl, ?_⟩, ?_, ?_,
    newAttempts_tickOf rfl, fun _ _ _ => trivial, fun _ _ _ => trivial, trivial⟩
  · exact newKey_of_entries (by decide +kernel)
  · intro project db' h
    obtain ⟨rfl, rfl⟩ := Prod.mk.inj (Except.ok.inj h)
    rfl
  · intro project db' h
    obtain ⟨rfl, rfl⟩ := Prod.mk.inj (Except.ok.inj h)
    exact ⟨rfl, List.nodup_singleton _, fun e he => by rw [List.mem_singleton.1 he]; rfl⟩

/-- The first project is answered, and keeps its rows, as if it were alone. -/
theorem run_eq_private_twoProjects :
    (service sampleDeployment).answers (mine sampleDeployment (.ofNat 1)) twoProjects .empty =
        (service sampleDeployment).answers (mine sampleDeployment (.ofNat 1))
          ((service sampleDeployment).shares (share sampleDeployment (.ofNat 1)) twoProjects .empty)
          (tenant .empty (.ofNat 1)) ∧
      tenant ((service sampleDeployment).exec twoProjects .empty) (.ofNat 1) =
        (service sampleDeployment).exec
          ((service sampleDeployment).shares (share sampleDeployment (.ofNat 1)) twoProjects .empty)
          (tenant .empty (.ofNat 1)) :=
  run_eq_private integral_empty twoProjects_unused (.ofNat 1)

/-- **Noninterference**: two runs in which the project's share of the transactions is the same,
from stores with the same rows of the project, give it the same answers and leave it the same
rows. -/
theorem answers_eq_of_shares_eq {db' : Database} (hdb : Integral db) (hdb' : Integral db')
    (hl : (service D).Meets (Unused D) l db) (hl' : (service D).Meets (Unused D) l' db')
    (htenant : tenant db p = tenant db' p)
    (hshares : (service D).shares (share D p) l db = (service D).shares (share D p) l' db') :
    (service D).answers (mine D p) l db = (service D).answers (mine D p) l' db' ∧
      tenant ((service D).exec l db) p = tenant ((service D).exec l' db') p :=
  (private_service D p).answers_eq hdb hdb' hl hl' htenant hshares

/-- Without the second project, the tick that delivers its event finds nothing. -/
def aloneRun : List (Action sampleDeployment.maxEventPayloadBytes) :=
  [.tick { oneTick 5 (.ofNat 15) with claimed := [] },
    .request (some (PyStr.ofString "whk_secret-of-a")) 7 (.getDelivery (.ofNat 5))]

def oneProject : List (Action sampleDeployment.maxEventPayloadBytes) := deliveredRun ++ aloneRun

theorem shares_besideRun : (service sampleDeployment).shares (share sampleDeployment (.ofNat 1))
    besideRun ((service sampleDeployment).exec deliveredRun .empty) = aloneRun := by
  rfl

theorem shares_aloneRun : (service sampleDeployment).shares (share sampleDeployment (.ofNat 1))
    aloneRun ((service sampleDeployment).exec deliveredRun .empty) = aloneRun := by
  rfl

/-- The first project does not see whether there is a second. -/
theorem answers_eq_of_shares_eq_oneProject :
    (service sampleDeployment).answers (mine sampleDeployment (.ofNat 1)) twoProjects .empty =
        (service sampleDeployment).answers (mine sampleDeployment (.ofNat 1)) oneProject .empty ∧
      tenant ((service sampleDeployment).exec twoProjects .empty) (.ofNat 1) =
        tenant ((service sampleDeployment).exec oneProject .empty) (.ofNat 1) := by
  have hunused : (service sampleDeployment).Meets (Unused sampleDeployment) oneProject .empty :=
    Service.meets_append.2 ⟨deliveredRun_admitted.mono fun h => h.1,
      newAttempts_of_claimed_nil rfl, fun _ _ _ => trivial, trivial⟩
  refine answers_eq_of_shares_eq integral_empty integral_empty twoProjects_unused hunused rfl ?_
  rw [twoProjects, oneProject, Service.shares_append, Service.shares_append, shares_besideRun,
    shares_aloneRun]

/-- **What the rows have in common** over any run. -/
theorem integral_exec (hdb : Integral db) (hl : (service D).Meets (Unused D) l db) :
    Integral ((service D).exec l db) :=
  hl.invariant (fun hs ha => integral_serve hs ha) hdb

/-! ## Deliveries and their events -/

section Visibility

/-- `GET /deliveries` without a filter. -/
def allDeliveries : DeliveryFilter := ⟨none, none, none, none, none, none⟩

/-- Following `GET /deliveries` to its end, the project sees the delivery. -/
def SeesInList (W : Clockwork) (limit : ℕ) (p : Uuid) (db : Database) (deliveryId : Uuid) : Prop :=
  ∃ pages, Served (listDeliveries W limit p allDeliveries) (fun _ => db) 0 none pages none ∧
    deliveryId ∈ (pages.flatMap Page.items).map DeliveryResponse.id

/-- Reading one of its events, the project sees the delivery. -/
def SeesUnderEvent (p : Uuid) (db : Database) (deliveryId : Uuid) : Prop :=
  ∃ eventId event, getEvent p eventId db = .ok event ∧
    deliveryId ∈ event.deliveries.map DeliveryResponse.id

variable {W : Clockwork} {limit : ℕ} {deliveryId : Uuid}

theorem mem_deliveriesMatching_all :
    deliveryId ∈ (deliveriesMatching W db p allDeliveries).map Prod.fst ↔
      deliveryOwner db deliveryId = some p := by
  rw [deliveryOwner, Option.bind_eq_some_iff]
  constructor
  · intro h
    obtain ⟨e, he, rfl⟩ := List.mem_map.1 h
    obtain ⟨hmem, hmatch⟩ := Rows.mem_select.1 he
    simp only [allDeliveries, Option.all_none, Bool.and_true, createdWithin, endpointOf_eq,
      decide_eq_true_eq] at hmatch
    exact ⟨e.2, Rows.get?_eq_some_iff.2 hmem, hmatch⟩
  · rintro ⟨r, hr, howner⟩
    refine List.mem_map.2 ⟨(deliveryId, r), Rows.mem_select.2 ⟨Rows.get?_eq_some_iff.1 hr, ?_⟩, rfl⟩
    simp [allDeliveries, createdWithin, endpointOf_eq, howner]

theorem seesInList_iff (hlimit : 1 ≤ limit) :
    SeesInList W limit p db deliveryId ↔ deliveryOwner db deliveryId = some p := by
  have hlisting := listing_deliveries W limit p allDeliveries
  constructor
  · rintro ⟨pages, hpages, hmem⟩
    exact mem_deliveriesMatching_all.1 ((hlisting.mem_served_iff hlimit hpages).1 hmem)
  · intro howner
    obtain ⟨⟨pages, hpages⟩, -⟩ := (hlisting.keysetCorrect hlimit).ends db ⟨_, rfl⟩
    exact ⟨pages, hpages,
      (hlisting.mem_served_iff hlimit hpages).2 (mem_deliveriesMatching_all.2 howner)⟩

theorem mem_deliveriesOf {eventId : Uuid} :
    deliveryId ∈ (db.deliveriesOf eventId).map Prod.fst ↔
      ∃ r, db.deliveries.get? deliveryId = some r ∧ r.eventId = eventId := by
  have hperm : ((db.deliveriesOf eventId).map Prod.fst).Perm
      ((db.deliveries.select fun _ r => r.eventId = eventId).map Prod.fst) :=
    (List.mergeSort_perm _ _).map _
  rw [hperm.mem_iff, List.mem_map]
  constructor
  · rintro ⟨e, he, rfl⟩
    obtain ⟨hmem, hid⟩ := Rows.mem_select.1 he
    exact ⟨e.2, Rows.get?_eq_some_iff.2 hmem, of_decide_eq_true hid⟩
  · rintro ⟨r, hr, hid⟩
    exact ⟨(deliveryId, r), Rows.mem_select.2 ⟨Rows.get?_eq_some_iff.1 hr, decide_eq_true hid⟩, rfl⟩

theorem seesUnderEvent_iff (hdb : Integral db) :
    SeesUnderEvent p db deliveryId ↔ deliveryOwner db deliveryId = some p := by
  have hids : ∀ eventId, ((db.deliveriesOf eventId).map DeliveryResponse.ofRow).map
      DeliveryResponse.id = (db.deliveriesOf eventId).map Prod.fst := fun eventId => List.map_map ..
  constructor
  · rintro ⟨eventId, detail, hevent, hmem⟩
    obtain ⟨event, hget, hdetail⟩ := bind_eq_ok_iff.1 hevent
    obtain ⟨hget, hproject⟩ := getOr404_eq_ok_iff.1 hget
    obtain rfl := pure_eq_ok_iff.1 hdetail
    simp only [hids] at hmem
    obtain ⟨r, hr, rfl⟩ := mem_deliveriesOf.1 hmem
    obtain ⟨event', hevent', howner⟩ := (hdb.deliveries deliveryId r hr).owner
    obtain rfl := Option.some.inj (hget.symm.trans hevent')
    rw [deliveryOwner, hr, Option.bind_some, howner, of_decide_eq_true hproject]
  · intro howner
    obtain ⟨r, hr, hown⟩ := Option.bind_eq_some_iff.1 howner
    obtain ⟨event, hevent, hproject⟩ := (hdb.deliveries deliveryId r hr).owner
    have hp : event.projectId = p := Option.some.inj (hproject.symm.trans hown)
    refine ⟨r.eventId, _, bind_eq_ok_iff.2 ⟨event,
      getOr404_eq_ok_iff.2 ⟨hevent, decide_eq_true hp⟩, rfl⟩, ?_⟩
    simp only [hids]
    exact mem_deliveriesOf.2 ⟨r, hr, rfl⟩

theorem exists_getDelivery_iff : (∃ delivery, getDelivery p deliveryId db = .ok delivery) ↔
    deliveryOwner db deliveryId = some p := by
  constructor
  · rintro ⟨delivery, h⟩
    obtain ⟨r, hr, -⟩ := bind_eq_ok_iff.1 h
    exact ownerOf_delivery hr
  · intro howner
    obtain ⟨r, hr, hown⟩ := Option.bind_eq_some_iff.1 howner
    refine ⟨_, bind_eq_ok_iff.2 ⟨r, getOr404_eq_ok_iff.2 ⟨hr, ?_⟩, rfl⟩⟩
    rw [endpointOf_eq]
    exact decide_eq_true hown

/-- **The three ways to see a delivery agree** in every store that a run has left: the list of
deliveries, the event that it delivers, and the delivery itself. -/
theorem sees_delivery_iff (hl : (service D).Meets (Unused D) l .empty) (W : Clockwork)
    (hlimit : 1 ≤ limit) (p deliveryId : Uuid) :
    (SeesInList W limit p ((service D).exec l .empty) deliveryId ↔
      SeesUnderEvent p ((service D).exec l .empty) deliveryId) ∧
    (SeesInList W limit p ((service D).exec l .empty) deliveryId ↔
      ∃ delivery, getDelivery p deliveryId ((service D).exec l .empty) = .ok delivery) := by
  have hdb := integral_exec integral_empty hl
  rw [seesInList_iff hlimit, seesUnderEvent_iff hdb, exists_getDelivery_iff]
  exact ⟨Iff.rfl, Iff.rfl⟩

/-- The first project sees its delivery in all three ways, and the second in none. -/
theorem sees_delivery_iff_twoProjects :
    let db := (service sampleDeployment).exec twoProjects .empty
    (SeesInList utcClockwork 20 (.ofNat 1) db (.ofNat 5) ∧
      SeesUnderEvent (.ofNat 1) db (.ofNat 5) ∧
      ∃ delivery, getDelivery (.ofNat 1) (.ofNat 5) db = .ok delivery) ∧
    ¬ SeesInList utcClockwork 20 (.ofNat 11) db (.ofNat 5) ∧
      ¬ SeesUnderEvent (.ofNat 11) db (.ofNat 5) := by
  have hlimit : 1 ≤ 20 := by decide
  have hfirst := sees_delivery_iff twoProjects_unused utcClockwork hlimit
    (.ofNat 1) (.ofNat 5)
  have hsecond := sees_delivery_iff twoProjects_unused utcClockwork hlimit
    (.ofNat 11) (.ofNat 5)
  have hread : ∃ delivery, getDelivery (.ofNat 1) (.ofNat 5)
      ((service sampleDeployment).exec twoProjects .empty) = .ok delivery :=
    exists_getDelivery_iff.2 (by decide +kernel)
  have hhidden : ¬ ∃ delivery, getDelivery (.ofNat 11) (.ofNat 5)
      ((service sampleDeployment).exec twoProjects .empty) = .ok delivery :=
    exists_getDelivery_iff.not.2 (by decide +kernel)
  have hlist := hfirst.2.2 hread
  have hnot := fun h => hhidden (hsecond.2.1 h)
  exact ⟨⟨hlist, hfirst.1.1 hlist, hread⟩, hnot, fun h => hnot (hsecond.1.2 h)⟩

end Visibility

end Hookit.Tenancy
