import Hookit.Foundations.Lists
import Hookit.Routers.Showcase
import Hookit.Tenancy.Isolation

/-!
# The visitors of the showcase

The public pages take no API key, and are served from the database of all projects. `confined_visit`:
on the handles that `resolve_showcase` returns, every page is confined to the showcase's project. So
`platform_eq_private`: over any run of the API, the workers and the pages, the visitors see, and
redrive, what they would if there were no other project, and no other project is changed by them.
-/

namespace Hookit.Tenancy

open Foundations Foundations.Service Seeding Handles

variable {D : Deployment} {p q : Uuid} {db : Database} {handles : ShowcaseHandles}

/-- A call of a visitor. A redrive comes with what `latest_dead_lettered_id` returns. -/
inductive Visit
  | summary (now : Time)
  | feed
  | deliveries (now : Time)
  | redrive (deliveryId latest : Option Uuid) (now updatedAt : Time)

/-- What a visitor is answered. -/
inductive VisitAnswer
  | summary (summary : MetricsSummaryResponse)
  | feed (events : List FeedEventItem) (discordEnabled : Bool)
  | deliveries (page : Option DeliveriesResponse)
  | redriven (delivery : Option (Uuid × DeliveryStatus))

/-- The route of a call, on the handles that `get_showcase` has resolved. -/
def visit (cfg : Settings) (handles : ShowcaseHandles) :
    Visit → Database → Except ApiError (VisitAnswer × Database)
  | .summary now => fun db =>
    (reading (fun db => .ok (deliverySummary db handles.projectId now)) db).map
      fun x => (.summary x.1, x.2)
  | .feed => fun db =>
    (reading (fun db => .ok (feed handles db)) db).map fun x => (.feed x.1.1 x.1.2, x.2)
  | .deliveries now => fun db =>
    (reading (fun db => .ok (showcaseDeliveries cfg handles now db)) db).map
      fun x => (.deliveries x.1, x.2)
  | .redrive deliveryId latest now updatedAt => fun db =>
    (redrive handles.projectId deliveryId latest now updatedAt db).map
      fun x => (.redriven x.1, x.2)

/-! ## The pages are confined to the project -/

section Pages

theorem listRecentEvents_tenant (limit : ℕ) :
    listRecentEvents (tenant db p) p limit = listRecentEvents db p limit := by
  unfold listRecentEvents
  rw [select_events fun _ r => Bool.and_self (decide (r.projectId = p))]

theorem listRecentDeliveries_tenant {endpointId : Uuid} (howner : ownerOf db endpointId = some p)
    (limit : ℕ) :
    listRecentDeliveries (tenant db p) endpointId limit =
      listRecentDeliveries db endpointId limit := by
  unfold listRecentDeliveries
  rw [select_deliveries fun k r _ => ?_]
  by_cases hid : r.endpointId = endpointId
  · simp [hid, howner]
  · simp [hid]

/-- The deliveries of the timeline are to the endpoint. -/
theorem mem_listRecentDeliveries {endpointId : Uuid} {limit : ℕ} {e : Uuid × DeliveryRow}
    (h : e ∈ listRecentDeliveries db endpointId limit) :
    db.deliveries.get? e.1 = some e.2 ∧ e.2.endpointId = endpointId := by
  have hselect := (Keyset.below_perm _).mem_iff.1 (List.mem_of_mem_take h)
  obtain ⟨hmem, hid⟩ := Rows.mem_select.1 hselect
  exact ⟨Rows.get?_eq_some_iff.2 hmem, of_decide_eq_true hid⟩

theorem timelineItem_tenant (hdb : Integral db) {e : Uuid × DeliveryRow}
    (he : db.deliveries.get? e.1 = some e.2) (howner : ownerOf db e.2.endpointId = some p) :
    timelineItem (tenant db p) e = timelineItem db e := by
  obtain ⟨event, hevent, hproject⟩ := (hdb.deliveries e.1 e.2 he).owner
  have hp : event.projectId = p := Option.some.inj (hproject.symm.trans howner)
  have hown : deliveryOwner db e.1 = some p := by
    rw [deliveryOwner, he]
    exact howner
  have hget : (tenant db p).events.get? e.2.eventId = db.events.get? e.2.eventId := by
    rw [get?_events, hevent, Option.filter_some, if_pos (decide_eq_true hp)]
  simp only [timelineItem, hget, attempts_tenant hown]

theorem showcaseDeliveries_tenant (hdb : Integral db)
    (howner : ownerOf db handles.receiverEndpointId = some p) (cfg : Settings) (now : Time) :
    showcaseDeliveries cfg handles now (tenant db p) = showcaseDeliveries cfg handles now db := by
  have hitems : (listRecentDeliveries db handles.receiverEndpointId timelineKeep).mapM
      (timelineItem (tenant db p)) =
      (listRecentDeliveries db handles.receiverEndpointId timelineKeep).mapM (timelineItem db) := by
    refine mapM_congr_of_mem fun e he => ?_
    obtain ⟨hget, hid⟩ := mem_listRecentDeliveries he
    exact timelineItem_tenant hdb hget (hid ▸ howner)
  rw [showcaseDeliveries, listRecentDeliveries_tenant howner, hitems]
  rfl

theorem confined_redrive (deliveryId latest : Option Uuid) (now updatedAt : Time) :
    Confined p (fun _ => True) (redrive p deliveryId latest now updatedAt) := by
  cases h : deliveryId.or latest with
  | none =>
    have hnone : redrive p deliveryId latest now updatedAt = reading fun _ => .ok none := by
      funext db
      simp only [redrive, h]
      rfl
    rw [hnone]
    exact .read fun _ _ => rfl
  | some id =>
    have hsome : redrive p deliveryId latest now updatedAt = fun db =>
        (redriveDelivery p id now updatedAt db).map fun x => (some (x.1.id, x.1.status), x.2) := by
      funext db
      exact redrive_of_some p id h now updatedAt db
    rw [hsome]
    exact (confined_redriveDelivery id now updatedAt).map fun x => some (x.id, x.status)

/-- **Every page is confined** to the project of the handles. -/
theorem confined_visit (cfg : Settings) (handles : ShowcaseHandles) (call : Visit) :
    Confined handles.projectId
      (fun db => ownerOf db handles.receiverEndpointId = some handles.projectId)
      (visit cfg handles call) := by
  cases call with
  | summary now => exact .mono ((confined_deliverySummary now).map _) fun _ _ => trivial
  | feed =>
    have hread : Confined handles.projectId (fun _ => True)
        (reading fun db => .ok (feed handles db)) := by
      refine .read fun db _ => ?_
      rw [feed, feed, listRecentEvents_tenant]
    exact .mono (hread.map fun x => VisitAnswer.feed x.1 x.2) fun _ _ => trivial
  | deliveries now =>
    have hread : Confined handles.projectId
        (fun db => ownerOf db handles.receiverEndpointId = some handles.projectId)
        (reading fun db => .ok (showcaseDeliveries cfg handles now db)) := by
      refine .readIf fun db hdb howner => ?_
      rw [showcaseDeliveries_tenant hdb howner]
    exact hread.map VisitAnswer.deliveries
  | redrive deliveryId latest now updatedAt =>
    exact .mono ((confined_redrive deliveryId latest now updatedAt).map _) fun _ _ => trivial

end Pages

/-! ## The platform -/

section Platform

/-- The visitors of the pages. -/
def visitors (D : Deployment) :
    Service Database (ShowcaseHandles × Visit) (Except ApiError VisitAnswer) :=
  ⟨fun a db => respond db (visit D.settings a.1 a.2 db)⟩

/-- The handles are those that `resolve_showcase` returns, and what a redrive finds is the latest
dead-lettered delivery. -/
def Resolved (settings : SeedSettings) (a : ShowcaseHandles × Visit) (db : Database) : Prop :=
  resolveShowcase db.store settings = .ok (some a.1) ∧
    match a.2 with
    | .redrive none latest _ _ => LatestDeadLettered db a.1.projectId latest
    | _ => True

/-- The receiver is one of the project's endpoints. -/
theorem ownerOf_receiver {settings : SeedSettings}
    (h : resolveShowcase db.store settings = .ok (some handles)) :
    ownerOf db handles.receiverEndpointId = some handles.projectId := by
  obtain ⟨project, -, h⟩ := bind_eq_ok_iff.1 h
  cases project with
  | none => cases h
  | some project =>
    obtain ⟨receiver, hreceiver, h⟩ := bind_eq_ok_iff.1 h
    cases receiver with
    | none => cases h
    | some receiver =>
      obtain ⟨bankNaive, -, h⟩ := bind_eq_ok_iff.1 h
      obtain ⟨bankSafe, -, h⟩ := bind_eq_ok_iff.1 h
      cases bankNaive with
      | none => cases h
      | some bankNaive =>
        cases bankSafe with
        | none => cases h
        | some bankSafe =>
          obtain ⟨discord, -, h⟩ := bind_eq_ok_iff.1 h
          obtain rfl := Option.some.inj (pure_eq_ok_iff.1 h)
          have hmem : receiver ∈ db.store.found project.1 .receiver := by
            rw [scalarOneOrNone_eq_some_iff.1 hreceiver]
            exact List.mem_singleton_self receiver
          obtain ⟨hrow, hfinds⟩ := Rows.mem_select.1 hmem
          have hproject : receiver.2.projectId = project.1 := (of_decide_eq_true hfinds).1
          have hget : db.endpoints.get? receiver.1 = some receiver.2 :=
            Rows.get?_eq_some_iff.2 hrow
          exact (congrArg (Option.map EndpointRow.projectId) hget).trans (congrArg some hproject)

/-- **The visitors have a private store**, which is that of the showcase's project, and no other
project is changed by them. -/
theorem private_visitors (D : Deployment) (settings : SeedSettings) (p : Uuid) :
    (visitors D).Private (Resolved settings) Integral (fun a _ => a.1.projectId = p)
      (fun a _ => if a.1.projectId = p then some a else none) fun db => tenant db p := by
  have hconfined : ∀ {a : ShowcaseHandles × Visit} {db : Database}, Resolved settings a db →
      Confined a.1.projectId (fun db => ownerOf db a.1.receiverEndpointId = some a.1.projectId)
        (visit D.settings a.1 a.2) ∧
      ownerOf db a.1.receiverEndpointId = some a.1.projectId :=
    fun {a _} ha => ⟨confined_visit D.settings a.1 a.2, ownerOf_receiver ha.1⟩
  refine ⟨fun {a db} hdb ha => ?kept, fun {a db} hdb ha hshare => ?hidden,
    fun {a b db} hdb ha hshare => ?shared⟩
  case kept =>
    obtain ⟨hroute, howner⟩ := hconfined ha
    exact respond_integral hroute hdb howner
  case hidden =>
    obtain ⟨hroute, howner⟩ := hconfined ha
    have hne : a.1.projectId ≠ p := by simpa using hshare
    exact ⟨decide_eq_false hne, respond_foreign hroute hdb howner (Ne.symm hne)⟩
  case shared =>
    obtain ⟨hroute, howner⟩ := hconfined ha
    simp only [Option.ite_none_right_eq_some, Option.some.injEq] at hshare
    obtain ⟨rfl, rfl⟩ := hshare
    have hserve := respond_own hroute hdb howner
    exact ⟨rfl, (congrArg Prod.snd hserve).symm, fun _ => (congrArg Prod.fst hserve).symm⟩

/-- The API, the workers and the pages. -/
def platform (D : Deployment) : Service Database
    (Action D.maxEventPayloadBytes ⊕ ShowcaseHandles × Visit)
    (Except ApiError Answer ⊕ Except ApiError VisitAnswer) :=
  (service D).sum (visitors D)

/-- A transaction of the platform. A visitor's call that finds no showcase to resolve, and seeds it, is
none of these, and neither is one whose lookup raises. -/
def Happens (D : Deployment) (settings : SeedSettings) :
    Action D.maxEventPayloadBytes ⊕ ShowcaseHandles × Visit → Database → Prop :=
  Sum.elim (Unused D) (Resolved settings)

/-- The requests of a project, and the calls of the visitors if it is the showcase's. -/
def asks (D : Deployment) (p : Uuid) :
    Action D.maxEventPayloadBytes ⊕ ShowcaseHandles × Visit → Database → Bool :=
  Sum.elim (mine D p) fun a _ => a.1.projectId = p

/-- What a transaction of the platform is to a project. -/
def comes (D : Deployment) (p : Uuid) :
    Action D.maxEventPayloadBytes ⊕ ShowcaseHandles × Visit → Database →
      Option (Action D.maxEventPayloadBytes ⊕ ShowcaseHandles × Visit) :=
  Sum.elim (fun a db => (share D p a db).map .inl)
    fun a _ => (if a.1.projectId = p then some a else none).map .inr

/-- **The pages are of one project**: over any run of the platform, every project gets the answers,
and its rows are what they would be, in a store of its own with its share of the transactions; the
visitors are in the share of the showcase's project, and in no other. -/
theorem platform_eq_private {settings : SeedSettings}
    {l : List (Action D.maxEventPayloadBytes ⊕ ShowcaseHandles × Visit)} (hdb : Integral db)
    (hl : (platform D).Meets (Happens D settings) l db) (p : Uuid) :
    (platform D).answers (asks D p) l db =
        (platform D).answers (asks D p) ((platform D).shares (comes D p) l db) (tenant db p) ∧
      tenant ((platform D).exec l db) p =
        (platform D).exec ((platform D).shares (comes D p) l db) (tenant db p) :=
  ((private_service D p).sum (private_visitors D settings p)).run hdb hl

/-- Settings of a showcase without a Discord endpoint. -/
def showcaseSettings : SeedSettings where
  showcaseProjectName := .ofString "showcase"
  publicBaseUrl := .ofString "http://hookit"
  showcaseDiscordWebhookUrl := []
  showcaseApiKey := []

/-- The project of the showcase, before its endpoints. -/
def showcaseProject : Database := addProject .empty (.ofNat 1) ⟨.ofString "showcase", .epoch⟩

/-- An endpoint as it is seeded. -/
def seedEndpoint (db : Database) (stage : Stage) (id : ℕ) : Database :=
  addEndpoint db (.ofNat id)
    (stage.row showcaseSettings (.ofNat 1) ⟨.ofNat id, sampleSecret, 0, .epoch⟩)

/-- The showcase as it is seeded. -/
def showcased : Database :=
  seedEndpoint (seedEndpoint (seedEndpoint showcaseProject .receiver 2) .bankNaive 3) .bankSafe 4

theorem integral_showcased : Integral showcased := by
  have hproject : Integral showcaseProject := integral_empty.addProject rfl
  have hseed : ∀ {db : Database} (stage : Stage) (id : ℕ), Integral db →
      db.endpoints.get? (.ofNat id) = none → db.projects = showcaseProject.projects →
      Integral (seedEndpoint db stage id) := by
    intro db stage id hdb hfresh hprojects
    refine hdb.addEndpoint hfresh ?_
    rw [hprojects]
    exact Option.some_ne_none _
  refine hseed .bankSafe 4 (hseed .bankNaive 3 (hseed .receiver 2 hproject rfl rfl) ?_ rfl) ?_ rfl
  · decide
  · decide

/-- The handles of `showcased`. -/
def showcaseHandles : ShowcaseHandles := ⟨.ofNat 1, .ofNat 2, none, .ofNat 3, .ofNat 4⟩

theorem latestDeadLettered_of_exists {deliveryId : Uuid}
    (h : ∃ e ∈ deadLettered db p, e.1 = deliveryId ∧
      ∀ e' ∈ deadLettered db p, e'.2.updatedAt ≤ e.2.updatedAt) :
    LatestDeadLettered db p (some deliveryId) := by
  obtain ⟨⟨k, r⟩, hmem, rfl, hlatest⟩ := h
  exact ⟨r, hmem, hlatest⟩

/-- The producer's key, and a price that it publishes. -/
def pricePublished : List (Action sampleDeployment.maxEventPayloadBytes ⊕ ShowcaseHandles × Visit) :=
  [.inl (.createApiKey (.ofNat 1) (PyStr.ofString "key")
      ⟨.ofNat 5, PyStr.ofString "secret-of-a", .epoch⟩),
    .inl (.request (some (PyStr.ofString "whk_secret-of-a")) 2 (.publishEvent
      ⟨priceTick, by decide, by decide, by decide, [], emptyPayload_fits⟩ none
      ⟨.ofNat 6, fun _ => .ofNat 7, 2, .epoch, 2⟩))]

/-- Its delivery fails; then there is an event of another project; then a visitor looks at the feed
and redrives what has been dead-lettered last. -/
def visitedRun : List (Action sampleDeployment.maxEventPayloadBytes ⊕ ShowcaseHandles × Visit) :=
  pricePublished ++ [.inl (.tick (tickOf 3 (.ofNat 7) (.ofNat 8) 500))] ++
  (registrationOf "b" "secret-of-b" "whk_secret-of-b" 11 12 13).map .inl ++
  [.inl (publicationOf "whk_secret-of-b" 4 14 15),
    .inr (showcaseHandles, .feed), .inr (showcaseHandles, .redrive none (some (.ofNat 7)) 5 5),
    .inl (.tick (tickOf 6 (.ofNat 7) (.ofNat 9) 200)), .inr (showcaseHandles, .deliveries 7)]

theorem visitedRun_happens : (platform sampleDeployment).Meets
    (Happens sampleDeployment showcaseSettings) visitedRun showcased := by
  refine ⟨⟨rfl, ?_⟩, ?_, newAttempts_tickOf rfl, rfl, ⟨rfl, ?_⟩, ?_, ?_, ⟨?_, trivial⟩, ⟨?_, ?_⟩,
    newAttempts_tickOf rfl, ⟨?_, trivial⟩, trivial⟩
  · intro keyHash _ k r hr
    cases hr
  · intro project db' h
    obtain ⟨rfl, rfl⟩ := Prod.mk.inj (Except.ok.inj h)
    exact ⟨rfl, List.nodup_singleton _, fun e _ => rfl⟩
  · exact newKey_of_entries (by decide +kernel)
  · intro project db' h
    obtain ⟨rfl, rfl⟩ := Prod.mk.inj (Except.ok.inj h)
    rfl
  · intro project db' h
    obtain ⟨rfl, rfl⟩ := Prod.mk.inj (Except.ok.inj h)
    exact ⟨rfl, List.nodup_singleton _, fun e he => by rw [List.mem_singleton.1 he]; rfl⟩
  · decide +kernel
  · decide +kernel
  · exact latestDeadLettered_of_exists (by decide +kernel)
  · decide +kernel

/-- The visitor is answered from the showcase's project alone, and the other project from its own. -/
theorem platform_eq_private_visitedRun :
    let P := platform sampleDeployment
    (P.answers (asks sampleDeployment (.ofNat 1)) visitedRun showcased =
        P.answers (asks sampleDeployment (.ofNat 1))
          (P.shares (comes sampleDeployment (.ofNat 1)) visitedRun showcased)
          (tenant showcased (.ofNat 1)) ∧
      tenant (P.exec visitedRun showcased) (.ofNat 1) =
        P.exec (P.shares (comes sampleDeployment (.ofNat 1)) visitedRun showcased)
          (tenant showcased (.ofNat 1))) ∧
    P.answers (asks sampleDeployment (.ofNat 11)) visitedRun showcased =
        P.answers (asks sampleDeployment (.ofNat 11))
          (P.shares (comes sampleDeployment (.ofNat 11)) visitedRun showcased)
          (tenant showcased (.ofNat 11)) ∧
      tenant (P.exec visitedRun showcased) (.ofNat 11) =
        P.exec (P.shares (comes sampleDeployment (.ofNat 11)) visitedRun showcased)
          (tenant showcased (.ofNat 11)) :=
  ⟨platform_eq_private integral_showcased visitedRun_happens (.ofNat 1),
    platform_eq_private integral_showcased visitedRun_happens (.ofNat 11)⟩

end Platform

end Hookit.Tenancy
