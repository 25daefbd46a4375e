import Hookit.Database
import Hookit.Foundations.Machine
import Hookit.Foundations.Table
import Hookit.Services.Inbox

/-!
# `seed_showcase`

Any number of concurrent callers of `seed_showcase` (`app/services/showcase.py`) beside the
creation of projects and the creation, the update and the deletion of endpoints
(`app/routers/endpoints.py`), one action a statement.

* `lock` takes the advisory lock, for which a caller waits until no transaction has it;
  `findProject` and `insertProject` find or create the project; `find` is the `SELECT` of the next
  endpoint, `insert` its insert together with that of its health row, `sync` the update of the
  Discord endpoint's URL.
* An insert into the unique index of the project names waits while another transaction has an
  uncommitted project of the name, and fails if there is a committed one.
* `selectEndpoint` is `_get_endpoint_or_404`. The update of a row that is gone raises
  `StaleDataError`, a deletion of such a row does nothing. A deletion cascades to the health row.
* A session without a commit is rolled back (`abort`), at any moment.

`_ensure_api_key` touches none of these tables; where it raises, the caller aborts.

`move_of_step` says once what a step can do.

`projectNames` and `seeded` are history variables: the name that a project id was drawn for, and the
endpoints that the seeding has inserted under a marker.
-/

namespace Hookit.Seeding

open Foundations Foundations.PyStr

abbrev Tid := ℕ

/-- The settings that `seed_showcase` reads. -/
structure SeedSettings where
  showcaseProjectName : PyStr
  publicBaseUrl : PyStr
  showcaseDiscordWebhookUrl : PyStr
  showcaseApiKey : PyStr
  deriving DecidableEq

/-- `PRICE_TICK`. -/
def priceTick : PyStr := ofString "price.tick"

/-- `PRICE_ALERT`. -/
def priceAlert : PyStr := ofString "price.alert"

/-- `TRADE_EXECUTED`. -/
def tradeExecuted : PyStr := ofString "trade.executed"

/-- The three reserved markers. -/
def markers : List PyStr := [showcaseMarker, bankNaiveMarker, bankSafeMarker]

/-- What a new row draws. -/
structure Fresh where
  id : Uuid
  secret : Secret
  now : Time
  createdAt : Aware

/-! ## Endpoints of the API -/

/-- `RESERVED_EVENT_TYPE_PREFIX`. -/
def reservedEventTypePrefix : PyStr := ofString "__"

/-- `_check_event_types`. -/
def checkEventTypes : List PyStr → Except PyError Unit
  | [] => .ok ()
  | item :: v =>
    if strip item = [] then .error .valueError
    else if reservedEventTypePrefix <+: item then .error .valueError
    else checkEventTypes v

/-- An `event_types` that the schemas accept. -/
structure EventTypes where
  val : List PyStr
  nonempty : val ≠ []
  checked : checkEventTypes val = .ok ()

/-- `EndpointCreate`. -/
structure EndpointCreate where
  url : PyStr
  eventTypes : EventTypes
  status : EndpointStatus
  payloadFormat : PayloadFormat
  rateLimitRps : Option RateLimit

/-- The `Endpoint` that `create_endpoint` inserts. -/
def EndpointCreate.row (body : EndpointCreate) (projectId : Uuid) (fresh : Fresh) :
    EndpointRow where
  projectId
  url := body.url
  eventTypes := body.eventTypes.val
  secret := fresh.secret
  status := body.status
  payloadFormat := body.payloadFormat
  rateLimitRps := body.rateLimitRps
  createdAt := fresh.createdAt
  updatedAt := fresh.now

/-- `EndpointUpdate`. -/
structure EndpointUpdate where
  url : Option PyStr
  eventTypes : Option EventTypes
  status : Option EndpointStatus
  payloadFormat : Option PayloadFormat
  rateLimitRps : Option RateLimit

/-- A column after the `UPDATE`, which has the columns that the request has set to another value
than the session has loaded. -/
def updated {α : Type} [DecidableEq α] (value : Option α) (loaded current : α) : α :=
  match value with
  | some value => if value = loaded then current else value
  | none => current

/-- The row that the `UPDATE` of `update_endpoint` leaves. -/
def EndpointUpdate.row (body : EndpointUpdate) (now : Time) (loaded current : EndpointRow) :
    EndpointRow :=
  { current with
    url := updated body.url loaded.url current.url
    eventTypes := updated (body.eventTypes.map (·.val)) loaded.eventTypes current.eventTypes
    status := updated body.status loaded.status current.status
    payloadFormat := updated body.payloadFormat loaded.payloadFormat current.payloadFormat
    rateLimitRps :=
      updated (body.rateLimitRps.map some) loaded.rateLimitRps current.rateLimitRps
    updatedAt := now }

/-! ## Endpoints of the seeding -/

/-- The endpoints that `seed_showcase` finds or creates. -/
inductive Stage
  | receiver
  | discord
  | bankNaive
  | bankSafe
  deriving DecidableEq

namespace Stage

/-- The stages in order. -/
def all : List Stage := [receiver, discord, bankNaive, bankSafe]

theorem mem_all (stage : Stage) : stage ∈ all := by
  cases stage <;> decide

/-- The marker that the endpoint is found by. -/
def marker? : Stage → Option PyStr
  | receiver => some showcaseMarker
  | discord => none
  | bankNaive => some bankNaiveMarker
  | bankSafe => some bankSafeMarker

/-- The condition that the endpoint is found by. -/
def finds (stage : Stage) (projectId : Uuid) (row : EndpointRow) : Bool :=
  match stage.marker? with
  | some marker => row.projectId = projectId ∧ marker ∈ row.eventTypes
  | none => row.projectId = projectId ∧ row.payloadFormat = .discord

/-- A URL of the application itself. -/
def selfUrl (settings : SeedSettings) (path : String) (endpointId : Uuid) : PyStr :=
  settings.publicBaseUrl.rdropWhile (· = char '/') ++ ofString path ++ endpointId.str

/-- The endpoint that is inserted if none is found. -/
def row (settings : SeedSettings) (projectId : Uuid) (fresh : Fresh) (stage : Stage) :
    EndpointRow where
  projectId
  url :=
    match stage with
    | receiver => selfUrl settings "/showcase/receiver/" fresh.id
    | discord => settings.showcaseDiscordWebhookUrl
    | bankNaive => selfUrl settings "/showcase/ledger/naive/" fresh.id
    | bankSafe => selfUrl settings "/showcase/ledger/safe/" fresh.id
  eventTypes :=
    match stage with
    | receiver => [showcaseMarker, priceTick, priceAlert]
    | discord => [priceAlert]
    | bankNaive => [bankNaiveMarker, tradeExecuted]
    | bankSafe => [bankSafeMarker, tradeExecuted]
  secret := fresh.secret
  status := .active
  payloadFormat := if stage = discord then .discord else .raw
  rateLimitRps := none
  createdAt := fresh.createdAt
  updatedAt := fresh.now

end Stage

/-! ## Transactions -/

/-- Where `seed_showcase` stands. -/
inductive Phase
  | locked
  /-- There is no project of the name. -/
  | noProject
  /-- Before the `SELECT` of the next of the endpoints. -/
  | finding (projectId : Uuid) (stages : List Stage)
  /-- The `SELECT` has returned no endpoint. -/
  | missing (projectId : Uuid) (stage : Stage) (stages : List Stage)
  /-- The Discord endpoint has another URL. -/
  | stale (projectId endpointId : Uuid) (stages : List Stage)
  deriving DecidableEq

/-- The project that the caller has found or created. -/
def Phase.projectId? : Phase → Option Uuid
  | locked | noProject => none
  | finding projectId _ | missing projectId _ _ | stale projectId _ _ => some projectId

inductive TxState
  | unused
  | seeding (settings : SeedSettings) (phase : Phase)
  /-- After `_get_endpoint_or_404`. -/
  | selected (endpointId : Uuid) (loaded : EndpointRow)
  /-- Before the commit of a request, with the endpoint that it updates or deletes. -/
  | editing (edited : Option Uuid)
  | ended

structure State where
  /-- The projects by their names. -/
  projects : Table Tid PyStr Uuid
  endpoints : Table Tid Uuid EndpointRow
  /-- The endpoint ids in use, in the order of their creation. -/
  endpointIds : List Uuid
  health : Table Tid Uuid HealthRow
  /-- The holders of the advisory locks. -/
  locks : ℤ → Option Tid
  txs : Tid → TxState
  projectNames : Uuid → Option PyStr
  seeded : List Uuid

def init : State where
  projects := .empty
  endpoints := .empty
  endpointIds := []
  health := .empty
  locks _ := none
  txs _ := .unused
  projectNames _ := none
  seeded := []

namespace State

/-- The endpoints that a query of transaction `t` returns. -/
def select (s : State) (t : Tid) (p : EndpointRow → Bool) : List Uuid :=
  s.endpointIds.filter fun endpointId => (s.endpoints.visible t endpointId).any p

/-- No endpoint has the id. -/
def isFresh (s : State) (endpointId : Uuid) : Bool := s.endpointIds.all fun id => id ≠ endpointId

theorem isFresh_iff {s : State} {endpointId : Uuid} :
    s.isFresh endpointId = true ↔ endpointId ∉ s.endpointIds := by
  simp only [isFresh, List.all_eq_true, decide_eq_true_eq]
  exact ⟨fun h hmem => h endpointId hmem rfl, fun h id hid heq => h (heq ▸ hid)⟩

def put (s : State) (t : Tid) (tx : TxState) : State :=
  { s with txs := Function.update s.txs t tx }

/-- Insert a project. -/
def addProject (s : State) (t : Tid) (name : PyStr) (projectId : Uuid) : State :=
  { s with
    projects := s.projects.write t name (some projectId)
    projectNames := Function.update s.projectNames projectId (some name) }

/-- Insert an endpoint. -/
def addEndpoint (s : State) (t : Tid) (endpointId : Uuid) (row : EndpointRow) : State :=
  { s with
    endpoints := s.endpoints.write t endpointId (some row)
    endpointIds := s.endpointIds ++ [endpointId] }

/-- Insert the health row of an endpoint that the seeding has inserted. -/
def addHealth (s : State) (t : Tid) (endpointId : Uuid) : State :=
  { s with
    health := s.health.write t endpointId (some ⟨true, ofString "healthy"⟩)
    seeded := s.seeded ++ [endpointId] }

/-- Update an endpoint. -/
def setEndpoint (s : State) (t : Tid) (endpointId : Uuid) (row : EndpointRow) : State :=
  { s with endpoints := s.endpoints.write t endpointId (some row) }

/-- Delete an endpoint with its health row. -/
def dropEndpoint (s : State) (t : Tid) (endpointId : Uuid) : State :=
  { s with
    endpoints := s.endpoints.write t endpointId none
    health := s.health.write t endpointId none }

def commit (s : State) (t : Tid) : State :=
  { s with
    projects := s.projects.commit t
    endpoints := s.endpoints.commit t
    health := s.health.commit t
    locks := fun key => (s.locks key).filter (· ≠ t)
    txs := Function.update s.txs t .ended }

def rollback (s : State) (t : Tid) : State :=
  { s with
    projects := s.projects.rollback t
    endpoints := s.endpoints.rollback t
    health := s.health.rollback t
    locks := fun key => (s.locks key).filter (· ≠ t)
    txs := Function.update s.txs t .ended }

end State

inductive Act
  | lock (t : Tid) (settings : SeedSettings)
  | findProject (t : Tid)
  | insertProject (t : Tid) (projectId : Uuid)
  | find (t : Tid)
  | insert (t : Tid) (fresh : Fresh)
  | sync (t : Tid) (now : Time)
  | createProject (t : Tid) (name : PyStr) (projectId : Uuid)
  | createEndpoint (t : Tid) (projectId : Uuid) (body : EndpointCreate) (fresh : Fresh)
  | selectEndpoint (t : Tid) (projectId endpointId : Uuid)
  | updateEndpoint (t : Tid) (body : EndpointUpdate) (now : Time)
  | deleteEndpoint (t : Tid)
  | commit (t : Tid)
  | abort (t : Tid)

def Act.tid : Act → Tid
  | lock t _ | findProject t | insertProject t _ | find t | insert t _ | sync t _
  | createProject t _ _ | createEndpoint t _ _ _ | selectEndpoint t _ _ | updateEndpoint t _ _
  | deleteEndpoint t | commit t | abort t => t

variable (hashtext : PyStr → ℤ)

/-- The first statements of a transaction. -/
def stepNew (t : Tid) : Act → State → Option State
  | .lock _ settings, s =>
    let key := hashtext settings.showcaseProjectName
    if s.locks key = none then
      some
        { s.put t (.seeding settings .locked) with
          locks := Function.update s.locks key (some t) }
    else none
  | .createProject _ name projectId, s =>
    if s.projectNames projectId = none ∧ s.projects.free t name then
      match s.projects.visible t name with
      -- `IntegrityError`
      | some _ => some (s.rollback t)
      | none => some ((s.addProject t name projectId).put t (.editing none))
    else none
  | .createEndpoint _ projectId body fresh, s =>
    -- the primary key is a fresh UUID
    if s.isFresh fresh.id then
      some ((s.addEndpoint t fresh.id (body.row projectId fresh)).put t (.editing none))
    else none
  | .selectEndpoint _ projectId endpointId, s =>
    match (s.endpoints.visible t endpointId).filter fun row => row.projectId = projectId with
    | some row => some (s.put t (.selected endpointId row))
    -- `404`
    | none => some (s.rollback t)
  | _, _ => none

/-- The statements of `seed_showcase` after the lock. -/
def stepSeeding (t : Tid) (settings : SeedSettings) (phase : Phase) : Act → State → Option State
  | .findProject _, s =>
    match phase with
    | .locked =>
      match s.projects.visible t settings.showcaseProjectName with
      | some projectId => some (s.put t (.seeding settings (.finding projectId Stage.all)))
      | none => some (s.put t (.seeding settings .noProject))
    | _ => none
  | .insertProject _ projectId, s =>
    match phase with
    | .noProject =>
      let name := settings.showcaseProjectName
      if s.projectNames projectId = none ∧ s.projects.free t name then
        match s.projects.visible t name with
        -- `IntegrityError`
        | some _ => some (s.rollback t)
        | none =>
          some ((s.addProject t name projectId).put t
            (.seeding settings (.finding projectId Stage.all)))
      else none
    | _ => none
  | .find _, s =>
    match phase with
    | .finding projectId (stage :: stages) =>
      if stage = .discord ∧ settings.showcaseDiscordWebhookUrl = [] then
        some (s.put t (.seeding settings (.finding projectId stages)))
      else
        match s.select t (stage.finds projectId) with
        | [] => some (s.put t (.seeding settings (.missing projectId stage stages)))
        | [endpointId] =>
          if stage = .discord ∧ (s.endpoints.visible t endpointId).any fun row =>
              row.url ≠ settings.showcaseDiscordWebhookUrl then
            some (s.put t (.seeding settings (.stale projectId endpointId stages)))
          else some (s.put t (.seeding settings (.finding projectId stages)))
        -- `MultipleResultsFound`
        | _ => some (s.rollback t)
    | _ => none
  | .insert _ fresh, s =>
    match phase with
    | .missing projectId stage stages =>
      if s.isFresh fresh.id then
        let s := s.addEndpoint t fresh.id (stage.row settings projectId fresh)
        let s := if stage.marker?.isSome then s.addHealth t fresh.id else s
        some (s.put t (.seeding settings (.finding projectId stages)))
      else none
    | _ => none
  | .sync _ now, s =>
    match phase with
    | .stale projectId endpointId stages =>
      if s.endpoints.free t endpointId then
        match s.endpoints.visible t endpointId with
        | some row =>
          let row := { row with url := settings.showcaseDiscordWebhookUrl, updatedAt := now }
          some ((s.setEndpoint t endpointId row).put t
            (.seeding settings (.finding projectId stages)))
        -- `StaleDataError`
        | none => some (s.rollback t)
      else none
    | _ => none
  | .commit _, s =>
    match phase with
    | .finding _ [] => some (s.commit t)
    | _ => none
  | .abort _, s => some (s.rollback t)
  | _, _ => none

/-- The update or the deletion of an endpoint that the session has loaded. -/
def stepSelected (t : Tid) (endpointId : Uuid) (loaded : EndpointRow) :
    Act → State → Option State
  | .updateEndpoint _ body now, s =>
    if s.endpoints.free t endpointId then
      match s.endpoints.visible t endpointId with
      | some current =>
        some ((s.setEndpoint t endpointId (body.row now loaded current)).put t
          (.editing (some endpointId)))
      -- `StaleDataError`
      | none => some (s.rollback t)
    else none
  | .deleteEndpoint _, s =>
    if s.endpoints.free t endpointId ∧ s.health.free t endpointId then
      match s.endpoints.visible t endpointId with
      | some _ => some ((s.dropEndpoint t endpointId).put t (.editing (some endpointId)))
      | none => some (s.put t (.editing (some endpointId)))
    else none
  | .abort _, s => some (s.rollback t)
  | _, _ => none

def step (a : Act) (s : State) : Option State :=
  match s.txs a.tid with
  | .unused => stepNew hashtext a.tid a s
  | .seeding settings phase => stepSeeding a.tid settings phase a s
  | .selected endpointId loaded => stepSelected a.tid endpointId loaded a s
  | .editing _ =>
    match a with
    | .commit t => some (s.commit t)
    | .abort t => some (s.rollback t)
    | _ => none
  | .ended => none

/-- The tables of the showcase with their transactions. -/
def seeding : Machine State Act where
  init := init
  step := step hashtext

/-! ## Moves -/

/-- The outcomes of the lookups of `seed_showcase`. -/
inductive Lookup (s : State) (t : Tid) (settings : SeedSettings) : Phase → Phase → Prop
  | project {projectId : Uuid}
      (hproject : s.projects.visible t settings.showcaseProjectName = some projectId) :
      Lookup s t settings .locked (.finding projectId Stage.all)
  | noProject : Lookup s t settings .locked .noProject
  | skip {projectId : Uuid} {stages : List Stage} :
      Lookup s t settings (.finding projectId (.discord :: stages)) (.finding projectId stages)
  | missing {projectId : Uuid} {stage : Stage} {stages : List Stage}
      (hselect : s.select t (stage.finds projectId) = []) :
      Lookup s t settings (.finding projectId (stage :: stages))
        (.missing projectId stage stages)
  | found {projectId endpointId : Uuid} {stage : Stage} {stages : List Stage}
      (hselect : s.select t (stage.finds projectId) = [endpointId]) :
      Lookup s t settings (.finding projectId (stage :: stages)) (.finding projectId stages)
  | stale {projectId endpointId : Uuid} {stages : List Stage} :
      Lookup s t settings (.finding projectId (.discord :: stages))
        (.stale projectId endpointId stages)

/-- The outcomes of a step. -/
inductive Move : Act → State → State → Prop
  | lock {s : State} {t : Tid} {settings : SeedSettings} (ht : s.txs t = .unused)
      (hfree : s.locks (hashtext settings.showcaseProjectName) = none) :
      Move (.lock t settings) s
        { s.put t (.seeding settings .locked) with
          locks := Function.update s.locks (hashtext settings.showcaseProjectName) (some t) }
  | lookup {s : State} {a : Act} {settings : SeedSettings} {phase phase' : Phase}
      (ht : s.txs a.tid = .seeding settings phase)
      (hlookup : Lookup s a.tid settings phase phase') :
      Move a s (s.put a.tid (.seeding settings phase'))
  | insertProject {s : State} {t : Tid} {settings : SeedSettings} {projectId : Uuid}
      (ht : s.txs t = .seeding settings .noProject) (hfresh : s.projectNames projectId = none)
      (hfree : s.projects.free t settings.showcaseProjectName = true)
      (hnone : s.projects.visible t settings.showcaseProjectName = none) :
      Move (.insertProject t projectId) s
        ((s.addProject t settings.showcaseProjectName projectId).put t
          (.seeding settings (.finding projectId Stage.all)))
  | insert {s : State} {t : Tid} {settings : SeedSettings} {projectId : Uuid} {stage : Stage}
      {stages : List Stage} {fresh : Fresh}
      (ht : s.txs t = .seeding settings (.missing projectId stage stages))
      (hfresh : fresh.id ∉ s.endpointIds) :
      Move (.insert t fresh) s
        ((if stage.marker?.isSome then
            (s.addEndpoint t fresh.id (stage.row settings projectId fresh)).addHealth t fresh.id
          else s.addEndpoint t fresh.id (stage.row settings projectId fresh)).put t
          (.seeding settings (.finding projectId stages)))
  | sync {s : State} {t : Tid} {settings : SeedSettings} {projectId endpointId : Uuid}
      {stages : List Stage} {now : Time} {row : EndpointRow}
      (ht : s.txs t = .seeding settings (.stale projectId endpointId stages))
      (hfree : s.endpoints.free t endpointId = true)
      (hrow : s.endpoints.visible t endpointId = some row) :
      Move (.sync t now) s
        ((s.setEndpoint t endpointId
          { row with url := settings.showcaseDiscordWebhookUrl, updatedAt := now }).put t
          (.seeding settings (.finding projectId stages)))
  | createProject {s : State} {t : Tid} {name : PyStr} {projectId : Uuid}
      (ht : s.txs t = .unused) (hfresh : s.projectNames projectId = none)
      (hfree : s.projects.free t name = true) (hnone : s.projects.visible t name = none) :
      Move (.createProject t name projectId) s
        ((s.addProject t name projectId).put t (.editing none))
  | createEndpoint {s : State} {t : Tid} {projectId : Uuid} {body : EndpointCreate} {fresh : Fresh}
      (ht : s.txs t = .unused) (hfresh : fresh.id ∉ s.endpointIds) :
      Move (.createEndpoint t projectId body fresh) s
        ((s.addEndpoint t fresh.id (body.row projectId fresh)).put t (.editing none))
  | select {s : State} {t : Tid} {projectId endpointId : Uuid} {row : EndpointRow}
      (ht : s.txs t = .unused) :
      Move (.selectEndpoint t projectId endpointId) s (s.put t (.selected endpointId row))
  | update {s : State} {t : Tid} {endpointId : Uuid} {loaded current : EndpointRow}
      {body : EndpointUpdate} {now : Time} (ht : s.txs t = .selected endpointId loaded)
      (hfree : s.endpoints.free t endpointId = true)
      (hrow : s.endpoints.visible t endpointId = some current) :
      Move (.updateEndpoint t body now) s
        ((s.setEndpoint t endpointId (body.row now loaded current)).put t
          (.editing (some endpointId)))
  | delete {s : State} {t : Tid} {endpointId : Uuid} {loaded row : EndpointRow}
      (ht : s.txs t = .selected endpointId loaded)
      (hfree : s.endpoints.free t endpointId = true)
      (hhealth : s.health.free t endpointId = true)
      (hrow : s.endpoints.visible t endpointId = some row) :
      Move (.deleteEndpoint t) s
        ((s.dropEndpoint t endpointId).put t (.editing (some endpointId)))
  | gone {s : State} {t : Tid} {endpointId : Uuid} {loaded : EndpointRow}
      (ht : s.txs t = .selected endpointId loaded) :
      Move (.deleteEndpoint t) s (s.put t (.editing (some endpointId)))
  | commit {s : State} {t : Tid} : Move (.commit t) s (s.commit t)
  | rollback {s : State} {a : Act} : Move a s (s.rollback a.tid)

variable {hashtext} {s s' : State}

theorem move_of_stepNew {a : Act} (ht : s.txs a.tid = .unused)
    (hs : stepNew hashtext a.tid a s = some s') : Move hashtext a s s' := by
  cases a with
  | lock t settings =>
    obtain ⟨hfree, ⟨⟩⟩ := Option.ite_none_right_eq_some.1 hs
    exact .lock ht hfree
  | createProject t name projectId =>
    obtain ⟨⟨hfresh, hfree⟩, hcreate⟩ := Option.ite_none_right_eq_some.1 hs
    split at hcreate <;> obtain rfl := Option.some.inj hcreate
    · exact .rollback
    · rename_i hnone
      exact .createProject ht hfresh hfree hnone
  | createEndpoint t projectId body fresh =>
    obtain ⟨hfresh, ⟨⟩⟩ := Option.ite_none_right_eq_some.1 hs
    exact .createEndpoint ht (State.isFresh_iff.1 hfresh)
  | selectEndpoint t projectId endpointId =>
    simp only [stepNew] at hs
    split at hs <;> obtain rfl := Option.some.inj hs
    · exact .select ht
    · exact .rollback
  | _ => cases hs

theorem move_of_stepSeeding {a : Act} {settings : SeedSettings} {phase : Phase}
    (ht : s.txs a.tid = .seeding settings phase)
    (hs : stepSeeding a.tid settings phase a s = some s') : Move hashtext a s s' := by
  cases a with
  | findProject t =>
    simp only [stepSeeding] at hs
    split at hs
    · split at hs <;> obtain rfl := Option.some.inj hs
      · rename_i hproject
        exact .lookup (a := .findProject t) ht (.project hproject)
      · exact .lookup (a := .findProject t) ht .noProject
    · cases hs
  | insertProject t projectId =>
    simp only [stepSeeding] at hs
    split at hs
    · obtain ⟨⟨hfresh, hfree⟩, hinsert⟩ := Option.ite_none_right_eq_some.1 hs
      split at hinsert <;> obtain rfl := Option.some.inj hinsert
      · exact .rollback
      · rename_i hnone
        exact .insertProject ht hfresh hfree hnone
    · cases hs
  | find t =>
    simp only [stepSeeding] at hs
    split at hs
    · split at hs
      · rename_i hskip
        obtain ⟨rfl, -⟩ := hskip
        obtain rfl := Option.some.inj hs
        exact .lookup (a := .find t) ht .skip
      split at hs
      · rename_i hselect
        obtain rfl := Option.some.inj hs
        exact .lookup (a := .find t) ht (.missing hselect)
      · rename_i hselect
        split at hs <;> obtain rfl := Option.some.inj hs
        · rename_i hstale
          obtain ⟨rfl, -⟩ := hstale
          exact .lookup (a := .find t) ht .stale
        · exact .lookup (a := .find t) ht (.found hselect)
      · obtain rfl := Option.some.inj hs
        exact .rollback
    · cases hs
  | insert t fresh =>
    simp only [stepSeeding] at hs
    split at hs
    · obtain ⟨hfresh, hinsert⟩ := Option.ite_none_right_eq_some.1 hs
      obtain rfl := Option.some.inj hinsert
      exact .insert ht (State.isFresh_iff.1 hfresh)
    · cases hs
  | sync t now =>
    simp only [stepSeeding] at hs
    split at hs
    · obtain ⟨hfree, hsync⟩ := Option.ite_none_right_eq_some.1 hs
      split at hsync <;> obtain rfl := Option.some.inj hsync
      · rename_i hrow
        exact .sync ht hfree hrow
      · exact .rollback
    · cases hs
  | commit t =>
    simp only [stepSeeding] at hs
    split at hs
    · obtain rfl := Option.some.inj hs
      exact .commit
    · cases hs
  | abort t =>
    obtain rfl := Option.some.inj hs
    exact .rollback
  | _ => cases hs

theorem move_of_stepSelected {a : Act} {endpointId : Uuid} {loaded : EndpointRow}
    (ht : s.txs a.tid = .selected endpointId loaded)
    (hs : stepSelected a.tid endpointId loaded a s = some s') : Move hashtext a s s' := by
  cases a with
  | updateEndpoint t body now =>
    obtain ⟨hfree, hupdate⟩ := Option.ite_none_right_eq_some.1 hs
    split at hupdate <;> obtain rfl := Option.some.inj hupdate
    · rename_i hrow
      exact .update ht hfree hrow
    · exact .rollback
  | deleteEndpoint t =>
    obtain ⟨⟨hfree, hhealth⟩, hdelete⟩ := Option.ite_none_right_eq_some.1 hs
    split at hdelete <;> obtain rfl := Option.some.inj hdelete
    · rename_i hrow
      exact .delete ht hfree hhealth hrow
    · exact .gone ht
  | abort t =>
    obtain rfl := Option.some.inj hs
    exact .rollback
  | _ => cases hs

/-- **Every step is a move.** -/
theorem move_of_step {a : Act} (hs : step hashtext a s = some s') : Move hashtext a s s' := by
  unfold step at hs
  split at hs
  · exact move_of_stepNew ‹_› hs
  · exact move_of_stepSeeding ‹_› hs
  · exact move_of_stepSelected ‹_› hs
  · cases a with
    | commit t =>
      obtain rfl := Option.some.inj hs
      exact .commit
    | abort t =>
      obtain rfl := Option.some.inj hs
      exact .rollback
    | _ => cases hs
  · cases hs

end Hookit.Seeding
