import Hookit.Foundations.Raise
import Hookit.Showcase.Seeding

/-!
# `seed_showcase` and `resolve_showcase` on a database

The whole of `seed_showcase` on the tables that it reads and writes, with what a run of it draws;
`resolve_showcase`, which repeats its lookups; and `get_current_project` of
`app/auth/dependencies.py`, which looks for the API key.

A statement raises if a column does not take the text that it carries. SHA-256 is a parameter.
-/

namespace Hookit.Handles

open Foundations Foundations.PyStr Seeding

/-- The tables. -/
structure Store where
  projects : Rows Uuid ProjectRow
  apiKeys : Rows Uuid ApiKeyRow
  endpoints : Rows Uuid EndpointRow
  receiverHealth : Rows Uuid HealthRow

def Store.empty : Store := ⟨.empty, .empty, .empty, .empty⟩

/-- `ShowcaseHandles`. -/
structure ShowcaseHandles where
  projectId : Uuid
  receiverEndpointId : Uuid
  discordEndpointId : Option Uuid
  bankNaiveEndpointId : Uuid
  bankSafeEndpointId : Uuid
  deriving DecidableEq

/-- What a run of `seed_showcase` draws for the rows that it may insert. -/
structure Draws where
  projectId : Uuid
  endpoint : Stage → Fresh
  apiKeyId : Uuid
  createdAt : Aware
  now : Time

/-- The ids are in no use. -/
structure Draws.Unused (draws : Draws) (db : Store) : Prop where
  project : db.projects.get? draws.projectId = none
  endpoint : ∀ stage, db.endpoints.get? (draws.endpoint stage).id = none
  distinct : ∀ stage stage', (draws.endpoint stage).id = (draws.endpoint stage').id →
    stage = stage'
  apiKey : db.apiKeys.get? draws.apiKeyId = none

/-- `scalar_one_or_none`. -/
def scalarOneOrNone {α : Type} : List α → Except PyError (Option α)
  | [] => .ok none
  | [a] => .ok (some a)
  | _ => .error .multipleResultsFound

/-- A text column of a length takes the text. -/
def fits (length : ℕ) (text : PyStr) : Bool := text.length ≤ length ∧ text.storable

/-- Raise unless a column takes the text. -/
def checkColumn (length : ℕ) (text : PyStr) : Except PyError Unit :=
  if fits length text then .ok () else .error .dataError

namespace Store

variable (db : Store)

/-- The projects of a name. -/
def projectsNamed (name : PyStr) : List (Uuid × ProjectRow) :=
  db.projects.select fun _ row => row.name = name

/-- The endpoints of a project that a stage finds. -/
def found (projectId : Uuid) (stage : Stage) : List (Uuid × EndpointRow) :=
  db.endpoints.select fun _ row => stage.finds projectId row

/-- The API keys with a hash. -/
def keysHashed (keyHash : PyStr) : List (Uuid × ApiKeyRow) :=
  db.apiKeys.select fun _ row => row.keyHash = keyHash

def addEndpoint (endpointId : Uuid) (row : EndpointRow) : Store :=
  { db with endpoints := db.endpoints.insert endpointId row }

def addHealth (endpointId : Uuid) : Store :=
  { db with
    receiverHealth := db.receiverHealth.insert endpointId ⟨true, ofString "healthy"⟩ }

def setUrl (endpointId : Uuid) (url : PyStr) (now : Time) : Store :=
  { db with
    endpoints := db.endpoints.modifyAt endpointId fun row => { row with url, updatedAt := now } }

end Store

/-- The lookup of the project by its name. -/
def findProject (db : Store) (name : PyStr) : Except PyError (Option (Uuid × ProjectRow)) :=
  if name.storable then scalarOneOrNone (db.projectsNamed name) else .error .dataError

/-- The project that is found, or else created. -/
def findOrCreateProject (db : Store) (settings : SeedSettings) (draws : Draws) :
    Except PyError (Uuid × Store) := do
  match ← findProject db settings.showcaseProjectName with
  | some project => return (project.1, db)
  | none =>
    checkColumn 255 settings.showcaseProjectName
    return (draws.projectId,
      { db with
        projects := db.projects.insert draws.projectId
          ⟨settings.showcaseProjectName, draws.createdAt⟩ })

/-- What `_find_or_create_receiver` and `_find_or_create_bank` have in common. -/
def findOrCreateMarked (db : Store) (settings : SeedSettings) (projectId : Uuid) (stage : Stage)
    (fresh : Fresh) : Except PyError (Uuid × Store) := do
  match ← scalarOneOrNone (db.found projectId stage) with
  | some existing => return (existing.1, db)
  | none =>
    let row := stage.row settings projectId fresh
    checkColumn 2048 row.url
    return (fresh.id, (db.addEndpoint fresh.id row).addHealth fresh.id)

/-- `_find_or_create_discord`. -/
def findOrCreateDiscord (db : Store) (settings : SeedSettings) (projectId : Uuid) (fresh : Fresh)
    (now : Time) : Except PyError (Option Uuid × Store) := do
  let webhookUrl := settings.showcaseDiscordWebhookUrl
  if webhookUrl = [] then return (none, db)
  else match ← scalarOneOrNone (db.found projectId .discord) with
  | some existing =>
    if existing.2.url ≠ webhookUrl then
      checkColumn 2048 webhookUrl
      return (some existing.1, db.setUrl existing.1 webhookUrl now)
    else return (some existing.1, db)
  | none =>
    checkColumn 2048 webhookUrl
    return (some fresh.id,
      db.addEndpoint fresh.id (Stage.discord.row settings projectId fresh))

section Keys

variable (sha256 : Bytes → PyStr)

/-- `hash_api_key`, with the `UnicodeEncodeError` of `encode`. -/
def hashApiKey (plaintext : PyStr) : Except PyError PyStr :=
  match encode plaintext with
  | some bytes => .ok (sha256 bytes)
  | none => .error .valueError

/-- `_ensure_api_key`. -/
def ensureApiKey (db : Store) (projectId : Uuid) (plaintext : PyStr) (draws : Draws) :
    Except PyError Store := do
  if plaintext = [] then return db
  else
    let keyHash ← hashApiKey sha256 plaintext
    match ← scalarOneOrNone (db.keysHashed keyHash) with
    | some _ => return db
    | none =>
      let keyPrefix := plaintext.take 12
      checkColumn 16 keyPrefix
      return { db with
        apiKeys := db.apiKeys.insert draws.apiKeyId
          ⟨projectId, some (ofString "showcase-producer"), keyPrefix, keyHash, none, none,
            draws.createdAt⟩ }

/-- `seed_showcase`. -/
def seedShowcase (db : Store) (settings : SeedSettings) (draws : Draws) :
    Except PyError (ShowcaseHandles × Store) := do
  let (projectId, db) ← findOrCreateProject db settings draws
  let (receiver, db) ←
    findOrCreateMarked db settings projectId .receiver (draws.endpoint .receiver)
  let (discord, db) ←
    findOrCreateDiscord db settings projectId (draws.endpoint .discord) draws.now
  let (bankNaive, db) ←
    findOrCreateMarked db settings projectId .bankNaive (draws.endpoint .bankNaive)
  let (bankSafe, db) ←
    findOrCreateMarked db settings projectId .bankSafe (draws.endpoint .bankSafe)
  let db ← ensureApiKey sha256 db projectId settings.showcaseApiKey draws
  return (⟨projectId, receiver, discord, bankNaive, bankSafe⟩, db)

/-- `get_current_project`, with the lookup's time. -/
def getCurrentProject (db : Store) (credentials : Option PyStr) (now : Time) :
    Except ApiError (Uuid × Store) := do
  let unauthorized := ApiError.http 401 (ofString "Invalid or missing API key")
  let token ← orRaise unauthorized credentials
  let keyHash ← (hashApiKey sha256 token).mapError ApiError.raised
  match ← (scalarOneOrNone (db.keysHashed keyHash)).mapError ApiError.raised with
  | some apiKey =>
    if apiKey.2.revokedAt.isSome then .error unauthorized
    else return (apiKey.2.projectId,
      { db with
        apiKeys := db.apiKeys.modifyAt apiKey.1 fun row => { row with lastUsedAt := some now } })
  | none => .error unauthorized

end Keys

/-- `resolve_showcase`. -/
def resolveShowcase (db : Store) (settings : SeedSettings) :
    Except PyError (Option ShowcaseHandles) := do
  match ← findProject db settings.showcaseProjectName with
  | none => return none
  | some project =>
    match ← scalarOneOrNone (db.found project.1 .receiver) with
    | none => return none
    | some receiver =>
      let bankNaive ← scalarOneOrNone (db.found project.1 .bankNaive)
      let bankSafe ← scalarOneOrNone (db.found project.1 .bankSafe)
      match bankNaive, bankSafe with
      | some bankNaive, some bankSafe =>
        let discord ← scalarOneOrNone (db.found project.1 .discord)
        return some
          ⟨project.1, receiver.1, discord.map Prod.fst, bankNaive.1, bankSafe.1⟩
      | _, _ => return none

/-! ## The claim -/

/-- An endpoint of the project that the lookup for the Discord endpoint can find, and that is
active. -/
def ActiveDiscord (db : Store) (projectId endpointId : Uuid) (row : EndpointRow) : Prop :=
  (endpointId, row) ∈ db.found projectId .discord ∧ row.status = .active

/-- What `seed_showcase` is to leave. -/
structure Established (sha256 : Bytes → PyStr) (settings : SeedSettings)
    (handles : ShowcaseHandles) (db : Store) : Prop where
  resolved : resolveShowcase db settings = .ok (some handles)
  seeded : ∀ draws, seedShowcase sha256 db settings draws = .ok (handles, db)
  discord : settings.showcaseDiscordWebhookUrl ≠ [] → ∃ endpointId row,
    ActiveDiscord db handles.projectId endpointId row ∧
      row.url = settings.showcaseDiscordWebhookUrl
  noDiscord : settings.showcaseDiscordWebhookUrl = [] →
    ∀ endpointId row, ¬ ActiveDiscord db handles.projectId endpointId row
  authenticated : settings.showcaseApiKey ≠ [] → ∀ now, ∃ db',
    getCurrentProject sha256 db (some settings.showcaseApiKey) now = .ok (handles.projectId, db')

/-- `seed_showcase` returns handles and leaves the store as it is to be left. -/
def SeedsShowcase (sha256 : Bytes → PyStr) (db : Store) (settings : SeedSettings)
    (draws : Draws) : Prop :=
  ∃ handles db', seedShowcase sha256 db settings draws = .ok (handles, db') ∧
    Established sha256 settings handles db'

/-! ## The condition -/

/-- The project of the name, or the one that would be created. -/
def projectOf (db : Store) (settings : SeedSettings) (draws : Draws) : Uuid :=
  match db.projectsNamed settings.showcaseProjectName with
  | [] => draws.projectId
  | project :: _ => project.1

/-- The store has at most one row for each of the lookups, and what is missing can be inserted. -/
structure Startable (sha256 : Bytes → PyStr) (db : Store) (settings : SeedSettings)
    (draws : Draws) : Prop where
  name : settings.showcaseProjectName.storable = true
  project : (db.projectsNamed settings.showcaseProjectName = [] ∧
      fits 255 settings.showcaseProjectName = true) ∨
    ∃ project, db.projectsNamed settings.showcaseProjectName = [project]
  marked : ∀ stage marker, Stage.marker? stage = some marker →
    (db.found (projectOf db settings draws) stage = [] ∧
      fits 2048 (stage.row settings (projectOf db settings draws) (draws.endpoint stage)).url =
        true) ∨
    ∃ existing, db.found (projectOf db settings draws) stage = [existing]
  discord : settings.showcaseDiscordWebhookUrl ≠ [] →
    (db.found (projectOf db settings draws) .discord = [] ∧
      fits 2048 settings.showcaseDiscordWebhookUrl = true) ∨
    ∃ existing, db.found (projectOf db settings draws) .discord = [existing] ∧
      (existing.2.url = settings.showcaseDiscordWebhookUrl ∨
        fits 2048 settings.showcaseDiscordWebhookUrl = true)
  apiKey : settings.showcaseApiKey ≠ [] → ∃ bytes, encode settings.showcaseApiKey = some bytes ∧
    ((db.keysHashed (sha256 bytes) = [] ∧ fits 16 (settings.showcaseApiKey.take 12) = true) ∨
      ∃ apiKey, db.keysHashed (sha256 bytes) = [apiKey])

/-- Besides, the Discord endpoint that is found is active, and there is none if the URL is empty; the
API key that is found belongs to the project and is not revoked. -/
structure Seedable (sha256 : Bytes → PyStr) (db : Store) (settings : SeedSettings)
    (draws : Draws) : Prop extends Startable sha256 db settings draws where
  noDiscord : settings.showcaseDiscordWebhookUrl = [] →
    db.found (projectOf db settings draws) .discord = []
  active : settings.showcaseDiscordWebhookUrl ≠ [] →
    db.found (projectOf db settings draws) .discord = [] ∨
      ∃ existing, db.found (projectOf db settings draws) .discord = [existing] ∧
        existing.2.status = .active
  owned : settings.showcaseApiKey ≠ [] → ∃ bytes, encode settings.showcaseApiKey = some bytes ∧
    (db.keysHashed (sha256 bytes) = [] ∨
      ∃ apiKey, db.keysHashed (sha256 bytes) = [apiKey] ∧
        apiKey.2.projectId = projectOf db settings draws ∧ apiKey.2.revokedAt = none)

end Hookit.Handles
