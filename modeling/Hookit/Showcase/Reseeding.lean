import Hookit.Showcase.Handles

/-!
# What the seeding establishes

`seedsShowcase_iff`: `seed_showcase` leaves a store in which `resolve_showcase` returns its handles,
a second run changes nothing and the Discord endpoint and the API key are as the settings say if and
only if what it finds beforehand is as it would have created it (`Seedable`): neither seeding nor
resolution looks at the status of the Discord endpoint that it finds or at the project and the
revocation of the key, and the resolution looks for a Discord endpoint when the URL is empty too.
-/

namespace Hookit.Handles

open Foundations Foundations.PyStr Seeding

variable {sha256 : Bytes → PyStr} {db db' : Store} {settings : SeedSettings} {draws : Draws}
  {projectId : Uuid} {stage : Stage}

/-! ## Lookups -/

theorem scalarOneOrNone_eq_ok_iff {α : Type} {l : List α} {r : Option α} :
    scalarOneOrNone l = .ok r ↔ (l = [] ∧ r = none) ∨ ∃ a, l = [a] ∧ r = some a := by
  match l with
  | [] => simp [scalarOneOrNone, eq_comm]
  | [a] => simp [scalarOneOrNone, eq_comm]
  | a :: b :: l => simp [scalarOneOrNone]

theorem checkColumn_eq_ok_iff {length : ℕ} {text : PyStr} {u : Unit} :
    checkColumn length text = .ok u ↔ fits length text = true := by
  unfold checkColumn
  split_ifs with h <;> simp [h]

/-- The ids of the endpoints that a stage finds. -/
def Store.ids (db : Store) (projectId : Uuid) (stage : Stage) : List Uuid :=
  (db.found projectId stage).map Prod.fst

theorem ids_eq_nil_iff : db.ids projectId stage = [] ↔ db.found projectId stage = [] :=
  List.map_eq_nil_iff

theorem exists_found_iff :
    (∃ existing, db.found projectId stage = [existing]) ↔ ∃ k, db.ids projectId stage = [k] := by
  simp only [Store.ids, List.map_eq_singleton_iff]
  exact ⟨fun ⟨e, he⟩ => ⟨e.1, e, he, rfl⟩, fun ⟨_, e, he, _⟩ => ⟨e, he⟩⟩

/-- A stage finds what it would insert, and what no other stage would. -/
theorem finds_row {stage' : Stage} {fresh : Fresh} :
    stage.finds projectId (stage'.row settings projectId fresh) = decide (stage = stage') := by
  cases stage <;> cases stage' <;> simp [Stage.finds, Stage.marker?, Stage.row] <;> decide

theorem found_addEndpoint {fresh : Fresh} {stage' : Stage}
    (hunused : db.endpoints.get? fresh.id = none) :
    (db.addEndpoint fresh.id (stage'.row settings projectId fresh)).found projectId stage =
      db.found projectId stage ++ if stage = stage' then
        [(fresh.id, stage'.row settings projectId fresh)] else [] := by
  simp only [Store.found, Rows.select, Store.addEndpoint, Rows.entries_insert hunused,
    List.filter_append, List.filter_cons, List.filter_nil, finds_row, decide_eq_true_eq]

/-- The lookups do not look at the URL. -/
theorem found_setUrl {k : Uuid} {url : PyStr} {now : Time} :
    (db.setUrl k url now).found projectId stage = (db.found projectId stage).map fun e =>
      (e.1, if e.1 = k then { e.2 with url, updatedAt := now } else e.2) := by
  simp only [Store.found, Rows.select, Store.setUrl, Rows.modifyAt, Rows.modify, List.filter_map]
  congr 1
  refine List.filter_congr fun e _ => ?_
  simp only [Function.comp_apply]
  split_ifs <;> rfl

theorem ids_setUrl {k : Uuid} {url : PyStr} {now : Time} :
    (db.setUrl k url now).ids projectId stage = db.ids projectId stage := by
  rw [Store.ids, found_setUrl, List.map_map]
  rfl

/-! ## The steps of the seeding -/

theorem exists_findOrCreateProject_iff :
    (∃ r, findOrCreateProject db settings draws = .ok r) ↔
      settings.showcaseProjectName.storable = true ∧
        ((db.projectsNamed settings.showcaseProjectName = [] ∧
          fits 255 settings.showcaseProjectName = true) ∨
        ∃ project, db.projectsNamed settings.showcaseProjectName = [project]) := by
  unfold findOrCreateProject findProject
  split_ifs with hname
  · match hl : db.projectsNamed settings.showcaseProjectName with
    | [] =>
      simp [hname, scalarOneOrNone, bind_eq_ok_iff, map_eq_ok_iff, checkColumn_eq_ok_iff]
    | [project] => simp [hname, scalarOneOrNone, bind_eq_ok_iff, pure_eq_ok_iff]
    | a :: b :: l => simp [scalarOneOrNone, bind_eq_ok_iff]
  · simp [hname, bind_eq_ok_iff]

/-- After the first step there is one project of the name. -/
theorem projectsNamed_findOrCreateProject (hunused : db.projects.get? draws.projectId = none)
    (h : findOrCreateProject db settings draws = .ok (projectId, db')) :
    projectId = projectOf db settings draws ∧
      (∃ row, db'.projectsNamed settings.showcaseProjectName = [(projectId, row)]) ∧
      db'.endpoints = db.endpoints ∧ db'.apiKeys = db.apiKeys := by
  simp only [findOrCreateProject, bind_eq_ok_iff] at h
  obtain ⟨r, hfind, h⟩ := h
  unfold findProject at hfind
  split_ifs at hfind
  rcases scalarOneOrNone_eq_ok_iff.1 hfind with ⟨hnil, rfl⟩ | ⟨project, hone, rfl⟩
  · simp only [bind_eq_ok_iff, pure_eq_ok_iff, Prod.mk.injEq] at h
    obtain ⟨_, -, rfl, rfl⟩ := h
    refine ⟨by rw [projectOf, hnil], ⟨⟨settings.showcaseProjectName, draws.createdAt⟩, ?_⟩,
      rfl, rfl⟩
    simp only [Store.projectsNamed, Rows.select] at hnil
    simp only [Store.projectsNamed, Rows.select, Rows.entries_insert hunused,
      List.filter_append, hnil]
    simp
  · simp only [pure_eq_ok_iff, Prod.mk.injEq] at h
    obtain ⟨rfl, rfl⟩ := h
    exact ⟨by rw [projectOf, hone], ⟨project.2, hone⟩, rfl, rfl⟩

theorem exists_findOrCreateMarked_iff {fresh : Fresh} :
    (∃ r, findOrCreateMarked db settings projectId stage fresh = .ok r) ↔
      (db.found projectId stage = [] ∧
        fits 2048 (stage.row settings projectId fresh).url = true) ∨
      ∃ existing, db.found projectId stage = [existing] := by
  unfold findOrCreateMarked
  match hl : db.found projectId stage with
  | [] => simp [scalarOneOrNone, bind_eq_ok_iff, map_eq_ok_iff, checkColumn_eq_ok_iff]
  | [existing] => simp [scalarOneOrNone, bind_eq_ok_iff, pure_eq_ok_iff]
  | a :: b :: l => simp [scalarOneOrNone, bind_eq_ok_iff]

/-- What a stage leaves: its endpoint is found, and the other stages find what they found. -/
structure Settled (db : Store) (projectId : Uuid) (stage : Stage) (fresh : Fresh) (k : Uuid)
    (db' : Store) : Prop where
  found : db'.ids projectId stage = [k]
  others : ∀ stage' ≠ stage, db'.found projectId stage' = db.found projectId stage'
  projects : db'.projects = db.projects
  apiKeys : db'.apiKeys = db.apiKeys
  unused : ∀ k' ≠ fresh.id, db.endpoints.get? k' = none → db'.endpoints.get? k' = none

theorem settled_addEndpoint (settings : SeedSettings) {fresh : Fresh}
    (hunused : db.endpoints.get? fresh.id = none)
    (hnil : db.found projectId stage = []) :
    Settled db projectId stage fresh fresh.id
      (db.addEndpoint fresh.id (stage.row settings projectId fresh)) where
  found := by
    rw [Store.ids, found_addEndpoint hunused, hnil, if_pos rfl]
    rfl
  others stage' hne := by rw [found_addEndpoint hunused, if_neg hne, List.append_nil]
  projects := rfl
  apiKeys := rfl
  unused k' hne hk' := by rw [Store.addEndpoint, Rows.get?_insert, if_neg hne, hk']

theorem settled_findOrCreateMarked {fresh : Fresh} {k : Uuid}
    (hunused : db.endpoints.get? fresh.id = none)
    (h : findOrCreateMarked db settings projectId stage fresh = .ok (k, db')) :
    Settled db projectId stage fresh k db' := by
  simp only [findOrCreateMarked, bind_eq_ok_iff] at h
  obtain ⟨r, hfind, h⟩ := h
  rcases scalarOneOrNone_eq_ok_iff.1 hfind with ⟨hnil, rfl⟩ | ⟨existing, hone, rfl⟩
  · simp only [bind_eq_ok_iff, pure_eq_ok_iff, Prod.mk.injEq] at h
    obtain ⟨_, -, rfl, rfl⟩ := h
    have hadd := settled_addEndpoint settings hunused hnil
    exact ⟨hadd.found, hadd.others, rfl, rfl, hadd.unused⟩
  · simp only [pure_eq_ok_iff, Prod.mk.injEq] at h
    obtain ⟨rfl, rfl⟩ := h
    exact ⟨by rw [Store.ids, hone]; rfl, fun _ _ => rfl, rfl, rfl, fun _ _ hk => hk⟩

theorem exists_findOrCreateDiscord_iff {fresh : Fresh} {now : Time} :
    (∃ r, findOrCreateDiscord db settings projectId fresh now = .ok r) ↔
      (settings.showcaseDiscordWebhookUrl ≠ [] →
        (db.found projectId .discord = [] ∧
          fits 2048 settings.showcaseDiscordWebhookUrl = true) ∨
        ∃ existing, db.found projectId .discord = [existing] ∧
          (existing.2.url = settings.showcaseDiscordWebhookUrl ∨
            fits 2048 settings.showcaseDiscordWebhookUrl = true)) := by
  unfold findOrCreateDiscord
  by_cases hurl : settings.showcaseDiscordWebhookUrl = []
  · simp [hurl, pure_eq_ok_iff]
  match hl : db.found projectId .discord with
  | [] => simp [hurl, scalarOneOrNone, bind_eq_ok_iff, map_eq_ok_iff, checkColumn_eq_ok_iff]
  | [existing] =>
    by_cases heq : existing.2.url = settings.showcaseDiscordWebhookUrl
    · simp [hurl, heq, scalarOneOrNone, bind_eq_ok_iff, pure_eq_ok_iff]
    · simp [hurl, heq, scalarOneOrNone, bind_eq_ok_iff, map_eq_ok_iff, checkColumn_eq_ok_iff]
  | a :: b :: l => simp [hurl, scalarOneOrNone, bind_eq_ok_iff]

/-- What the step for the Discord endpoint leaves. -/
structure DiscordSettled (db : Store) (settings : SeedSettings) (projectId : Uuid) (fresh : Fresh)
    (k : Option Uuid) (db' : Store) : Prop where
  unset : settings.showcaseDiscordWebhookUrl = [] →
    k = none ∧ db'.found projectId .discord = db.found projectId .discord
  set : settings.showcaseDiscordWebhookUrl ≠ [] → ∃ k' row, k = some k' ∧
    db'.found projectId .discord = [(k', row)] ∧ row.url = settings.showcaseDiscordWebhookUrl ∧
    ((db.found projectId .discord = [] ∧ row.status = .active) ∨
      ∃ existing, db.found projectId .discord = [existing] ∧ existing.2.status = row.status)
  others : ∀ stage ≠ .discord, db'.ids projectId stage = db.ids projectId stage
  projects : db'.projects = db.projects
  apiKeys : db'.apiKeys = db.apiKeys
  unused : ∀ k' ≠ fresh.id, db.endpoints.get? k' = none → db'.endpoints.get? k' = none

theorem settled_findOrCreateDiscord {fresh : Fresh} {now : Time} {k : Option Uuid}
    (hunused : db.endpoints.get? fresh.id = none)
    (h : findOrCreateDiscord db settings projectId fresh now = .ok (k, db')) :
    DiscordSettled db settings projectId fresh k db' := by
  unfold findOrCreateDiscord at h
  by_cases hurl : settings.showcaseDiscordWebhookUrl = []
  · simp only [hurl, if_true, pure_eq_ok_iff, Prod.mk.injEq] at h
    obtain ⟨rfl, rfl⟩ := h
    exact ⟨fun _ => ⟨rfl, rfl⟩, fun hne => absurd hurl hne, fun _ _ => rfl, rfl, rfl,
      fun _ _ hk => hk⟩
  simp only [hurl, if_false, bind_eq_ok_iff] at h
  obtain ⟨r, hfind, h⟩ := h
  rcases scalarOneOrNone_eq_ok_iff.1 hfind with ⟨hnil, rfl⟩ | ⟨existing, hone, rfl⟩
  · simp only [bind_eq_ok_iff, pure_eq_ok_iff, Prod.mk.injEq] at h
    obtain ⟨_, -, rfl, rfl⟩ := h
    have hadd := settled_addEndpoint settings hunused hnil
    refine ⟨fun hnone => absurd hnone hurl, fun _ => ⟨fresh.id,
      Stage.discord.row settings projectId fresh, rfl, ?_, rfl, .inl ⟨hnil, rfl⟩⟩,
      fun stage hne => by rw [Store.ids, Store.ids, hadd.others stage hne], rfl, rfl, hadd.unused⟩
    rw [found_addEndpoint hunused, hnil, if_pos rfl, List.nil_append]
  · dsimp only at h
    split_ifs at h with hne
    · simp only [bind_eq_ok_iff, pure_eq_ok_iff, Prod.mk.injEq] at h
      obtain ⟨_, -, rfl, rfl⟩ := h
      refine ⟨fun hnone => absurd hnone hurl, fun _ => ⟨existing.1, { existing.2 with
        url := settings.showcaseDiscordWebhookUrl, updatedAt := now }, rfl, ?_, rfl,
        .inr ⟨existing, hone, rfl⟩⟩, fun _ _ => ids_setUrl, rfl, rfl, fun k' _ hk' => ?_⟩
      · rw [found_setUrl, hone, List.map_singleton, if_pos rfl]
      · rw [Store.setUrl, Rows.get?_modifyAt, hk', Option.map_none, ite_self]
    · simp only [pure_eq_ok_iff, Prod.mk.injEq] at h
      obtain ⟨rfl, rfl⟩ := h
      exact ⟨fun hnone => absurd hnone hurl, fun _ => ⟨existing.1, existing.2, rfl, hone,
        not_not.1 hne, .inr ⟨existing, hone, rfl⟩⟩, fun _ _ => rfl, rfl, rfl, fun _ _ hk => hk⟩

theorem exists_ensureApiKey_iff {plaintext : PyStr} :
    (∃ db', ensureApiKey sha256 db projectId plaintext draws = .ok db') ↔
      (plaintext ≠ [] → ∃ bytes, encode plaintext = some bytes ∧
        ((db.keysHashed (sha256 bytes) = [] ∧ fits 16 (plaintext.take 12) = true) ∨
          ∃ apiKey, db.keysHashed (sha256 bytes) = [apiKey])) := by
  unfold ensureApiKey hashApiKey
  by_cases hkey : plaintext = []
  · simp [hkey, pure_eq_ok_iff]
  cases hencode : encode plaintext with
  | none => simp [hkey, bind_eq_ok_iff]
  | some bytes =>
    match hl : db.keysHashed (sha256 bytes) with
    | [] =>
      simp [hkey, hl, scalarOneOrNone, bind_eq_ok_iff, map_eq_ok_iff, checkColumn_eq_ok_iff]
    | [apiKey] =>
      simp [hkey, hl, scalarOneOrNone, bind_eq_ok_iff, pure_eq_ok_iff]
      exact ⟨apiKey.1, apiKey.2, rfl⟩
    | a :: b :: l => simp [hkey, hl, scalarOneOrNone, bind_eq_ok_iff]

/-- After the last step there is one API key with the hash: the one that was found, or a new one of
the project. -/
theorem settled_ensureApiKey {plaintext : PyStr}
    (hunused : db.apiKeys.get? draws.apiKeyId = none)
    (h : ensureApiKey sha256 db projectId plaintext draws = .ok db') :
    db'.projects = db.projects ∧ db'.endpoints = db.endpoints ∧
      (plaintext ≠ [] → ∃ bytes apiKey, encode plaintext = some bytes ∧
        db'.keysHashed (sha256 bytes) = [apiKey] ∧
        ((db.keysHashed (sha256 bytes) = [] ∧ apiKey.2.projectId = projectId ∧
            apiKey.2.revokedAt = none) ∨
          db.keysHashed (sha256 bytes) = [apiKey])) := by
  unfold ensureApiKey at h
  by_cases hkey : plaintext = []
  · simp only [hkey, if_true, pure_eq_ok_iff] at h
    subst h
    exact ⟨rfl, rfl, fun hne => absurd hkey hne⟩
  simp only [hkey, if_false, bind_eq_ok_iff] at h
  obtain ⟨keyHash, hhash, r, hfind, h⟩ := h
  cases hencode : encode plaintext with
  | none => simp [hashApiKey, hencode] at hhash
  | some bytes =>
    obtain rfl : sha256 bytes = keyHash := by simpa [hashApiKey, hencode] using hhash
    rcases scalarOneOrNone_eq_ok_iff.1 hfind with ⟨hnil, rfl⟩ | ⟨apiKey, hone, rfl⟩
    · simp only [bind_eq_ok_iff, pure_eq_ok_iff] at h
      obtain ⟨_, -, rfl⟩ := h
      refine ⟨rfl, rfl, fun _ => ⟨bytes, (draws.apiKeyId, ⟨projectId,
        some (ofString "showcase-producer"), plaintext.take 12, sha256 bytes, none, none,
        draws.createdAt⟩), rfl, ?_, .inl ⟨hnil, rfl, rfl⟩⟩⟩
      simp only [Store.keysHashed, Rows.select] at hnil
      simp only [Store.keysHashed, Rows.select, Rows.entries_insert hunused, List.filter_append,
        hnil]
      simp
    · simp only [pure_eq_ok_iff] at h
      subst h
      exact ⟨rfl, rfl, fun _ => ⟨bytes, apiKey, rfl, hone, .inr hone⟩⟩

/-! ## The whole seeding -/

theorem found_congr (h : db'.endpoints = db.endpoints) :
    db'.found projectId stage = db.found projectId stage := by
  rw [Store.found, Store.found, h]

/-- Whether a stage can go on depends on the ids that it finds. -/
theorem marked_congr {C : Prop} (h : db'.ids projectId stage = db.ids projectId stage) :
    ((db'.found projectId stage = [] ∧ C) ∨ ∃ existing, db'.found projectId stage = [existing]) ↔
      (db.found projectId stage = [] ∧ C) ∨
        ∃ existing, db.found projectId stage = [existing] := by
  rw [← ids_eq_nil_iff, exists_found_iff, h, ids_eq_nil_iff, ← exists_found_iff]

theorem Draws.Unused.ne (h : draws.Unused db) {stage' : Stage} (hne : stage ≠ stage') :
    (draws.endpoint stage).id ≠ (draws.endpoint stage').id := fun heq =>
  hne (h.distinct stage stage' heq)

/-- The stores between the steps of a seeding. -/
structure Trace (sha256 : Bytes → PyStr) (db : Store) (settings : SeedSettings) (draws : Draws)
    (handles : ShowcaseHandles) (db₁ db₂ db₃ db₄ db₅ db' : Store) : Prop where
  project : findOrCreateProject db settings draws = .ok (handles.projectId, db₁)
  receiver : findOrCreateMarked db₁ settings handles.projectId .receiver
    (draws.endpoint .receiver) = .ok (handles.receiverEndpointId, db₂)
  discord : findOrCreateDiscord db₂ settings handles.projectId (draws.endpoint .discord)
    draws.now = .ok (handles.discordEndpointId, db₃)
  bankNaive : findOrCreateMarked db₃ settings handles.projectId .bankNaive
    (draws.endpoint .bankNaive) = .ok (handles.bankNaiveEndpointId, db₄)
  bankSafe : findOrCreateMarked db₄ settings handles.projectId .bankSafe
    (draws.endpoint .bankSafe) = .ok (handles.bankSafeEndpointId, db₅)
  apiKey : ensureApiKey sha256 db₅ handles.projectId settings.showcaseApiKey draws = .ok db'

theorem seedShowcase_eq_ok_iff {handles : ShowcaseHandles} :
    seedShowcase sha256 db settings draws = .ok (handles, db') ↔
      ∃ db₁ db₂ db₃ db₄ db₅, Trace sha256 db settings draws handles db₁ db₂ db₃ db₄ db₅ db' := by
  simp only [seedShowcase, bind_eq_ok_iff, Prod.exists, pure_eq_ok_iff, Prod.mk.injEq]
  constructor
  · rintro ⟨_, db₁, h₁, _, db₂, h₂, _, db₃, h₃, _, db₄, h₄, _, db₅, h₅, _, h₆, rfl, rfl⟩
    exact ⟨db₁, db₂, db₃, db₄, db₅, h₁, h₂, h₃, h₄, h₅, h₆⟩
  · rintro ⟨db₁, db₂, db₃, db₄, db₅, h⟩
    exact ⟨_, db₁, h.project, _, db₂, h.receiver, _, db₃, h.discord, _, db₄, h.bankNaive, _, db₅,
      h.bankSafe, _, h.apiKey, rfl, rfl⟩

/-- What the steps leave, one after the other. -/
structure Chain (db : Store) (settings : SeedSettings) (draws : Draws) (handles : ShowcaseHandles)
    (db₁ db₂ db₃ db₄ db₅ : Store) : Prop where
  endpoints : db₁.endpoints = db.endpoints
  receiver : Settled db₁ handles.projectId .receiver (draws.endpoint .receiver)
    handles.receiverEndpointId db₂
  discord : DiscordSettled db₂ settings handles.projectId (draws.endpoint .discord)
    handles.discordEndpointId db₃
  bankNaive : Settled db₃ handles.projectId .bankNaive (draws.endpoint .bankNaive)
    handles.bankNaiveEndpointId db₄
  bankSafe : Settled db₄ handles.projectId .bankSafe (draws.endpoint .bankSafe)
    handles.bankSafeEndpointId db₅

theorem Settled.ids_eq {fresh : Fresh} {k : Uuid} {stage' : Stage}
    (h : Settled db projectId stage fresh k db') (hne : stage' ≠ stage) :
    db'.ids projectId stage' = db.ids projectId stage' := by
  rw [Store.ids, Store.ids, h.others stage' hne]

section Chain

variable {handles : ShowcaseHandles} {db₁ db₂ db₃ db₄ db₅ : Store}

/-- The steps of a seeding leave what they are to leave. -/
theorem Trace.chain (hunused : draws.Unused db)
    (h : Trace sha256 db settings draws handles db₁ db₂ db₃ db₄ db₅ db') :
    Chain db settings draws handles db₁ db₂ db₃ db₄ db₅ := by
  obtain ⟨-, -, hendpoints, -⟩ := projectsNamed_findOrCreateProject hunused.project h.project
  have hfree : ∀ stage, db₁.endpoints.get? (draws.endpoint stage).id = none := by
    intro stage
    rw [hendpoints]
    exact hunused.endpoint stage
  have h₂ := settled_findOrCreateMarked (hfree _) h.receiver
  have h₃ := settled_findOrCreateDiscord (h₂.unused _ (hunused.ne (by decide)) (hfree _)) h.discord
  have h₄ := settled_findOrCreateMarked (h₃.unused _ (hunused.ne (by decide))
    (h₂.unused _ (hunused.ne (by decide)) (hfree _))) h.bankNaive
  have h₅ := settled_findOrCreateMarked (h₄.unused _ (hunused.ne (by decide))
    (h₃.unused _ (hunused.ne (by decide))
      (h₂.unused _ (hunused.ne (by decide)) (hfree _)))) h.bankSafe
  exact ⟨hendpoints, h₂, h₃, h₄, h₅⟩

/-- **A seeding that returns could start.** -/
theorem Trace.startable (hunused : draws.Unused db)
    (h : Trace sha256 db settings draws handles db₁ db₂ db₃ db₄ db₅ db') :
    Startable sha256 db settings draws := by
  have hchain := h.chain hunused
  obtain ⟨hname, hproject⟩ := exists_findOrCreateProject_iff.1 ⟨_, h.project⟩
  obtain ⟨hp, -, -, hkeys⟩ := projectsNamed_findOrCreateProject hunused.project h.project
  have hids₁ : ∀ stage, db₁.ids handles.projectId stage = db.ids handles.projectId stage := by
    intro stage
    rw [Store.ids, Store.ids, found_congr hchain.endpoints]
  refine ⟨hname, hproject, fun stage marker hstage => ?_, fun hurl => ?_, fun hkey => ?_⟩
  · rw [← hp]
    cases stage with
    | receiver =>
      exact (marked_congr (hids₁ _)).1 (exists_findOrCreateMarked_iff.1 ⟨_, h.receiver⟩)
    | discord => cases hstage
    | bankNaive =>
      refine (marked_congr ?_).1 (exists_findOrCreateMarked_iff.1 ⟨_, h.bankNaive⟩)
      rw [hchain.discord.others _ (by decide), hchain.receiver.ids_eq (by decide), hids₁]
    | bankSafe =>
      refine (marked_congr ?_).1 (exists_findOrCreateMarked_iff.1 ⟨_, h.bankSafe⟩)
      rw [hchain.bankNaive.ids_eq (by decide), hchain.discord.others _ (by decide),
        hchain.receiver.ids_eq (by decide), hids₁]
  · have hdiscord := exists_findOrCreateDiscord_iff.1 ⟨_, h.discord⟩ hurl
    rwa [hchain.receiver.others _ (by decide), found_congr hchain.endpoints, hp] at hdiscord
  · obtain ⟨bytes, hencode, hfound⟩ := exists_ensureApiKey_iff.1 ⟨_, h.apiKey⟩ hkey
    refine ⟨bytes, hencode, ?_⟩
    have hkeys₅ : db₅.apiKeys = db.apiKeys := by
      rw [hchain.bankSafe.apiKeys, hchain.bankNaive.apiKeys, hchain.discord.apiKeys,
        hchain.receiver.apiKeys, hkeys]
    rwa [Store.keysHashed, hkeys₅] at hfound

/-- **A seeding that can start returns.** -/
theorem Startable.exists_trace (hunused : draws.Unused db)
    (h : Startable sha256 db settings draws) : ∃ handles db₁ db₂ db₃ db₄ db₅ db',
      Trace sha256 db settings draws handles db₁ db₂ db₃ db₄ db₅ db' := by
  obtain ⟨⟨p, db₁⟩, h₁⟩ := exists_findOrCreateProject_iff.2 ⟨h.name, h.project⟩
  obtain ⟨hp, -, hendpoints, hkeys⟩ := projectsNamed_findOrCreateProject hunused.project h₁
  have hmarked := h.marked
  have hdiscord := h.discord
  rw [← hp] at hmarked hdiscord
  have hfree : ∀ stage, db₁.endpoints.get? (draws.endpoint stage).id = none := by
    intro stage
    rw [hendpoints]
    exact hunused.endpoint stage
  have hids₁ : ∀ stage, db₁.ids p stage = db.ids p stage := by
    intro stage
    rw [Store.ids, Store.ids, found_congr hendpoints]
  obtain ⟨⟨r, db₂⟩, h₂⟩ := exists_findOrCreateMarked_iff.2
    ((marked_congr (hids₁ _)).2 (hmarked .receiver _ rfl))
  have hs₂ := settled_findOrCreateMarked (hfree _) h₂
  have hstep₃ : ∃ r, findOrCreateDiscord db₂ settings p (draws.endpoint .discord) draws.now =
      .ok r := by
    rw [exists_findOrCreateDiscord_iff, hs₂.others _ (by decide), found_congr hendpoints]
    exact hdiscord
  obtain ⟨⟨d, db₃⟩, h₃⟩ := hstep₃
  have hfree₂ : ∀ stage ≠ .receiver, db₂.endpoints.get? (draws.endpoint stage).id = none :=
    fun stage hne => hs₂.unused _ (hunused.ne hne) (hfree _)
  have hs₃ := settled_findOrCreateDiscord (hfree₂ _ (by decide)) h₃
  have hfree₃ : ∀ stage ≠ .receiver, stage ≠ .discord →
      db₃.endpoints.get? (draws.endpoint stage).id = none :=
    fun stage hne hne' => hs₃.unused _ (hunused.ne hne') (hfree₂ _ hne)
  obtain ⟨⟨n, db₄⟩, h₄⟩ := exists_findOrCreateMarked_iff.2 ((marked_congr (by
    rw [hs₃.others _ (by decide), hs₂.ids_eq (by decide), hids₁])).2 (hmarked .bankNaive _ rfl))
  have hs₄ := settled_findOrCreateMarked (hfree₃ _ (by decide) (by decide)) h₄
  obtain ⟨⟨b, db₅⟩, h₅⟩ := exists_findOrCreateMarked_iff.2 ((marked_congr (by
    rw [hs₄.ids_eq (by decide), hs₃.others _ (by decide), hs₂.ids_eq (by decide), hids₁])).2
      (hmarked .bankSafe _ rfl))
  have hs₅ := settled_findOrCreateMarked
    (hs₄.unused _ (hunused.ne (by decide)) (hfree₃ _ (by decide) (by decide))) h₅
  have hkeys₅ : db₅.apiKeys = db.apiKeys := by
    rw [hs₅.apiKeys, hs₄.apiKeys, hs₃.apiKeys, hs₂.apiKeys, hkeys]
  have hstep₆ : ∃ db', ensureApiKey sha256 db₅ p settings.showcaseApiKey draws = .ok db' := by
    simp only [exists_ensureApiKey_iff, Store.keysHashed, hkeys₅]
    exact h.apiKey
  obtain ⟨db', h₆⟩ := hstep₆
  exact ⟨⟨p, r, d, n, b⟩, db₁, db₂, db₃, db₄, db₅, db', h₁, h₂, h₃, h₄, h₅, h₆⟩

/-! ## What is established -/

/-- What a seeding that returns has left. -/
structure Left (sha256 : Bytes → PyStr) (db : Store) (settings : SeedSettings) (draws : Draws)
    (handles : ShowcaseHandles) (db' : Store) : Prop where
  name : settings.showcaseProjectName.storable = true
  project : handles.projectId = projectOf db settings draws
  named : ∃ row, db'.projectsNamed settings.showcaseProjectName = [(handles.projectId, row)]
  receiver : db'.ids handles.projectId .receiver = [handles.receiverEndpointId]
  bankNaive : db'.ids handles.projectId .bankNaive = [handles.bankNaiveEndpointId]
  bankSafe : db'.ids handles.projectId .bankSafe = [handles.bankSafeEndpointId]
  unset : settings.showcaseDiscordWebhookUrl = [] → handles.discordEndpointId = none ∧
    db'.found handles.projectId .discord = db.found handles.projectId .discord
  set : settings.showcaseDiscordWebhookUrl ≠ [] → ∃ k row, handles.discordEndpointId = some k ∧
    db'.found handles.projectId .discord = [(k, row)] ∧
    row.url = settings.showcaseDiscordWebhookUrl ∧
    ((db.found handles.projectId .discord = [] ∧ row.status = .active) ∨
      ∃ existing, db.found handles.projectId .discord = [existing] ∧
        existing.2.status = row.status)
  apiKey : settings.showcaseApiKey ≠ [] → ∃ bytes apiKey,
    encode settings.showcaseApiKey = some bytes ∧ db'.keysHashed (sha256 bytes) = [apiKey] ∧
    ((db.keysHashed (sha256 bytes) = [] ∧ apiKey.2.projectId = handles.projectId ∧
        apiKey.2.revokedAt = none) ∨
      db.keysHashed (sha256 bytes) = [apiKey])

theorem Trace.left (hunused : draws.Unused db)
    (h : Trace sha256 db settings draws handles db₁ db₂ db₃ db₄ db₅ db') :
    Left sha256 db settings draws handles db' := by
  have hchain := h.chain hunused
  obtain ⟨hp, ⟨row, hnamed⟩, -, hkeys⟩ :=
    projectsNamed_findOrCreateProject hunused.project h.project
  have hkeys₅ : db₅.apiKeys = db.apiKeys := by
    rw [hchain.bankSafe.apiKeys, hchain.bankNaive.apiKeys, hchain.discord.apiKeys,
      hchain.receiver.apiKeys, hkeys]
  have hunused₅ : db₅.apiKeys.get? draws.apiKeyId = none := by
    rw [hkeys₅]
    exact hunused.apiKey
  obtain ⟨hprojects, hendpoints, hkey⟩ := settled_ensureApiKey hunused₅ h.apiKey
  have hprojects₅ : db'.projects = db₁.projects := by
    rw [hprojects, hchain.bankSafe.projects, hchain.bankNaive.projects, hchain.discord.projects,
      hchain.receiver.projects]
  have hids : ∀ stage, db'.ids handles.projectId stage = db₅.ids handles.projectId stage := by
    intro stage
    rw [Store.ids, Store.ids, found_congr hendpoints]
  have hdiscord : db'.found handles.projectId .discord = db₃.found handles.projectId .discord := by
    rw [found_congr hendpoints, hchain.bankSafe.others _ (by decide),
      hchain.bankNaive.others _ (by decide)]
  have hbefore : db₂.found handles.projectId .discord = db.found handles.projectId .discord := by
    rw [hchain.receiver.others _ (by decide), found_congr hchain.endpoints]
  refine ⟨(exists_findOrCreateProject_iff.1 ⟨_, h.project⟩).1, hp, ⟨row, ?_⟩, ?_, ?_, ?_,
    fun hurl => ?_, fun hurl => ?_, fun hne => ?_⟩
  · rw [Store.projectsNamed, hprojects₅]
    exact hnamed
  · rw [hids, hchain.bankSafe.ids_eq (by decide), hchain.bankNaive.ids_eq (by decide),
      hchain.discord.others _ (by decide), hchain.receiver.found]
  · rw [hids, hchain.bankSafe.ids_eq (by decide), hchain.bankNaive.found]
  · rw [hids, hchain.bankSafe.found]
  · rw [hdiscord, ← hbefore]
    exact hchain.discord.unset hurl
  · rw [hdiscord, ← hbefore]
    exact hchain.discord.set hurl
  · obtain ⟨bytes, apiKey, hencode, hfound, hold⟩ := hkey hne
    rw [Store.keysHashed, hkeys₅] at hold
    exact ⟨bytes, apiKey, hencode, hfound, hold⟩

theorem scalarOneOrNone_ids {k : Uuid} (h : db.ids projectId stage = [k]) :
    ∃ row, scalarOneOrNone (db.found projectId stage) = .ok (some (k, row)) := by
  obtain ⟨⟨_, row⟩, he, rfl⟩ := List.map_eq_singleton_iff.1 h
  exact ⟨row, by rw [he]; rfl⟩

/-- **A second seeding changes nothing.** -/
theorem Left.again (h : Left sha256 db settings draws handles db') (draws' : Draws) :
    seedShowcase sha256 db' settings draws' = .ok (handles, db') := by
  obtain ⟨project, hnamed⟩ := h.named
  obtain ⟨receiver, hreceiver⟩ := scalarOneOrNone_ids h.receiver
  obtain ⟨bankNaive, hnaive⟩ := scalarOneOrNone_ids h.bankNaive
  obtain ⟨bankSafe, hsafe⟩ := scalarOneOrNone_ids h.bankSafe
  refine seedShowcase_eq_ok_iff.2 ⟨db', db', db', db', db', ?_, ?_, ?_, ?_, ?_, ?_⟩
  · rw [findOrCreateProject, findProject, if_pos h.name, hnamed]
    rfl
  · rw [findOrCreateMarked, hreceiver]
    rfl
  · by_cases hurl : settings.showcaseDiscordWebhookUrl = []
    · rw [findOrCreateDiscord, if_pos hurl, (h.unset hurl).1]
      rfl
    · obtain ⟨k, row, hk, hfound, hrow, -⟩ := h.set hurl
      rw [findOrCreateDiscord, if_neg hurl, hfound, hk]
      simp [scalarOneOrNone, bind_eq_ok_iff, hrow, pure_eq_ok_iff]
  · rw [findOrCreateMarked, hnaive]
    rfl
  · rw [findOrCreateMarked, hsafe]
    rfl
  · by_cases hkey : settings.showcaseApiKey = []
    · rw [ensureApiKey, if_pos hkey]
      rfl
    · obtain ⟨bytes, apiKey, hencode, hfound, -⟩ := h.apiKey hkey
      rw [ensureApiKey, if_neg hkey, hashApiKey, hencode]
      simp [scalarOneOrNone, bind_eq_ok_iff, hfound, pure_eq_ok_iff]

/-- The resolution looks for a Discord endpoint whether the URL is set or not. -/
theorem Left.resolve_iff (h : Left sha256 db settings draws handles db') :
    resolveShowcase db' settings = .ok (some handles) ↔
      (settings.showcaseDiscordWebhookUrl = [] →
        db.found handles.projectId .discord = []) := by
  obtain ⟨project, hnamed⟩ := h.named
  obtain ⟨receiver, hreceiver⟩ := scalarOneOrNone_ids h.receiver
  obtain ⟨bankNaive, hnaive⟩ := scalarOneOrNone_ids h.bankNaive
  obtain ⟨bankSafe, hsafe⟩ := scalarOneOrNone_ids h.bankSafe
  have hresolve : resolveShowcase db' settings =
      (do
        let discord ← scalarOneOrNone (db'.found handles.projectId .discord)
        return some ⟨handles.projectId, handles.receiverEndpointId, discord.map Prod.fst,
          handles.bankNaiveEndpointId, handles.bankSafeEndpointId⟩) := by
    have hproject : findProject db' settings.showcaseProjectName =
        .ok (some (handles.projectId, project)) := by
      rw [findProject, if_pos h.name, hnamed]
      rfl
    simp only [resolveShowcase, hproject, ok_bind, hreceiver, hnaive, hsafe]
  rw [hresolve, bind_eq_ok_iff]
  simp only [pure_eq_ok_iff, Option.some_inj]
  by_cases hurl : settings.showcaseDiscordWebhookUrl = []
  · obtain ⟨hnone, hfound⟩ := h.unset hurl
    constructor
    · rintro ⟨discord, hscalar, heq⟩ -
      have hdiscord := (congrArg ShowcaseHandles.discordEndpointId heq).trans hnone
      rcases scalarOneOrNone_eq_ok_iff.1 hscalar with ⟨hnil, rfl⟩ | ⟨existing, -, rfl⟩
      · exact hfound ▸ hnil
      · cases hdiscord
    · intro hnil
      refine ⟨none, by rw [hfound, hnil hurl]; rfl, ?_⟩
      rw [Option.map_none, ← hnone]
  · obtain ⟨k, row, hk, hfound, -⟩ := h.set hurl
    refine iff_of_true ⟨some (k, row), by rw [hfound]; rfl, ?_⟩ fun hnil => absurd hnil hurl
    rw [Option.map_some, ← hk]

/-- The key is accepted for the project of its row, unless it is revoked. -/
theorem authenticated_iff {plaintext : PyStr} {bytes : Bytes} {apiKey : Uuid × ApiKeyRow}
    (hencode : encode plaintext = some bytes) (hfound : db.keysHashed (sha256 bytes) = [apiKey]) :
    (∀ now, ∃ db', getCurrentProject sha256 db (some plaintext) now = .ok (projectId, db')) ↔
      apiKey.2.projectId = projectId ∧ apiKey.2.revokedAt = none := by
  have hlookup : ∀ now, (∃ db', getCurrentProject sha256 db (some plaintext) now =
      .ok (projectId, db')) ↔ apiKey.2.projectId = projectId ∧ apiKey.2.revokedAt = none := by
    intro now
    have hscalar : scalarOneOrNone (db.keysHashed (sha256 bytes)) = .ok (some apiKey) := by
      rw [hfound]
      rfl
    simp only [getCurrentProject, hashApiKey, hencode, orRaise, Except.mapError, ok_bind, hscalar]
    cases hrevoked : apiKey.2.revokedAt <;> simp [pure_eq_ok_iff]
  exact ⟨fun h => (hlookup 0).1 (h 0), fun h now => (hlookup now).2 h⟩

/-- **What decides whether the store is as it is to be left.** -/
theorem Left.established_iff (h : Left sha256 db settings draws handles db') :
    Established sha256 settings handles db' ↔
      (settings.showcaseDiscordWebhookUrl = [] →
        db.found handles.projectId .discord = []) ∧
      (settings.showcaseDiscordWebhookUrl ≠ [] → db.found handles.projectId .discord = [] ∨
        ∃ existing, db.found handles.projectId .discord = [existing] ∧
          existing.2.status = .active) ∧
      (settings.showcaseApiKey ≠ [] → ∃ bytes, encode settings.showcaseApiKey = some bytes ∧
        (db.keysHashed (sha256 bytes) = [] ∨ ∃ apiKey, db.keysHashed (sha256 bytes) = [apiKey] ∧
          apiKey.2.projectId = handles.projectId ∧ apiKey.2.revokedAt = none)) := by
  constructor
  · intro he
    refine ⟨h.resolve_iff.1 he.resolved, fun hurl => ?_, fun hkey => ?_⟩
    · obtain ⟨k, row, -, hfound, -, hstatus⟩ := h.set hurl
      obtain ⟨k', row', ⟨hmem, hactive⟩, -⟩ := he.discord hurl
      rw [hfound, List.mem_singleton] at hmem
      obtain ⟨-, rfl⟩ := Prod.mk.inj hmem
      refine hstatus.imp (fun hnew => hnew.1) fun ⟨existing, hold, heq⟩ => ⟨existing, hold, ?_⟩
      rw [heq, hactive]
    · obtain ⟨bytes, apiKey, hencode, hfound, hold⟩ := h.apiKey hkey
      have howned := (authenticated_iff hencode hfound).1 (he.authenticated hkey)
      exact ⟨bytes, hencode, hold.imp (fun hnew => hnew.1) fun hold => ⟨apiKey, hold, howned⟩⟩
  · rintro ⟨hnone, hactive, hkey⟩
    refine ⟨h.resolve_iff.2 hnone, h.again, fun hurl => ?_, fun hurl k row hrow => ?_,
      fun hne => ?_⟩
    · obtain ⟨k, row, -, hfound, hrow, hstatus⟩ := h.set hurl
      refine ⟨k, row, ⟨by rw [hfound]; exact List.mem_singleton_self _, ?_⟩, hrow⟩
      rcases hstatus with ⟨-, hnew⟩ | ⟨existing, hold, heq⟩
      · exact hnew
      · rcases hactive hurl with hnil | ⟨existing', hold', hactive⟩
        · rw [hnil] at hold
          cases hold
        · rw [hold] at hold'
          obtain ⟨rfl, -⟩ := List.cons.inj hold'
          exact heq.symm.trans hactive
    · obtain ⟨-, hfound⟩ := h.unset hurl
      have hmem := hrow.1
      rw [hfound, hnone hurl] at hmem
      cases hmem
    · obtain ⟨bytes, apiKey, hencode, hfound, hold⟩ := h.apiKey hne
      refine (authenticated_iff hencode hfound).2 ?_
      rcases hold with ⟨-, hnew⟩ | hold
      · exact hnew
      · obtain ⟨bytes', hencode', hkeys⟩ := hkey hne
        obtain rfl := Option.some.inj (hencode.symm.trans hencode')
        rcases hkeys with hnil | ⟨apiKey', hold', howned⟩
        · rw [hold] at hnil
          cases hnil
        · rw [hold] at hold'
          obtain ⟨rfl, -⟩ := List.cons.inj hold'
          exact howned

end Chain

/-- **The seeding establishes the showcase if and only if what it finds is as it would create
it.** -/
theorem seedsShowcase_iff (sha256 : Bytes → PyStr) (db : Store) (settings : SeedSettings)
    (draws : Draws) (hunused : draws.Unused db) :
    SeedsShowcase sha256 db settings draws ↔ Seedable sha256 db settings draws := by
  constructor
  · rintro ⟨handles, db', hseed, he⟩
    obtain ⟨db₁, db₂, db₃, db₄, db₅, htrace⟩ := seedShowcase_eq_ok_iff.1 hseed
    have hstart := htrace.startable hunused
    have hleft := htrace.left hunused
    obtain ⟨hnone, hactive, hkey⟩ := hleft.established_iff.1 he
    rw [hleft.project] at hnone hactive hkey
    exact ⟨hstart, hnone, hactive, hkey⟩
  · intro hs
    obtain ⟨handles, db₁, db₂, db₃, db₄, db₅, db', htrace⟩ := hs.toStartable.exists_trace hunused
    have hleft := htrace.left hunused
    refine ⟨handles, db', seedShowcase_eq_ok_iff.2 ⟨_, _, _, _, _, htrace⟩,
      hleft.established_iff.2 ?_⟩
    rw [hleft.project]
    exact ⟨hs.noDiscord, hs.active, hs.owned⟩

/-- The ids from `n` on. -/
def sampleDraws (n : ℕ) : Draws where
  projectId := .ofNat n
  endpoint stage :=
    match stage with
    | .receiver => ⟨.ofNat (n + 1), sampleSecret, 0, .epoch⟩
    | .discord => ⟨.ofNat (n + 2), sampleSecret, 0, .epoch⟩
    | .bankNaive => ⟨.ofNat (n + 3), sampleSecret, 0, .epoch⟩
    | .bankSafe => ⟨.ofNat (n + 4), sampleSecret, 0, .epoch⟩
  apiKeyId := .ofNat (n + 5)
  createdAt := .epoch
  now := 0

/-- Settings with or without the URL of a Discord webhook. -/
def sampleSettings (url : String) : SeedSettings :=
  ⟨ofString "showcase", ofString "https://hookit.example", ofString url, ofString "whk_demo"⟩

def webhookUrl : String := "https://discord.example/api/webhooks/1"

/-- A new deployment is seeded. -/
theorem seedsShowcase_empty : SeedsShowcase (fun _ => sampleDigest) .empty
    (sampleSettings webhookUrl) (sampleDraws 1) := by
  have hunused : (sampleDraws 1).Unused .empty := by
    refine ⟨rfl, fun stage => by cases stage <;> rfl, fun stage stage' => ?_, rfl⟩
    cases stage <;> cases stage' <;> decide
  refine (seedsShowcase_iff _ _ _ _ hunused).2 ⟨⟨by decide +kernel, .inl ⟨rfl, by decide +kernel⟩,
    fun stage marker _ => .inl ⟨rfl, ?_⟩, fun _ => .inl ⟨rfl, by decide +kernel⟩,
    fun _ => ⟨_, rfl, .inl ⟨rfl, by decide +kernel⟩⟩⟩, fun _ => rfl, fun _ => .inl rfl,
    fun _ => ⟨_, rfl, .inl rfl⟩⟩
  cases stage <;> decide +kernel

/-- The store after a seeding with the URL of a webhook. -/
def seededStore : Store :=
  match seedShowcase (fun _ => sampleDigest) .empty (sampleSettings webhookUrl) (sampleDraws 1) with
  | .ok (_, db) => db
  | .error _ => .empty

/-- **The handles of the seeding need not be those of the resolution.** The URL of the webhook is
removed from the settings: the seeding does not look for the Discord endpoint and returns none, the
resolution finds the one of the earlier seeding. -/
theorem not_seedsShowcase :
    (∃ handles, seedShowcase (fun _ => sampleDigest) .empty (sampleSettings webhookUrl)
      (sampleDraws 1) = .ok (handles, seededStore)) ∧ (sampleDraws 7).Unused seededStore ∧
    ¬ SeedsShowcase (fun _ => sampleDigest) seededStore (sampleSettings "") (sampleDraws 7) := by
  refine ⟨?_, ?_, ?_⟩
  · have hok : (seedShowcase (fun _ => sampleDigest) .empty (sampleSettings webhookUrl)
        (sampleDraws 1)).toOption.isSome = true := by
      decide +kernel
    unfold seededStore
    cases hseed : seedShowcase (fun _ => sampleDigest) .empty (sampleSettings webhookUrl)
        (sampleDraws 1) with
    | ok r => exact ⟨r.1, rfl⟩
    | error e =>
      rw [hseed] at hok
      cases hok
  · have hfree : seededStore.projects.get? (sampleDraws 7).projectId = none ∧
        (∀ stage ∈ Stage.all,
          seededStore.endpoints.get? ((sampleDraws 7).endpoint stage).id = none) ∧
        seededStore.apiKeys.get? (sampleDraws 7).apiKeyId = none := by
      decide +kernel
    refine ⟨hfree.1, fun stage => hfree.2.1 stage stage.mem_all, fun stage stage' => ?_,
      hfree.2.2⟩
    cases stage <;> cases stage' <;> decide
  · rintro ⟨handles, db', hseed, he⟩
    have hdiscord : (seedShowcase (fun _ => sampleDigest) seededStore (sampleSettings "")
        (sampleDraws 7)).toOption.map (fun r => (r.1.discordEndpointId,
          (resolveShowcase r.2 (sampleSettings "")).toOption.map fun handles =>
            handles.map (·.discordEndpointId))) =
        some (none, some (some (some (.ofNat 3)))) := by
      decide +kernel
    rw [hseed] at hdiscord
    have hpair := Prod.mk.inj (Option.some.inj hdiscord)
    rw [he.resolved] at hpair
    have hnone : handles.discordEndpointId = none := hpair.1
    have hsome : handles.discordEndpointId = some (.ofNat 3) :=
      Option.some.inj (Option.some.inj hpair.2)
    cases hnone.symm.trans hsome

end Hookit.Handles
