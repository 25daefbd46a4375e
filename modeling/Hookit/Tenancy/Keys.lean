import Hookit.Foundations.Records
import Hookit.Tenancy.Isolation
import Hookit.Tenancy.Moves

/-!
# API keys over runs

The administrator is told of each key that is issued, and that a key is revoked (`keyEvent`).
`keyMoves_serve` says what a transaction does to the keys in terms of these events, and
`authenticates_iff` that over a whole run they say all there is to authentication: a request is
authenticated for a project if it carries a key that was issued to it and has not been revoked.
-/

namespace Hookit.Tenancy

open Foundations Foundations.Service Handles

variable {D : Deployment} {p : Uuid} {db db' : Database}

/-- What an administrator is told of keys. -/
inductive KeyEvent
  | issued (project keyId : Uuid) (plaintext : PyStr)
  | revoked (keyId : Uuid)
  deriving DecidableEq

/-- From the answers of `create_api_key` and `delete_api_key`. -/
def keyEvent {maxBytes : ℕ} : Action maxBytes → Except ApiError Answer → Option KeyEvent
  | .createApiKey project _ _, .ok (.apiKey item plaintext) =>
    some (.issued project item.id plaintext)
  | .deleteApiKey _ keyId _, .ok _ => some (.revoked keyId)
  | _, _ => none

/-! ## What a transaction does -/

/-- The keys before and after a transaction, with its event. -/
inductive KeyMoves (sha256 : Bytes → PyStr) (db db' : Database) : Option KeyEvent → Prop
  | same (h : db'.apiKeys = db.apiKeys) : KeyMoves sha256 db db' none
  | used (k : Uuid) (now : Time) (h : db'.apiKeys = db.apiKeys.modifyAt k (usedAt now)) :
      KeyMoves sha256 db db' none
  | issued (k : Uuid) (row : ApiKeyRow) (plaintext : PyStr) (hfresh : db.apiKeys.get? k = none)
      (hhash : hashApiKey sha256 plaintext = .ok row.keyHash) (hlive : row.revokedAt = none)
      (h : db'.apiKeys = db.apiKeys.insert k row) :
      KeyMoves sha256 db db' (some (.issued row.projectId k plaintext))
  /-- A key that is revoked again keeps the time at which it was. -/
  | revoked (k : Uuid) (row : ApiKeyRow) (now : Time) (hrow : db.apiKeys.get? k = some row)
      (h : db'.apiKeys =
        if row.revokedAt.isNone then db.apiKeys.modifyAt k (revoked now) else db.apiKeys) :
      KeyMoves sha256 db db' (some (.revoked k))

theorem createApiKey_inv {sha256 : Bytes → PyStr} {name : PyStr} {draws : KeyDraws}
    {x : (ApiKeyListItem × PyStr) × Database} (h : createApiKey sha256 p name draws db = .ok x) :
    ∃ row, hashApiKey sha256 draws.plaintext = .ok row.keyHash ∧ row.revokedAt = none ∧
      row.projectId = p ∧ x = ((.ofRow (draws.id, row), draws.plaintext),
        { db with apiKeys := db.apiKeys.insert draws.id row }) := by
  obtain ⟨-, -, h⟩ := bind_eq_ok_iff.1 h
  obtain ⟨keyHash, hhash, h⟩ := bind_eq_ok_iff.1 h
  obtain ⟨-, -, h⟩ := bind_eq_ok_iff.1 h
  have hkey : hashApiKey sha256 draws.plaintext = .ok keyHash := mapError_eq_ok_iff.1 hhash
  exact ⟨⟨p, some name, draws.plaintext.take 12, keyHash, none, none, draws.createdAt⟩, hkey, rfl,
    rfl, (pure_eq_ok_iff.1 h).symm⟩

theorem deleteApiKey_inv {keyId : Uuid} {now : Time} {x : Unit × Database}
    (h : deleteApiKey p keyId now db = .ok x) :
    ∃ row, db.apiKeys.get? keyId = some row ∧ x.2.apiKeys =
      if row.revokedAt.isNone then db.apiKeys.modifyAt keyId (revoked now) else db.apiKeys := by
  obtain ⟨row, hrow, h⟩ := bind_eq_ok_iff.1 h
  refine ⟨row, (getOr404_eq_ok_iff.1 hrow).1, ?_⟩
  split at h
  · next hlive =>
    rw [if_pos hlive, ← pure_eq_ok_iff.1 h]
    rfl
  · next hrevoked => rw [if_neg hrevoked, ← pure_eq_ok_iff.1 h]

/-- **What a transaction does to the keys.** -/
theorem keyMoves_serve {a : Action D.maxEventPayloadBytes} (ha : Unused D a db) :
    KeyMoves D.sha256 db (serve D a db).2 (keyEvent a (serve D a db).1) := by
  cases a with
  | request credentials now call =>
    cases hauth : authenticate D.sha256 credentials now db with
    | error e =>
      simp only [serve, hauth]
      exact .same rfl
    | ok x =>
      obtain ⟨project, db₁⟩ := x
      obtain ⟨-, -, keyId, -, -, -, -, -, -, rfl⟩ := authenticate_eq_ok_iff.1 hauth
      simp only [serve, hauth]
      refine .used keyId now ?_
      cases hroute : handle D project call (setApiKey db keyId (usedAt now)) with
      | error e => rfl
      | ok y => exact (kept_handle hroute).1
  | createProject name id createdAt =>
    refine .same ?_
    rcases @createProject_cases name id createdAt with ⟨e, he⟩ | hcases
    · simp only [serve, he]
      rfl
    · rcases hcases db with ⟨-, hok⟩ | ⟨-, hok⟩ <;> simp only [serve, hok] <;> rfl
  | createApiKey project name draws =>
    cases hroute : createApiKey D.sha256 project name draws db with
    | error e =>
      simp only [serve, hroute]
      exact .same rfl
    | ok x =>
      obtain ⟨row, hhash, hlive, hproject, rfl⟩ := createApiKey_inv hroute
      simp only [serve, hroute]
      subst hproject
      exact .issued draws.id row draws.plaintext ha.1 hhash hlive rfl
  | deleteApiKey project keyId now =>
    cases hroute : deleteApiKey project keyId now db with
    | error e =>
      simp only [serve, hroute]
      exact .same rfl
    | ok x =>
      obtain ⟨row, hrow, h⟩ := deleteApiKey_inv hroute
      simp only [serve, hroute]
      exact .revoked keyId row now hrow h
  | commitRedrive project k leased now updatedAt =>
    refine .same ?_
    simp only [serve, commitRedrive]
    cases db.deliveries.get? k <;> rfl
  | tick draws =>
    refine .same ?_
    cases hout : db.outcomes D.urls D.settings draws with
    | error e => simp only [serve, tick_of_error hout]
    | ok settled =>
      simp only [serve, tick_of_ok hout]
      rfl

/-- A key keeps its hash and its project. -/
theorem KeyMoves.kept {sha256 : Bytes → PyStr} {e : Option KeyEvent}
    (h : KeyMoves sha256 db db' e) {k : Uuid} {r : ApiKeyRow} (hr : db.apiKeys.get? k = some r) :
    ∃ r', db'.apiKeys.get? k = some r' ∧ r'.keyHash = r.keyHash ∧ r'.projectId = r.projectId := by
  have hmodify : ∀ {f : ApiKeyRow → ApiKeyRow} {k' : Uuid},
      (∀ r, (f r).keyHash = r.keyHash ∧ (f r).projectId = r.projectId) →
      ∃ r', (db.apiKeys.modifyAt k' f).get? k = some r' ∧ r'.keyHash = r.keyHash ∧
        r'.projectId = r.projectId := by
    intro f k' hf
    rw [Rows.get?_modifyAt, hr]
    split
    · exact ⟨f r, rfl, hf r⟩
    · exact ⟨r, rfl, rfl, rfl⟩
  cases h with
  | same hdb => exact ⟨r, by rw [hdb, hr], rfl, rfl⟩
  | used k' now hdb =>
    rw [hdb]
    exact hmodify fun _ => ⟨rfl, rfl⟩
  | issued k' row plaintext hfresh _ _ hdb =>
    have hne : k ≠ k' := by
      rintro rfl
      rw [hfresh] at hr
      cases hr
    exact ⟨r, by rw [hdb, Rows.get?_insert, if_neg hne, hr], rfl, rfl⟩
  | revoked k' row now _ hdb =>
    rw [hdb]
    split
    · exact hmodify fun _ => ⟨rfl, rfl⟩
    · exact ⟨r, hr, rfl, rfl⟩

/-! ## What a run says of the keys -/

/-- The events so far and the keys. -/
structure Recorded (sha256 : Bytes → PyStr) (events : List KeyEvent) (db : Database) : Prop where
  /-- Each key has been issued, and it is revoked if this has been said. -/
  row : ∀ k r, db.apiKeys.get? k = some r →
    (∃ plaintext, .issued r.projectId k plaintext ∈ events ∧
      hashApiKey sha256 plaintext = .ok r.keyHash) ∧ (r.revokedAt ≠ none ↔ .revoked k ∈ events)
  issued : ∀ p k plaintext, .issued p k plaintext ∈ events →
    ∃ r, db.apiKeys.get? k = some r ∧ r.projectId = p ∧
      hashApiKey sha256 plaintext = .ok r.keyHash
  revoked : ∀ k, .revoked k ∈ events → db.apiKeys.get? k ≠ none

section Recorded

variable {sha256 : Bytes → PyStr} {events : List KeyEvent}

theorem recorded_empty : Recorded sha256 [] .empty := by
  constructor
  · intro k r hr
    cases hr
  · intro p k plaintext h
    cases h
  · intro k h
    cases h

/-- Rows that keep their project, their hash, and whether they are revoked. -/
theorem Recorded.congr (h : Recorded sha256 events db) {f : ApiKeyRow → ApiKeyRow}
    (hproject : ∀ r, (f r).projectId = r.projectId) (hhash : ∀ r, (f r).keyHash = r.keyHash)
    (hrevoked : ∀ r, (f r).revokedAt = r.revokedAt) {k : Uuid}
    (hdb : db'.apiKeys = db.apiKeys.modifyAt k f) : Recorded sha256 events db' := by
  have hget : ∀ k', db'.apiKeys.get? k' =
      if k' = k then (db.apiKeys.get? k').map f else db.apiKeys.get? k' := by
    intro k'
    rw [hdb, Rows.get?_modifyAt]
  have hold : ∀ {k' r'}, db'.apiKeys.get? k' = some r' → ∃ r, db.apiKeys.get? k' = some r ∧
      r'.projectId = r.projectId ∧ r'.keyHash = r.keyHash ∧ r'.revokedAt = r.revokedAt := by
    intro k' r' hr'
    rw [hget] at hr'
    split at hr'
    · obtain ⟨r, hr, rfl⟩ := Option.map_eq_some_iff.1 hr'
      exact ⟨r, hr, hproject r, hhash r, hrevoked r⟩
    · exact ⟨r', hr', rfl, rfl, rfl⟩
  have hnew : ∀ {k' r}, db.apiKeys.get? k' = some r → ∃ r', db'.apiKeys.get? k' = some r' ∧
      r'.projectId = r.projectId ∧ r'.keyHash = r.keyHash := by
    intro k' r hr
    rw [hget, hr]
    split
    · exact ⟨f r, rfl, hproject r, hhash r⟩
    · exact ⟨r, rfl, rfl, rfl⟩
  refine ⟨fun k' r' hr' => ?_, fun q k' plaintext hmem => ?_, fun k' hmem hnone => ?_⟩
  · obtain ⟨r, hr, hproject, hhash, hrevoked⟩ := hold hr'
    rw [hproject, hhash, hrevoked]
    exact h.row k' r hr
  · obtain ⟨r, hr, hp, hplain⟩ := h.issued q k' plaintext hmem
    obtain ⟨r', hr', hproject, hhash⟩ := hnew hr
    exact ⟨r', hr', hproject.trans hp, hhash ▸ hplain⟩
  · obtain ⟨r, hr⟩ := Option.ne_none_iff_exists'.1 (h.revoked k' hmem)
    obtain ⟨r', hr', -⟩ := hnew hr
    rw [hr'] at hnone
    cases hnone

/-- A new key, with the hash of its plaintext. -/
theorem Recorded.issue (h : Recorded sha256 events db) {k : Uuid} {row : ApiKeyRow}
    {plaintext : PyStr} (hfresh : db.apiKeys.get? k = none)
    (hhash : hashApiKey sha256 plaintext = .ok row.keyHash) (hlive : row.revokedAt = none)
    (hdb : db'.apiKeys = db.apiKeys.insert k row) :
    Recorded sha256 (events ++ [.issued row.projectId k plaintext]) db' := by
  have hget : ∀ k', db'.apiKeys.get? k' = if k' = k then some row else db.apiKeys.get? k' := by
    intro k'
    rw [hdb, Rows.get?_insert, hfresh, Option.getD_none]
  have hrevoked : ∀ k', .revoked k' ∈ events ++ [.issued row.projectId k plaintext] ↔
      .revoked k' ∈ events := by simp
  refine ⟨fun k' r hr => ?_, fun q k' plain hmem => ?_, fun k' hmem => ?_⟩
  · rw [hget] at hr
    rw [hrevoked]
    split at hr
    · next hk =>
      subst hk
      obtain rfl := Option.some.inj hr
      refine ⟨⟨plaintext, by simp, hhash⟩, fun hne => absurd hlive hne, fun hmem => ?_⟩
      exact absurd hfresh (h.revoked _ hmem)
    · obtain ⟨⟨plain, hmem, hplain⟩, hiff⟩ := h.row k' r hr
      exact ⟨⟨plain, List.mem_append_left _ hmem, hplain⟩, hiff⟩
  · rw [hget]
    rcases List.mem_append.1 hmem with hmem | hmem
    · obtain ⟨r, hr, hp, hplain⟩ := h.issued q k' plain hmem
      have hne : k' ≠ k := by
        rintro rfl
        rw [hfresh] at hr
        cases hr
      exact ⟨r, by rw [if_neg hne, hr], hp, hplain⟩
    · obtain ⟨rfl, rfl, rfl⟩ := KeyEvent.issued.inj (List.mem_singleton.1 hmem)
      exact ⟨row, if_pos rfl, rfl, hhash⟩
  · rw [hget]
    split
    · exact Option.some_ne_none _
    · exact h.revoked k' ((hrevoked k').1 hmem)

/-- A key that is revoked, for the first time or again. -/
theorem Recorded.revoke (h : Recorded sha256 events db) {k : Uuid} {row : ApiKeyRow} {now : Time}
    (hrow : db.apiKeys.get? k = some row)
    (hdb : db'.apiKeys = if row.revokedAt.isNone then db.apiKeys.modifyAt k (Tenancy.revoked now)
      else db.apiKeys) : Recorded sha256 (events ++ [.revoked k]) db' := by
  have hget : ∀ k', db'.apiKeys.get? k' = if k' = k ∧ row.revokedAt = none then
      some (Tenancy.revoked now row) else db.apiKeys.get? k' := by
    intro k'
    rw [hdb]
    by_cases hlive : row.revokedAt = none
    · rw [hlive, Option.isNone_none, if_pos rfl, Rows.get?_modifyAt]
      by_cases hk : k' = k
      · rw [if_pos hk, if_pos ⟨hk, rfl⟩, hk, hrow, Option.map_some]
      · rw [if_neg hk, if_neg fun hboth => hk hboth.1]
    · rw [if_neg (by simpa using hlive), if_neg fun hboth => hlive hboth.2]
  have hmem : ∀ {q k' plain}, .issued q k' plain ∈ events ++ [.revoked k] ↔
      .issued q k' plain ∈ events := by simp
  have hrevoked : ∀ {k'}, .revoked k' ∈ events ++ [.revoked k] ↔
      .revoked k' ∈ events ∨ k' = k := by simp
  refine ⟨fun k' r hr => ?_, fun q k' plain hissued => ?_, fun k' hk' => ?_⟩
  · rw [hrevoked]
    simp only [hmem]
    rw [hget] at hr
    split at hr
    · next hboth =>
      obtain rfl := Option.some.inj hr
      obtain ⟨hplain, -⟩ := h.row k row hrow
      refine ⟨by rw [hboth.1]; exact hplain, fun _ => .inr hboth.1, fun _ => ?_⟩
      exact Option.some_ne_none _
    · next hother =>
      obtain ⟨hplain, hiff⟩ := h.row k' r hr
      refine ⟨hplain, fun hne => .inl (hiff.1 hne), ?_⟩
      rintro (hk' | rfl)
      · exact hiff.2 hk'
      · obtain rfl := Option.some.inj (hr.symm.trans hrow)
        exact fun hlive => hother ⟨rfl, hlive⟩
  · obtain ⟨r, hr, hp, hplain⟩ := h.issued q k' plain (hmem.1 hissued)
    rw [hget]
    split
    · next hboth =>
      obtain rfl := Option.some.inj (hr.symm.trans (hboth.1 ▸ hrow))
      exact ⟨_, rfl, hp, hplain⟩
    · exact ⟨r, hr, hp, hplain⟩
  · rw [hget]
    split
    · exact Option.some_ne_none _
    · rcases hrevoked.1 hk' with hk' | rfl
      · exact h.revoked k' hk'
      · rw [hrow]
        exact Option.some_ne_none _

/-- **A transaction** and its event. -/
theorem Recorded.step (h : Recorded sha256 events db) {e : Option KeyEvent}
    (hmoves : KeyMoves sha256 db db' e) : Recorded sha256 (events ++ e.toList) db' := by
  cases hmoves with
  | same hdb =>
    rw [Option.toList_none, List.append_nil]
    constructor
    · rw [hdb]
      exact h.row
    · rw [hdb]
      exact h.issued
    · rw [hdb]
      exact h.revoked
  | used k now hdb =>
    rw [Option.toList_none, List.append_nil]
    exact h.congr (f := usedAt now) (fun _ => rfl) (fun _ => rfl) (fun _ => rfl) hdb
  | issued k row plaintext hfresh hhash hlive hdb => exact h.issue hfresh hhash hlive hdb
  | revoked k row now hrow hdb => exact h.revoke hrow hdb

end Recorded

/-- The events of a run. -/
def keyEvents (D : Deployment) (l : List (Action D.maxEventPayloadBytes)) (db : Database) :
    List KeyEvent := (service D).log keyEvent l db

theorem recorded_exec {l : List (Action D.maxEventPayloadBytes)}
    (hl : (service D).Meets (Unused D) l .empty) :
    Recorded D.sha256 (keyEvents D l .empty) ((service D).exec l .empty) := by
  have h : Recorded D.sha256 ([] ++ keyEvents D l .empty) ((service D).exec l .empty) :=
    hl.log_invariant (fun hs ha => hs.step (keyMoves_serve ha)) recorded_empty
  rwa [List.nil_append] at h

/-- The key with a hash. -/
theorem keysHashed_eq_singleton_iff (hdb : Integral db) {keyHash : PyStr} {k : Uuid}
    {r : ApiKeyRow} : db.store.keysHashed keyHash = [(k, r)] ↔
      db.apiKeys.get? k = some r ∧ r.keyHash = keyHash := by
  constructor
  · intro h
    have hmem : (k, r) ∈ db.store.keysHashed keyHash := by simp [h]
    obtain ⟨hmem, hhash⟩ := Rows.mem_select.1 hmem
    exact ⟨Rows.get?_eq_some_iff.2 hmem, of_decide_eq_true hhash⟩
  · rintro ⟨hr, rfl⟩
    have hmem : (k, r) ∈ db.store.keysHashed r.keyHash :=
      Rows.mem_select.2 ⟨Rows.get?_eq_some_iff.1 hr, decide_eq_true rfl⟩
    have hnodup : ((db.store.keysHashed r.keyHash).map Prod.fst).Nodup :=
      db.apiKeys.nodup_select _
    have hall : ∀ e ∈ db.store.keysHashed r.keyHash, e = (k, r) := by
      intro e he
      obtain ⟨he, hhash⟩ := Rows.mem_select.1 he
      have hk := hdb.keyHash e.1 k e.2 r (Rows.get?_eq_some_iff.2 he) hr (of_decide_eq_true hhash)
      refine Prod.ext hk ?_
      exact Rows.eq_of_mem (hk ▸ he) (Rows.get?_eq_some_iff.1 hr)
    refine List.perm_singleton.1 ((List.perm_ext_iff_of_nodup (.of_map _ hnodup)
      (List.nodup_singleton _)).2 fun e => ?_)
    rw [List.mem_singleton]
    exact ⟨hall e, fun he => he ▸ hmem⟩

/-- **Authentication** after any run: a request is authenticated for a project if and only if the
hash of its token is that of a key which was issued to the project and has not been revoked. -/
theorem authenticates_iff {l : List (Action D.maxEventPayloadBytes)}
    (hl : (service D).Meets (Unused D) l .empty) (credentials : Option PyStr) (now : Time)
    (p : Uuid) :
    (∃ db', authenticate D.sha256 credentials now ((service D).exec l .empty) = .ok (p, db')) ↔
      ∃ token plaintext keyHash keyId, credentials = some token ∧
        hashApiKey D.sha256 token = .ok keyHash ∧ hashApiKey D.sha256 plaintext = .ok keyHash ∧
        .issued p keyId plaintext ∈ keyEvents D l .empty ∧
        .revoked keyId ∉ keyEvents D l .empty := by
  have hdb := integral_exec integral_empty hl
  have hrec := recorded_exec hl
  simp only [authenticate_eq_ok_iff, keysHashed_eq_singleton_iff hdb]
  constructor
  · rintro ⟨-, token, keyHash, keyId, row, htoken, hhash, ⟨hrow, rfl⟩, hlive, rfl, -⟩
    obtain ⟨⟨plaintext, hissued, hplain⟩, hrevoked⟩ := hrec.row keyId row hrow
    exact ⟨token, plaintext, row.keyHash, keyId, htoken, hhash, hplain, hissued,
      fun hmem => hrevoked.2 hmem hlive⟩
  · rintro ⟨token, plaintext, keyHash, keyId, htoken, hhash, hplain, hissued, hrevoked⟩
    obtain ⟨row, hrow, hproject, hplain'⟩ := hrec.issued p keyId plaintext hissued
    obtain ⟨-, hiff⟩ := hrec.row keyId row hrow
    have hlive : row.revokedAt = none := not_not.1 fun hne => hrevoked (hiff.1 hne)
    have hkey : row.keyHash = keyHash := Except.ok.inj (hplain'.symm.trans hplain)
    exact ⟨_, token, keyHash, keyId, row, htoken, hhash, ⟨hrow, hkey⟩, hlive, hproject, rfl⟩

/-- Two keys, of which the first is revoked. -/
def oneRevoked : List (Action sampleDeployment.maxEventPayloadBytes) :=
  [.createProject (PyStr.ofString "a") (.ofNat 1) .epoch,
    .createApiKey (.ofNat 1) (PyStr.ofString "first")
      ⟨.ofNat 2, PyStr.ofString "secret", .epoch⟩,
    .createApiKey (.ofNat 1) (PyStr.ofString "second")
      ⟨.ofNat 3, PyStr.ofString "other", .epoch⟩,
    .deleteApiKey (.ofNat 1) (.ofNat 2) 1]

theorem oneRevoked_unused :
    (service sampleDeployment).Meets (Unused sampleDeployment) oneRevoked .empty := by
  refine ⟨rfl, ⟨rfl, fun keyHash _ k r hr => ?_⟩, ⟨rfl, fun keyHash hhash k r hr => ?_⟩, trivial,
    trivial⟩
  · cases hr
  · obtain rfl := Except.ok.inj hhash
    have hmem := Rows.get?_eq_some_iff.1 hr
    obtain rfl := (Prod.mk.inj (List.mem_singleton.1 hmem)).2
    decide +kernel

/-- The second key is still good. -/
theorem authenticates_iff_oneRevoked :
    ∃ db', authenticate sampleDeployment.sha256 (some (PyStr.ofString "whk_other")) 2
      ((service sampleDeployment).exec oneRevoked .empty) = .ok (.ofNat 1, db') :=
  (authenticates_iff oneRevoked_unused _ _ _).2 ⟨_, PyStr.ofString "whk_other", _, .ofNat 3, rfl,
    rfl, rfl, by decide +kernel, by decide +kernel⟩

end Hookit.Tenancy
