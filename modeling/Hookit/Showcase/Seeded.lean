import Hookit.Showcase.Seeding

/-!
# The endpoints of the showcase

`Inv` is the invariant of the seeding. Its heart is `Inv.unique`: of all versions of all endpoints,
committed or not, those with one marker in one project are of one endpoint. Who inserts such a
version has the advisory lock of the project's name since before it has seen that there is none
(`SeedingInv.missing`), and whoever else writes an endpoint keeps its event types or sets types
without a marker (`EditingInv`).
-/

namespace Hookit.Seeding

open Foundations

variable {hashtext : PyStr → ℤ}

/-! ## Markers -/

/-- A row of the project with the marker. -/
def Carries (row : Option EndpointRow) (projectId : Uuid) (marker : PyStr) : Prop :=
  ∃ r, row = some r ∧ r.projectId = projectId ∧ marker ∈ r.eventTypes

def Marked (row : EndpointRow) : Prop := ∃ marker ∈ markers, marker ∈ row.eventTypes

/-- **The schemas accept no marker.** -/
theorem notMem_of_checkEventTypes {marker : PyStr} (hm : marker ∈ markers) :
    ∀ {v : List PyStr}, checkEventTypes v = .ok () → marker ∉ v
  | [], _ => List.not_mem_nil
  | item :: v, h => by
    have hreserved : ∀ m ∈ markers, reservedEventTypePrefix <+: m := by decide
    unfold checkEventTypes at h
    split_ifs at h with hblank hitem
    rw [List.mem_cons, not_or]
    refine ⟨?_, notMem_of_checkEventTypes hm h⟩
    rintro rfl
    exact hitem (hreserved _ hm)

theorem not_marked_create (body : EndpointCreate) (projectId : Uuid) (fresh : Fresh) :
    ¬ Marked (body.row projectId fresh) := fun ⟨_, hm, hmem⟩ =>
  notMem_of_checkEventTypes hm body.eventTypes.checked hmem

/-- An update keeps the event types, or sets types without a marker. -/
theorem update_eventTypes (body : EndpointUpdate) (now : Time) (loaded current : EndpointRow) :
    (body.row now loaded current).eventTypes = current.eventTypes ∨
      ¬ Marked (body.row now loaded current) := by
  cases htypes : body.eventTypes with
  | none =>
    left
    simp [EndpointUpdate.row, updated, htypes]
  | some eventTypes =>
    by_cases heq : eventTypes.val = loaded.eventTypes
    · left
      simp [EndpointUpdate.row, updated, htypes, heq]
    · right
      rintro ⟨marker, hm, hmem⟩
      have hrow : (body.row now loaded current).eventTypes = eventTypes.val := by
        simp [EndpointUpdate.row, updated, htypes, heq]
      rw [hrow] at hmem
      exact notMem_of_checkEventTypes hm eventTypes.checked hmem

/-- The endpoint of a stage has the marker of the stage and no other. -/
theorem Stage.mem_row_iff {settings : SeedSettings} {projectId : Uuid} {fresh : Fresh}
    {marker : PyStr} (hm : marker ∈ markers) (stage : Stage) :
    marker ∈ (stage.row settings projectId fresh).eventTypes ↔ stage.marker? = some marker := by
  revert marker
  cases stage <;> simp only [Stage.row] <;> decide

theorem Stage.finds_iff {stage : Stage} {marker : PyStr} (hstage : stage.marker? = some marker)
    {projectId : Uuid} {row : EndpointRow} :
    stage.finds projectId row = true ↔ row.projectId = projectId ∧ marker ∈ row.eventTypes := by
  simp [Stage.finds, hstage]

theorem Stage.marker_mem {stage : Stage} {marker : PyStr} (h : stage.marker? = some marker) :
    marker ∈ markers := by
  revert marker
  cases stage <;> simp [Stage.marker?, markers]

theorem mem_select_iff {s : State} {t : Tid} {p : EndpointRow → Bool} {k : Uuid} :
    k ∈ s.select t p ↔
      k ∈ s.endpointIds ∧ ∃ row, s.endpoints.visible t k = some row ∧ p row = true := by
  simp [State.select, Option.any_eq_true]

/-! ## The invariant -/

/-- An endpoint with a version, committed or not, that has the marker. -/
def State.Candidate (s : State) (projectId : Uuid) (marker : PyStr) (k : Uuid) : Prop :=
  Carries (s.endpoints.rows k) projectId marker ∨
    ∃ t v, s.endpoints.held k = some (t, v) ∧ Carries v projectId marker

/-- The caller has inserted the endpoint, with its health row if it has a marker. -/
def Inserted (s : State) (t : Tid) (phase : Phase) (k : Uuid) (row : EndpointRow) : Prop :=
  s.endpoints.rows k = none ∧ (Marked row → phase.projectId? = some row.projectId ∧
    k ∈ s.seeded ∧ ∃ health, s.health.held k = some (t, some health))

/-- The row has the project of the committed one, and its event types or no marker. -/
def Kept (s : State) (k : Uuid) (row : EndpointRow) : Prop :=
  ∃ r, s.endpoints.rows k = some r ∧ row.projectId = r.projectId ∧
    (row.eventTypes = r.eventTypes ∨ ¬ Marked row)

/-- What holds of a caller of `seed_showcase`. -/
structure SeedingInv (hashtext : PyStr → ℤ) (s : State) (t : Tid) (settings : SeedSettings)
    (phase : Phase) : Prop where
  lock : s.locks (hashtext settings.showcaseProjectName) = some t
  project : ∀ projectId, phase.projectId? = some projectId →
    s.projects.visible t settings.showcaseProjectName = some projectId ∧
      s.projectNames projectId = some settings.showcaseProjectName
  missing : ∀ projectId stage stages marker, phase = .missing projectId stage stages →
    stage.marker? = some marker → ∀ k, ¬ s.Candidate projectId marker k
  held : ∀ k v, s.endpoints.held k = some (t, v) → ∃ row, v = some row ∧
    (Inserted s t phase k row ∨ ∃ r, s.endpoints.rows k = some r ∧
      row.projectId = r.projectId ∧ row.eventTypes = r.eventTypes)

/-- What holds of a request that creates, updates or deletes an endpoint. -/
structure EditingInv (s : State) (t : Tid) (edited : Option Uuid) : Prop where
  held : ∀ k v, s.endpoints.held k = some (t, v) →
    (edited = some k ∨ s.endpoints.rows k = none) ∧
      ∀ row, v = some row → Kept s k row ∨ ¬ Marked row

/-- What holds of a transaction. -/
def TxInv (hashtext : PyStr → ℤ) (s : State) (t : Tid) : TxState → Prop
  | .seeding settings phase => SeedingInv hashtext s t settings phase
  | .editing edited => EditingInv s t edited
  | _ => ∀ k, ¬ s.endpoints.Holds t k

/-- The invariant of the seeding, with the state of one transaction left open. -/
structure Inv (hashtext : PyStr → ℤ) (x : Option Tid) (s : State) : Prop where
  nodup : s.endpointIds.Nodup
  used : ∀ k ∉ s.endpointIds, s.endpoints.rows k = none ∧ s.endpoints.held k = none ∧
    s.health.held k = none
  names : ∀ name projectId, s.projects.rows name = some projectId →
    s.projectNames projectId = some name
  projectHeld : ∀ name t v, s.projects.held name = some (t, v) → s.projects.rows name = none ∧
    ∀ projectId, v = some projectId → s.projectNames projectId = some name
  seeded : ∀ k row, s.endpoints.rows k = some row → Marked row → k ∈ s.seeded
  unique : ∀ projectId, ∀ marker ∈ markers, ∀ k k', s.Candidate projectId marker k →
    s.Candidate projectId marker k' → k = k'
  health : ∀ k row, s.endpoints.rows k = some row → Marked row → s.health.rows k ≠ none
  healthHeld : ∀ k t, s.health.held k = some (t, none) → s.endpoints.held k = some (t, none)
  txs : ∀ t, some t ≠ x → TxInv hashtext s t (s.txs t)

variable {s s' : State} {t t' : Tid} {tx : TxState} {x : Option Tid}

/-- What a step must leave alone for transaction `t` to be where it was. -/
structure Frame (s s' : State) (t : Tid) : Prop where
  lock : ∀ key, s.locks key = some t → s'.locks key = some t
  project : ∀ name projectId, s.projects.visible t name = some projectId →
    s'.projects.visible t name = some projectId
  names : ∀ projectId name, s.projectNames projectId = some name →
    s'.projectNames projectId = some name
  held : ∀ k v, s'.endpoints.held k = some (t, v) →
    s.endpoints.held k = some (t, v) ∧ s'.endpoints.rows k = s.endpoints.rows k
  seeded : ∀ k ∈ s.seeded, k ∈ s'.seeded
  health : ∀ k v, s.health.held k = some (t, v) → s'.health.held k = some (t, v)

theorem TxInv.frame (h : TxInv hashtext s t tx) (hframe : Frame s s' t)
    (hmissing : ∀ settings projectId stage stages marker,
      tx = .seeding settings (.missing projectId stage stages) → stage.marker? = some marker →
      ∀ k, ¬ s'.Candidate projectId marker k) : TxInv hashtext s' t tx := by
  cases tx with
  | seeding settings phase =>
    refine ⟨hframe.lock _ (SeedingInv.lock h), fun projectId hp => ?_,
      fun projectId stage stages marker hphase => hmissing settings projectId stage stages marker
        (by rw [hphase]), fun k v hk => ?_⟩
    · obtain ⟨hvisible, hname⟩ := SeedingInv.project h projectId hp
      exact ⟨hframe.project _ _ hvisible, hframe.names _ _ hname⟩
    · obtain ⟨hk, hrows⟩ := hframe.held k v hk
      obtain ⟨row, rfl, hrow⟩ := SeedingInv.held h k v hk
      refine ⟨row, rfl, ?_⟩
      rw [hrows]
      refine hrow.imp_left fun ⟨hnone, hmarked⟩ => ⟨hrows ▸ hnone, fun hm => ?_⟩
      obtain ⟨hp, hseeded, health, hhealth⟩ := hmarked hm
      exact ⟨hp, hframe.seeded k hseeded, health, hframe.health k _ hhealth⟩
  | editing edited =>
    refine ⟨fun k v hk => ?_⟩
    obtain ⟨hk, hrows⟩ := hframe.held k v hk
    have hv := EditingInv.held h k v hk
    unfold Kept at hv ⊢
    rw [hrows]
    exact hv
  | unused => exact fun k ⟨v, hk⟩ => h k ⟨v, (hframe.held k v hk).1⟩
  | selected _ _ => exact fun k ⟨v, hk⟩ => h k ⟨v, (hframe.held k v hk).1⟩
  | ended => exact fun k ⟨v, hk⟩ => h k ⟨v, (hframe.held k v hk).1⟩

theorem TxInv.missing {settings : SeedSettings} {projectId : Uuid} {stage : Stage}
    {stages : List Stage} {marker : PyStr} (h : TxInv hashtext s t tx)
    (htx : tx = .seeding settings (.missing projectId stage stages))
    (hm : stage.marker? = some marker) (k : Uuid) : ¬ s.Candidate projectId marker k := by
  subst htx
  exact SeedingInv.missing h projectId stage stages marker rfl hm k

/-- A step after which no more endpoints have markers than before. -/
theorem TxInv.frame_of_candidate (h : TxInv hashtext s t tx) (hframe : Frame s s' t)
    (hcand : ∀ projectId, ∀ marker ∈ markers, ∀ k, s'.Candidate projectId marker k →
      s.Candidate projectId marker k) : TxInv hashtext s' t tx :=
  h.frame hframe fun _ projectId _ _ marker htx hm k hk =>
    h.missing htx hm k (hcand projectId marker (Stage.marker_mem hm) k hk)

theorem Inv.but (h : Inv hashtext none s) (t : Tid) : Inv hashtext (some t) s :=
  { h with txs := fun t' _ => h.txs t' (Option.some_ne_none _) }

theorem Inv.txOf (h : Inv hashtext none s) (ht : s.txs t = tx) : TxInv hashtext s t tx :=
  ht ▸ h.txs t (Option.some_ne_none _)

/-- The transaction that was left open gets a state that fits. -/
theorem Inv.put (h : Inv hashtext (some t) s) (tx : TxState) (htx : TxInv hashtext s t tx) :
    Inv hashtext none (s.put t tx) where
  nodup := h.nodup
  used := h.used
  names := h.names
  projectHeld := h.projectHeld
  seeded := h.seeded
  unique := h.unique
  health := h.health
  healthHeld := h.healthHeld
  txs t' _ := by
    have hframe : Frame s (s.put t tx) t' :=
      ⟨fun _ hl => hl, fun _ _ hp => hp, fun _ _ hn => hn, fun _ _ hk => ⟨hk, rfl⟩,
        fun _ hk => hk, fun _ _ hk => hk⟩
    rcases eq_or_ne t' t with rfl | hne
    · have heq : (s.put t' tx).txs t' = tx := Function.update_self ..
      rw [heq]
      exact htx.frame_of_candidate hframe fun _ _ _ _ hk => hk
    · have heq : (s.put t tx).txs t' = s.txs t' := Function.update_of_ne hne ..
      rw [heq]
      exact (h.txs t' fun he => hne (Option.some.inj he)).frame_of_candidate hframe
        fun _ _ _ _ hk => hk

/-- Two callers in one project are one: the lock has one holder. -/
theorem SeedingInv.eq {settings settings' : SeedSettings} {phase phase' : Phase} {projectId : Uuid}
    (h : SeedingInv hashtext s t settings phase) (h' : SeedingInv hashtext s t' settings' phase')
    (hp : phase.projectId? = some projectId) (hp' : phase'.projectId? = some projectId) :
    t = t' := by
  have hname := (h.project _ hp).2.symm.trans (h'.project _ hp').2
  have hlock := h.lock
  rw [Option.some.inj hname, h'.lock] at hlock
  exact (Option.some.inj hlock).symm

/-- What an uncommitted version with a marker is: a version of an endpoint that has it, or the
insert of a caller of `seed_showcase`. -/
theorem TxInv.version (h : TxInv hashtext s t tx) {k : Uuid} {row : EndpointRow}
    (hk : s.endpoints.held k = some (t, some row)) (hmarked : Marked row) :
    Kept s k row ∨ ∃ settings phase, tx = .seeding settings phase ∧ Inserted s t phase k row := by
  cases tx with
  | seeding settings phase =>
    obtain ⟨_, ⟨⟩, hins | ⟨r, hr, hp, htypes⟩⟩ := SeedingInv.held h k _ hk
    · exact .inr ⟨settings, phase, rfl, hins⟩
    · exact .inl ⟨r, hr, hp, .inl htypes⟩
  | editing edited =>
    exact .inl (((EditingInv.held h k _ hk).2 row rfl).resolve_right fun hn => hn hmarked)
  | unused => exact absurd ⟨_, hk⟩ (h k)
  | selected _ _ => exact absurd ⟨_, hk⟩ (h k)
  | ended => exact absurd ⟨_, hk⟩ (h k)

theorem Kept.committed {k : Uuid} {row : EndpointRow} (h : Kept s k row) (hmarked : Marked row) :
    ∃ r, s.endpoints.rows k = some r ∧ row.projectId = r.projectId ∧
      row.eventTypes = r.eventTypes := by
  obtain ⟨r, hr, hp, htypes⟩ := h
  exact ⟨r, hr, hp, htypes.resolve_right fun hn => hn hmarked⟩

theorem Marked.of_eq {row row' : EndpointRow} (h : Marked row)
    (heq : row.eventTypes = row'.eventTypes) : Marked row' := by
  obtain ⟨marker, hm, hmem⟩ := h
  exact ⟨marker, hm, heq ▸ hmem⟩

/-- What a transaction reads is under an id in use. -/
theorem Inv.used_of_visible (h : Inv hashtext x s) {k : Uuid} {row : EndpointRow}
    (hrow : s.endpoints.visible t k = some row) : k ∈ s.endpointIds := by
  by_contra hk
  obtain ⟨hnone, hheld, -⟩ := h.used k hk
  rw [Table.visible_of_unheld hheld, hnone] at hrow
  cases hrow

/-! ## Statements -/

/-- `s'` is left by a statement of transaction `t` in `s`. -/
structure Write (t : Tid) (s s' : State) : Prop where
  projects : s.projects.Statement t s'.projects
  endpoints : s.endpoints.Statement t s'.endpoints
  health : s.health.Statement t s'.health
  locks : ∀ t' ≠ t, ∀ key, s.locks key = some t' → s'.locks key = some t'
  names : ∀ projectId name, s.projectNames projectId = some name →
    s'.projectNames projectId = some name
  seeded : ∀ k ∈ s.seeded, k ∈ s'.seeded
  txs : s'.txs = s.txs

theorem Write.refl (t : Tid) (s : State) : Write t s s where
  projects := .refl t _
  endpoints := .refl t _
  health := .refl t _
  locks _ _ _ hl := hl
  names _ _ hn := hn
  seeded _ hk := hk
  txs := rfl

theorem Write.frame (h : Write t s s') (hne : t' ≠ t) : Frame s s' t' where
  lock := h.locks t' hne
  project name projectId hp := by rw [h.projects.visible_eq hne, hp]
  names := h.names
  held k v hk := ⟨(h.endpoints.held_iff hne).1 hk, congrFun h.endpoints.rows k⟩
  seeded := h.seeded
  health k v hk := (h.health.held_iff hne).2 hk

/-- **What a statement of transaction `t` has to preserve.** -/
theorem Inv.write (h : Inv hashtext (some t) s) (hw : Write t s s')
    (hnodup : s'.endpointIds.Nodup)
    (hused : ∀ k ∉ s'.endpointIds, k ∉ s.endpointIds ∧ s'.endpoints.held k = s.endpoints.held k ∧
      s'.health.held k = s.health.held k)
    (hproject : ∀ name t' v, s'.projects.held name = some (t', v) →
      s.projects.rows name = none ∧
        ∀ projectId, v = some projectId → s'.projectNames projectId = some name)
    (hunique : ∀ projectId, ∀ marker ∈ markers, ∀ k k', s'.Candidate projectId marker k →
      s'.Candidate projectId marker k' → k = k')
    (hhealth : ∀ k t', s'.health.held k = some (t', none) →
      s'.endpoints.held k = some (t', none))
    (hmissing : ∀ t' ≠ t, ∀ settings projectId stage stages marker,
      s.txs t' = .seeding settings (.missing projectId stage stages) →
      stage.marker? = some marker → ∀ k, ¬ s'.Candidate projectId marker k) :
    Inv hashtext (some t) s' where
  nodup := hnodup
  used k hk := by
    obtain ⟨hk', hheld, hhealth'⟩ := hused k hk
    rw [hw.endpoints.rows, hheld, hhealth']
    exact h.used k hk'
  names name projectId hp := by
    rw [hw.projects.rows] at hp
    exact hw.names _ _ (h.names name projectId hp)
  projectHeld name t' v hv := by
    rw [hw.projects.rows]
    exact hproject name t' v hv
  seeded k row hrow hm := by
    rw [hw.endpoints.rows] at hrow
    exact hw.seeded k (h.seeded k row hrow hm)
  unique := hunique
  health k row hrow hm := by
    rw [hw.endpoints.rows] at hrow
    rw [hw.health.rows]
    exact h.health k row hrow hm
  healthHeld := hhealth
  txs t' ht' := by
    have hne : t' ≠ t := fun he => ht' (by rw [he])
    rw [hw.txs]
    exact (h.txs t' ht').frame (hw.frame hne) (fun settings projectId stage stages marker htx hm =>
      hmissing t' hne settings projectId stage stages marker htx hm)

/-- A statement after which no more endpoints have markers than before. -/
theorem Inv.write_of_candidate (h : Inv hashtext (some t) s) (hw : Write t s s')
    (hnodup : s'.endpointIds.Nodup)
    (hused : ∀ k ∉ s'.endpointIds, k ∉ s.endpointIds ∧ s'.endpoints.held k = s.endpoints.held k ∧
      s'.health.held k = s.health.held k)
    (hproject : ∀ name t' v, s'.projects.held name = some (t', v) →
      s.projects.rows name = none ∧
        ∀ projectId, v = some projectId → s'.projectNames projectId = some name)
    (hcand : ∀ projectId, ∀ marker ∈ markers, ∀ k, s'.Candidate projectId marker k →
      s.Candidate projectId marker k)
    (hhealth : ∀ k t', s'.health.held k = some (t', none) →
      s'.endpoints.held k = some (t', none)) :
    Inv hashtext (some t) s' :=
  h.write hw hnodup hused hproject
    (fun projectId marker hm k k' hk hk' => h.unique projectId marker hm k k'
      (hcand projectId marker hm k hk) (hcand projectId marker hm k' hk'))
    hhealth
    fun t' hne _ projectId _ _ marker htx hm k hk =>
      (h.txs t' fun he => hne (Option.some.inj he)).missing htx hm k
        (hcand projectId marker (Stage.marker_mem hm) k hk)

theorem Inv.lock (h : Inv hashtext (some t) s) {key : ℤ} (hfree : s.locks key = none) :
    Inv hashtext (some t) { s with locks := Function.update s.locks key (some t) } := by
  have hw : Write t s { s with locks := Function.update s.locks key (some t) } :=
    { Write.refl t s with
      locks := fun t' _ key' hl => by
        rcases eq_or_ne key' key with rfl | hkey
        · rw [hfree] at hl
          cases hl
        · simpa [hkey] using hl }
  exact h.write_of_candidate hw h.nodup (fun k hk => ⟨hk, rfl, rfl⟩) h.projectHeld
    (fun _ _ _ _ hk => hk) h.healthHeld

theorem Inv.addProject (h : Inv hashtext (some t) s) {name : PyStr} {projectId : Uuid}
    (hfresh : s.projectNames projectId = none) (hfree : s.projects.free t name = true)
    (hnone : s.projects.visible t name = none) :
    Inv hashtext (some t) (s.addProject t name projectId) := by
  have hnames : ∀ p n, s.projectNames p = some n →
      (s.addProject t name projectId).projectNames p = some n := by
    intro p n hp
    have hne : p ≠ projectId := by
      rintro rfl
      rw [hfresh] at hp
      cases hp
    simpa [State.addProject, hne] using hp
  have hrows : s.projects.rows name = none := by
    rcases s.projects.visible_cases t name with hv | ⟨-, hv⟩
    · exact (h.projectHeld name t _ hv).1
    · rw [← hv, hnone]
  refine h.write_of_candidate
    { Write.refl t s with projects := .write hfree _, names := hnames } h.nodup
    (fun k hk => ⟨hk, rfl, rfl⟩) (fun n t' v hv => ?_) (fun _ _ _ _ hk => hk) h.healthHeld
  rcases eq_or_ne n name with rfl | hne
  · obtain ⟨rfl, rfl⟩ : t = t' ∧ some projectId = v := by simpa [State.addProject] using hv
    refine ⟨hrows, ?_⟩
    rintro _ ⟨⟩
    simp [State.addProject]
  · have hv' : s.projects.held n = some (t', v) := by simpa [State.addProject, hne] using hv
    exact ⟨(h.projectHeld n t' v hv').1, fun p hp =>
      hnames p n ((h.projectHeld n t' v hv').2 p hp)⟩

/-- The versions of an endpoint after a write to it. -/
theorem candidate_write {k k' projectId : Uuid} {marker : PyStr} {v : Option EndpointRow}
    (hs : s'.endpoints = s.endpoints.write t k v) (hk : s'.Candidate projectId marker k') :
    s.Candidate projectId marker k' ∨ (k' = k ∧ Carries v projectId marker) := by
  unfold State.Candidate at hk ⊢
  rw [hs] at hk
  rcases eq_or_ne k' k with rfl | hne
  · rcases hk with hrow | ⟨t', v', hheld, hv⟩
    · exact .inl (.inl hrow)
    · obtain ⟨rfl, rfl⟩ : t = t' ∧ v = v' := by simpa using hheld
      exact .inr ⟨rfl, hv⟩
  · refine .inl (hk.imp_right fun ⟨t', v', hheld, hv⟩ => ⟨t', v', ?_, hv⟩)
    rwa [Table.write_held_of_ne hne] at hheld

theorem candidate_of_visible {k projectId : Uuid} {marker : PyStr} {row : EndpointRow}
    (hrow : s.endpoints.visible t k = some row) (hp : row.projectId = projectId)
    (hm : marker ∈ row.eventTypes) : s.Candidate projectId marker k := by
  rcases s.endpoints.visible_cases t k with hv | ⟨-, hv⟩
  · exact .inr ⟨t, _, hv, row, hrow, hp, hm⟩
  · exact .inl ⟨row, by rw [← hv, hrow], hp, hm⟩

theorem Inv.addEndpoint (h : Inv hashtext (some t) s) {k : Uuid} (row : EndpointRow)
    (hfresh : k ∉ s.endpointIds)
    (hmarked : ∀ marker ∈ markers, marker ∈ row.eventTypes → ∃ settings stage stages,
      SeedingInv hashtext s t settings (.missing row.projectId stage stages) ∧
        stage.marker? = some marker) :
    Inv hashtext (some t) (s.addEndpoint t k row) := by
  obtain ⟨-, hheld, hhealth⟩ := h.used k hfresh
  have hw : Write t s (s.addEndpoint t k row) :=
    { Write.refl t s with endpoints := .write (Table.free_iff.2 (.inl hheld)) _ }
  have hnew : ∀ {projectId marker k'}, marker ∈ markers →
      (s.addEndpoint t k row).Candidate projectId marker k' →
      s.Candidate projectId marker k' ∨ (k' = k ∧ ∃ settings stage stages,
        SeedingInv hashtext s t settings (.missing projectId stage stages) ∧
          stage.marker? = some marker) := by
    intro projectId marker k' hm hk'
    refine (candidate_write rfl hk').imp_right fun ⟨heq, r, hr, hp, hmem⟩ => ⟨heq, ?_⟩
    obtain rfl := Option.some.inj hr
    obtain rfl := hp
    exact hmarked marker hm hmem
  refine h.write hw ?_ (fun k' hk' => ?_) h.projectHeld ?_ (fun k' t' hk' => ?_) ?_
  · have hnodup := List.Nodup.append h.nodup (List.nodup_singleton k)
      (List.disjoint_singleton.2 hfresh)
    exact hnodup
  · have hk : k' ∉ s.endpointIds ∧ k' ≠ k := by simpa [State.addEndpoint] using hk'
    exact ⟨hk.1, Table.write_held_of_ne hk.2, rfl⟩
  · -- before the insert the caller has seen that no endpoint has the marker
    intro projectId marker hm k₁ k₂ h₁ h₂
    rcases hnew hm h₁ with hold₁ | ⟨rfl, settings, stage, stages, hseeding, hstage⟩ <;>
      rcases hnew hm h₂ with hold₂ | ⟨rfl, settings', stage', stages', hseeding', hstage'⟩
    · exact h.unique projectId marker hm _ _ hold₁ hold₂
    · exact absurd hold₁ (hseeding'.missing _ _ _ _ rfl hstage' _)
    · exact absurd hold₂ (hseeding.missing _ _ _ _ rfl hstage _)
    · rfl
  · have hne : k' ≠ k := by
      rintro rfl
      have hk'' : s.health.held k' = some (t', none) := hk'
      rw [hhealth] at hk''
      cases hk''
    exact (Table.write_held_of_ne hne).trans (h.healthHeld k' t' hk')
  · -- nobody else has the lock
    intro t' hne settings projectId stage stages marker htx hstage k' hk'
    have htx' := h.txs t' fun he => hne (Option.some.inj he)
    rcases hnew (Stage.marker_mem hstage) hk' with
      hk' | ⟨-, settings', stage', stages', hseeding, -⟩
    · exact htx'.missing htx hstage k' hk'
    · rw [htx] at htx'
      exact hne (SeedingInv.eq htx' hseeding rfl rfl)

theorem Inv.addHealth (h : Inv hashtext (some t) s) {k : Uuid} (hk : k ∈ s.endpointIds)
    (hfree : s.health.free t k = true) : Inv hashtext (some t) (s.addHealth t k) := by
  have hw : Write t s (s.addHealth t k) :=
    { Write.refl t s with
      health := .write hfree _
      seeded := fun _ hk' => List.mem_append_left _ hk' }
  refine h.write_of_candidate hw h.nodup (fun k' hk' => ⟨hk', rfl, ?_⟩) h.projectHeld
    (fun _ _ _ _ hk' => hk') fun k' t' hk' => ?_
  · have hne : k' ≠ k := by
      rintro rfl
      exact hk' hk
    exact Table.write_held_of_ne hne
  · have hne : k' ≠ k := by
      rintro rfl
      simp [State.addHealth] at hk'
    refine h.healthHeld k' t' ?_
    rwa [← Table.write_held_of_ne hne]

/-- An update that keeps the project and the event types, or sets types without a marker. -/
theorem Inv.setEndpoint (h : Inv hashtext (some t) s) {k : Uuid} {row : EndpointRow}
    (row' : EndpointRow) (hfree : s.endpoints.free t k = true)
    (hrow : s.endpoints.visible t k = some row) (hp : row'.projectId = row.projectId)
    (htypes : row'.eventTypes = row.eventTypes ∨ ¬ Marked row') :
    Inv hashtext (some t) (s.setEndpoint t k row') := by
  have hw : Write t s (s.setEndpoint t k row') :=
    { Write.refl t s with endpoints := .write hfree _ }
  have hused := h.used_of_visible hrow
  refine h.write_of_candidate hw h.nodup (fun k' hk' => ⟨hk', ?_, rfl⟩) h.projectHeld
    (fun projectId marker hm k' hk' => ?_) fun k' t' hk' => ?_
  · have hne : k' ≠ k := by
      rintro rfl
      exact hk' hused
    exact Table.write_held_of_ne hne
  · rcases candidate_write rfl hk' with hk' | ⟨rfl, r, hr, hp', hmem⟩
    · exact hk'
    · obtain rfl := Option.some.inj hr
      have heq := htypes.resolve_right fun hn => hn ⟨marker, hm, hmem⟩
      exact candidate_of_visible hrow (hp.symm.trans hp') (heq ▸ hmem)
  · -- whoever has deleted the health row has the endpoint's lock
    have hheld := h.healthHeld k' t' hk'
    have hne : k' ≠ k := by
      rintro rfl
      rcases Table.free_iff.1 hfree with hnone | hholds
      · rw [hnone] at hheld
        cases hheld
      · obtain rfl := hholds.eq hheld
        rw [Table.visible_of_held hheld] at hrow
        cases hrow
    exact (Table.write_held_of_ne hne).trans hheld

theorem Inv.dropEndpoint (h : Inv hashtext (some t) s) {k : Uuid} {row : EndpointRow}
    (hfree : s.endpoints.free t k = true) (hhealth : s.health.free t k = true)
    (hrow : s.endpoints.visible t k = some row) :
    Inv hashtext (some t) (s.dropEndpoint t k) := by
  have hw : Write t s (s.dropEndpoint t k) :=
    { Write.refl t s with endpoints := .write hfree _, health := .write hhealth _ }
  have hused := h.used_of_visible hrow
  refine h.write_of_candidate hw h.nodup (fun k' hk' => ?_) h.projectHeld
    (fun projectId marker hm k' hk' => ?_) fun k' t' hk' => ?_
  · have hne : k' ≠ k := by
      rintro rfl
      exact hk' hused
    exact ⟨hk', Table.write_held_of_ne hne, Table.write_held_of_ne hne⟩
  · rcases candidate_write rfl hk' with hk' | ⟨-, r, hr, -⟩
    · exact hk'
    · cases hr
  · rcases eq_or_ne k' k with rfl | hne
    · obtain rfl : t = t' := by simpa [State.dropEndpoint] using hk'
      exact Table.write_held_self
    · refine (Table.write_held_of_ne hne).trans (h.healthHeld k' t' ?_)
      rwa [← Table.write_held_of_ne hne]

/-! ## The ends of a transaction -/

theorem Inv.rollback (h : Inv hashtext none s) (t : Tid) : Inv hashtext none (s.rollback t) := by
  have hcand : ∀ projectId marker k, (s.rollback t).Candidate projectId marker k →
      s.Candidate projectId marker k := fun projectId marker k hk =>
    hk.imp_right fun ⟨t', v, hheld, hv⟩ => ⟨t', v, (Table.rollback_held_iff.1 hheld).1, hv⟩
  refine ⟨h.nodup, fun k hk => ?_, h.names, fun name t' v hv => ?_, h.seeded,
    fun projectId marker hm k k' hk hk' => h.unique projectId marker hm k k'
      (hcand _ _ _ hk) (hcand _ _ _ hk'), h.health, fun k t' hk => ?_, fun t' _ => ?_⟩
  · obtain ⟨hnone, hheld, hhealth⟩ := h.used k hk
    exact ⟨hnone, by simp [State.rollback, Table.rollback, hheld],
      by simp [State.rollback, Table.rollback, hhealth]⟩
  · exact h.projectHeld name t' v (Table.rollback_held_iff.1 hv).1
  · obtain ⟨hk, hne⟩ := Table.rollback_held_iff.1 hk
    exact Table.rollback_held_iff.2 ⟨h.healthHeld k t' hk, hne⟩
  · rcases eq_or_ne t' t with rfl | hne
    · have heq : (s.rollback t').txs t' = .ended := Function.update_self ..
      rw [heq]
      rintro k ⟨v, hk⟩
      exact (Table.rollback_held_iff.1 hk).2 rfl
    · have heq : (s.rollback t).txs t' = s.txs t' := Function.update_of_ne hne ..
      rw [heq]
      refine (h.txs t' (Option.some_ne_none _)).frame_of_candidate ⟨fun key hl => ?_,
        fun name projectId hp => ?_, fun _ _ hn => hn, fun k v hk =>
        ⟨(Table.rollback_held_iff.1 hk).1, rfl⟩, fun _ hk => hk, fun k v hk =>
        Table.rollback_held_iff.2 ⟨hk, hne⟩⟩ fun projectId marker _ k hk => hcand _ _ _ hk
      · simp [State.rollback, hl, hne]
      · rw [← hp]
        exact Table.visible_rollback hne

/-- What a transaction reads of an endpoint with a marker: it is seeded, has its health row, and its
version is a candidate. -/
theorem Inv.visible_marked (h : Inv hashtext none s) {k : Uuid} {row : EndpointRow}
    (hrow : s.endpoints.visible t k = some row) (hm : Marked row) :
    k ∈ s.seeded ∧ s.health.visible t k ≠ none := by
  -- a health row that the transaction has deleted is of an endpoint that it has deleted
  have hhealth : s.health.rows k ≠ none → s.health.visible t k ≠ none := by
    intro hcommitted hnone
    rcases s.health.visible_cases t k with hv | ⟨-, hv⟩
    · rw [hnone] at hv
      rw [Table.visible_of_held (h.healthHeld k t hv)] at hrow
      cases hrow
    · exact hcommitted (hv ▸ hnone)
  rcases s.endpoints.visible_cases t k with hv | ⟨-, hv⟩
  · rw [hrow] at hv
    rcases (h.txs t (Option.some_ne_none _)).version hv hm with hkept | ⟨_, _, -, -, hins⟩
    · obtain ⟨r, hr, -, htypes⟩ := hkept.committed hm
      have hm' := hm.of_eq htypes
      exact ⟨h.seeded k r hr hm', hhealth (h.health k r hr hm')⟩
    · obtain ⟨-, hseeded, health, hheld⟩ := hins hm
      exact ⟨hseeded, by simp [Table.visible_of_held hheld]⟩
  · rw [hrow] at hv
    exact ⟨h.seeded k row hv.symm hm, hhealth (h.health k row hv.symm hm)⟩

theorem Inv.commit (h : Inv hashtext none s) (t : Tid) : Inv hashtext none (s.commit t) := by
  have hcand : ∀ projectId marker k, (s.commit t).Candidate projectId marker k →
      s.Candidate projectId marker k := by
    rintro projectId marker k (⟨row, hrow, hp, hmem⟩ | ⟨t', v, hheld, hv⟩)
    · exact candidate_of_visible hrow hp hmem
    · exact .inr ⟨t', v, (Table.commit_held_iff.1 hheld).1, hv⟩
  refine ⟨h.nodup, fun k hk => ?_, fun name projectId hp => ?_, fun name t' v hv => ?_,
    fun k row hrow hm => (h.visible_marked hrow hm).1,
    fun projectId marker hm k k' hk hk' => h.unique projectId marker hm k k'
      (hcand _ _ _ hk) (hcand _ _ _ hk'), fun k row hrow hm => (h.visible_marked hrow hm).2,
    fun k t' hk => ?_, fun t' _ => ?_⟩
  · obtain ⟨hnone, hheld, hhealth⟩ := h.used k hk
    refine ⟨?_, by simp [State.commit, Table.commit, hheld],
      by simp [State.commit, Table.commit, hhealth]⟩
    have hvisible : s.endpoints.visible t k = none := by
      rw [Table.visible_of_unheld hheld, hnone]
    exact hvisible
  · have hvisible : s.projects.visible t name = some projectId := hp
    rcases s.projects.visible_cases t name with hv | ⟨-, hv⟩
    · exact (h.projectHeld name t _ hv).2 projectId hvisible
    · exact h.names name projectId (hv.symm.trans hvisible)
  · obtain ⟨hv, hne⟩ := Table.commit_held_iff.1 hv
    obtain ⟨hnone, hname⟩ := h.projectHeld name t' v hv
    have hvisible : s.projects.visible t name = none := by
      rw [Table.visible_of_held_ne hv hne, hnone]
    exact ⟨hvisible, hname⟩
  · obtain ⟨hk, hne⟩ := Table.commit_held_iff.1 hk
    exact Table.commit_held_of_ne (h.healthHeld k t' hk) hne
  · rcases eq_or_ne t' t with rfl | hne
    · have heq : (s.commit t').txs t' = .ended := Function.update_self ..
      rw [heq]
      rintro k ⟨v, hk⟩
      exact (Table.commit_held_iff.1 hk).2 rfl
    · have heq : (s.commit t).txs t' = s.txs t' := Function.update_of_ne hne ..
      rw [heq]
      refine (h.txs t' (Option.some_ne_none _)).frame_of_candidate ⟨fun key hl => ?_,
        fun name projectId hp => ?_, fun _ _ hn => hn, fun k v hk => ?_, fun _ hk => hk,
        fun k v hk => Table.commit_held_of_ne hk hne⟩ fun projectId marker _ k hk => hcand _ _ _ hk
      · simp [State.commit, hl, hne]
      · rcases s.projects.visible_cases t' name with hv | ⟨hn, hv⟩
        · rw [hp] at hv
          exact Table.visible_of_held (Table.commit_held_of_ne hv hne)
        · -- a project that exists is written by nobody
          rw [hp] at hv
          have hunheld : ∀ t'', ¬ s.projects.Holds t'' name := by
            rintro t'' ⟨w, hw⟩
            rw [(h.projectHeld name t'' w hw).1] at hv
            cases hv
          have hn' : ¬ (s.commit t).projects.Holds t' name := by
            rintro ⟨w, hw⟩
            exact hn ⟨w, (Table.commit_held_iff.1 hw).1⟩
          rw [Table.visible_of_not_holds hn']
          exact (Table.commit_rows_of_not_holds (hunheld t)).trans hv.symm
      · obtain ⟨hk, -⟩ := Table.commit_held_iff.1 hk
        refine ⟨hk, Table.commit_rows_of_not_holds fun hholds => hne ?_⟩
        exact hholds.eq hk

/-! ## Steps -/

theorem Inv.names_visible (h : Inv hashtext x s) {name : PyStr} {projectId : Uuid}
    (hp : s.projects.visible t name = some projectId) : s.projectNames projectId = some name := by
  rcases s.projects.visible_cases t name with hv | ⟨-, hv⟩
  · exact (h.projectHeld name t _ hv).2 projectId hp
  · exact h.names name projectId (hv.symm.trans hp)

/-- A version that the caller has inserted is of its project. -/
theorem SeedingInv.held_of_phase {settings : SeedSettings} {phase phase' : Phase}
    (h : SeedingInv hashtext s t settings phase)
    (hp : ∀ projectId, phase.projectId? = some projectId → phase'.projectId? = some projectId)
    (k : Uuid) (v : Option EndpointRow) (hk : s.endpoints.held k = some (t, v)) :
    ∃ row, v = some row ∧ (Inserted s t phase' k row ∨ ∃ r, s.endpoints.rows k = some r ∧
      row.projectId = r.projectId ∧ row.eventTypes = r.eventTypes) := by
  obtain ⟨row, rfl, hrow⟩ := h.held k v hk
  refine ⟨row, rfl, hrow.imp_left fun ⟨hnone, hins⟩ => ⟨hnone, fun hm => ?_⟩⟩
  obtain ⟨hp', hrest⟩ := hins hm
  exact ⟨hp _ hp', hrest⟩

/-- The caller goes on, with the project that it has found. -/
theorem SeedingInv.phase {settings : SeedSettings} {phase phase' : Phase}
    (h : SeedingInv hashtext s t settings phase)
    (hp : ∀ projectId, phase.projectId? = some projectId → phase'.projectId? = some projectId)
    (hproject : ∀ projectId, phase'.projectId? = some projectId →
      s.projects.visible t settings.showcaseProjectName = some projectId ∧
        s.projectNames projectId = some settings.showcaseProjectName)
    (hmissing : ∀ projectId stage stages marker, phase' = .missing projectId stage stages →
      stage.marker? = some marker → ∀ k, ¬ s.Candidate projectId marker k) :
    SeedingInv hashtext s t settings phase' where
  lock := h.lock
  project := hproject
  missing := hmissing
  held := h.held_of_phase hp

/-- The caller goes on in its project. -/
theorem SeedingInv.next {settings : SeedSettings} {phase phase' : Phase}
    (h : SeedingInv hashtext s t settings phase) (hp : phase'.projectId? = phase.projectId?)
    (hmissing : ∀ projectId stage stages, phase' ≠ .missing projectId stage stages) :
    SeedingInv hashtext s t settings phase' :=
  h.phase (fun _ hp' => hp.trans hp') (fun _ hp' => h.project _ (hp.symm.trans hp'))
    fun _ _ _ _ hphase => absurd hphase (hmissing _ _ _)

/-- **A caller that finds no endpoint with the marker knows that there is none**, committed or
not: its own versions it reads, those of an edit are of committed endpoints with the marker, and
nobody else inserts one. -/
theorem Inv.not_candidate (h : Inv hashtext none s) {settings : SeedSettings} {phase : Phase}
    {projectId : Uuid} {stage : Stage} {marker : PyStr}
    (htx : SeedingInv hashtext s t settings phase) (hp : phase.projectId? = some projectId)
    (hselect : s.select t (stage.finds projectId) = []) (hstage : stage.marker? = some marker)
    (k : Uuid) : ¬ s.Candidate projectId marker k := by
  have hnone : ∀ row, s.endpoints.visible t k = some row → row.projectId = projectId →
      marker ∉ row.eventTypes := by
    intro row hrow hrowp hmem
    have hused := h.used_of_visible hrow
    have hmem' : k ∈ s.select t (stage.finds projectId) :=
      mem_select_iff.2 ⟨hused, row, hrow, (Stage.finds_iff hstage).2 ⟨hrowp, hmem⟩⟩
    rw [hselect] at hmem'
    cases hmem'
  have hcommitted : ¬ Carries (s.endpoints.rows k) projectId marker := by
    rintro ⟨r, hr, hrp, hmem⟩
    rcases s.endpoints.visible_cases t k with hv | ⟨-, hv⟩
    · obtain ⟨row, hrow, ⟨hrows, -⟩ | ⟨r', hr', hp', htypes⟩⟩ := htx.held k _ hv
      · rw [hr] at hrows
        cases hrows
      · obtain rfl := Option.some.inj (hr.symm.trans hr')
        exact hnone row hrow (hp'.trans hrp) (htypes ▸ hmem)
    · exact hnone r (hv.trans hr) hrp hmem
  rintro (hrow | ⟨t', _, hheld, row, rfl, hrp, hmem⟩)
  · exact hcommitted hrow
  · have hm : Marked row := ⟨marker, Stage.marker_mem hstage, hmem⟩
    rcases (h.txs t' (Option.some_ne_none _)).version hheld hm with hkept | hins
    · obtain ⟨r, hr, hp', htypes⟩ := hkept.committed hm
      exact hcommitted ⟨r, hr, hp'.symm.trans hrp, htypes ▸ hmem⟩
    · obtain ⟨settings', phase', htx', -, hmarked⟩ := hins
      have htxs := h.txs t' (Option.some_ne_none _)
      rw [htx'] at htxs
      obtain rfl := htx.eq htxs hp (hrp ▸ (hmarked hm).1)
      exact hnone row (Table.visible_of_held hheld) hrp hmem

/-- The caller inserts the endpoint of a stage, and its health row if it has a marker. -/
theorem Inv.insert (h : Inv hashtext none s) {settings : SeedSettings} {projectId : Uuid}
    {stage : Stage} {stages : List Stage} {fresh : Fresh}
    (htx : SeedingInv hashtext s t settings (.missing projectId stage stages))
    (hfresh : fresh.id ∉ s.endpointIds) :
    Inv hashtext none
      ((if stage.marker?.isSome then
          (s.addEndpoint t fresh.id (stage.row settings projectId fresh)).addHealth t fresh.id
        else s.addEndpoint t fresh.id (stage.row settings projectId fresh)).put t
        (.seeding settings (.finding projectId stages))) := by
  have hadd := (h.but t).addEndpoint (stage.row settings projectId fresh) hfresh
    fun marker hm hmem => ⟨settings, stage, stages, htx, (Stage.mem_row_iff hm stage).1 hmem⟩
  obtain ⟨hnone, -, hhealth⟩ := h.used fresh.id hfresh
  have hold : ∀ k v, (s.addEndpoint t fresh.id (stage.row settings projectId fresh)).endpoints.held
      k = some (t, v) → k ≠ fresh.id → s.endpoints.held k = some (t, v) := fun k v hk hne =>
    (Table.write_held_of_ne hne).symm.trans hk
  have hnew : ∀ v, (s.addEndpoint t fresh.id
      (stage.row settings projectId fresh)).endpoints.held fresh.id = some (t, v) →
      some (stage.row settings projectId fresh) = v := fun _ hv => Table.eq_of_write_held hv
  split_ifs with hmarker
  · refine (hadd.addHealth (List.mem_append_right _ (List.mem_singleton_self _))
      (Table.free_iff.2 (.inl hhealth))).put _ ⟨htx.lock, htx.project,
      (fun _ _ _ _ hphase => by cases hphase), fun k v hk => ?_⟩
    rcases eq_or_ne k fresh.id with rfl | hne
    · obtain rfl := hnew v hk
      exact ⟨_, rfl, .inl ⟨hnone, fun _ => ⟨rfl, List.mem_append_right _
        (List.mem_singleton_self _), _, Table.write_held_self⟩⟩⟩
    · obtain ⟨row, hv, hrow⟩ := htx.held k v (hold k v hk hne)
      refine ⟨row, hv, hrow.imp_left fun ⟨hrows, hins⟩ => ⟨hrows, fun hm => ?_⟩⟩
      obtain ⟨hp, hseeded, health, hheld⟩ := hins hm
      exact ⟨hp, List.mem_append_left _ hseeded, health,
        (Table.write_held_of_ne hne).trans hheld⟩
  · refine hadd.put _ ⟨htx.lock, htx.project, (fun _ _ _ _ hphase => by cases hphase),
      fun k v hk => ?_⟩
    rcases eq_or_ne k fresh.id with rfl | hne
    · obtain rfl := hnew v hk
      refine ⟨_, rfl, .inl ⟨hnone, fun ⟨marker, hm, hmem⟩ => ?_⟩⟩
      rw [(Stage.mem_row_iff hm stage).1 hmem] at hmarker
      exact absurd rfl hmarker
    · exact htx.held k v (hold k v hk hne)

/-- The caller updates the URL of the Discord endpoint. -/
theorem Inv.sync (h : Inv hashtext none s) {settings : SeedSettings} {projectId k : Uuid}
    {stages : List Stage} {row row' : EndpointRow}
    (htx : SeedingInv hashtext s t settings (.stale projectId k stages))
    (hfree : s.endpoints.free t k = true) (hrow : s.endpoints.visible t k = some row)
    (hp : row'.projectId = row.projectId) (htypes : row'.eventTypes = row.eventTypes) :
    Inv hashtext none
      ((s.setEndpoint t k row').put t (.seeding settings (.finding projectId stages))) := by
  refine ((h.but t).setEndpoint row' hfree hrow hp (.inl htypes)).put _ ⟨htx.lock, htx.project,
    (fun _ _ _ _ hphase => by cases hphase), fun k' v hk' => ?_⟩
  rcases eq_or_ne k' k with rfl | hne
  · obtain rfl : some row' = v := Table.eq_of_write_held hk'
    refine ⟨row', rfl, ?_⟩
    rcases s.endpoints.visible_cases t k' with hv | ⟨-, hv⟩
    · rw [hrow] at hv
      obtain ⟨_, ⟨⟩, ⟨hnone, hins⟩ | ⟨r, hr, hp', htypes'⟩⟩ := htx.held k' _ hv
      · refine .inl ⟨hnone, fun hm => ?_⟩
        rw [hp]
        exact hins (hm.of_eq htypes)
      · exact .inr ⟨r, hr, hp.trans hp', htypes.trans htypes'⟩
    · exact .inr ⟨row, hv.symm.trans hrow, hp, htypes⟩
  · exact htx.held k' v ((Table.write_held_of_ne hne).symm.trans hk')

end Hookit.Seeding
