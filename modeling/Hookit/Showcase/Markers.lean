import Hookit.Showcase.Seeded

/-!
# One endpoint for each marker

`seeded_once`: whatever the callers of `seed_showcase` and the requests of the API do, at most one
endpoint of a project has a given marker, it was created by the seeding, and the seeding that no
edit or deletion of such an endpoint overlaps leaves one for each of the markers, with its health
row.
-/

namespace Hookit.Seeding

open Foundations

variable {hashtext : PyStr → ℤ} {s s' s₁ s₂ s₃ : State} {t t' : Tid}

/-! ## The invariant -/

theorem inv_init : Inv hashtext none init := by
  have hcand : ∀ projectId marker k, ¬ init.Candidate projectId marker k := by
    rintro projectId marker k (⟨_, hrow, -⟩ | ⟨_, _, hheld, -⟩)
    · cases hrow
    · cases hheld
  refine ⟨List.nodup_nil, fun _ _ => ⟨rfl, rfl, rfl⟩, (fun _ _ hp => by cases hp),
    (fun _ _ _ hv => by cases hv), (fun _ _ hrow => by cases hrow),
    fun projectId marker _ k k' hk => absurd hk (hcand projectId marker k),
    (fun _ _ hrow => by cases hrow), (fun _ _ hk => by cases hk), fun t _ => ?_⟩
  rintro k ⟨v, hk⟩
  cases hk

/-- What a caller has looked up. -/
theorem Inv.lookup (h : Inv hashtext none s) {settings : SeedSettings} {phase phase' : Phase}
    (htx : SeedingInv hashtext s t settings phase) (hlookup : Lookup s t settings phase phase') :
    SeedingInv hashtext s t settings phase' := by
  cases hlookup with
  | project hproject =>
    refine htx.phase (fun _ hp => by cases hp) ?_ fun _ _ _ _ hp => by cases hp
    rintro _ ⟨⟩
    exact ⟨hproject, h.names_visible hproject⟩
  | missing hselect =>
    refine htx.phase (fun _ hp => hp) htx.project ?_
    rintro _ _ _ marker ⟨⟩ hstage
    exact h.not_candidate htx rfl hselect hstage
  | noProject => exact htx.next rfl fun _ _ _ hp => by cases hp
  | skip => exact htx.next rfl fun _ _ _ hp => by cases hp
  | found _ => exact htx.next rfl fun _ _ _ hp => by cases hp
  | stale => exact htx.next rfl fun _ _ _ hp => by cases hp

/-- **Every move keeps the invariant.** -/
theorem inv_move {a : Act} (h : Inv hashtext none s) (hmove : Move hashtext a s s') :
    Inv hashtext none s' := by
  cases hmove with
  | @lock _ t settings ht hfree =>
    exact ((h.but t).lock hfree).put (.seeding settings .locked)
      ⟨Function.update_self .., (fun _ hp => by cases hp), (fun _ _ _ _ hp => by cases hp),
        fun k v hk => absurd ⟨v, hk⟩ (h.txOf ht k)⟩
  | lookup ht hlookup => exact (h.but a.tid).put _ (h.lookup (h.txOf ht) hlookup)
  | @insertProject _ t settings projectId ht hfresh hfree hnone =>
    have htx : SeedingInv hashtext s t settings .noProject := h.txOf ht
    refine ((h.but t).addProject hfresh hfree hnone).put
      (.seeding settings (.finding projectId Stage.all)) ⟨htx.lock, ?_,
      (fun _ _ _ _ hp => by cases hp),
      fun k v hk => htx.held_of_phase (fun _ hp => by cases hp) k v hk⟩
    rintro _ ⟨⟩
    exact ⟨Table.visible_of_held Table.write_held_self, Function.update_self ..⟩
  | insert ht hfresh => exact h.insert (h.txOf ht) hfresh
  | sync ht hfree hrow => exact h.sync (h.txOf ht) hfree hrow rfl rfl
  | @createProject _ t _ _ ht hfresh hfree hnone =>
    exact ((h.but t).addProject hfresh hfree hnone).put (.editing none)
      ⟨fun k v hk => absurd ⟨v, hk⟩ (h.txOf ht k)⟩
  | @createEndpoint _ t projectId body fresh ht hfresh =>
    have hmarked := not_marked_create body projectId fresh
    refine ((h.but t).addEndpoint _ hfresh fun marker hm hmem =>
      absurd ⟨marker, hm, hmem⟩ hmarked).put (.editing none) ⟨fun k v hk => ?_⟩
    rcases eq_or_ne k fresh.id with rfl | hne
    · obtain rfl : some (body.row projectId fresh) = v := Table.eq_of_write_held hk
      refine ⟨.inr (h.used fresh.id hfresh).1, ?_⟩
      rintro _ ⟨⟩
      exact .inr hmarked
    · exact absurd ⟨v, (Table.write_held_of_ne hne).symm.trans hk⟩ (h.txOf ht k)
  | @select _ t _ _ _ ht => exact (h.but t).put (.selected _ _) fun k => h.txOf ht k
  | @update _ t endpointId loaded current body now ht hfree hrow =>
    have htypes := update_eventTypes body now loaded current
    refine ((h.but t).setEndpoint (body.row now loaded current) hfree hrow rfl htypes).put
      (.editing (some endpointId)) ⟨fun k v hk => ?_⟩
    rcases eq_or_ne k endpointId with rfl | hne
    · obtain rfl : some (body.row now loaded current) = v := Table.eq_of_write_held hk
      refine ⟨.inl rfl, ?_⟩
      rintro _ ⟨⟩
      exact .inl ⟨current, (Table.visible_of_not_holds (h.txOf ht k)).symm.trans hrow, rfl, htypes⟩
    · exact absurd ⟨v, (Table.write_held_of_ne hne).symm.trans hk⟩ (h.txOf ht k)
  | @delete _ t endpointId _ _ ht hfree hhealth hrow =>
    refine ((h.but t).dropEndpoint hfree hhealth hrow).put (.editing (some endpointId))
      ⟨fun k v hk => ?_⟩
    rcases eq_or_ne k endpointId with rfl | hne
    · obtain rfl : none = v := Table.eq_of_write_held hk
      refine ⟨.inl rfl, ?_⟩
      rintro _ ⟨⟩
    · exact absurd ⟨v, (Table.write_held_of_ne hne).symm.trans hk⟩ (h.txOf ht k)
  | @gone _ t endpointId _ ht =>
    exact (h.but t).put (.editing (some endpointId))
      ⟨fun k v hk => absurd ⟨v, hk⟩ (h.txOf ht k)⟩
  | commit => exact h.commit _
  | rollback => exact h.rollback _

theorem inv_step {a : Act} (h : Inv hashtext none s) (hs : step hashtext a s = some s') :
    Inv hashtext none s' := inv_move h (move_of_step hs)

theorem inv_of_reachable (h : (seeding hashtext).Reachable s) : Inv hashtext none s :=
  h.invariant inv_init fun _ _ _ hinv hs => inv_step hinv hs

/-! ## What the others see of a step -/

theorem visible_write {k k' : Uuid} {v : Option EndpointRow} (hfree : s.endpoints.free t' k = true)
    (hne : t ≠ t') : (s.endpoints.write t' k v).visible t k' = s.endpoints.visible t k' :=
  (Table.Statement.write hfree v).visible_eq hne

/-- Until it commits, a transaction is not seen by the others. -/
theorem unseen_of_move {a : Act} (h : Inv hashtext none s) (hmove : Move hashtext a s s')
    (hne : t ≠ a.tid) : s'.txs t = s.txs t ∧
      ((∀ k, s'.endpoints.visible t k = s.endpoints.visible t k) ∨
        (a = .commit a.tid ∧ s' = s.commit a.tid)) := by
  have htxs : ∀ tx, Function.update s.txs a.tid tx t = s.txs t := fun tx =>
    Function.update_of_ne hne ..
  have hfree : ∀ k ∉ s.endpointIds, s.endpoints.free a.tid k = true := fun k hk =>
    Table.free_iff.2 (.inl (h.used k hk).2.1)
  cases hmove with
  | insert ht hfresh =>
    split_ifs <;> exact ⟨htxs _, .inl fun _ => visible_write (hfree _ hfresh) hne⟩
  | createEndpoint ht hfresh => exact ⟨htxs _, .inl fun _ => visible_write (hfree _ hfresh) hne⟩
  | sync ht hsync hrow => exact ⟨htxs _, .inl fun _ => visible_write hsync hne⟩
  | update ht hupdate hrow => exact ⟨htxs _, .inl fun _ => visible_write hupdate hne⟩
  | delete ht hdelete hhealth hrow => exact ⟨htxs _, .inl fun _ => visible_write hdelete hne⟩
  | commit => exact ⟨htxs _, .inr ⟨rfl, rfl⟩⟩
  | rollback => exact ⟨htxs _, .inl fun _ => Table.visible_rollback hne⟩
  | _ => exact ⟨htxs _, .inl fun _ => rfl⟩

/-! ## A seeding that nothing overlaps -/

/-- No edit or deletion of an endpoint with a marker, in the project of the name, commits. -/
def Untouched (t : Tid) (settings : SeedSettings) (a : Act) (s : State) : Prop :=
  ∀ t' k row, a = .commit t' → s.txs t' = .editing (some k) → s.endpoints.rows k = some row →
    s.projects.visible t settings.showcaseProjectName = some row.projectId → ¬ Marked row

/-- Transaction `t` reads an endpoint of the project with the marker. -/
def Found (s : State) (t : Tid) (projectId : Uuid) (marker : PyStr) : Prop :=
  ∃ k, Carries (s.endpoints.visible t k) projectId marker

/-- The endpoints that are still to be found or created. -/
def Phase.remaining : Phase → List Stage
  | .locked | .noProject => Stage.all
  | .finding _ stages | .stale _ _ stages => stages
  | .missing _ stage stages => stage :: stages

/-- The caller reads the endpoints that it has found or created. -/
def Progress (s : State) (t : Tid) (phase : Phase) : Prop :=
  ∀ projectId, phase.projectId? = some projectId → ∀ stage ∉ phase.remaining, ∀ marker,
    stage.marker? = some marker → Found s t projectId marker

theorem Found.of_visible {projectId : Uuid} {marker : PyStr} (h : Found s t projectId marker)
    (hv : ∀ k, s'.endpoints.visible t k = s.endpoints.visible t k) :
    Found s' t projectId marker := by
  obtain ⟨k, hk⟩ := h
  exact ⟨k, by rwa [hv]⟩

/-- The commit of another transaction leaves the endpoints that the caller has found. -/
theorem Found.commit {settings : SeedSettings} {projectId : Uuid} {marker : PyStr}
    (hfound : Found s t projectId marker) (h : Inv hashtext none s) (hm : marker ∈ markers)
    (hp : s.projects.visible t settings.showcaseProjectName = some projectId)
    (hok : Untouched t settings (.commit t') s) (hne : t ≠ t') :
    Found (s.commit t') t projectId marker := by
  obtain ⟨k, row, hrow, rfl, hmem⟩ := hfound
  have hmarked : Marked row := ⟨marker, hm, hmem⟩
  refine ⟨k, ?_⟩
  rcases s.endpoints.visible_cases t k with hv | ⟨hn, hv⟩
  · have hheld := Table.commit_held_of_ne hv hne
    exact ⟨row, (Table.visible_of_held hheld).trans hrow, rfl, hmem⟩
  · have hn' : ¬ (s.commit t').endpoints.Holds t k := fun ⟨w, hw⟩ =>
      hn ⟨w, (Table.commit_held_iff.1 hw).1⟩
    have hcommitted : (s.commit t').endpoints.visible t k = s.endpoints.visible t' k :=
      Table.visible_of_not_holds hn'
    rw [hrow] at hv
    rw [hcommitted]
    rcases s.endpoints.visible_cases t' k with hv' | ⟨-, hv'⟩
    · cases htxs : s.txs t' with
      | seeding settings' phase =>
        -- another caller that updates the endpoint keeps its types
        obtain ⟨row', hrow', ⟨hnone, -⟩ | ⟨r, hr, hrp, htypes⟩⟩ :=
          SeedingInv.held (h.txOf htxs) k _ hv'
        · rw [hnone] at hv
          cases hv
        · obtain rfl := Option.some.inj (hv.trans hr)
          exact ⟨row', hrow', hrp, htypes ▸ hmem⟩
      | editing edited =>
        rcases (EditingInv.held (h.txOf htxs) k _ hv').1 with rfl | hnone
        · exact absurd hmarked (hok t' k row rfl htxs hv.symm hp)
        · rw [hnone] at hv
          cases hv
      | _ => exact absurd ⟨_, hv'⟩ (h.txOf htxs k)
    · exact ⟨row, hv'.trans hv.symm, rfl, hmem⟩

/-- The caller goes on where nothing new was to be found. -/
theorem Progress.next {phase phase' : Phase} (h : Progress s t phase)
    (hp : phase'.projectId? = phase.projectId?)
    (hremaining : ∀ stage ∈ phase.remaining, stage.marker? ≠ none → stage ∈ phase'.remaining) :
    Progress s t phase' := by
  intro projectId hproject stage hstage marker hm
  refine h projectId (hp.symm.trans hproject) stage (fun hmem => hstage ?_) marker hm
  exact hremaining stage hmem (by simp [hm])

/-- The caller reads the endpoint of a stage, and goes on to the next. -/
theorem Progress.found {phase : Phase} {projectId : Uuid} {stage : Stage} {stages : List Stage}
    (h : Progress s t phase) (hp : phase.projectId? = some projectId)
    (hremaining : phase.remaining = stage :: stages)
    (hold : ∀ marker, Found s t projectId marker → Found s' t projectId marker)
    (hfound : ∀ marker, stage.marker? = some marker → Found s' t projectId marker) :
    Progress s' t (.finding projectId stages) := by
  rintro _ ⟨⟩ stage' hstage' marker hm
  rcases eq_or_ne stage' stage with rfl | hne
  · exact hfound marker hm
  · refine hold marker (h projectId hp stage' ?_ marker hm)
    rw [hremaining]
    exact List.not_mem_cons_of_ne_of_not_mem hne hstage'

/-- A lookup of the caller. -/
theorem Progress.lookup {settings : SeedSettings} {phase phase' : Phase}
    (h : Progress s t phase) (hlookup : Lookup s t settings phase phase') :
    Progress s t phase' := by
  cases hlookup with
  | project _ => exact fun _ _ stage hstage => absurd stage.mem_all hstage
  | noProject => exact fun _ hp => by cases hp
  | skip => exact h.found rfl rfl (fun _ hf => hf) fun _ hm => by cases hm
  | missing _ => exact h.next rfl fun _ hmem _ => hmem
  | @found projectId k stage stages hselect =>
    refine h.found rfl rfl (fun _ hf => hf) fun marker hm => ?_
    have hmem : k ∈ s.select t (stage.finds projectId) := by
      rw [hselect]
      exact List.mem_singleton_self k
    obtain ⟨-, row, hrow, hfinds⟩ := mem_select_iff.1 hmem
    exact ⟨k, row, hrow, (Stage.finds_iff hm).1 hfinds⟩
  | stale =>
    refine h.next rfl fun stage hmem hmarker => ?_
    rcases List.mem_cons.1 hmem with rfl | hmem
    · exact absurd rfl hmarker
    · exact hmem

/-- A move of the caller itself. -/
theorem progress_move {a : Act} {settings : SeedSettings} {phase : Phase}
    (h : Inv hashtext none s) (hcaller : s.txs a.tid = .seeding settings phase)
    (hprogress : Progress s a.tid phase) (hmove : Move hashtext a s s') :
    (∃ phase', s'.txs a.tid = .seeding settings phase' ∧ Progress s' a.tid phase') ∨
      s'.txs a.tid = .ended := by
  have htxs : ∀ tx, Function.update s.txs a.tid tx a.tid = tx := fun tx => Function.update_self ..
  cases hmove with
  | lookup ht hlookup =>
    cases hcaller.symm.trans ht
    exact .inl ⟨_, htxs _, hprogress.lookup hlookup⟩
  | insertProject ht _ _ _ =>
    cases hcaller.symm.trans ht
    exact .inl ⟨_, htxs _, fun _ _ stage hstage => absurd stage.mem_all hstage⟩
  | @insert _ t _ projectId stage stages fresh ht hfresh =>
    cases hcaller.symm.trans ht
    obtain ⟨hnone, hheld, -⟩ := h.used fresh.id hfresh
    have hnext : Progress (s.addEndpoint t fresh.id (stage.row settings projectId fresh)) t
        (.finding projectId stages) := by
      refine hprogress.found rfl rfl ?_ fun marker hm =>
        ⟨fresh.id, _, Table.visible_of_held Table.write_held_self, rfl,
          (Stage.mem_row_iff (Stage.marker_mem hm) stage).2 hm⟩
      rintro marker ⟨k, hk⟩
      refine ⟨k, ?_⟩
      have hne : k ≠ fresh.id := by
        rintro rfl
        obtain ⟨row, hrow, -⟩ := hk
        have hnone' : s.endpoints.visible t fresh.id = none :=
          (Table.visible_of_unheld hheld).trans hnone
        cases hnone'.symm.trans hrow
      rwa [State.addEndpoint, Table.visible_write_of_ne hne]
    split_ifs
    · exact .inl ⟨_, htxs _, hnext⟩
    · exact .inl ⟨_, htxs _, hnext⟩
  | @sync _ t _ projectId k stages now row ht hfree hrow =>
    cases hcaller.symm.trans ht
    refine .inl ⟨_, htxs _, ?_⟩
    rintro _ ⟨⟩ stage hstage marker hm
    obtain ⟨k', hk'⟩ := hprogress projectId rfl stage hstage marker hm
    refine ⟨k', ?_⟩
    rcases eq_or_ne k' k with rfl | hne
    · obtain ⟨r, hr, hp, hmem⟩ := hk'
      obtain rfl := Option.some.inj (hrow.symm.trans hr)
      exact ⟨_, Table.visible_of_held Table.write_held_self, hp, hmem⟩
    · show Carries ((s.endpoints.write t k _).visible t k') projectId marker
      rwa [Table.visible_write_of_ne hne]
  | commit => exact .inr (htxs _)
  | rollback => exact .inr (htxs _)
  | lock ht _ => cases hcaller.symm.trans ht
  | createProject ht _ _ _ => cases hcaller.symm.trans ht
  | createEndpoint ht _ => cases hcaller.symm.trans ht
  | select ht => cases hcaller.symm.trans ht
  | update ht _ _ => cases hcaller.symm.trans ht
  | delete ht _ _ _ => cases hcaller.symm.trans ht
  | gone ht => cases hcaller.symm.trans ht

/-- **A step keeps what the caller has found**, its own steps and those of the others. -/
theorem progress_step {a : Act} {settings : SeedSettings} (h : Inv hashtext none s)
    (hprogress : (∃ phase, s.txs t = .seeding settings phase ∧ Progress s t phase) ∨
      s.txs t = .ended)
    (hok : Untouched t settings a s) (hs : step hashtext a s = some s') :
    (∃ phase, s'.txs t = .seeding settings phase ∧ Progress s' t phase) ∨ s'.txs t = .ended := by
  by_cases ha : t = a.tid
  · subst ha
    rcases hprogress with ⟨phase, ht, hprogress⟩ | ht
    · exact progress_move h ht hprogress (move_of_step hs)
    · simp [step, ht] at hs
  · obtain ⟨htxs, hvisible⟩ := unseen_of_move h (move_of_step hs) ha
    rw [htxs]
    refine hprogress.imp_left fun ⟨phase, ht, hprogress⟩ => ⟨phase, ht, ?_⟩
    intro projectId hp stage hstage marker hm
    have hfound := hprogress projectId hp stage hstage marker hm
    rcases hvisible with hvisible | ⟨hcommit, rfl⟩
    · exact hfound.of_visible hvisible
    · rw [hcommit] at hok
      exact hfound.commit h (Stage.marker_mem hm)
        (SeedingInv.project (h.txOf ht) projectId hp).1 hok ha

theorem exists_stage {marker : PyStr} (hm : marker ∈ markers) :
    ∃ stage : Stage, stage.marker? = some marker := by
  simp only [markers, List.mem_cons, List.not_mem_nil, or_false] at hm
  obtain rfl | rfl | rfl := hm
  · exact ⟨.receiver, rfl⟩
  · exact ⟨.bankNaive, rfl⟩
  · exact ⟨.bankSafe, rfl⟩

/-- A committed seeding whose run nothing touches leaves an endpoint for each marker. -/
theorem exists_of_committed {settings : SeedSettings} (h : Inv hashtext none s)
    (hlock : step hashtext (.lock t settings) s = some s₁)
    (hrun : (seeding hashtext).Steps (Untouched t settings) s₁ s₂)
    (hcommit : step hashtext (.commit t) s₂ = some s₃) :
    ∃ projectId, s₃.projects.rows settings.showcaseProjectName = some projectId ∧
      ∀ marker ∈ markers, ∃ k, Carries (s₃.endpoints.rows k) projectId marker ∧
        s₃.health.rows k ≠ none := by
  have hstart : s₁.txs t = .seeding settings .locked := by
    unfold step at hlock
    split at hlock
    · obtain ⟨-, ⟨⟩⟩ := Option.ite_none_right_eq_some.1 hlock
      exact Function.update_self ..
    all_goals cases hlock
  have hinv := hrun.invariant
    (P := fun s => Inv hashtext none s ∧
      ((∃ phase, s.txs t = .seeding settings phase ∧ Progress s t phase) ∨ s.txs t = .ended))
    ⟨inv_step h hlock, .inl ⟨_, hstart, fun _ hp => by cases hp⟩⟩
    fun a s s' ⟨hinv, hprogress⟩ hok hs =>
      ⟨inv_step hinv hs, progress_step hinv hprogress hok hs⟩
  obtain ⟨hinv, ⟨phase, ht, hprogress⟩ | ht⟩ := hinv
  · have htx := hinv.txOf ht
    simp only [step, Act.tid, ht, stepSeeding] at hcommit
    split at hcommit
    · rename_i projectId
      obtain rfl := Option.some.inj hcommit
      refine ⟨projectId, (SeedingInv.project htx projectId rfl).1, fun marker hm => ?_⟩
      obtain ⟨stage, hstage⟩ := exists_stage hm
      obtain ⟨k, row, hrow, hp, hmem⟩ :=
        hprogress projectId rfl stage List.not_mem_nil marker hstage
      exact ⟨k, ⟨row, hrow, hp, hmem⟩, (hinv.visible_marked hrow ⟨marker, hm, hmem⟩).2⟩
    · cases hcommit
  · simp [step, Act.tid, ht] at hcommit

/-- **There is one endpoint for each marker.** In every committed state at most one endpoint of a
project has a given marker, the seeding has created it, and a lookup by the marker finds no second
one. A committed seeding during which no edit or deletion of such an endpoint commits leaves exactly
one endpoint for each of the three markers, with its health row. -/
theorem seeded_once (hashtext : PyStr → ℤ) (s : State) (h : (seeding hashtext).Reachable s) :
    (∀ projectId, ∀ marker ∈ markers, ∀ k k', Carries (s.endpoints.rows k) projectId marker →
      Carries (s.endpoints.rows k') projectId marker → k = k') ∧
    (∀ k row, s.endpoints.rows k = some row → Marked row → k ∈ s.seeded) ∧
    (∀ t projectId stage marker, Stage.marker? stage = some marker →
      (s.select t (stage.finds projectId)).length ≤ 1) ∧
    ∀ t settings s₁ s₂ s₃, step hashtext (.lock t settings) s = some s₁ →
      (seeding hashtext).Steps (Untouched t settings) s₁ s₂ →
      step hashtext (.commit t) s₂ = some s₃ →
      ∃ projectId, s₃.projects.rows settings.showcaseProjectName = some projectId ∧
        ∀ marker ∈ markers, ∃ k, Carries (s₃.endpoints.rows k) projectId marker ∧
          s₃.health.rows k ≠ none ∧
          ∀ k', Carries (s₃.endpoints.rows k') projectId marker → k' = k := by
  have hinv := inv_of_reachable h
  refine ⟨fun projectId marker hm k k' hk hk' =>
    hinv.unique projectId marker hm k k' (.inl hk) (.inl hk'), hinv.seeded,
    fun t projectId stage marker hstage => ?_,
    fun t settings s₁ s₂ s₃ hlock hrun hcommit => ?_⟩
  · have hnodup : (s.select t (stage.finds projectId)).Nodup := hinv.nodup.filter _
    have hcand : ∀ k ∈ s.select t (stage.finds projectId), s.Candidate projectId marker k := by
      intro k hk
      obtain ⟨-, row, hrow, hfinds⟩ := mem_select_iff.1 hk
      obtain ⟨hp, hmem⟩ := (Stage.finds_iff hstage).1 hfinds
      exact candidate_of_visible hrow hp hmem
    match hl : s.select t (stage.finds projectId) with
    | [] => exact Nat.zero_le 1
    | [_] => exact le_rfl
    | k :: k' :: l =>
      rw [hl] at hnodup hcand
      have heq : k = k' := hinv.unique projectId marker (Stage.marker_mem hstage) k k'
        (hcand k List.mem_cons_self) (hcand k' (List.mem_cons_of_mem k List.mem_cons_self))
      rw [heq] at hnodup
      exact absurd List.mem_cons_self (List.nodup_cons.1 hnodup).1
  · obtain ⟨projectId, hproject, hall⟩ := exists_of_committed hinv hlock hrun hcommit
    refine ⟨projectId, hproject, fun marker hm => ?_⟩
    obtain ⟨k, hk, hhealth⟩ := hall marker hm
    have hinv₂ : Inv hashtext none s₂ :=
      hrun.invariant (inv_step hinv hlock) fun _ _ _ hi _ hs => inv_step hi hs
    exact ⟨k, hk, hhealth, fun k' hk' =>
      (inv_step hinv₂ hcommit).unique projectId marker hm k' k (.inl hk') (.inl hk)⟩

/-- What a new row with an id draws. -/
def sampleFresh (n : ℕ) : Fresh := ⟨.ofNat n, sampleSecret, 0, .epoch⟩

def sampleSettings : SeedSettings :=
  ⟨PyStr.ofString "showcase", PyStr.ofString "https://hookit.example/", [], []⟩

/-- An update that subscribes to the ticks. -/
def tickUpdate : EndpointUpdate :=
  ⟨none, some ⟨[priceTick], List.cons_ne_nil _ _, rfl⟩, none, none, none⟩

/-- A seeding, and an edit that takes the naive bank's marker away. -/
def seededAndEdited : List Act :=
  [.lock 0 sampleSettings, .findProject 0, .insertProject 0 (.ofNat 1),
    .find 0, .insert 0 (sampleFresh 2), .find 0, .find 0, .insert 0 (sampleFresh 3),
    .find 0, .insert 0 (sampleFresh 4), .commit 0,
    .selectEndpoint 1 (.ofNat 1) (.ofNat 3), .updateEndpoint 1 tickUpdate 0, .commit 1]

/-- A seeding that finds two endpoints and creates a naive bank. -/
def reseeding : List Act :=
  [.findProject 2, .find 2, .find 2, .find 2, .insert 2 (sampleFresh 5), .find 2]

/-- The second seeding makes up for the edit. -/
theorem seeded_once_again : ∃ s, (seeding fun _ => 0).Reachable s ∧
    ∃ projectId, s.projects.rows sampleSettings.showcaseProjectName = some projectId ∧
      ∀ marker ∈ markers, ∃ k, Carries (s.endpoints.rows k) projectId marker ∧
        s.health.rows k ≠ none ∧
        ∀ k', Carries (s.endpoints.rows k') projectId marker → k' = k := by
  have hrun : (((seeding fun _ => 0).run seededAndEdited init).bind fun s =>
      (step (fun _ => 0) (.lock 2 sampleSettings) s).bind fun s₁ =>
      ((seeding fun _ => 0).run reseeding s₁).bind fun s₂ =>
      step (fun _ => 0) (.commit 2) s₂).isSome = true := by
    decide +kernel
  obtain ⟨s₃, hrun⟩ := Option.isSome_iff_exists.1 hrun
  simp only [Option.bind_eq_some_iff] at hrun
  obtain ⟨s, hs, s₁, hlock, s₂, hreseeding, hcommit⟩ := hrun
  have hreach : (seeding fun _ => 0).Reachable s :=
    Machine.steps_of_run (fun _ _ _ => trivial) hs
  have huntouched : (seeding fun _ => 0).Steps (Untouched 2 sampleSettings) s₁ s₂ := by
    refine Machine.steps_of_run (fun a ha s t' k row hcommit => ?_) hreseeding
    rw [hcommit] at ha
    simp [reseeding] at ha
  refine ⟨s₃, ?_, (seeded_once (fun _ => 0) s hreach).2.2.2 2 sampleSettings s₁ s₂ s₃ hlock
    huntouched hcommit⟩
  exact ((hreach.tail trivial hlock).trans (huntouched.mono fun _ _ _ => trivial)).tail trivial
    hcommit

end Hookit.Seeding
