import Hookit.Engine.Lifecycle
import Hookit.Engine.Moves

/-!
# The engine runs lifecycles

The connection of the engine to the lifecycle of a single delivery. The dossiers of a state are
those of the committed rows with their committed attempts and journal, and those of the uncommitted
versions together with what their holders have done to them. `Inv L` says that they all meet a
condition `L`, and that the committed rows are at rest; `Inv.move` that a step keeps it if `L`
holds of a new dossier and survives the transitions that the step's action makes. With
`Lifecycle cfg` for `L` this says that every dossier of a reachable state is one of a lifecycle
(`inv_of_reachable`).

Row locks carry the argument. An open transaction has touched only rows that it holds
(`TxInv.inserted`, `TxInv.trail`), so a transition that it adds extends the dossier of a row that
no one else is changing. A claimed delivery stays in flight exactly while the loop of its tick has
yet to process it (`TxInv.version`, `Phase.busy`); the loop must be through before the commit.
-/

namespace Hookit.Engine

open Foundations

variable {π : Type} {lib : UrlLib} {cfg : Settings} {L : DeliveryId → Dossier → Prop}

/-! ## One delivery's share -/

/-- The attempts of delivery `d`. -/
def attemptsOf (d : DeliveryId) (l : List DeliveryAttempt) : List DeliveryAttempt :=
  l.filter fun a => a.deliveryId = d

/-- The transitions of delivery `d`. -/
def historyOf (d : DeliveryId) (l : List (DeliveryId × Transition)) : List Transition :=
  (l.filter fun p => p.1 = d).map Prod.snd

@[simp] theorem attemptsOf_nil (d : DeliveryId) : attemptsOf d [] = [] := rfl

@[simp] theorem attemptsOf_append (d : DeliveryId) (l l' : List DeliveryAttempt) :
    attemptsOf d (l ++ l') = attemptsOf d l ++ attemptsOf d l' := List.filter_append ..

@[simp] theorem historyOf_append (d : DeliveryId) (l l' : List (DeliveryId × Transition)) :
    historyOf d (l ++ l') = historyOf d l ++ historyOf d l' := by
  simp [historyOf]

theorem attemptsOf_eq_nil {d : DeliveryId} {l : List DeliveryAttempt}
    (h : ∀ a ∈ l, a.deliveryId ≠ d) : attemptsOf d l = [] := by
  simpa [attemptsOf] using h

theorem historyOf_eq_nil {d : DeliveryId} {l : List (DeliveryId × Transition)}
    (h : ∀ p ∈ l, p.1 ≠ d) : historyOf d l = [] := by
  simpa [historyOf] using fun a b hab => h (a, b) hab

theorem mem_historyOf {d : DeliveryId} {l : List (DeliveryId × Transition)} {tr : Transition} :
    tr ∈ historyOf d l ↔ (d, tr) ∈ l := by
  simp [historyOf]

@[simp] theorem historyOf_singleton (d : DeliveryId) (tr : Transition) :
    historyOf d [(d, tr)] = [tr] := by
  simp [historyOf]

theorem attemptsOf_singleton {d : DeliveryId} {a : DeliveryAttempt} (h : a.deliveryId = d) :
    attemptsOf d [a] = [a] := by
  simp [attemptsOf, h]

/-- A statement that changes several rows makes one transition of each. -/
theorem historyOf_map {d : DeliveryId} {ds : List DeliveryId} {tr : Transition} (hnodup : ds.Nodup)
    (hd : d ∈ ds) : historyOf d (ds.map fun d => (d, tr)) = [tr] := by
  have hfilter : ds.filter (fun x => x = d) = [d] := by
    rw [List.filter_eq, List.count_eq_one_of_mem hnodup hd]
    rfl
  simp only [historyOf, List.filter_map, Function.comp_def, hfilter, List.map_cons, List.map_nil]

/-- The dossier of delivery `d` with row `r`, as transaction `tx` has made it. -/
def State.dossier (s : State π) (tx : Tx) (d : DeliveryId) (r : Delivery) : Dossier :=
  ⟨r, attemptsOf d (s.attempts ++ tx.inserted), historyOf d (s.journal ++ tx.trail)⟩

/-- The committed dossier of delivery `d` with row `r`. -/
def State.committed (s : State π) (d : DeliveryId) (r : Delivery) : Dossier :=
  ⟨r, attemptsOf d s.attempts, historyOf d s.journal⟩

/-! ## The invariant -/

/-- The claimed deliveries that the transaction has yet to process. -/
def Phase.busy : Phase → List DeliveryId
  | .working (.tick todo) => todo
  | .posting (.tick todo) d _ => d :: todo
  | _ => []

/-- The delivery that the transaction fast-forwards. -/
def Phase.target : Phase → Option DeliveryId
  | .working (.fastForward d _) => some d
  | .posting (.fastForward d _) _ _ => some d
  | _ => none

/-- What holds of an open transaction. -/
structure TxInv (L : DeliveryId → Dossier → Prop) (s : State π) (t : Tid) (tx : Tx) : Prop where
  /-- It has touched only rows that it holds. -/
  inserted : ∀ a ∈ tx.inserted, s.deliveries.Holds t a.deliveryId
  trail : ∀ p ∈ tx.trail, s.deliveries.Holds t p.1
  version : ∀ d v, s.deliveries.held d = some (t, v) → ∃ r, v = some r ∧
    L d (s.dossier tx d r) ∧
    if d ∈ tx.phase.busy then r.status = .inFlight else r.AtRest
  busy : ∀ d ∈ tx.phase.busy, s.deliveries.Holds t d
  nodup : tx.phase.busy.Nodup
  target : ∀ d, tx.phase.target = some d → s.deliveries.Holds t d ∧ (d, .locked) ∈ tx.trail
  posting : ∀ job d post, tx.phase = .posting job d post → ∃ r,
    s.deliveries.held d = some (t, some r) ∧ (s.dossier tx d r).Attemptable

/-- The invariant of the engine. -/
structure Inv (L : DeliveryId → Dossier → Prop) (s : State π) : Prop where
  rows : ∀ d r, s.deliveries.rows d = some r → L d (s.committed d r) ∧ r.AtRest
  fresh : ∀ d, s.deliveries.rows d = none →
    attemptsOf d s.attempts = [] ∧ historyOf d s.journal = []
  running : ∀ t tx, s.txs t = .running tx → TxInv L s t tx
  held : ∀ d t v, s.deliveries.held d = some (t, v) → ∃ tx, s.txs t = .running tx

section Transactions

variable {s s' : State π} {t : Tid} {tx tx' : Tx} {d : DeliveryId} {r : Delivery}

/-- Another transaction's step does not touch what transaction `t` depends on. -/
theorem TxInv.frame (h : TxInv L s t tx)
    (hheld : ∀ d v, s'.deliveries.held d = some (t, v) ↔ s.deliveries.held d = some (t, v))
    (hshare : ∀ d, s.deliveries.Holds t d → attemptsOf d s'.attempts = attemptsOf d s.attempts ∧
      historyOf d s'.journal = historyOf d s.journal) : TxInv L s' t tx := by
  have hholds : ∀ d, s'.deliveries.Holds t d ↔ s.deliveries.Holds t d := fun d =>
    exists_congr fun v => hheld d v
  have hdossier : ∀ d r, s.deliveries.Holds t d → s'.dossier tx d r = s.dossier tx d r := by
    intro d r hd
    simp [State.dossier, hshare d hd]
  exact
    { inserted := fun a ha => (hholds _).2 (h.inserted a ha)
      trail := fun p hp => (hholds _).2 (h.trail p hp)
      version := fun d v hv => by
        have hv' := (hheld d v).1 hv
        obtain ⟨r, rfl, hdos, hstatus⟩ := h.version d v hv'
        exact ⟨r, rfl, hdossier d r ⟨_, hv'⟩ ▸ hdos, hstatus⟩
      busy := fun d hd => (hholds d).2 (h.busy d hd)
      nodup := h.nodup
      target := fun d hd => ⟨(hholds d).2 (h.target d hd).1, (h.target d hd).2⟩
      posting := fun job d post hphase => by
        obtain ⟨r, hr, hatt⟩ := h.posting job d post hphase
        exact ⟨r, (hheld d _).2 hr, hdossier d r ⟨_, hr⟩ ▸ hatt⟩ }

/-- A transaction that has not begun holds nothing. -/
theorem Inv.not_holds_of_unused (h : Inv L s) (ht : s.txs t = .unused) :
    ¬ s.deliveries.Holds t d := by
  rintro ⟨v, hv⟩
  obtain ⟨tx, htx⟩ := h.held d t v hv
  rw [ht] at htx
  cases htx

/-- The state in which a transaction takes its first statement. -/
theorem Inv.blank (h : Inv L s) (ht : s.txs t = .unused) (worker : PyStr) :
    TxInv L s t ⟨.recovered, worker, [], []⟩ where
  inserted := nofun
  trail := nofun
  version _ v hv := absurd ⟨v, hv⟩ (h.not_holds_of_unused ht)
  busy := nofun
  nodup := .nil
  target := nofun
  posting := nofun

/-- Where the transaction does not hold the row, it has done nothing to it. -/
theorem TxInv.dossier_of_not_holds (h : TxInv L s t tx) (hd : ¬ s.deliveries.Holds t d) :
    s.dossier tx d r = s.committed d r := by
  have hatt : attemptsOf d tx.inserted = [] :=
    attemptsOf_eq_nil fun a ha heq => hd (heq ▸ h.inserted a ha)
  have hhist : historyOf d tx.trail = [] :=
    historyOf_eq_nil fun p hp heq => hd (heq ▸ h.trail p hp)
  simp [State.dossier, State.committed, hatt, hhist]

/-- **What a transaction finds in a row.** -/
theorem Inv.sees (h : Inv L s) (htx : TxInv L s t tx)
    (hr : s.deliveries.visible t d = some r) : L d (s.dossier tx d r) ∧
      if d ∈ tx.phase.busy then r.status = .inFlight else r.AtRest := by
  by_cases hd : s.deliveries.Holds t d
  · obtain ⟨v, hv⟩ := hd
    obtain ⟨r', rfl, hsees⟩ := htx.version d v hv
    rw [Table.visible_of_held hv] at hr
    exact Option.some.inj hr ▸ hsees
  · rw [Table.visible_of_not_holds hd] at hr
    rw [htx.dossier_of_not_holds hd, if_neg fun hbusy => hd (htx.busy d hbusy)]
    exact h.rows d r hr

theorem State.selects_iff {p : Delivery → Bool} : s.selects t p d = true ↔
    s.deliveries.free t d = true ∧ ∃ r, s.deliveries.visible t d = some r ∧ p r = true := by
  cases hv : s.deliveries.visible t d <;> simp [State.selects, hv]

/-! ## Steps of one transaction -/

/-- **What a transaction must show of a statement that changes the rows `ds`.** -/
theorem TxInv.touch (h : TxInv L s t tx) {T : Table Tid DeliveryId Delivery}
    (ds : List DeliveryId) {as : List DeliveryAttempt} {trs : List (DeliveryId × Transition)}
    (hinserted : tx'.inserted = tx.inserted ++ as) (has : ∀ a ∈ as, a.deliveryId ∈ ds)
    (htrail : tx'.trail = tx.trail ++ trs) (htrs : ∀ p ∈ trs, p.1 ∈ ds)
    (hother : ∀ d ∉ ds, T.held d = s.deliveries.held d)
    (hnew : ∀ d ∈ ds, ∃ r, T.held d = some (t, some r) ∧
      L d ⟨r, (s.dossier tx d r).attempts ++ attemptsOf d as,
        (s.dossier tx d r).history ++ historyOf d trs⟩ ∧
      if d ∈ tx'.phase.busy then r.status = .inFlight else r.AtRest)
    (hbusy : ∀ d ∉ ds, d ∈ tx'.phase.busy ↔ d ∈ tx.phase.busy) (hnodup : tx'.phase.busy.Nodup)
    (htarget : ∀ d, tx'.phase.target = some d → tx.phase.target = some d ∨
      (d ∈ ds ∧ (d, .locked) ∈ trs))
    (hposting : ∀ job d post, tx'.phase = .posting job d post → ∃ r,
      T.held d = some (t, some r) ∧ (s.dossier tx d r).Attemptable) :
    TxInv L (s.put t T tx') t tx' := by
  have hdossier : ∀ d r, (s.put t T tx').dossier tx' d r = ⟨r,
      (s.dossier tx d r).attempts ++ attemptsOf d as,
      (s.dossier tx d r).history ++ historyOf d trs⟩ := by
    intro d r
    simp [State.dossier, State.put, hinserted, htrail]
  have holds : ∀ d, d ∈ ds ∨ s.deliveries.Holds t d → T.Holds t d := by
    intro d hd
    by_cases hmem : d ∈ ds
    · obtain ⟨r, hr, -⟩ := hnew d hmem
      exact ⟨_, hr⟩
    · obtain ⟨v, hv⟩ := hd.resolve_left hmem
      exact ⟨v, (hother d hmem).trans hv⟩
  refine ⟨?inserted, ?trail, ?version, ?busy, hnodup, ?target, ?posting⟩
  case inserted =>
    intro a ha
    rw [hinserted] at ha
    rcases List.mem_append.1 ha with ha | ha
    · exact holds _ (.inr (h.inserted a ha))
    · exact holds _ (.inl (has a ha))
  case trail =>
    intro p hp
    rw [htrail] at hp
    rcases List.mem_append.1 hp with hp | hp
    · exact holds _ (.inr (h.trail p hp))
    · exact holds _ (.inl (htrs p hp))
  case version =>
    intro d v hv
    have hv' : T.held d = some (t, v) := hv
    by_cases hmem : d ∈ ds
    · obtain ⟨r, hr, hdos⟩ := hnew d hmem
      rw [hr] at hv'
      obtain ⟨-, rfl⟩ := Prod.mk.inj (Option.some.inj hv')
      exact ⟨r, rfl, hdossier d r ▸ hdos⟩
    · rw [hother d hmem] at hv'
      obtain ⟨r, rfl, hdos, hstatus⟩ := h.version d v hv'
      have has' : attemptsOf d as = [] :=
        attemptsOf_eq_nil fun a ha heq => hmem (heq ▸ has a ha)
      have htrs' : historyOf d trs = [] :=
        historyOf_eq_nil fun p hp heq => hmem (heq ▸ htrs p hp)
      refine ⟨r, rfl, ?_, ?_⟩
      · rw [hdossier, has', htrs', List.append_nil, List.append_nil]
        exact hdos
      · simp only [hbusy d hmem]
        exact hstatus
  case busy =>
    intro d hd
    by_cases hmem : d ∈ ds
    · exact holds d (.inl hmem)
    · exact holds d (.inr (h.busy d ((hbusy d hmem).1 hd)))
  case target =>
    intro d hd
    rw [htrail]
    rcases htarget d hd with htgt | ⟨hmem, htr⟩
    · exact ⟨holds d (.inr (h.target d htgt).1), List.mem_append_left _ (h.target d htgt).2⟩
    · exact ⟨holds d (.inl hmem), List.mem_append_right _ htr⟩
  case posting =>
    intro job d post hphase
    obtain ⟨r, hr, hatt⟩ := hposting job d post hphase
    refine ⟨r, hr, hatt.imp_right (And.imp_left fun hlocked => ?_)⟩
    rw [hdossier]
    exact List.mem_append_left _ hlocked

/-- **A statement of one transaction keeps the invariant** if it keeps the transaction's own. -/
theorem Inv.put (h : Inv L s) {T : Table Tid DeliveryId Delivery}
    (hT : s.deliveries.Statement t T) (htx : TxInv L (s.put t T tx) t tx) :
    Inv L (s.put t T tx) := by
  refine ⟨?rows, ?fresh, ?running, ?held⟩
  case rows =>
    intro d r hr
    exact h.rows d r (hT.rows ▸ hr)
  case fresh =>
    intro d hd
    exact h.fresh d (hT.rows ▸ hd)
  case running =>
    intro t' tx' ht'
    rcases State.running_put.1 ht' with ⟨rfl, rfl⟩ | ⟨hne, ht⟩
    · exact htx
    · exact (h.running t' tx' ht).frame (fun d v => hT.held_iff hne) fun _ _ => ⟨rfl, rfl⟩
  case held =>
    intro d t' v hv
    by_cases hne : t' = t
    · exact ⟨tx, State.running_put.2 (.inl ⟨hne, rfl⟩)⟩
    · obtain ⟨tx', htx'⟩ := h.held d t' v ((hT.held_iff hne).1 hv)
      exact ⟨tx', State.running_put.2 (.inr ⟨hne, htx'⟩)⟩

/-- The two together. -/
theorem Inv.touch (h : Inv L s) (htx : TxInv L s t tx) {T : Table Tid DeliveryId Delivery}
    (hT : s.deliveries.Statement t T) (ds : List DeliveryId)
    {as : List DeliveryAttempt} {trs : List (DeliveryId × Transition)}
    (hinserted : tx'.inserted = tx.inserted ++ as) (has : ∀ a ∈ as, a.deliveryId ∈ ds)
    (htrail : tx'.trail = tx.trail ++ trs) (htrs : ∀ p ∈ trs, p.1 ∈ ds)
    (hother : ∀ d ∉ ds, T.held d = s.deliveries.held d)
    (hnew : ∀ d ∈ ds, ∃ r, T.held d = some (t, some r) ∧
      L d ⟨r, (s.dossier tx d r).attempts ++ attemptsOf d as,
        (s.dossier tx d r).history ++ historyOf d trs⟩ ∧
      if d ∈ tx'.phase.busy then r.status = .inFlight else r.AtRest)
    (hbusy : ∀ d ∉ ds, d ∈ tx'.phase.busy ↔ d ∈ tx.phase.busy) (hnodup : tx'.phase.busy.Nodup)
    (htarget : ∀ d, tx'.phase.target = some d → tx.phase.target = some d ∨
      (d ∈ ds ∧ (d, .locked) ∈ trs))
    (hposting : ∀ job d post, tx'.phase = .posting job d post → ∃ r,
      T.held d = some (t, some r) ∧ (s.dossier tx d r).Attemptable) :
    Inv L (s.put t T tx') :=
  h.put hT (htx.touch ds hinserted has htrail htrs hother hnew hbusy hnodup htarget hposting)

/-! ## The moves -/

theorem State.next_cases {job job' : Job} (h : s.next t job = some (d, job')) :
    (∃ todo, job = .tick (d :: todo) ∧ job' = .tick todo) ∨
    (∃ rounds, job = .fastForward d (rounds + 1) ∧ job' = .fastForward d rounds ∧
      ∀ r, s.deliveries.visible t d = some r → r.status ≠ .deadLettered) := by
  cases job with
  | tick todo =>
    cases todo with
    | nil => cases h
    | cons d' todo =>
      cases h
      exact .inl ⟨todo, rfl, rfl⟩
  | fastForward d' rounds =>
    cases rounds with
    | zero => cases h
    | succ rounds =>
      simp only [State.next] at h
      split at h
      · split_ifs at h with hstatus
        cases h
        rename_i r' hr'
        refine .inr ⟨rounds, rfl, rfl, fun r hr => ?_⟩
        rw [hr'] at hr
        exact Option.some.inj hr ▸ hstatus
      · cases h

/-- **The delivery that the loop processes next is held and may be attempted.** -/
theorem Inv.next (h : Inv L s) (htx : TxInv L s t tx) {job job' : Job}
    (hphase : tx.phase = .working job) (hnext : s.next t job = some (d, job'))
    (hr : s.deliveries.visible t d = some r) : s.deliveries.held d = some (t, some r) ∧
      L d (s.dossier tx d r) ∧ (s.dossier tx d r).Attemptable := by
  obtain ⟨hdos, hstatus⟩ := h.sees htx hr
  rcases State.next_cases hnext with ⟨todo, rfl, rfl⟩ | ⟨rounds, rfl, rfl, hlive⟩
  · have hbusy : d ∈ tx.phase.busy := by simp [hphase, Phase.busy]
    obtain ⟨v, hv⟩ := htx.busy d hbusy
    rw [Table.visible_of_held hv] at hr
    rw [if_pos hbusy] at hstatus
    exact ⟨hr ▸ hv, hdos, .inl hstatus⟩
  · obtain ⟨⟨v, hv⟩, hlocked⟩ := htx.target d (by simp [hphase, Phase.target])
    have hvr := hr
    rw [Table.visible_of_held hv] at hvr
    refine ⟨hvr ▸ hv, hdos, .inr ⟨?_, hlive r hr⟩⟩
    exact mem_historyOf.2 (List.mem_append_right _ hlocked)

theorem Inv.beginIngest (h : Inv L s) (ht : s.txs t = .unused) (now : Time) :
    Inv L (s.put t s.deliveries ⟨.ingesting now, [], [], []⟩) :=
  h.touch (h.blank ht []) (.refl t _) [] rfl nofun rfl nofun (fun _ _ => rfl) nofun
    (fun _ _ => Iff.rfl) .nil nofun nofun

theorem Inv.read (h : Inv L s) (ht : s.txs t = .unused) (d : DeliveryId) :
    Inv L (s.put t s.deliveries ⟨.read d, [], [], []⟩) :=
  h.touch (h.blank ht []) (.refl t _) [] rfl nofun rfl nofun (fun _ _ => rfl) nofun
    (fun _ _ => Iff.rfl) .nil nofun nofun

theorem Inv.insertDelivery (h : Inv L s) (ht : s.txs t = .running tx) {now : Time}
    (hphase : tx.phase = .ingesting now) (hheld : s.deliveries.held d = none)
    (hrow : s.deliveries.rows d = none) (eventId : EventId) (endpointId : EndpointId)
    (hL : L d (.new eventId endpointId now)) :
    Inv L (s.put t (s.deliveries.write t d (some (.new eventId endpointId now)))
      { tx with trail := tx.trail ++ [(d, .created now)] }) := by
  have htx := h.running t tx ht
  refine h.touch htx (.write (Table.free_iff.2 (.inl hheld)) _) [d] (List.append_nil _).symm nofun
    rfl ?trs ?other ?new (fun _ _ => Iff.rfl) htx.nodup (fun _ htgt => .inl htgt) ?posting
  case trs => simp
  case other =>
    intro d' hd'
    exact Table.write_held_of_ne (List.ne_of_not_mem_cons hd')
  case new =>
    intro d' hd'
    obtain rfl := List.mem_singleton.1 hd'
    have hnot : ¬ s.deliveries.Holds t d' := fun ⟨v, hv⟩ => by rw [hheld] at hv; cases hv
    obtain ⟨hatt, hhist⟩ := h.fresh d' hrow
    refine ⟨_, Table.write_held_self, ?_, ?_⟩
    · rw [htx.dossier_of_not_holds hnot, State.committed, hatt, hhist, historyOf_singleton]
      exact hL
    · simp [hphase, Phase.busy, Delivery.AtRest, Delivery.new]
  case posting =>
    intro job d' post hposting
    rw [hphase] at hposting
    cases hposting

/-- The committed rows are at rest, so there are no expired leases to recover. -/
theorem Inv.recover (h : Inv L s) (ht : s.txs t = .unused) (worker : PyStr) {now : Time}
    {ds : List DeliveryId} (hsel : ∀ d ∈ ds, s.selects t (leaseExpired now) d = true) :
    Inv L (s.put t (s.deliveries.writeAll t ds recoverRow)
      ⟨.recovered, worker, [], ds.map fun d => (d, .recovered now)⟩) := by
  have hnil : ds = [] := by
    refine List.eq_nil_iff_forall_not_mem.2 fun d hd => ?_
    obtain ⟨-, r, hr, hexp⟩ := State.selects_iff.1 (hsel d hd)
    have hrest := (h.sees (h.blank ht worker) hr).2
    have hflight : r.status = .inFlight := by
      simp only [leaseExpired, Bool.decide_and, Bool.and_eq_true, decide_eq_true_eq] at hexp
      exact hexp.1
    exact Lifecycle.not_atRest_of_inFlight hflight hrest
  subst hnil
  exact h.touch (h.blank ht worker) (.writeAll nofun _) [] rfl nofun rfl nofun
    (fun _ _ => Table.writeAll_held_of_notMem nofun) nofun (fun _ _ => Iff.rfl) .nil nofun nofun

theorem Inv.claim (h : Inv L s) (ht : s.txs t = .running tx) (hphase : tx.phase = .recovered)
    {now : Time} {ds : List DeliveryId} (hnodup : ds.Nodup)
    (hsel : ∀ d ∈ ds, s.selects t (isDue now) d = true)
    (hL : ∀ d D D', L d D → Dossier.Step cfg d (.claimed now) D D' → L d D') :
    Inv L (s.put t (s.deliveries.writeAll t ds (claimRow cfg tx.worker now))
      { tx with
        phase := .working (.tick ds)
        trail := tx.trail ++ ds.map fun d => (d, .claimed now) }) := by
  have htx := h.running t tx ht
  refine h.touch htx (.writeAll (fun d hd => (State.selects_iff.1 (hsel d hd)).1) _) ds
    (List.append_nil _).symm nofun rfl ?trs (fun d hd => Table.writeAll_held_of_notMem hd) ?new
    ?busy hnodup nofun nofun
  case trs =>
    intro p hp
    obtain ⟨d, hd, rfl⟩ := List.mem_map.1 hp
    exact hd
  case new =>
    intro d hd
    obtain ⟨-, r, hr, hdue⟩ := State.selects_iff.1 (hsel d hd)
    have hdos := (h.sees htx hr).1
    refine ⟨claimRow cfg tx.worker now r, ?_, ?_, ?_⟩
    · rw [Table.writeAll_held_of_mem hd, hr]
      rfl
    · rw [historyOf_map hnodup hd, attemptsOf_nil, List.append_nil]
      exact hL d _ _ hdos (.claimed tx.worker hdue)
    · simp [Phase.busy, hd, claimRow]
  case busy =>
    intro d hd
    simp [Phase.busy, hphase, hd]

theorem Inv.lock (h : Inv L s) (ht : s.txs t = .unused) (worker : PyStr)
    (hsel : s.selects t (fun _ => true) d = true) (rounds : ℕ)
    (hL : ∀ D D', L d D → Dossier.Step cfg d .locked D D' → L d D') :
    Inv L (s.put t (s.deliveries.writeAll t [d] id)
      ⟨.working (.fastForward d rounds), worker, [], [(d, .locked)]⟩) := by
  have hblank := h.blank ht worker
  obtain ⟨hfree, r, hr, -⟩ := State.selects_iff.1 hsel
  obtain ⟨hdos, hrest⟩ := h.sees hblank hr
  refine h.touch hblank (.writeAll (List.forall_mem_singleton.2 hfree) _) [d] rfl nofun rfl
    (List.forall_mem_singleton.2 (List.mem_singleton_self d))
    (fun d' hd' => Table.writeAll_held_of_notMem hd') (List.forall_mem_singleton.2 ⟨r, ?_, ?_, hrest⟩)
    (fun _ _ => Iff.rfl) .nil ?target nofun
  · rw [Table.writeAll_held_of_mem (List.mem_singleton_self d), hr]
    rfl
  · rw [historyOf_singleton, attemptsOf_nil, List.append_nil]
    exact hL _ _ hdos (.locked hrest)
  case target =>
    intro d' hd'
    obtain rfl := Option.some.inj hd'
    exact .inr ⟨List.mem_singleton_self d, List.mem_singleton_self _⟩

theorem Inv.update (h : Inv L s) (ht : s.txs t = .running tx) (hphase : tx.phase = .read d)
    (now : Time) (hsel : s.selects t (fun _ => true) d = true)
    (hL : ∀ D D', L d D → Dossier.Step cfg d (.redriven now) D D' → L d D') :
    Inv L (s.put t (s.deliveries.writeAll t [d] (redriveRow now))
      { tx with phase := .updated d, trail := tx.trail ++ [(d, .redriven now)] }) := by
  have htx := h.running t tx ht
  obtain ⟨hfree, r, hr, -⟩ := State.selects_iff.1 hsel
  obtain ⟨hdos, hrest⟩ := h.sees htx hr
  rw [if_neg (by simp [hphase, Phase.busy])] at hrest
  refine h.touch htx (.writeAll (List.forall_mem_singleton.2 hfree) _) [d]
    (List.append_nil _).symm nofun rfl (List.forall_mem_singleton.2 (List.mem_singleton_self d))
    (fun d' hd' => Table.writeAll_held_of_notMem hd')
    (List.forall_mem_singleton.2 ⟨redriveRow now r, ?_, ?_, .inl rfl⟩)
    (fun _ _ => by simp [hphase, Phase.busy]) .nil nofun nofun
  · rw [Table.writeAll_held_of_mem (List.mem_singleton_self d), hr]
    rfl
  · rw [historyOf_singleton, attemptsOf_nil, List.append_nil]
    exact hL _ _ hdos (.redriven hrest now)

/-- Processing a delivery takes it off the loop's list. -/
theorem State.next_phase {job job' : Job} (post : ℕ) (hphase : tx.phase = .working job)
    (hnext : s.next t job = some (d, job')) :
    tx.phase.busy = (Phase.posting job' d post).busy ∧
      tx.phase.target = (Phase.posting job' d post).target := by
  rcases State.next_cases hnext with ⟨todo, rfl, rfl⟩ | ⟨rounds, rfl, rfl, -⟩ <;>
    simp [hphase, Phase.busy, Phase.target]

theorem Phase.busy_posting {job : Job} {post : ℕ} (h : (Phase.posting job d post).busy.Nodup) :
    d ∉ (Phase.working job).busy ∧ (Phase.working job).busy.Nodup ∧
      ∀ d' ≠ d, d' ∈ (Phase.working job).busy ↔ d' ∈ (Phase.posting job d post).busy := by
  cases job with
  | tick todo =>
    obtain ⟨hnotMem, hnodup⟩ := List.nodup_cons.1 h
    exact ⟨hnotMem, hnodup, fun d' hne => by simp [Phase.busy, hne]⟩
  | fastForward d' rounds => exact ⟨nofun, .nil, fun _ _ => Iff.rfl⟩

theorem Inv.post (h : Inv L s) (ht : s.txs t = .running tx) {job job' : Job}
    (hphase : tx.phase = .working job) (hnext : s.next t job = some (d, job'))
    (hr : s.deliveries.visible t d = some r) (post : ℕ) :
    Inv L (s.put t s.deliveries { tx with phase := .posting job' d post }) := by
  have htx := h.running t tx ht
  obtain ⟨hheld, -, hatt⟩ := h.next htx hphase hnext hr
  obtain ⟨hbusy, htarget⟩ := State.next_phase post hphase hnext
  refine h.touch htx (.refl t _) [] (List.append_nil _).symm nofun (List.append_nil _).symm nofun
    (fun _ _ => rfl) nofun (fun d' _ => by rw [hbusy]) (hbusy ▸ htx.nodup)
    (fun d' htgt => .inl (htarget.trans htgt)) ?posting
  case posting =>
    intro job'' d' post' heq
    cases heq
    exact ⟨r, hheld, hatt⟩

/-- **An attempt that leaves the row at rest keeps the invariant.** -/
theorem Inv.attempt (h : Inv L s) (ht : s.txs t = .running tx) {job : Job} {post : ℕ}
    (hbusy : tx.phase.busy = (Phase.posting job d post).busy)
    (htarget : tx.phase.target = (Phase.posting job d post).target)
    (hheld : s.deliveries.Holds t d) {row : Delivery} {a : DeliveryAttempt} {tr : Transition}
    (ha : a.deliveryId = d) (hrest : row.AtRest)
    (hdos : L d ⟨row, (s.dossier tx d row).attempts ++ [a],
      (s.dossier tx d row).history ++ [tr]⟩) :
    Inv L (s.put t (s.deliveries.write t d (some row))
      { tx with
        phase := .working job
        inserted := tx.inserted ++ [a]
        trail := tx.trail ++ [(d, tr)] }) := by
  have htx := h.running t tx ht
  obtain ⟨hnotMem, hnodup, hrest'⟩ := Phase.busy_posting (hbusy ▸ htx.nodup)
  refine h.touch htx (.write (Table.free_iff.2 (.inr hheld)) _) [d] rfl
    (List.forall_mem_singleton.2 (ha ▸ List.mem_singleton_self d)) rfl
    (List.forall_mem_singleton.2 (List.mem_singleton_self d))
    (fun d' hd' => Table.write_held_of_ne (List.ne_of_not_mem_cons hd'))
    (List.forall_mem_singleton.2 ⟨row, Table.write_held_self, ?_, ?_⟩)
    (fun d' hd' => ?_) hnodup (fun d' htgt => .inl ?_) nofun
  · rw [historyOf_singleton, attemptsOf_singleton ha]
    exact hdos
  · rw [if_neg hnotMem]
    exact hrest
  · rw [hbusy]
    exact hrest' d' (List.ne_of_not_mem_cons hd')
  · rw [htarget]
    cases job <;> exact htgt

theorem Inv.refuse (h : Inv L s) (ht : s.txs t = .running tx) {job job' : Job}
    (hphase : tx.phase = .working job) (hnext : s.next t job = some (d, job'))
    (hr : s.deliveries.visible t d = some r)
    (hL : ∀ D D', L d D → Dossier.Step cfg d .refused D D' → L d D') :
    Inv L (s.put t (s.deliveries.write t d
        (some { r with attemptCount := r.attemptCount + 1, status := .deadLettered }))
      { tx with
        phase := .working job'
        inserted := tx.inserted ++ [refusedAttempt d r tx.worker]
        trail := tx.trail ++ [(d, .refused)] }) := by
  obtain ⟨hheld, hdos, hatt⟩ := h.next (h.running t tx ht) hphase hnext hr
  obtain ⟨hbusy, htarget⟩ := State.next_phase 0 hphase hnext
  exact h.attempt ht hbusy htarget ⟨_, hheld⟩ rfl (.inr (.inr rfl))
    (hL _ _ hdos (.refused hatt tx.worker))

theorem Inv.answer (h : Inv L s) (ht : s.txs t = .running tx) {job : Job} {post : ℕ}
    (hphase : tx.phase = .posting job d post) (hr : s.deliveries.visible t d = some r)
    {answer : Answer} (durationMs : ℕ) {now : Time} {draw : Draw} {row : Delivery}
    (hdecide : decideDelivery cfg r answer now draw = .ok row)
    (hL : ∀ D D', L d D → s.deliveries.held d = some (t, some D.row) →
      Dossier.Step cfg d (.answered (D.row.attemptCount + 1) answer now) D D' → L d D') :
    Inv L (s.put t (s.deliveries.write t d (some row))
      { tx with
        phase := .working job
        inserted := tx.inserted ++ [answeredAttempt d r answer durationMs tx.worker]
        trail := tx.trail ++ [(d, .answered (r.attemptCount + 1) answer now)] }) := by
  have htx := h.running t tx ht
  obtain ⟨r', hheld, hatt⟩ := htx.posting job d post hphase
  obtain rfl : r' = r := by
    rw [Table.visible_of_held hheld] at hr
    exact Option.some.inj hr
  exact h.attempt ht (congrArg Phase.busy hphase) (congrArg Phase.target hphase) ⟨_, hheld⟩ rfl
    (decideDelivery_spec hdecide).2
    (hL (s.dossier tx d r') _ (h.sees htx hr).1 hheld (.answered hatt tx.worker durationMs hdecide))

/-- At the commit no claimed delivery is left. -/
theorem State.busy_of_finished (hfinished : s.finished t tx.phase = true) :
    tx.phase.busy = [] := by
  cases hphase : tx.phase with
  | working job =>
    rw [hphase] at hfinished
    cases job with
    | tick todo =>
      cases todo with
      | nil => rfl
      | cons d todo => cases hfinished
    | fastForward d rounds => rfl
  | posting job d post =>
    rw [hphase] at hfinished
    cases hfinished
  | _ => rfl

theorem Inv.commit (h : Inv L s) (ht : s.txs t = .running tx)
    (hfinished : s.finished t tx.phase = true) : Inv L (s.commit t tx) := by
  have htx := h.running t tx ht
  have hbusy := State.busy_of_finished hfinished
  have hshare : ∀ d, ¬ s.deliveries.Holds t d →
      attemptsOf d (s.commit t tx).attempts = attemptsOf d s.attempts ∧
      historyOf d (s.commit t tx).journal = historyOf d s.journal := by
    intro d hd
    have heq := htx.dossier_of_not_holds (r := .new 0 0 0) hd
    simp only [State.dossier, State.committed, Dossier.mk.injEq, true_and] at heq
    exact heq
  refine ⟨?rows, ?fresh, ?running, ?held⟩
  case rows =>
    intro d r hr
    obtain ⟨hdos, hstatus⟩ := h.sees htx hr
    rw [hbusy, if_neg List.not_mem_nil] at hstatus
    exact ⟨hdos, hstatus⟩
  case fresh =>
    intro d hd
    have hnot : ¬ s.deliveries.Holds t d := by
      rintro ⟨v, hv⟩
      obtain ⟨r, rfl, -⟩ := htx.version d v hv
      have hvis : s.deliveries.visible t d = none := hd
      rw [Table.visible_of_held hv] at hvis
      cases hvis
    obtain ⟨hatt, hhist⟩ := hshare d hnot
    rw [hatt, hhist]
    exact h.fresh d ((Table.commit_rows_of_not_holds hnot).symm.trans hd)
  case running =>
    intro t' tx' ht'
    obtain ⟨hne, ht''⟩ := State.running_commit.1 ht'
    refine (h.running t' tx' ht'').frame (fun d v => ?_) fun d hd => hshare d ?_
    · exact Table.commit_held_iff.trans (and_iff_left hne)
    · rintro ⟨v, hv⟩
      exact hne (hd.eq hv).symm
  case held =>
    intro d t' v hv
    obtain ⟨hv', hne⟩ := Table.commit_held_iff.1 hv
    obtain ⟨tx', ht'⟩ := h.held d t' v hv'
    exact ⟨tx', State.running_commit.2 ⟨hne, ht'⟩⟩

theorem Inv.rollback (h : Inv L s) (t : Tid) : Inv L (s.rollback t) := by
  refine ⟨h.rows, h.fresh, ?running, ?held⟩
  case running =>
    intro t' tx' ht'
    obtain ⟨hne, ht''⟩ := State.running_rollback.1 ht'
    exact (h.running t' tx' ht'').frame
      (fun d v => Table.rollback_held_iff.trans (and_iff_left hne)) fun _ _ => ⟨rfl, rfl⟩
  case held =>
    intro d t' v hv
    obtain ⟨hv', hne⟩ := Table.rollback_held_iff.1 hv
    obtain ⟨tx', ht'⟩ := h.held d t' v hv'
    exact ⟨tx', State.running_rollback.2 ⟨hne, ht'⟩⟩

/-- The invariant is about the rows, the attempts, the transactions and the journal only. -/
theorem Inv.congr (h : Inv L s) (posts : List (Post π)) (clock : Time) :
    Inv L { s with posts, clock } where
  rows := h.rows
  fresh := h.fresh
  running t tx ht := (h.running t tx ht).frame (fun _ _ => Iff.rfl) fun _ _ => ⟨rfl, rfl⟩
  held := h.held

end Transactions

/-- The invariant with a weaker condition. -/
theorem Inv.mono {L' : DeliveryId → Dossier → Prop} {s : State π} (h : Inv L s)
    (himp : ∀ d D, L d D → L' d D) : Inv L' s where
  rows d r hr := ⟨himp d _ (h.rows d r hr).1, (h.rows d r hr).2⟩
  fresh := h.fresh
  running t tx ht :=
    { h.running t tx ht with
      version := fun d v hv => by
        obtain ⟨r, hr, hdos, hstatus⟩ := (h.running t tx ht).version d v hv
        exact ⟨r, hr, himp d _ hdos, hstatus⟩ }
  held := h.held

/-- The transitions that action `a` can make in state `s` of delivery `d` with row `r`. -/
def Produces (a : Act π) (s : State π) (d : DeliveryId) (r : Delivery) : Transition → Prop
  | .created _ | .recovered _ => False
  | .claimed now => now ≤ s.clock
  | .locked => ∃ t worker, a = .lock t worker d
  | .refused => ∃ t endpoint event timestamp, a = .send t endpoint event timestamp
  | .answered n answer now => n = r.attemptCount + 1 ∧ now ≤ s.clock ∧
      ∃ t tx job post durationMs draw, a = .answer t answer durationMs now draw ∧
        s.txs t = .running tx ∧ tx.phase = .posting job d post ∧
        s.deliveries.held d = some (t, some r)
  | .redriven now => now ≤ s.clock ∧ ∃ t, a = .update t now

/-- **Every move keeps the invariant**, where the condition holds of the new dossiers and survives
the transitions that the action makes. -/
theorem Inv.move {a : Act π} {s s' : State π} (h : Inv L s) (hmove : Move lib cfg a s s')
    (hnew : ∀ t tx now, s.txs t = .running tx → tx.phase = .ingesting now →
      ∀ d eventId endpointId, L d (.new eventId endpointId now))
    (hL : ∀ d tr D D', L d D → Produces a s d D.row tr → Dossier.Step cfg d tr D D' → L d D') :
    Inv L s' := by
  cases hmove with
  | advance hnow => exact h.congr s.posts _
  | beginIngest ht hnow => exact h.beginIngest ht _
  | insertDelivery ht hphase hheld hrow =>
    exact h.insertDelivery ht hphase hheld hrow _ _ (hnew _ _ _ ht hphase _ _ _)
  | recover ht hnow hnodup hsel => exact h.recover ht _ hsel
  | claim ht hphase hnow hnodup hsel =>
    exact h.claim ht hphase hnodup hsel fun d D D' hD => hL d _ D D' hD hnow
  | lock ht hsel => exact h.lock ht _ hsel _ fun D D' hD => hL _ _ D D' hD ⟨_, _, rfl⟩
  | refuse ht hphase hnext hr hattempt =>
    exact h.refuse ht hphase hnext hr fun D D' hD => hL _ _ D D' hD ⟨_, _, _, _, rfl⟩
  | post ht hphase hnext hr hendpoint hevent hprepare =>
    exact (h.post ht hphase hnext hr s.posts.length).congr _ s.clock
  | answer ht hphase hr hnow hdecide hattempt =>
    exact h.answer ht hphase hr _ hdecide fun D D' hD hheld =>
      hL _ _ D D' hD ⟨rfl, hnow, _, _, _, _, _, _, rfl, ht, hphase, hheld⟩
  | read ht hr hstatus => exact h.read ht _
  | update ht hphase hnow hsel =>
    exact h.update ht hphase _ hsel fun D D' hD => hL _ _ D D' hD ⟨hnow, _, rfl⟩
  | commit ht hfinished => exact h.commit ht hfinished
  | abort htid ht => exact h.rollback _

theorem Inv.lifecycle {a : Act π} {s s' : State π} (h : Inv (Lifecycle cfg) s)
    (hmove : Move lib cfg a s s') : Inv (Lifecycle cfg) s' :=
  h.move hmove (fun _ _ now _ _ _ e ep => .created e ep now) fun _ _ _ _ hD _ hstep => hD.step hstep

theorem inv_init : Inv L (init : State π) where
  rows := nofun
  fresh _ _ := ⟨rfl, rfl⟩
  running := nofun
  held := nofun

/-- **Every dossier of a reachable state is one of a lifecycle.** -/
theorem inv_of_reachable {s : State π} (h : (engine lib cfg).Reachable s) :
    Inv (Lifecycle cfg) s :=
  h.invariant inv_init fun _ _ _ hinv hstep => hinv.lifecycle (move_of_step hstep)

end Hookit.Engine
