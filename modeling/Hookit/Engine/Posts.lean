import Hookit.Engine.Invariant

/-!
# The POSTs and their transactions

`Accounted` says what has become of a POST's attempt number: its transaction was rolled back, or
has committed it, or still holds the delivery with the number recorded or, while it waits for the
answer, about to be. A new POST carries the number after those of all recorded attempts, so an
earlier POST with the same number belongs to a transaction that was rolled back (`PostInv.repeated`).

`Awaits` relates the row that a waiting transaction holds to the request that it has sent.
-/

namespace Hookit.Engine

open Foundations

variable {π : Type} {lib : UrlLib} {cfg : Settings}

/-- What has become of the attempt number of a POST. -/
def State.Accounted (s : State π) (p : Post π) : Prop :=
  match s.txs p.tid with
  | .unused => False
  | .running tx => ∃ r, s.deliveries.held p.delivery = some (p.tid, some r) ∧
      (p.request.attempt ≤ r.attemptCount ∨ ∃ job post,
        tx.phase = .posting job p.delivery post ∧ p.request.attempt = r.attemptCount + 1)
  | .committed => ∃ r, s.deliveries.rows p.delivery = some r ∧ p.request.attempt ≤ r.attemptCount
  | .rolledBack => True

/-- The invariant of the POSTs. -/
structure PostInv (s : State π) : Prop where
  accounted : ∀ p ∈ s.posts, s.Accounted p
  repeated : s.posts.Pairwise fun p q => p.delivery = q.delivery →
    p.request.attempt = q.request.attempt → s.txs p.tid = .rolledBack

section Moves

variable {s s' : State π} {t : Tid} {tx tx' : Tx} {d : DeliveryId} {r : Delivery}

theorem State.Accounted.of_running {p : Post π} (h : s.Accounted p)
    (ht : s.txs p.tid = .running tx) :
    ∃ r, s.deliveries.held p.delivery = some (p.tid, some r) ∧
      (p.request.attempt ≤ r.attemptCount ∨ ∃ job post,
        tx.phase = .posting job p.delivery post ∧ p.request.attempt = r.attemptCount + 1) := by
  simpa only [State.Accounted, ht] using h

theorem State.Accounted.not_unused {p : Post π} (h : s.Accounted p) : s.txs p.tid ≠ .unused := by
  intro ht
  simp only [State.Accounted, ht] at h

/-- An uncommitted version counts at least the attempts of the committed one. -/
theorem Inv.attemptCount_le (h : Inv (Lifecycle cfg) s) (ht : s.txs t = .running tx) {r₀ : Delivery}
    (hr₀ : s.deliveries.rows d = some r₀) (hr : s.deliveries.visible t d = some r) :
    r₀.attemptCount ≤ r.attemptCount := by
  have hlen := (h.rows d r₀ hr₀).1.length_attempts
  have hlen' := (h.sees (h.running t tx ht) hr).1.length_attempts
  simp only [State.committed, State.dossier, attemptsOf_append, List.length_append] at hlen hlen'
  omega

/-- Another transaction's statement, or a statement of the POST's own that counts every attempt
whose answer it has got. -/
theorem State.Accounted.put {p : Post π} (h : s.Accounted p)
    {T : Table Tid DeliveryId Delivery} (hT : s.deliveries.Statement t T)
    (ht : s.txs t = .unused ∨ s.txs t = .running tx)
    (hgrow : ∀ d r, s.deliveries.held d = some (t, some r) → ∃ r', T.held d = some (t, some r') ∧
      r.attemptCount ≤ r'.attemptCount ∧
      ∀ job post, tx.phase = .posting job d post → r.attemptCount + 1 ≤ r'.attemptCount) :
    (s.put t T tx').Accounted p := by
  by_cases hne : p.tid = t
  · have ht' : s.txs p.tid = .running tx := by
      rw [hne]
      exact ht.resolve_left (hne ▸ h.not_unused)
    obtain ⟨r, hr, hatt⟩ := h.of_running ht'
    obtain ⟨r', hr', hle, hpost⟩ := hgrow p.delivery r (hne ▸ hr)
    have htx : (s.put t T tx').txs p.tid = .running tx' := State.running_put.2 (.inl ⟨hne, rfl⟩)
    simp only [State.Accounted, htx]
    refine ⟨r', hne ▸ hr', .inl ?_⟩
    rcases hatt with hatt | ⟨job, post, hphase, hatt⟩
    · exact hatt.trans hle
    · exact hatt ▸ hpost job post hphase
  · have htx : (s.put t T tx').txs p.tid = s.txs p.tid := Function.update_of_ne hne _ _
    simp only [State.Accounted, htx] at h ⊢
    cases hs : s.txs p.tid with
    | unused =>
      rw [hs] at h
      exact h
    | running tx'' =>
      rw [hs] at h
      obtain ⟨r, hr, hatt⟩ := h
      exact ⟨r, (hT.held_iff hne).2 hr, hatt⟩
    | committed =>
      rw [hs] at h
      obtain ⟨r, hr, hatt⟩ := h
      exact ⟨r, by rw [← hr]; exact congrFun hT.rows p.delivery, hatt⟩
    | rolledBack => trivial

/-- A transaction that was rolled back stays so. -/
theorem rolledBack_put {T : Table Tid DeliveryId Delivery} {t' : Tid}
    (ht : s.txs t = .unused ∨ ∃ tx, s.txs t = .running tx) (h : s.txs t' = .rolledBack) :
    (s.put t T tx').txs t' = .rolledBack := by
  have hne : t' ≠ t := by
    rintro rfl
    rcases ht with ht | ⟨tx, ht⟩ <;> · rw [ht] at h; cases h
  exact (Function.update_of_ne hne _ _).trans h

theorem rolledBack_rollback {t' : Tid} (h : s.txs t' = .rolledBack) :
    (s.rollback t).txs t' = .rolledBack := by
  by_cases hne : t' = t
  · rw [hne]
    exact Function.update_self ..
  · exact (Function.update_of_ne hne _ _).trans h

theorem PostInv.put (h : PostInv s) (tx : Tx) {T : Table Tid DeliveryId Delivery}
    (hT : s.deliveries.Statement t T) (ht : s.txs t = .unused ∨ s.txs t = .running tx)
    (hgrow : ∀ d r, s.deliveries.held d = some (t, some r) → ∃ r', T.held d = some (t, some r') ∧
      r.attemptCount ≤ r'.attemptCount ∧
      ∀ job post, tx.phase = .posting job d post → r.attemptCount + 1 ≤ r'.attemptCount) :
    PostInv (s.put t T tx') where
  accounted p hp := (h.accounted p hp).put hT ht hgrow
  repeated := h.repeated.imp fun hpq hd hatt =>
    rolledBack_put (ht.imp id fun h => ⟨tx, h⟩) (hpq hd hatt)

/-- A statement of a transaction that waits for no answer and changes rows without counting an
attempt. -/
theorem PostInv.writeAll (h : PostInv s) (tx : Tx) (ht : s.txs t = .unused ∨ s.txs t = .running tx)
    (hphase : ∀ job d post, tx.phase ≠ .posting job d post) {ds : List DeliveryId}
    (hfree : ∀ d ∈ ds, s.deliveries.free t d = true) {f : Delivery → Delivery}
    (hf : ∀ r, (f r).attemptCount = r.attemptCount) :
    PostInv (s.put t (s.deliveries.writeAll t ds f) tx') := by
  refine h.put tx (.writeAll hfree f) ht fun d r hr => ?_
  by_cases hd : d ∈ ds
  · refine ⟨f r, ?_, (hf r).ge, fun job post hpost => absurd hpost (hphase job d post)⟩
    rw [Table.writeAll_held_of_mem hd, Table.visible_of_held hr]
    rfl
  · exact ⟨r, (Table.writeAll_held_of_notMem hd).trans hr, le_rfl,
      fun job post hpost => absurd hpost (hphase job d post)⟩

/-- The recording of an attempt. -/
theorem PostInv.attempt (h : PostInv s) (ht : s.txs t = .running tx)
    (hheld : s.deliveries.held d = some (t, some r))
    (hphase : ∀ job d' post, tx.phase = .posting job d' post → d' = d) {row : Delivery}
    (hcount : row.attemptCount = r.attemptCount + 1) :
    PostInv (s.put t (s.deliveries.write t d (some row)) tx') := by
  refine h.put _ (.write (Table.free_iff.2 (.inr ⟨_, hheld⟩)) _) (.inr ht) fun d' r' hr' => ?_
  rcases eq_or_ne d' d with rfl | hd
  · rw [hheld] at hr'
    obtain ⟨-, hr'⟩ := Prod.mk.inj (Option.some.inj hr')
    obtain rfl := Option.some.inj hr'
    exact ⟨row, Table.write_held_self, by omega, fun _ _ _ => hcount.ge⟩
  · exact ⟨r', (Table.write_held_of_ne hd).trans hr', le_rfl,
      fun job post hpost => absurd (hphase job d' post hpost) hd⟩

/-- **A new POST repeats a number only of POSTs whose transactions were rolled back.** -/
theorem PostInv.post (h : PostInv s) (hinv : Inv (Lifecycle cfg) s) (ht : s.txs t = .running tx)
    {job job' : Job} (hphase : tx.phase = .working job) (hnext : s.next t job = some (d, job'))
    (hr : s.deliveries.visible t d = some r) {request : Request π}
    (hrequest : request.attempt = r.attemptCount + 1) :
    PostInv { s.put t s.deliveries { tx with phase := .posting job' d s.posts.length } with
      posts := s.posts ++ [⟨t, d, request⟩] } := by
  obtain ⟨hheld, -, -⟩ := hinv.next (hinv.running t tx ht) hphase hnext hr
  set s' := s.put t s.deliveries { tx with phase := .posting job' d s.posts.length } with hs'
  have hold : PostInv s' := h.put tx (.refl t _) (.inr ht) fun d' r' hr' =>
    ⟨r', hr', le_rfl, fun job'' post hpost => by rw [hphase] at hpost; cases hpost⟩
  have hnew : ∀ p ∈ s.posts, p.delivery = d → p.request.attempt = request.attempt →
      s'.txs p.tid = .rolledBack := by
    intro p hp hd hatt
    have hacc := h.accounted p hp
    subst hd
    cases hs : s.txs p.tid with
    | unused => exact absurd hs hacc.not_unused
    | running tx' =>
      obtain ⟨r', hr', hlt⟩ := hacc.of_running hs
      rw [hheld] at hr'
      obtain ⟨htid, hr'⟩ := Prod.mk.inj (Option.some.inj hr')
      obtain rfl := Option.some.inj hr'
      rw [← htid, ht] at hs
      obtain rfl := TxState.running.inj hs
      rcases hlt with hlt | ⟨job'', post, hpost, -⟩
      · omega
      · rw [hphase] at hpost
        cases hpost
    | committed =>
      simp only [State.Accounted, hs] at hacc
      obtain ⟨r₀, hr₀, hle⟩ := hacc
      have hcount := hinv.attemptCount_le ht hr₀ hr
      omega
    | rolledBack => exact rolledBack_put (.inr ⟨tx, ht⟩) hs
  refine ⟨fun p hp => ?_, List.pairwise_append.2 ⟨hold.repeated, List.pairwise_singleton _ _, ?_⟩⟩
  · rcases List.mem_append.1 hp with hp | hp
    · exact hold.accounted p hp
    · obtain rfl := List.mem_singleton.1 hp
      have htx : s'.txs t = .running { tx with phase := .posting job' d s.posts.length } :=
        State.running_put.2 (.inl ⟨rfl, rfl⟩)
      simp only [State.Accounted, htx]
      exact ⟨r, hheld, .inr ⟨job', _, rfl, hrequest⟩⟩
  · intro p hp q hq hd hatt
    obtain rfl := List.mem_singleton.1 hq
    exact hnew p hp hd hatt

theorem PostInv.commit (h : PostInv s) (hinv : Inv (Lifecycle cfg) s) (ht : s.txs t = .running tx)
    (hfinished : s.finished t tx.phase = true) : PostInv (s.commit t tx) := by
  refine ⟨fun p hp => ?_, h.repeated.imp fun hpq hd hatt => ?_⟩
  · have hacc := h.accounted p hp
    by_cases hne : p.tid = t
    · obtain ⟨r, hr, hatt⟩ := hacc.of_running (hne ▸ ht)
      have htx : (s.commit t tx).txs p.tid = .committed := by
        rw [hne]
        exact Function.update_self ..
      simp only [State.Accounted, htx]
      refine ⟨r, Table.visible_of_held (hne ▸ hr), hatt.resolve_right ?_⟩
      rintro ⟨job, post, hphase, -⟩
      rw [hphase] at hfinished
      cases hfinished
    · have htx : (s.commit t tx).txs p.tid = s.txs p.tid := Function.update_of_ne hne _ _
      simp only [State.Accounted, htx] at hacc ⊢
      cases hs : s.txs p.tid with
      | unused =>
        rw [hs] at hacc
        exact hacc
      | running tx' =>
        rw [hs] at hacc
        obtain ⟨r, hr, hatt⟩ := hacc
        exact ⟨r, Table.commit_held_of_ne hr hne, hatt⟩
      | committed =>
        rw [hs] at hacc
        obtain ⟨r₀, hr₀, hatt⟩ := hacc
        obtain ⟨r, hr⟩ : ∃ r, s.deliveries.visible t p.delivery = some r := by
          by_cases hd : s.deliveries.Holds t p.delivery
          · obtain ⟨v, hv⟩ := hd
            obtain ⟨r, rfl, -⟩ := (hinv.running t tx ht).version _ v hv
            exact ⟨r, Table.visible_of_held hv⟩
          · exact ⟨r₀, (Table.visible_of_not_holds hd).trans hr₀⟩
        exact ⟨r, hr, hatt.trans (hinv.attemptCount_le ht hr₀ hr)⟩
      | rolledBack => trivial
  · have hroll := hpq hd hatt
    refine (Function.update_of_ne ?_ _ _).trans hroll
    rintro rfl
    rw [ht] at hroll
    cases hroll

theorem PostInv.rollback (h : PostInv s) (t : Tid) : PostInv (s.rollback t) := by
  refine ⟨fun p hp => ?_, h.repeated.imp fun hpq hd hatt => ?_⟩
  · have hacc := h.accounted p hp
    by_cases hne : p.tid = t
    · have htx : (s.rollback t).txs p.tid = .rolledBack := by
        rw [hne]
        exact Function.update_self ..
      simp only [State.Accounted, htx]
    · have htx : (s.rollback t).txs p.tid = s.txs p.tid := Function.update_of_ne hne _ _
      simp only [State.Accounted, htx] at hacc ⊢
      cases hs : s.txs p.tid with
      | running tx' =>
        rw [hs] at hacc
        obtain ⟨r, hr, hatt⟩ := hacc
        exact ⟨r, Table.rollback_held_iff.2 ⟨hr, hne⟩, hatt⟩
      | _ =>
        rw [hs] at hacc
        exact hacc
  · exact rolledBack_rollback (hpq hd hatt)

/-- **A POST is sent only by the transaction that holds the delivery**, and is the request that
`process_delivery` prepares. -/
theorem posts_of_move {a : Act π} (hinv : Inv (Lifecycle cfg) s) (hmove : Move lib cfg a s s') :
    s'.posts = s.posts ∨ ∃ p r endpoint event timestamp, a = .send p.tid endpoint event timestamp ∧
      s'.posts = s.posts ++ [p] ∧ s.deliveries.held p.delivery = some (p.tid, some r) ∧
      prepareDelivery lib endpoint event r timestamp = .ok (some p.request) := by
  cases hmove with
  | post ht hphase hnext hr hendpoint hevent hprepare =>
    obtain ⟨hheld, -, -⟩ := hinv.next (hinv.running _ _ ht) hphase hnext hr
    exact .inr ⟨_, _, _, _, _, rfl, rfl, hheld, hprepare⟩
  | _ => exact .inl rfl

end Moves

/-- **Every move keeps the invariant of the POSTs.** -/
theorem PostInv.move {a : Act π} {s s' : State π} (h : PostInv s) (hinv : Inv (Lifecycle cfg) s)
    (hmove : Move lib cfg a s s') : PostInv s' := by
  cases hmove with
  | advance hnow => exact ⟨h.accounted, h.repeated⟩
  | beginIngest ht hnow =>
    exact h.put ⟨.recovered, [], [], []⟩ (.refl _ _) (.inl ht)
      fun d r hr => ⟨r, hr, le_rfl, nofun⟩
  | insertDelivery ht hphase hheld hrow =>
    refine h.put _ (.write (Table.free_iff.2 (.inl hheld)) _) (.inr ht) fun d r hr => ⟨r, ?_, le_rfl, ?_⟩
    · refine (Table.write_held_of_ne ?_).trans hr
      rintro rfl
      rw [hheld] at hr
      cases hr
    · intro job post hpost
      rw [hphase] at hpost
      cases hpost
  | recover ht hnow hnodup hsel =>
    exact h.writeAll ⟨.recovered, [], [], []⟩ (.inl ht) nofun
      (fun d hd => (State.selects_iff.1 (hsel d hd)).1) fun _ => rfl
  | claim ht hphase hnow hnodup hsel =>
    exact h.writeAll _ (.inr ht) (by simp [hphase])
      (fun d hd => (State.selects_iff.1 (hsel d hd)).1) fun _ => rfl
  | lock ht hsel =>
    exact h.writeAll ⟨.recovered, [], [], []⟩ (.inl ht) nofun
      (List.forall_mem_singleton.2 (State.selects_iff.1 hsel).1) fun _ => rfl
  | refuse ht hphase hnext hr hattempt =>
    obtain ⟨hheld, -, -⟩ := hinv.next (hinv.running _ _ ht) hphase hnext hr
    exact h.attempt ht hheld (by simp [hphase]) rfl
  | post ht hphase hnext hr hendpoint hevent hprepare =>
    obtain ⟨-, rfl⟩ := prepareDelivery_eq_some_iff.1 hprepare
    exact h.post hinv ht hphase hnext hr rfl
  | answer ht hphase hr hnow hdecide hattempt =>
    obtain ⟨r', hheld, -⟩ := (hinv.running _ _ ht).posting _ _ _ hphase
    rw [Table.visible_of_held hheld] at hr
    obtain rfl := Option.some.inj hr
    refine h.attempt ht hheld (fun job d' post hpost => ?_) (decideDelivery_spec hdecide).1
    rw [hphase] at hpost
    cases hpost
    rfl
  | read ht hr hstatus =>
    exact h.put ⟨.recovered, [], [], []⟩ (.refl _ _) (.inl ht)
      fun d r hr => ⟨r, hr, le_rfl, nofun⟩
  | update ht hphase hnow hsel =>
    exact h.writeAll _ (.inr ht) (by simp [hphase])
      (List.forall_mem_singleton.2 (State.selects_iff.1 hsel).1) fun _ => rfl
  | commit ht hfinished => exact h.commit hinv ht hfinished
  | abort htid ht => exact h.rollback _

theorem postInv_of_reachable {s : State π} (h : (engine lib cfg).Reachable s) : PostInv s := by
  have key : Inv (Lifecycle cfg) s ∧ PostInv s := by
    refine h.invariant (P := fun s => Inv (Lifecycle cfg) s ∧ PostInv s) ⟨inv_init, nofun, .nil⟩
      fun a s s' hinv hstep => ?_
    have hmove := move_of_step hstep
    exact ⟨hinv.1.lifecycle hmove, hinv.2.move hinv.1 hmove⟩
  exact key.2

/-! ## The POST that a transaction waits for -/

/-- A transaction that waits for the answer to a POST holds the delivery's row, and the request is
in the relation `R` to it. -/
def State.Awaits (R : Delivery → Request π → Prop) (s : State π) : Prop :=
  ∀ t tx job d post, s.txs t = .running tx → tx.phase = .posting job d post →
    ∃ r p, s.deliveries.held d = some (t, some r) ∧ s.posts[post]? = some p ∧ R r p.request

section Awaits

variable {R : Delivery → Request π → Prop} {s s' : State π} {t : Tid} {tx : Tx}

/-- A statement after which its transaction waits for nothing. -/
theorem State.Awaits.put (h : s.Awaits R) {T : Table Tid DeliveryId Delivery}
    (hT : s.deliveries.Statement t T) (hphase : ∀ job d post, tx.phase ≠ .posting job d post) :
    (s.put t T tx).Awaits R := by
  intro t' tx' job d post ht' hphase'
  rcases State.running_put.1 ht' with ⟨-, rfl⟩ | ⟨hne, ht'⟩
  · exact absurd hphase' (hphase job d post)
  · obtain ⟨r, p, hr, hp⟩ := h t' tx' job d post ht' hphase'
    exact ⟨r, p, (hT.held_iff hne).2 hr, hp⟩

/-- **Every move keeps the relation**, where it holds of each request that is sent. -/
theorem State.Awaits.move {a : Act π} (h : s.Awaits R) (hinv : Inv (Lifecycle cfg) s)
    (hmove : Move lib cfg a s s')
    (hR : ∀ t endpoint event timestamp r request, a = .send t endpoint event timestamp →
      endpoint.id = r.endpointId → event.id = r.eventId →
      prepareDelivery lib endpoint event r timestamp = .ok (some request) → R r request) :
    s'.Awaits R := by
  cases hmove with
  | advance hnow => exact h
  | beginIngest ht hnow => exact h.put (.refl _ _) nofun
  | insertDelivery ht hphase hheld hrow =>
    exact h.put (.write (Table.free_iff.2 (.inl hheld)) _) (by simp [hphase])
  | recover ht hnow hnodup hsel =>
    exact h.put (.writeAll (fun d hd => (State.selects_iff.1 (hsel d hd)).1) _) nofun
  | claim ht hphase hnow hnodup hsel =>
    exact h.put (.writeAll (fun d hd => (State.selects_iff.1 (hsel d hd)).1) _) nofun
  | lock ht hsel =>
    exact h.put (.writeAll (List.forall_mem_singleton.2 (State.selects_iff.1 hsel).1) _) nofun
  | refuse ht hphase hnext hr hattempt =>
    obtain ⟨hheld, -, -⟩ := hinv.next (hinv.running _ _ ht) hphase hnext hr
    exact h.put (.write (Table.free_iff.2 (.inr ⟨_, hheld⟩)) _) nofun
  | @post _ t tx job job' d r endpoint event timestamp request ht hphase hnext hr hendpoint hevent
      hprepare =>
    obtain ⟨hheld, -, -⟩ := hinv.next (hinv.running _ _ ht) hphase hnext hr
    intro t' tx' job'' d' post ht' hphase'
    rcases (State.running_put (T := s.deliveries)).1 ht' with ⟨rfl, rfl⟩ | ⟨hne, ht'⟩
    · cases hphase'
      exact ⟨r, _, hheld, List.getElem?_concat_length,
        hR _ endpoint event timestamp r request rfl hendpoint hevent hprepare⟩
    · obtain ⟨r', p, hr', hp, hrel⟩ := h t' tx' job'' d' post ht' hphase'
      exact ⟨r', p, hr', List.getElem?_append_left (List.getElem?_eq_some_iff.1 hp).1 ▸ hp, hrel⟩
  | answer ht hphase hr hnow hdecide hattempt =>
    obtain ⟨r', hheld, -⟩ := (hinv.running _ _ ht).posting _ _ _ hphase
    exact h.put (.write (Table.free_iff.2 (.inr ⟨_, hheld⟩)) _) nofun
  | read ht hr hstatus => exact h.put (.refl _ _) nofun
  | update ht hphase hnow hsel =>
    exact h.put (.writeAll (List.forall_mem_singleton.2 (State.selects_iff.1 hsel).1) _) nofun
  | commit ht hfinished =>
    intro t' tx' job d post ht' hphase'
    obtain ⟨hne, ht'⟩ := State.running_commit.1 ht'
    obtain ⟨r, p, hr, hp⟩ := h t' tx' job d post ht' hphase'
    exact ⟨r, p, Table.commit_held_iff.2 ⟨hr, hne⟩, hp⟩
  | abort htid ht =>
    intro t' tx' job d post ht' hphase'
    obtain ⟨hne, ht'⟩ := State.running_rollback.1 ht'
    obtain ⟨r, p, hr, hp⟩ := h t' tx' job d post ht' hphase'
    exact ⟨r, p, Table.rollback_held_iff.2 ⟨hr, hne⟩, hp⟩

end Awaits

end Hookit.Engine
