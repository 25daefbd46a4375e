import Hookit.Engine.Posts
import Hookit.Engine.Journal

/-!
# Success is final, or not

A redrive checks the status of the row it has read, and its `UPDATE` by primary key applies to the
row it finds later. `succeeded_final` is what holds nevertheless: in a run of ticks and redrives in
which no `UPDATE` of a redrive lands on a succeeded row, a delivery that is committed as succeeded
stays exactly as it is and is never POSTed again. `succeeded_not_final` is a run of two redrives
and a tick in which one does, and the succeeded delivery is POSTed again.
-/

namespace Hookit.Engine

open Foundations

variable {π : Type} {lib : UrlLib} {cfg : Settings}

/-- The POSTs for delivery `d`. -/
def State.postsTo (s : State π) (d : DeliveryId) : List (Post π) :=
  s.posts.filter fun p => p.delivery = d

/-- The action is not the `UPDATE` of a redrive on a delivery that is committed as succeeded. -/
def NoStaleRedrive (a : Act π) (s : State π) : Prop := ∀ t tx d now r, a = .update t now →
  s.txs t = .running tx → tx.phase = .read d → s.deliveries.rows d = some r →
  r.status ≠ .succeeded

/-- A succeeded delivery is locked by no one. -/
def Undisturbed (s : State π) : Prop := ∀ d r, s.deliveries.rows d = some r →
  r.status = .succeeded → s.deliveries.held d = none

section Moves

variable {a : Act π} {s s' : State π} {t : Tid} {tx tx' : Tx} {d : DeliveryId} {r : Delivery}

/-- What a statement sees of an unlocked row is the committed row. -/
theorem State.not_selects (hd : s.deliveries.held d = none) (hr : s.deliveries.rows d = some r)
    {p : Delivery → Bool} (hp : p r = false) : s.selects t p d = false := by
  simp [State.selects, Table.visible_of_unheld hd, hr, hp]

/-- **No statement but a redrive's locks a succeeded delivery.** -/
theorem held_of_move (hinv : Inv (Lifecycle cfg) s) (hmove : Move lib cfg a s s')
    (hff : NoFastForward a s) (hredrive : NoStaleRedrive a s)
    (hr : s.deliveries.rows d = some r) (hs : r.status = .succeeded)
    (hd : s.deliveries.held d = none) : s'.deliveries.held d = none := by
  have hnotMem : ∀ {t : Tid} {p : Delivery → Bool} {ds : List DeliveryId}, p r = false →
      (∀ d ∈ ds, s.selects t p d = true) → d ∉ ds := by
    intro t p ds hp hsel hmem
    have hfalse := State.not_selects (t := t) hd hr hp
    rw [hsel d hmem] at hfalse
    cases hfalse
  have hother : ∀ {d' : DeliveryId} {t : Tid} {r' : Delivery},
      s.deliveries.held d' = some (t, some r') → d ≠ d' := by
    rintro d' t r' hheld rfl
    rw [hd] at hheld
    cases hheld
  cases hmove with
  | insertDelivery ht hphase hheld hrow =>
    refine (Table.write_held_of_ne ?_).trans hd
    rintro rfl
    rw [hrow] at hr
    cases hr
  | recover ht hnow hnodup hsel =>
    exact (Table.writeAll_held_of_notMem (hnotMem (by simp [leaseExpired, hs]) hsel)).trans hd
  | claim ht hphase hnow hnodup hsel =>
    exact (Table.writeAll_held_of_notMem (hnotMem (by simp [isDue, hs]) hsel)).trans hd
  | lock ht hsel => exact absurd rfl (hff _ _ _)
  | refuse ht hphase hnext hr' hattempt =>
    obtain ⟨hheld, -, -⟩ := hinv.next (hinv.running _ _ ht) hphase hnext hr'
    exact (Table.write_held_of_ne (hother hheld)).trans hd
  | answer ht hphase hr' hnow hdecide hattempt =>
    obtain ⟨r'', hheld, -⟩ := (hinv.running _ _ ht).posting _ _ _ hphase
    exact (Table.write_held_of_ne (hother hheld)).trans hd
  | @update _ t tx d' now ht hphase hnow hsel =>
    refine (Table.writeAll_held_of_notMem fun hmem => ?_).trans hd
    obtain rfl := List.mem_singleton.1 hmem
    exact hredrive t tx d now r rfl ht hphase hr hs
  | commit ht hfinished => simp [State.commit, Table.commit, hd]
  | abort htid ht => simp [State.rollback, Table.rollback, hd]
  | _ => exact hd

/-- Only a commit changes a committed row, and only one that the transaction holds. -/
theorem rows_of_move (hmove : Move lib cfg a s s') :
    s'.deliveries.rows = s.deliveries.rows ∨
      ∃ t tx, s.txs t = .running tx ∧ s.finished t tx.phase = true ∧ s' = s.commit t tx := by
  cases hmove with
  | commit ht hfinished => exact .inr ⟨_, _, ht, hfinished, rfl⟩
  | _ => exact .inl rfl

theorem Undisturbed.move (h : Undisturbed s) (hinv : Inv (Lifecycle cfg) s)
    (hmove : Move lib cfg a s s') (hff : NoFastForward a s) (hredrive : NoStaleRedrive a s) :
    Undisturbed s' := by
  intro d r hr hs
  rcases rows_of_move hmove with hrows | ⟨t, tx, ht, hfinished, rfl⟩
  · rw [hrows] at hr
    exact held_of_move hinv hmove hff hredrive hr hs (h d r hr hs)
  · by_cases hd : s.deliveries.Holds t d
    · obtain ⟨v, hv⟩ := hd
      simp [State.commit, Table.commit, hv]
    · have hr' : s.deliveries.rows d = some r := (Table.commit_rows_of_not_holds hd).symm.trans hr
      exact held_of_move hinv hmove hff hredrive hr' hs (h d r hr' hs)

/-- **An undisturbed delivery keeps its row and is not POSTed.** -/
theorem undisturbed_step (hinv : Inv (Lifecycle cfg) s) (hset : Undisturbed s)
    (hmove : Move lib cfg a s s') (hr : s.deliveries.rows d = some r) (hs : r.status = .succeeded) :
    s'.deliveries.rows d = some r ∧ s'.postsTo d = s.postsTo d := by
  have hd := hset d r hr hs
  have hnot : ∀ t, ¬ s.deliveries.Holds t d := by
    rintro t ⟨v, hv⟩
    rw [hd] at hv
    cases hv
  refine ⟨?_, ?_⟩
  · rcases rows_of_move hmove with hrows | ⟨t, tx, ht, hfinished, rfl⟩
    · rw [hrows]
      exact hr
    · exact (Table.commit_rows_of_not_holds (hnot t)).trans hr
  · rcases posts_of_move hinv hmove with hposts | ⟨p, r', _, _, _, -, hposts, hheld, -⟩
    · simp [State.postsTo, hposts]
    · have hne : p.delivery ≠ d := by
        rintro rfl
        exact hnot _ ⟨_, hheld⟩
      simp [State.postsTo, hposts, List.filter_append, hne]

end Moves

/-- The runs of ticks and redrives in which no redrive is applied to a succeeded row. -/
def RedrivesInTime (a : Act π) (s : State π) : Prop := NoFastForward a s ∧ NoStaleRedrive a s

theorem undisturbed_of_reachableIf {s : State π}
    (h : (engine lib cfg).ReachableIf RedrivesInTime s) :
    Inv (Lifecycle cfg) s ∧ Undisturbed s := by
  refine h.invariant (P := fun s => Inv (Lifecycle cfg) s ∧ Undisturbed s) ⟨inv_init, nofun⟩
    fun a s s' hinv hok hstep => ?_
  have hmove := move_of_step hstep
  exact ⟨hinv.1.lifecycle hmove, hinv.2.move hinv.1 hmove hok.1 hok.2⟩

/-- **Where no redrive is applied to a succeeded row, success is final.** A delivery that is
committed as succeeded keeps its status and its attempt count, and is never POSTed again. -/
theorem succeeded_final {s s' : State π} (h : (engine lib cfg).ReachableIf RedrivesInTime s)
    (hsteps : (engine lib cfg).Steps RedrivesInTime s s') {d : DeliveryId} {r : Delivery}
    (hr : s.deliveries.rows d = some r) (hs : r.status = .succeeded) :
    (∃ r', s'.deliveries.rows d = some r' ∧ r'.status = .succeeded ∧
      r'.attemptCount = r.attemptCount) ∧ s'.postsTo d = s.postsTo d := by
  have key : (Inv (Lifecycle cfg) s' ∧ Undisturbed s') ∧
      s'.deliveries.rows d = some r ∧ s'.postsTo d = s.postsTo d := by
    refine hsteps.invariant (P := fun s' => (Inv (Lifecycle cfg) s' ∧ Undisturbed s') ∧
      s'.deliveries.rows d = some r ∧ s'.postsTo d = s.postsTo d)
      ⟨undisturbed_of_reachableIf h, hr, rfl⟩ ?_
    rintro a s₁ s₂ ⟨⟨hinv, hset⟩, hr₁, hposts⟩ hok hstep
    have hmove := move_of_step hstep
    obtain ⟨hr₂, hposts₂⟩ := undisturbed_step hinv hset hmove hr₁ hs
    exact ⟨⟨hinv.lifecycle hmove, hset.move hinv hmove hok.1 hok.2⟩, hr₂, hposts₂.trans hposts⟩
  exact ⟨⟨r, key.2.1, hs, rfl⟩, key.2.2⟩

/-! ## A redrive that comes too late -/

/-- Whether a redrive is in time. -/
def redriveInTime (a : Act Unit) (s : State Unit) : Bool :=
  match a with
  | .lock _ _ _ => false
  | .update t _ =>
    match s.txs t with
    | .running tx =>
      match tx.phase with
      | .read d => (s.deliveries.rows d).all fun r => r.status ≠ .succeeded
      | _ => true
    | _ => true
  | _ => true

theorem redrivesInTime_of_redriveInTime (a : Act Unit) (s : State Unit)
    (h : redriveInTime a s = true) : RedrivesInTime a s := by
  refine ⟨fun t worker d heq => ?_, fun t tx d now r heq ht hphase hr hs => ?_⟩ <;> subst heq
  · cases h
  · simp [redriveInTime, ht, hphase, hr, hs] at h

/-- A delivery fails, is redriven and succeeds; then a redrive finds that it is not dead-lettered. -/
theorem succeeded_final_delivered : ∃ s s' : State Unit,
    (engine receiverHost oneAttempt).ReachableIf RedrivesInTime s ∧
    (engine receiverHost oneAttempt).Steps RedrivesInTime s s' ∧
    (∃ r, s'.deliveries.rows 1 = some r ∧ r.status = .succeeded ∧ r.attemptCount = 2) ∧
    s'.postsTo 1 = s.postsTo 1 := by
  have hrun : (((engine receiverHost oneAttempt).runIf redriveInTime
      (ingestion 0 ++ tickUpToPost 1 ++ tickAfterPost 1 (.response 500 []) ++ redriveOf 2 ++
        tickUpToPost 3 ++ tickAfterPost 3 (.response 200 [])) init).bind fun s =>
      ((engine receiverHost oneAttempt).runIf redriveInTime
        [.read 4 1, .recover 5 [] 0 [], .claim 5 0 []] s).map fun _ =>
          (s.deliveries.rows 1).any fun r => r.status = .succeeded ∧ r.attemptCount = 2) =
      some true := by
    decide +kernel
  obtain ⟨s, s', hs, hs', hp⟩ :=
    Machine.exists_steps_of_runIf redrivesInTime_of_redriveInTime hrun
  obtain ⟨r, hr, hp⟩ := (Option.any_eq_true _ _).1 hp
  obtain ⟨hstatus, hcount⟩ := of_decide_eq_true hp
  obtain ⟨⟨r', hr', hstatus', hcount'⟩, hposts⟩ := succeeded_final hs hs' hr hstatus
  exact ⟨s, s', hs, hs', ⟨r', hr', hstatus', hcount'.trans hcount⟩, hposts⟩

/-- A delivery fails and is dead-lettered. Two redrives read it; one of them commits, and a tick
delivers. -/
def redriveTwice : List (Act Unit) :=
  ingestion 0 ++ tickUpToPost 1 ++ tickAfterPost 1 (.response 500 []) ++
    [.read 2 1, .read 3 1, .update 2 0, .commit 2] ++
    tickUpToPost 4 ++ tickAfterPost 4 (.response 200 [])

/-- Then the other redrive goes on, and so does the worker. -/
def lateRedrive : List (Act Unit) := [.update 3 0, .commit 3] ++ tickUpToPost 5

/-- **Success is not final.** Of two redrives that both read a dead-lettered delivery, the later
`UPDATE` re-opens it after it has succeeded, and it is POSTed again. -/
theorem succeeded_not_final : ∃ s s' : State Unit,
    (engine receiverHost oneAttempt).ReachableIf NoFastForward s ∧
    (engine receiverHost oneAttempt).Steps NoFastForward s s' ∧
    (∃ r, s.deliveries.rows 1 = some r ∧ r.status = .succeeded) ∧
    (∃ r, s'.deliveries.rows 1 = some r ∧ r.status = .pending) ∧
    (s.postsTo 1).length < (s'.postsTo 1).length := by
  have hok : ∀ a ∈ redriveTwice ++ lateRedrive, ∀ s, NoFastForward a s := by
    intro a ha s t worker d heq
    subst heq
    simp [redriveTwice, lateRedrive, ingestion, tickUpToPost, tickAfterPost] at ha
  have hrun : (((engine receiverHost oneAttempt).run redriveTwice init).bind fun s =>
      ((engine receiverHost oneAttempt).run lateRedrive s).map fun s' =>
        (s.deliveries.rows 1).any (·.status = .succeeded) &&
        (s'.deliveries.rows 1).any (·.status = .pending) &&
        decide ((s.postsTo 1).length < (s'.postsTo 1).length)) = some true := by
    decide +kernel
  obtain ⟨s, s', hs, hs', hp⟩ := Machine.exists_steps_of_run _ hok hrun
  simp only [Bool.and_eq_true, Option.any_eq_true, decide_eq_true_eq] at hp
  exact ⟨s, s', hs, hs', hp.1.1, hp.1.2, hp.2⟩

end Hookit.Engine
