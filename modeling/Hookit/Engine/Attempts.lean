import Hookit.Engine.Journal
import Hookit.Engine.Posts

/-!
# The attempts of a delivery

The lifecycle facts, for the committed states of the engine.

* `attempts_numbered`: in every run in which the bodies of 2xx answers to last attempts decode, the
  attempts of a delivery are numbered without gaps or repetitions, the last one agrees with the
  status, and a POST repeats an attempt number only after a rollback. The numbering needs
  no condition; the agreement does (`deadLettered_despite_2xx`).
* `attempts_bounded`: how many attempts a delivery can have, and when it is dead-lettered.
-/

namespace Hookit.Engine

open Foundations

variable {π : Type} {lib : UrlLib} {cfg : Settings}

/-- Transaction `t` is about to record an attempt of delivery `d`, or to send it. -/
def State.Attempting (s : State π) (t : Tid) (tx : Tx) (d : DeliveryId) : Prop :=
  (∃ job post, tx.phase = .posting job d post) ∨
    ∃ job job', tx.phase = .working job ∧ s.next t job = some (d, job')

/-- **The next attempt collides with no other**, committed or not. -/
theorem Inv.no_collision {s : State π} (h : Inv (Lifecycle cfg) s) {t : Tid} {tx : Tx}
    {d : DeliveryId} {r : Delivery} (ht : s.txs t = .running tx) (hatt : s.Attempting t tx d)
    (hr : s.deliveries.visible t d = some r) {a : DeliveryAttempt} (hid : a.deliveryId = d)
    (hn : a.attemptNumber = r.attemptCount + 1) : s.collides tx a = false ∧
      ∀ t' tx', t' ≠ t → s.txs t' = .running tx' → ∀ b ∈ tx'.inserted, b.deliveryId ≠ d := by
  have htx := h.running t tx ht
  have hholds : s.deliveries.Holds t d := by
    rcases hatt with ⟨job, post, hphase⟩ | ⟨job, job', hphase, hnext⟩
    · obtain ⟨r', hheld, -⟩ := htx.posting job d post hphase
      exact ⟨_, hheld⟩
    · exact ⟨_, (h.next htx hphase hnext hr).1⟩
  refine ⟨?_, fun t' tx' hne ht' b hb hbd => ?_⟩
  · have hlife := (h.sees htx hr).1
    refine Bool.eq_false_iff.2 fun hcoll => ?_
    obtain ⟨b, hb, hp⟩ := List.any_eq_true.1 hcoll
    obtain ⟨hbd, hbn⟩ := of_decide_eq_true hp
    have hmem : b ∈ (s.dossier tx d r).attempts :=
      List.mem_filter.2 ⟨hb, decide_eq_true (hbd.trans hid)⟩
    have hle : b.attemptNumber ≤ r.attemptCount := hlife.attemptNumber_le hmem
    omega
  · obtain ⟨v, hv⟩ := (h.running t' tx' ht').inserted b hb
    exact hne (hholds.eq (hbd ▸ hv))

/-- **The attempts are numbered `1, …, attemptCount`, and tell the status.** In every state of a
run in which the bodies of 2xx answers to last attempts decode: the committed attempts of a
delivery carry the numbers `1, …, attemptCount`, each once; the last of a succeeded one has a 2xx
status, that of a dead-lettered one has not, and a delivery without attempts is pending; the unique
constraint never fires; and of two POSTs of a delivery with the same number the earlier was sent by
a transaction that was rolled back. -/
theorem attempts_numbered {s : State π} (h : (engine lib cfg).ReachableIf (Decodes cfg) s) :
    (∀ d r, s.deliveries.rows d = some r →
      (attemptsOf d s.attempts).map (·.attemptNumber) = List.range' 1 r.attemptCount ∧
      (∀ a ∈ attemptsOf d s.attempts, a.attemptNumber = r.attemptCount →
        (r.status = .succeeded → a.Answered2xx) ∧ (r.status = .deadLettered → ¬ a.Answered2xx)) ∧
      (r.attemptCount = 0 → r.status = .pending)) ∧
    (∀ t tx d r a, s.txs t = .running tx → s.Attempting t tx d →
      s.deliveries.visible t d = some r → a.deliveryId = d →
      a.attemptNumber = r.attemptCount + 1 → s.collides tx a = false ∧
        ∀ t' tx', t' ≠ t → s.txs t' = .running tx' → ∀ b ∈ tx'.inserted, b.deliveryId ≠ d) ∧
    s.posts.Pairwise fun p q => p.delivery = q.delivery →
      p.request.attempt = q.request.attempt → s.txs p.tid = .rolledBack := by
  have hinv : Inv (Lifecycle cfg) s := inv_of_reachable h.reachable
  refine ⟨fun d r hr => ?_, fun t tx d r a ht hatt hr hid hn => hinv.no_collision ht hatt hr hid hn,
    (postInv_of_reachable h.reachable).repeated⟩
  obtain ⟨hlife, hrest⟩ := hinv.rows d r hr
  refine ⟨hlife.numbered.2, fun a ha hn => ⟨fun hs => ?_, fun hs => ?_⟩, fun h0 => ?_⟩
  · exact hlife.succeeded_of_last hs ha hn
  · exact hlife.deadLettered_of_last hs ((decodes_of_reachableIf h).rows d r hr).1.2 ha hn
  · exact (hlife.status_of_count_zero h0).resolve_right fun hflight =>
      Lifecycle.not_atRest_of_inFlight hflight hrest

/-- Whether a 2xx answer that does not decode is to an attempt that is not the last. -/
def decodesLast (a : Act Unit) (s : State Unit) : Bool :=
  match a with
  | .answer t (.undecodable _ _) _ _ _ =>
    match s.txs t with
    | .running tx =>
      match tx.phase with
      | .posting _ d _ => (s.deliveries.visible t d).all fun r =>
          ((r.attemptCount + 1 : ℕ) : ℤ) < twoAttempts.maxDeliveryAttempts
      | _ => true
    | _ => true
  | _ => true

theorem decodes_of_decodesLast (a : Act Unit) (s : State Unit) (h : decodesLast a s = true) :
    Decodes twoAttempts a s := by
  intro t tx job d post r status message durationMs now draw heq _ ht hphase hr
  subst heq
  simpa only [decodesLast, ht, hphase, hr, Option.all_some, decide_eq_true_eq] using h

/-- A delivery with two failures, the first of which is a 2xx answer that does not decode, that
succeeds after a redrive. -/
theorem attempts_numbered_failed : ∃ (s : State Unit) (r : Delivery),
    (engine receiverHost twoAttempts).ReachableIf (Decodes twoAttempts) s ∧
    s.deliveries.rows 1 = some r ∧
    (attemptsOf 1 s.attempts).map (·.attemptNumber) = [1, 2, 3] ∧
    (∀ a ∈ attemptsOf 1 s.attempts, a.attemptNumber = 3 → a.Answered2xx) ∧
    s.posts.Pairwise fun p q => p.delivery = q.delivery →
      p.request.attempt = q.request.attempt → s.txs p.tid = .rolledBack := by
  have hrun : ((engine receiverHost twoAttempts).runIf decodesLast
      (ingestion 0 ++ tickAt 1 0 (.undecodable 200 (.ofString "unknown codec")) ++
        tickAt 2 10 (.response 500 []) ++ redriveOf 3 ++ tickAt 4 20 (.response 200 [])) init).map
      (fun s =>
        (s.deliveries.rows 1).any fun r => r.attemptCount = 3 ∧ r.status = .succeeded) =
      some true := by
    decide +kernel
  obtain ⟨s, hs, hp⟩ := Machine.exists_reachable_of_runIf decodes_of_decodesLast hrun
  obtain ⟨r, hr, hp⟩ := (Option.any_eq_true _ _).1 hp
  obtain ⟨hcount, hstatus⟩ := of_decide_eq_true hp
  obtain ⟨hrows, -, hposts⟩ := attempts_numbered hs
  obtain ⟨hnumbers, hlast, -⟩ := hrows 1 r hr
  rw [hcount] at hnumbers hlast
  exact ⟨s, r, hs, hr, hnumbers, fun a ha hn => (hlast a ha hn).1 hstatus, hposts⟩

/-- **A delivery can be dead-lettered by a 2xx answer**: one whose body does not decode. -/
theorem deadLettered_despite_2xx : ∃ s : State Unit,
    (engine receiverHost oneAttempt).Reachable s ∧
    ∃ r a, s.deliveries.rows 1 = some r ∧ r.status = .deadLettered ∧
      a ∈ attemptsOf 1 s.attempts ∧ a.attemptNumber = r.attemptCount ∧ a.Answered2xx := by
  have hrun : ((engine receiverHost oneAttempt).run (ingestion 0 ++ tickUpToPost 1 ++
      tickAfterPost 1 (.undecodable 200 (.ofString "unknown codec"))) init).map (fun s =>
        (s.deliveries.rows 1).any fun r => r.status = .deadLettered ∧
          (attemptsOf 1 s.attempts).any fun a =>
            a.attemptNumber = r.attemptCount ∧ a.responseStatus = some 200) = some true := by
    decide +kernel
  obtain ⟨s, hs, hp⟩ := Machine.exists_reachable_of_run (fun _ _ => True)
    (fun _ _ _ => trivial) hrun
  obtain ⟨r, hr, hp⟩ := (Option.any_eq_true _ _).1 hp
  obtain ⟨hstatus, hp⟩ := of_decide_eq_true hp
  obtain ⟨a, ha, hp⟩ := List.any_eq_true.1 hp
  obtain ⟨hn, h200⟩ := of_decide_eq_true hp
  exact ⟨s, hs, r, a, hr, hstatus, ha, hn, 200, h200, by decide⟩

/-- **The bound on the attempts, and when a delivery is dead-lettered.** In every state of a run of
ticks and redrives, of a delivery with `R` committed redrives: it has at most `max 1 M + R`
attempts, and fewer if it is pending; it is dead-lettered only with `M` attempts or where the SSRF
check refused the last one; and if it was never redriven, refused or answered 2xx, then it is
pending before attempt `max 1 M` and dead-lettered after it. -/
theorem attempts_bounded {s : State π} (h : (engine lib cfg).ReachableIf NoFastForward s)
    {d : DeliveryId} {r : Delivery} (hr : s.deliveries.rows d = some r) :
    ((r.attemptCount : ℤ) ≤
      max 1 cfg.maxDeliveryAttempts + Lifecycle.redrives (historyOf d s.journal)) ∧
    (r.status = .pending → (r.attemptCount : ℤ) <
      max 1 cfg.maxDeliveryAttempts + Lifecycle.redrives (historyOf d s.journal)) ∧
    (r.status = .deadLettered → cfg.maxDeliveryAttempts ≤ r.attemptCount ∨
      ((historyOf d s.journal).getLast? = some .refused ∧
        ∃ r' worker, (attemptsOf d s.attempts).getLast? = some (refusedAttempt d r' worker))) ∧
    ((∀ tr ∈ historyOf d s.journal, (∀ now, tr ≠ .redriven now) ∧ tr ≠ .refused ∧
        ∀ n answer now, tr = .answered n answer now → ¬ answer.Is2xx) →
      r.status = if (r.attemptCount : ℤ) < max 1 cfg.maxDeliveryAttempts then .pending
        else .deadLettered) := by
  obtain ⟨hlife, hrest⟩ := (inv_of_reachable h.reachable : Inv (Lifecycle cfg) s).rows d r hr
  have hlock : .locked ∉ (s.committed d r).history := fun hmem =>
    ((not_locked_of_reachableIf h).rows d r hr).1.2 _ hmem rfl
  have hcount := hlife.count_le hlock
  have hdead := hlife.deadLettered_cases hlock
  refine ⟨hcount.1, fun hs => hcount.2 (.inl hs), fun hs => (hdead hs).2, fun hquiet => ?_⟩
  have hR : Lifecycle.redrives (historyOf d s.journal) = 0 := by
    refine List.countP_eq_zero.2 fun tr htr => ?_
    have hne := (hquiet tr htr).1
    cases tr with
    | redriven now => exact absurd rfl (hne now)
    | _ => simp [Lifecycle.isRedrive]
  have hlt := hcount.2
  simp only [State.committed, hR, Nat.cast_zero, add_zero] at hlt
  rcases hrest with hs | hs | hs
  · rw [hs, if_pos (hlt (.inl hs))]
  · obtain ⟨n, answer, now, hmem, hsucc⟩ := hlife.exists_answered_of_succeeded hs
    exact absurd (Answer.is2xx_of_succeeded hsucc) ((hquiet _ hmem).2.2 n answer now rfl)
  · obtain ⟨hone, hM | ⟨hlast, -⟩⟩ := hdead hs
    · have hone' : (1 : ℤ) ≤ r.attemptCount := by exact_mod_cast hone
      rw [hs, if_neg (not_lt.2 (max_le hone' hM))]
    · have hmem := List.mem_of_getLast? hlast
      exact absurd rfl (hquiet _ hmem).2.1

/-- Neither a redrive nor a refusal nor a 2xx answer. -/
def quietTransition : Transition → Bool
  | .redriven _ | .refused => false
  | .answered _ answer _ => !decide answer.Is2xx
  | _ => true

/-- A delivery fails twice, where that is the maximum, and once more after a redrive. After the first
failure it is pending. -/
theorem attempts_bounded_failed : ∃ (s s' : State Unit) (r r' : Delivery),
    (engine receiverHost twoAttempts).ReachableIf NoFastForward s ∧
    (engine receiverHost twoAttempts).Steps NoFastForward s s' ∧
    s.deliveries.rows 1 = some r ∧ r.attemptCount = 1 ∧ r.status = .pending ∧
    s'.deliveries.rows 1 = some r' ∧ r'.attemptCount = 3 ∧ (r'.attemptCount : ℤ) ≤ max 1 2 + 1 ∧
    (2 : ℤ) ≤ r'.attemptCount := by
  have hok : ∀ a ∈ (ingestion 0 ++ tickAt 1 0 (.response 500 [])) ++
      (tickAt 2 10 (.response 500 []) ++ redriveOf 3 ++ tickAt 4 20 (.response 500 [])),
      ∀ s, NoFastForward a s := by
    intro a ha s t worker d heq
    subst heq
    simp [ingestion, tickAt, redriveOf] at ha
  have hrun : (((engine receiverHost twoAttempts).run
      (ingestion 0 ++ tickAt 1 0 (.response 500 [])) init).bind fun s =>
      ((engine receiverHost twoAttempts).run (tickAt 2 10 (.response 500 []) ++ redriveOf 3 ++
        tickAt 4 20 (.response 500 [])) s).map fun s' =>
          ((s.deliveries.rows 1).any fun r => r.attemptCount = 1) &&
          (historyOf 1 s.journal).all quietTransition &&
          (historyOf 1 s'.journal).getLast?.all quietTransition &&
          ((s'.deliveries.rows 1).any fun r => r.attemptCount = 3 ∧ r.status = .deadLettered) &&
          Lifecycle.redrives (historyOf 1 s'.journal) = 1) = some true := by
    decide +kernel
  obtain ⟨s, s', hs, hs', hp⟩ := Machine.exists_steps_of_run _ hok hrun
  simp only [Bool.and_eq_true, Option.any_eq_true, List.all_eq_true, decide_eq_true_eq] at hp
  obtain ⟨⟨⟨⟨⟨r, hr, hcount⟩, hquiet⟩, hend⟩, r', hr', hcount', hdead⟩, hredrives⟩ := hp
  have hpending := (attempts_bounded hs hr).2.2.2 fun tr htr => by
    have hq := hquiet tr htr
    refine ⟨fun now heq => ?_, fun heq => ?_, fun n answer now heq h2 => ?_⟩ <;> subst heq
    · cases hq
    · cases hq
    · simp [quietTransition, h2] at hq
  rw [hcount] at hpending
  obtain ⟨hbound, -, hmax, -⟩ := attempts_bounded (hs.trans hs') hr'
  rw [hredrives] at hbound
  refine ⟨s, s', r, r', hs, hs', hr, hcount, hpending, hr', hcount', hbound, ?_⟩
  rcases hmax hdead with hle | ⟨hlast, -⟩
  · exact hle
  · rw [hlast] at hend
    cases hend

end Hookit.Engine
