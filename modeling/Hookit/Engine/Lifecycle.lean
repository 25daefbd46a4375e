import Hookit.Engine.Machine

/-!
# The life of one delivery

The abstract level: what can happen to a single delivery, without transactions, locks or other
deliveries. A `Dossier` is its row with its attempts and the transitions that led there, and
`Lifecycle` generates the dossiers that a delivery can have.

An attempt is possible on a claimed delivery, and, once a fast-forward has locked it, in any
status but dead-lettered. The rest of the file proves what every lifecycle has in common, by
induction on it:

* `numbered`: the attempts are numbered `1, 2, …, attemptCount`.
* `succeeded_of_last`, `deadLettered_of_last`: how the last attempt of a finished delivery ended.
* `count_le`: at most `max 1 M` attempts and one more for each redrive.
* `pending_due`: a pending delivery is due soon after it was made pending.
-/

namespace Hookit.Engine

open Foundations

/-- A delivery with its attempts and its transitions, oldest first. -/
structure Dossier where
  row : Delivery
  attempts : List DeliveryAttempt
  history : List Transition

/-- The next attempt may start. -/
def Dossier.Attemptable (D : Dossier) : Prop :=
  D.row.status = .inFlight ∨ (.locked ∈ D.history ∧ D.row.status ≠ .deadLettered)

/-- One transition of delivery `d`. -/
inductive Dossier.Step (cfg : Settings) (d : DeliveryId) : Transition → Dossier → Dossier → Prop
  | claimed {D : Dossier} (worker : PyStr) {now : Time} (hdue : isDue now D.row = true) :
      Step cfg d (.claimed now) D
        ⟨claimRow cfg worker now D.row, D.attempts, D.history ++ [.claimed now]⟩
  | locked {D : Dossier} (hrest : D.row.AtRest) :
      Step cfg d .locked D ⟨D.row, D.attempts, D.history ++ [.locked]⟩
  | refused {D : Dossier} (hatt : D.Attemptable) (worker : PyStr) :
      Step cfg d .refused D
        ⟨{ D.row with attemptCount := D.row.attemptCount + 1, status := .deadLettered },
          D.attempts ++ [refusedAttempt d D.row worker], D.history ++ [.refused]⟩
  | answered {D : Dossier} (hatt : D.Attemptable) (worker : PyStr) {answer : Answer}
      (durationMs : ℕ) {now : Time} {draw : Draw} {row : Delivery}
      (hdecide : decideDelivery cfg D.row answer now draw = .ok row) :
      Step cfg d (.answered (D.row.attemptCount + 1) answer now) D
        ⟨row, D.attempts ++ [answeredAttempt d D.row answer durationMs worker],
          D.history ++ [.answered (D.row.attemptCount + 1) answer now]⟩
  | redriven {D : Dossier} (hrest : D.row.AtRest) (now : Time) :
      Step cfg d (.redriven now) D
        ⟨redriveRow now D.row, D.attempts, D.history ++ [.redriven now]⟩

/-- The dossier that ingestion creates. -/
def Dossier.new (eventId : EventId) (endpointId : EndpointId) (now : Time) : Dossier :=
  ⟨.new eventId endpointId now, [], [.created now]⟩

/-- The dossiers that delivery `d` can have. -/
inductive Lifecycle (cfg : Settings) (d : DeliveryId) : Dossier → Prop
  | created (eventId : EventId) (endpointId : EndpointId) (now : Time) :
      Lifecycle cfg d (.new eventId endpointId now)
  | step {tr : Transition} {D D' : Dossier} (h : Lifecycle cfg d D)
      (hstep : Dossier.Step cfg d tr D D') : Lifecycle cfg d D'

/-- The transition does not record a last attempt with a 2xx answer whose body does not decode. -/
def Transition.Decodes (cfg : Settings) (tr : Transition) : Prop :=
  ∀ attemptNumber status message now, tr = .answered attemptNumber (.undecodable status message) now →
    Is2xx status → (attemptNumber : ℤ) < cfg.maxDeliveryAttempts

/-- A transition is the next entry of the history, and keeps what the delivery is of. -/
theorem Dossier.Step.spec {cfg : Settings} {d : DeliveryId} {tr : Transition} {D D' : Dossier}
    (h : Dossier.Step cfg d tr D D') : D'.history = D.history ++ [tr] ∧
      D'.row.eventId = D.row.eventId ∧ D'.row.endpointId = D.row.endpointId := by
  cases h with
  | answered hatt worker durationMs hdecide =>
    refine ⟨rfl, ?_⟩
    rcases decideDelivery_eq_ok_iff.1 hdecide with ⟨-, rfl⟩ | ⟨-, -, rfl⟩ | ⟨-, -, -, rfl⟩ <;>
      exact ⟨rfl, rfl⟩
  | _ => exact ⟨rfl, rfl, rfl⟩

namespace Lifecycle

variable {cfg : Settings} {d : DeliveryId} {D : Dossier}

theorem isDue_iff {now : Time} {r : Delivery} :
    isDue now r = true ↔ r.status = .pending ∧ r.nextAttemptAt ≤ now := by
  simp [isDue]

theorem not_atRest_of_inFlight {r : Delivery} (h : r.status = .inFlight) : ¬ r.AtRest := by
  simp [Delivery.AtRest, h]

/-! ## Numbering -/

/-- **The attempts of a delivery are its own, and are numbered `1, 2, …, attemptCount`.** -/
theorem numbered (h : Lifecycle cfg d D) : (∀ a ∈ D.attempts, a.deliveryId = d) ∧
    D.attempts.map (·.attemptNumber) = List.range' 1 D.row.attemptCount := by
  have snoc : ∀ {l : List DeliveryAttempt} {n : ℕ} {a : DeliveryAttempt}, a.deliveryId = d →
      a.attemptNumber = n + 1 →
      ((∀ b ∈ l, b.deliveryId = d) ∧ l.map (·.attemptNumber) = List.range' 1 n) →
      (∀ b ∈ l ++ [a], b.deliveryId = d) ∧
        (l ++ [a]).map (·.attemptNumber) = List.range' 1 (n + 1) := by
    rintro l n a ha hn ⟨hid, hnum⟩
    refine ⟨fun b hb => ?_, ?_⟩
    · rcases List.mem_append.1 hb with hb | hb
      · exact hid b hb
      · rw [List.mem_singleton.1 hb]
        exact ha
    · rw [List.map_append, hnum, List.range'_concat]
      simp [hn, Nat.add_comm]
  induction h with
  | created eventId endpointId now => exact ⟨nofun, rfl⟩
  | step h hstep ih =>
    cases hstep with
    | claimed worker hdue => exact ih
    | locked hrest => exact ih
    | refused hatt worker => exact snoc rfl rfl ih
    | answered hatt worker durationMs hdecide =>
      rw [(decideDelivery_spec hdecide).1]
      exact snoc rfl rfl ih
    | redriven hrest now => exact ih

theorem length_attempts (h : Lifecycle cfg d D) : D.attempts.length = D.row.attemptCount := by
  have hnum := congrArg List.length h.numbered.2
  simpa using hnum

theorem attemptNumber_le (h : Lifecycle cfg d D) {a : DeliveryAttempt} (ha : a ∈ D.attempts) :
    a.attemptNumber ≤ D.row.attemptCount := by
  have hmem := List.mem_map_of_mem (f := (·.attemptNumber)) ha
  rw [h.numbered.2, List.mem_range'_1] at hmem
  omega

/-- The attempt with number `attemptCount` after one more attempt is that attempt. -/
theorem eq_of_last (h : Lifecycle cfg d D) {a b : DeliveryAttempt} (hb : b ∈ D.attempts ++ [a])
    (hn : b.attemptNumber = D.row.attemptCount + 1) : b = a := by
  rcases List.mem_append.1 hb with hb | hb
  · have hle := h.attemptNumber_le hb
    omega
  · exact List.mem_singleton.1 hb

/-- A delivery that was never attempted waits for its first attempt. -/
theorem status_of_count_zero (h : Lifecycle cfg d D) (h0 : D.row.attemptCount = 0) :
    D.row.status = .pending ∨ D.row.status = .inFlight := by
  induction h with
  | created eventId endpointId now => exact .inl rfl
  | step h hstep ih =>
    cases hstep with
    | claimed worker hdue => exact .inr rfl
    | locked hrest => exact ih h0
    | refused hatt worker => exact absurd h0 (Nat.succ_ne_zero _)
    | answered hatt worker durationMs hdecide =>
      rw [(decideDelivery_spec hdecide).1] at h0
      exact absurd h0 (Nat.succ_ne_zero _)
    | redriven hrest now => exact .inl rfl

/-! ## The last attempt -/

/-- **The last attempt of a succeeded delivery has a 2xx status.** -/
theorem succeeded_of_last (h : Lifecycle cfg d D) (hs : D.row.status = .succeeded)
    {a : DeliveryAttempt} (ha : a ∈ D.attempts) (hn : a.attemptNumber = D.row.attemptCount) :
    a.Answered2xx := by
  induction h with
  | created eventId endpointId now => cases hs
  | step h hstep ih =>
    cases hstep with
    | claimed worker hdue => cases hs
    | locked hrest => exact ih hs ha hn
    | refused hatt worker => cases hs
    | answered hatt worker durationMs hdecide =>
      rw [(decideDelivery_spec hdecide).1] at hn
      rw [h.eq_of_last ha hn]
      rcases decideDelivery_eq_ok_iff.1 hdecide with ⟨hsucc, -⟩ | ⟨-, -, rfl⟩ | ⟨-, -, -, rfl⟩
      · exact Answer.is2xx_of_succeeded hsucc
      · cases hs
      · cases hs
    | redriven hrest now => cases hs

/-- **The last attempt of a dead-lettered delivery has no 2xx status**, where the bodies of
2xx answers to last attempts decoded. -/
theorem deadLettered_of_last (h : Lifecycle cfg d D) (hs : D.row.status = .deadLettered)
    (hdecode : ∀ tr ∈ D.history, tr.Decodes cfg)
    {a : DeliveryAttempt} (ha : a ∈ D.attempts) (hn : a.attemptNumber = D.row.attemptCount) :
    ¬ a.Answered2xx := by
  induction h with
  | created eventId endpointId now => cases hs
  | @step tr D₁ D₂ h hstep ih =>
    cases hstep with
    | claimed worker hdue => cases hs
    | locked hrest =>
      exact ih hs (fun tr htr => hdecode tr (List.mem_append_left _ htr)) ha hn
    | refused hatt worker =>
      rw [h.eq_of_last ha hn]
      rintro ⟨status, hstatus, -⟩
      cases hstatus
    | @answered _ hatt worker answer durationMs now draw row hdecide =>
      rw [(decideDelivery_spec hdecide).1] at hn
      rw [h.eq_of_last ha hn]
      obtain ⟨hfail, hM⟩ : answer.succeeded = false ∧
          cfg.maxDeliveryAttempts ≤ (D₁.row.attemptCount + 1 : ℕ) := by
        rcases decideDelivery_eq_ok_iff.1 hdecide with ⟨-, rfl⟩ | ⟨hfail, hM, -⟩ | ⟨-, -, -, rfl⟩
        · cases hs
        · exact ⟨hfail, hM⟩
        · cases hs
      intro h2
      have hsucc : answer.succeeded = true := by
        refine Answer.succeeded_of_is2xx h2 fun status message heq => ?_
        subst heq
        obtain ⟨_, hstatus, h2xx⟩ := h2
        obtain rfl := Option.some.inj hstatus
        have hlt := hdecode _ (List.mem_append_right _ (List.mem_singleton_self _)) _ _ _ _ rfl h2xx
        exact absurd hM (not_le.2 hlt)
      rw [hfail] at hsucc
      cases hsucc
    | redriven hrest now => cases hs

/-- A succeeded delivery has had an answer that counts as a success. -/
theorem exists_answered_of_succeeded (h : Lifecycle cfg d D) (hs : D.row.status = .succeeded) :
    ∃ n answer now, .answered n answer now ∈ D.history ∧ answer.succeeded = true := by
  induction h with
  | created eventId endpointId now => cases hs
  | step h hstep ih =>
    cases hstep with
    | claimed worker hdue => cases hs
    | locked hrest =>
      obtain ⟨n, answer, now, hmem, hsucc⟩ := ih hs
      exact ⟨n, answer, now, List.mem_append_left _ hmem, hsucc⟩
    | refused hatt worker => cases hs
    | answered hatt worker durationMs hdecide =>
      rcases decideDelivery_eq_ok_iff.1 hdecide with ⟨hsucc, -⟩ | ⟨-, -, rfl⟩ | ⟨-, -, -, rfl⟩
      · exact ⟨_, _, _, List.mem_append_right _ (List.mem_singleton.2 rfl), hsucc⟩
      · cases hs
      · cases hs
    | redriven hrest now => cases hs

/-! ## The bound on the attempts -/

/-- The transition is a redrive. -/
def isRedrive : Transition → Bool
  | .redriven _ => true
  | _ => false

/-- The number of redrives in a history. -/
def redrives (l : List Transition) : ℕ := l.countP isRedrive

@[simp] theorem redrives_concat (l : List Transition) (tr : Transition) :
    redrives (l ++ [tr]) = redrives l + if isRedrive tr then 1 else 0 := by
  simp [redrives, List.countP_append, List.countP_cons]

/-- **At most `max 1 M` attempts and one more for each redrive**, and one less while another
attempt is to come. -/
theorem count_le (h : Lifecycle cfg d D) (hlock : .locked ∉ D.history) :
    (D.row.attemptCount : ℤ) ≤ max 1 cfg.maxDeliveryAttempts + redrives D.history ∧
      (D.row.status = .pending ∨ D.row.status = .inFlight →
        (D.row.attemptCount : ℤ) < max 1 cfg.maxDeliveryAttempts + redrives D.history) := by
  have hone := le_max_left 1 cfg.maxDeliveryAttempts
  have hmax := le_max_right 1 cfg.maxDeliveryAttempts
  induction h with
  | created eventId endpointId now =>
    simp only [Dossier.new, Delivery.new, redrives, List.countP_cons, List.countP_nil, isRedrive]
    omega
  | step h hstep ih =>
    cases hstep with
    | claimed worker hdue =>
      have ih' := ih fun hmem => hlock (List.mem_append_left _ hmem)
      have hlt := ih'.2 (.inl (isDue_iff.1 hdue).1)
      simp only [claimRow, redrives_concat, isRedrive]
      omega
    | locked hrest =>
      exact absurd (List.mem_append_right _ (List.mem_singleton.2 rfl)) hlock
    | refused hatt worker =>
      have hold := fun hmem => hlock (List.mem_append_left _ hmem)
      have hlt := (ih hold).2 (.inr (hatt.resolve_right fun hl => hold hl.1))
      simp only [redrives_concat, isRedrive, reduceCtorEq, or_self, false_imp_iff, and_true]
      push_cast
      omega
    | answered hatt worker durationMs hdecide =>
      have hold := fun hmem => hlock (List.mem_append_left _ hmem)
      have hlt := (ih hold).2 (.inr (hatt.resolve_right fun hl => hold hl.1))
      simp only [redrives_concat, isRedrive]
      rcases decideDelivery_eq_ok_iff.1 hdecide with ⟨-, rfl⟩ | ⟨-, -, rfl⟩ | ⟨-, hM, -, rfl⟩
      · simp only [reduceCtorEq, or_self, false_imp_iff, and_true]
        push_cast
        omega
      · simp only [reduceCtorEq, or_self, false_imp_iff, and_true]
        push_cast
        omega
      · push_cast at hM ⊢
        omega
    | redriven hrest now =>
      have ih' := ih fun hmem => hlock (List.mem_append_left _ hmem)
      simp only [redriveRow, redrives_concat, isRedrive]
      push_cast
      omega

/-- **A delivery that was never redriven** has fewer than `max 1 M` attempts while another one is to
come, whatever fast-forwards have locked it. -/
theorem attemptCount_lt (h : Lifecycle cfg d D) (hredrives : redrives D.history = 0)
    (hs : D.row.status = .pending ∨ D.row.status = .inFlight) :
    (D.row.attemptCount : ℤ) < max 1 cfg.maxDeliveryAttempts := by
  have hone := le_max_left 1 cfg.maxDeliveryAttempts
  have hmax := le_max_right 1 cfg.maxDeliveryAttempts
  induction h with
  | created eventId endpointId now =>
    simp only [Dossier.new, Delivery.new]
    omega
  | step h hstep ih =>
    cases hstep with
    | claimed worker hdue =>
      rw [redrives_concat] at hredrives
      exact ih (by omega) (.inl (isDue_iff.1 hdue).1)
    | locked hrest =>
      rw [redrives_concat] at hredrives
      exact ih (by omega) hs
    | refused hatt worker => simp at hs
    | answered hatt worker durationMs hdecide =>
      rcases decideDelivery_eq_ok_iff.1 hdecide with ⟨-, rfl⟩ | ⟨-, -, rfl⟩ | ⟨-, hM, -, rfl⟩
      · simp at hs
      · simp at hs
      · exact hM.trans_le hmax
    | redriven hrest now =>
      rw [redrives_concat, isRedrive, if_pos rfl] at hredrives
      omega

/-- **A delivery is dead-lettered only by its attempt number `M` or a later one, or by the SSRF
check.** -/
theorem deadLettered_cases (h : Lifecycle cfg d D) (hlock : .locked ∉ D.history)
    (hs : D.row.status = .deadLettered) : 1 ≤ D.row.attemptCount ∧
      (cfg.maxDeliveryAttempts ≤ D.row.attemptCount ∨ (D.history.getLast? = some .refused ∧
        ∃ r worker, D.attempts.getLast? = some (refusedAttempt d r worker))) := by
  induction h with
  | created eventId endpointId now => cases hs
  | step h hstep ih =>
    cases hstep with
    | claimed worker hdue => cases hs
    | locked hrest =>
      exact absurd (List.mem_append_right _ (List.mem_singleton.2 rfl)) hlock
    | refused hatt worker =>
      exact ⟨Nat.succ_pos _, .inr ⟨List.getLast?_concat, _, worker, List.getLast?_concat⟩⟩
    | answered hatt worker durationMs hdecide =>
      rcases decideDelivery_eq_ok_iff.1 hdecide with ⟨-, rfl⟩ | ⟨-, hM, rfl⟩ | ⟨-, -, -, rfl⟩
      · cases hs
      · exact ⟨Nat.succ_pos _, .inl hM⟩
      · cases hs
    | redriven hrest now => cases hs

/-! ## When a pending delivery is due -/

/-- The clock reading of a transition that can leave a delivery pending. -/
def pendingAt : Transition → Option Time
  | .created now => some now
  | .answered _ _ now => some now
  | .redriven now => some now
  | .recovered _ | .claimed _ | .locked | .refused => none

/-- **A pending delivery is due at most `1.1` caps after the last transition**, locks apart. -/
theorem pending_due (h : Lifecycle cfg d D) (hbase : 0 ≤ cfg.retryBaseSeconds)
    (hcap : 0 ≤ cfg.retryCapSeconds) (hs : D.row.status = .pending) :
    ∃ before tr after now, D.history = before ++ tr :: after ∧ (∀ x ∈ after, x = .locked) ∧
      pendingAt tr = some now ∧
      D.row.nextAttemptAt ≤ now + 11 / 10 * cfg.retryCapSeconds := by
  have hnonneg : 0 ≤ 11 / 10 * cfg.retryCapSeconds := by positivity
  induction h with
  | created eventId endpointId now =>
    exact ⟨[], .created now, [], now, rfl, nofun, rfl, le_add_of_nonneg_right hnonneg⟩
  | step h hstep ih =>
    cases hstep with
    | claimed worker hdue => cases hs
    | locked hrest =>
      obtain ⟨before, tr, after, now, hhist, hafter, htr, hle⟩ := ih hs
      refine ⟨before, tr, after ++ [.locked], now, by simp [hhist], fun x hx => ?_, htr, hle⟩
      rcases List.mem_append.1 hx with hx | hx
      · exact hafter x hx
      · exact List.mem_singleton.1 hx
    | refused hatt worker => cases hs
    | answered hatt worker durationMs hdecide =>
      rcases decideDelivery_eq_ok_iff.1 hdecide with ⟨-, rfl⟩ | ⟨-, -, rfl⟩ | ⟨-, -, -, rfl⟩
      · cases hs
      · cases hs
      · exact ⟨_, _, [], _, rfl, nofun, rfl,
          add_le_add_right (jitteredDelay_le _ hbase hcap _) _⟩
    | redriven hrest now =>
      exact ⟨_, .redriven now, [], now, rfl, nofun, rfl, le_add_of_nonneg_right hnonneg⟩

end Lifecycle

end Hookit.Engine
