import Hookit.Models
import Mathlib.Tactic.Linarith
import Mathlib.Tactic.Positivity

/-!
# `app/worker/backoff.py`

Exponential backoff with bounded jitter. Arithmetic is exact, except that a factor of `2 ^ 1024`
or more does not convert to a float, and that the result must be a `datetime`.
-/

namespace Hookit

/-- `datetime.min`, in seconds since the epoch. -/
def datetimeMin : Time := -62135596800

/-- `datetime.max`, in seconds since the epoch. -/
def datetimeMax : Time := 253402300799 + 999999 / 1000000

/-- The delay before the jitter: `min(base * 2 ** (attempt - 1), cap)`. -/
def nominalDelay (attemptNumber : ℕ) (base cap : ℚ) : ℚ :=
  min (base * 2 ^ (attemptNumber - 1)) cap

/-- The delay with its jitter `uniform(0, delay * 0.1)`. -/
def jitteredDelay (attemptNumber : ℕ) (base cap : ℚ) (draw : Draw) : ℚ :=
  nominalDelay attemptNumber base cap + draw.1 * (nominalDelay attemptNumber base cap * (1 / 10))

/-- `compute_next_attempt_at`, at clock reading `now`. -/
def computeNextAttemptAt (attemptNumber : ℕ) (base cap : ℚ) (now : Time) (draw : Draw) :
    Except PyError Time :=
  if 2 ^ 1024 ≤ 2 ^ (attemptNumber - 1) then throw .overflowError
  else
    let next := now + jitteredDelay attemptNumber base cap draw
    if next < datetimeMin ∨ datetimeMax < next then throw .overflowError else return next

/-- The inputs on which the computation stays in range. -/
def BackoffInRange (attemptNumber : ℕ) (base cap : ℚ) (now : Time) (draw : Draw) : Prop :=
  attemptNumber ≤ 1024 ∧ datetimeMin ≤ now + jitteredDelay attemptNumber base cap draw ∧
    now + jitteredDelay attemptNumber base cap draw ≤ datetimeMax

theorem computeNextAttemptAt_eq_ok_iff {n : ℕ} {base cap : ℚ} {now next : Time} {draw : Draw} :
    computeNextAttemptAt n base cap now draw = .ok next ↔
      BackoffInRange n base cap now draw ∧ next = now + jitteredDelay n base cap draw := by
  have hpow : 2 ^ 1024 ≤ 2 ^ (n - 1) ↔ ¬ n ≤ 1024 := by
    rw [Nat.pow_le_pow_iff_right (by omega)]
    omega
  unfold computeNextAttemptAt BackoffInRange
  simp only [hpow]
  by_cases hn : n ≤ 1024
  · rw [if_neg (not_not.2 hn)]
    by_cases hrange : now + jitteredDelay n base cap draw < datetimeMin ∨
        datetimeMax < now + jitteredDelay n base cap draw
    · simp only [hrange, if_true]
      refine ⟨nofun, fun h => ?_⟩
      rcases hrange with hlt | hlt
      · exact absurd h.1.2.1 (not_le.2 hlt)
      · exact absurd h.1.2.2 (not_le.2 hlt)
    · simp only [hrange, if_false]
      rw [not_or, not_lt, not_lt] at hrange
      refine ⟨fun h => ⟨⟨hn, hrange⟩, ?_⟩, fun h => h.2 ▸ rfl⟩
      exact (Except.ok.inj h).symm
  · rw [if_pos hn]
    exact ⟨nofun, fun h => absurd h.1.1 hn⟩

/-- **The delay is at most `1.1` times the cap**, for non-negative settings. -/
theorem jitteredDelay_le (n : ℕ) {base cap : ℚ} (hbase : 0 ≤ base) (hcap : 0 ≤ cap)
    (draw : Draw) : jitteredDelay n base cap draw ≤ 11 / 10 * cap := by
  have hnom : nominalDelay n base cap ≤ cap := min_le_right _ _
  have hpos : 0 ≤ nominalDelay n base cap :=
    le_min (mul_nonneg hbase (by positivity)) hcap
  have hjit : draw.1 * (nominalDelay n base cap * (1 / 10)) ≤
      1 * (nominalDelay n base cap * (1 / 10)) :=
    mul_le_mul_of_nonneg_right draw.2.2 (by positivity)
  unfold jitteredDelay
  linarith

/-- **The delay is the nominal one and at most a tenth of it more.** -/
theorem jitteredDelay_mem (n : ℕ) {base cap : ℚ} (hbase : 0 ≤ base) (hcap : 0 ≤ cap)
    (draw : Draw) : nominalDelay n base cap ≤ jitteredDelay n base cap draw ∧
      jitteredDelay n base cap draw ≤ 11 / 10 * nominalDelay n base cap := by
  have hpos : 0 ≤ nominalDelay n base cap * (1 / 10) :=
    mul_nonneg (le_min (mul_nonneg hbase (by positivity)) hcap) (by norm_num)
  have hlow : 0 ≤ draw.1 * (nominalDelay n base cap * (1 / 10)) := mul_nonneg draw.2.1 hpos
  have hhigh : draw.1 * (nominalDelay n base cap * (1 / 10)) ≤
      1 * (nominalDelay n base cap * (1 / 10)) :=
    mul_le_mul_of_nonneg_right draw.2.2 hpos
  unfold jitteredDelay
  constructor <;> linarith

theorem nominalDelay_mono {m n : ℕ} (hmn : m ≤ n) {base : ℚ} (hbase : 0 ≤ base) (cap : ℚ) :
    nominalDelay m base cap ≤ nominalDelay n base cap := by
  refine min_le_min_right _ (mul_le_mul_of_nonneg_left ?_ hbase)
  exact pow_le_pow_right₀ (by norm_num) (by omega)

/-! ## The schedule of a retry -/

/-- The retry after attempt `attemptNumber` is scheduled without raising, whatever the jitter, at
most a tenth later than its nominal delay; the nominal delay grows with the attempt number and
stays within the cap. -/
structure Schedules (attemptNumber : ℕ) (base cap : ℚ) (now : Time) : Prop where
  returns : ∀ draw, ∃ d, computeNextAttemptAt attemptNumber base cap now draw = .ok (now + d) ∧
    nominalDelay attemptNumber base cap ≤ d ∧ d ≤ 11 / 10 * nominalDelay attemptNumber base cap
  mono : ∀ m ≤ attemptNumber, nominalDelay m base cap ≤ nominalDelay attemptNumber base cap
  le_cap : nominalDelay attemptNumber base cap ≤ cap

end Hookit
