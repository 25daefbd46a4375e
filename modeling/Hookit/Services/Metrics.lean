import Hookit.Database
import Hookit.Foundations.Double
import Hookit.Routers.Listing

/-!
# `app/services/metrics.py`

`deliverySummary` is `delivery_summary`: counts, the success rate, the percentiles of the latency
and the throughput of one project, on a database.

PostgreSQL's `percentile_cont` interpolates between two neighbours in sorted order, in doubles; so
does `round` round a double to four places. `nearest` is the rounding of every operation.
-/

namespace Hookit

open Foundations Foundations.PyFloat

/-! ## Percentiles -/

/-- `percentile_cont(p) WITHIN GROUP (ORDER BY …)` on integers, `none` on no rows. -/
def percentileCont (p : ℚ) (values : List ℕ) : Option ℚ :=
  let sorted := values.mergeSort (· ≤ ·)
  if sorted = [] then none
  else
    let position := nearest (p * (sorted.length - 1 : ℕ))
    let first := ⌊position⌋.toNat
    let second := ⌈position⌉.toNat
    let lower : ℚ := sorted.getD first 0
    let upper : ℚ := sorted.getD second 0
    if first = second then some lower
    else some (nearest (lower + nearest (nearest (position - first) * nearest (upper - lower))))

/-- `round(x, 4)`. -/
def roundFour (x : ℚ) : ℚ := nearest (roundEven (x * 10 ^ 4) / 10 ^ 4)

/-! ## The summary -/

/-- `StatusTotals`. -/
structure StatusTotals where
  pending : ℕ
  inFlight : ℕ
  succeeded : ℕ
  failed : ℕ
  deadLettered : ℕ
  all : ℕ
  deriving DecidableEq

/-- `LatencyPercentiles`. -/
structure LatencyPercentiles where
  p50 : ℚ
  p95 : ℚ
  p99 : ℚ
  deriving DecidableEq

/-- `MetricsSummaryResponse`. -/
structure MetricsSummaryResponse where
  totals : StatusTotals
  successRate : Option ℚ
  dlqDepth : ℕ
  attemptsTotal : ℕ
  latencyMs : Option LatencyPercentiles
  throughputPerMin : ℕ
  deriving DecidableEq

/-- `_THROUGHPUT_WINDOW_SECONDS`. -/
def throughputWindowSeconds : ℚ := 60

section Summary

variable (db : Database) (project : Uuid)

/-- The deliveries to the endpoints of a project. -/
def Database.projectDeliveries : List (Uuid × DeliveryRow) :=
  db.deliveries.select fun _ r => db.endpointOf project r

/-- The delivery is to an endpoint of the project: the join of `delivery_attempts` with
`deliveries` and `endpoints`. -/
def Database.deliveryOf (deliveryId : Uuid) : Bool :=
  (db.deliveries.get? deliveryId).any fun r => db.endpointOf project r

/-- The attempts on the deliveries of a project. -/
def Database.projectAttempts : List (Uuid × AttemptRow) :=
  db.attempts.select fun _ a => db.deliveryOf project a.deliveryId

/-- `GROUP BY deliveries.status`, for one status. -/
def Database.statusCount (status : DeliveryStatus) : ℕ :=
  (db.projectDeliveries project).countP fun e => e.2.status = status

/-- `totals`. The counts of the five groups add up to `all`. -/
def statusTotals : StatusTotals :=
  let count := db.statusCount project
  { pending := count .pending
    inFlight := count .inFlight
    succeeded := count .succeeded
    failed := count .failed
    deadLettered := count .deadLettered
    all := count .pending + count .inFlight + count .succeeded + count .failed +
      count .deadLettered }

/-- `success_rate`. -/
def successRate (totals : StatusTotals) : Option ℚ :=
  let terminal := totals.succeeded + totals.deadLettered
  if 0 < terminal then some (roundFour (nearest (totals.succeeded / terminal))) else none

theorem successRate_eq_none_iff {totals : StatusTotals} :
    successRate totals = none ↔ totals.succeeded + totals.deadLettered = 0 := by
  rw [successRate]
  by_cases h : 0 < totals.succeeded + totals.deadLettered
  · rw [if_pos h]
    exact ⟨fun hnone => absurd hnone (Option.some_ne_none _), fun hzero => absurd hzero h.ne'⟩
  · rw [if_neg h]
    exact ⟨fun _ => by omega, fun _ => rfl⟩

/-- `latency_ms`: with a first percentile there are all three. -/
def latencyMs : Option LatencyPercentiles :=
  let durations := (db.projectAttempts project).filterMap fun e => e.2.durationMs
  match percentileCont (nearest (1 / 2)) durations, percentileCont (nearest (95 / 100)) durations,
    percentileCont (nearest (99 / 100)) durations with
  | some p50, some p95, some p99 => some ⟨p50, p95, p99⟩
  | _, _, _ => none

/-- `delivery_summary`, at the time `now`. -/
def deliverySummary (now : Time) : MetricsSummaryResponse :=
  let totals := statusTotals db project
  { totals
    successRate := successRate totals
    dlqDepth := totals.deadLettered
    attemptsTotal := (db.projectAttempts project).length
    latencyMs := latencyMs db project
    throughputPerMin := (db.projectDeliveries project).countP fun e =>
      e.2.status = .succeeded ∧ now - throughputWindowSeconds ≤ e.2.updatedAt }

end Summary

end Hookit
