import Hookit.Foundations.Decimal
import Mathlib.Data.Nat.Find
import Mathlib.Tactic.FieldSimp

/-!
# Python's `decimal`: the default context

Results have at most 28 digits and an exponent up to `emax`; below `10 ^ emin` they lose digits.
`InvalidOperation`, `DivisionByZero` and `Overflow` raise, the other signals do not.

* `rounded q` is what the context makes of the exact result `q`, if exponents were unbounded above;
  `ofRat` is the `Decimal` with that value, or `Overflow` (`exists_ofRat_iff`, `value?_ofRat`).
* `sub`, `mul`, `div`, `abs` and `quantize` are the operations, `eq`, `gt`, `ge` and `le` the
  comparisons: all but `==` raise on a NaN.
* `str` is `str(x)` and `fixed` is `format(x, ".2f")`. The sign and the digits of a NaN are not
  kept.
-/

namespace Foundations

open PyStr

/-- The signals that raise in the default context. -/
inductive DecimalException
  | invalidOperation
  | divisionByZero
  | overflow
  deriving DecidableEq

namespace PyDecimal

/-! ## Rounding -/

/-- `Emax`. -/
def emax : ℤ := 999999

/-- `Etiny`, the exponent of the smallest subnormal number. -/
def etiny : ℤ := -1000026

/-- The exponent of the last digit of a result near `q`. -/
def place (q : ℚ) : ℤ := max (Int.log 10 |q| - (precision - 1)) etiny

/-- `q` rounded to the last digit, half to even. -/
def rounded (q : ℚ) : ℚ := roundEven (q / 10 ^ place q) * 10 ^ place q

/-- The number of zeros at the end of a coefficient. -/
def trailingZeros (n : ℕ) : ℕ := Nat.findGreatest (10 ^ · ∣ n) precision

/-- The zeros that the coefficient of the result is rid of: an exact result comes as close to the
ideal exponent as it can, and a carry makes one. -/
def zerosToDrop (q : ℚ) (ideal : ℤ) (coefficient : ℕ) : ℕ :=
  if rounded q = q then min (trailingZeros coefficient) (ideal - place q).toNat
  else if coefficient = 10 ^ precision then 1
  else 0

/-- The result of an operation, given its exact value, the sign that it has if it is 0 and the
ideal exponent. -/
def ofRat (zeroSign : Bool) (ideal : ℤ) (q : ℚ) : Except DecimalException PyDecimal :=
  if q = 0 then .ok (.finite zeroSign 0 (max etiny (min ideal emax)))
  else if emax < Int.log 10 |rounded q| then .error .overflow
  else
    let coefficient := (roundEven (q / 10 ^ place q)).natAbs
    let zeros := zerosToDrop q ideal coefficient
    .ok (.finite (q < 0) (coefficient / 10 ^ zeros) (place q + zeros))

theorem place_pos (q : ℚ) : (0 : ℚ) < 10 ^ place q :=
  zpow_pos (by norm_num) _

@[simp] theorem rounded_zero : rounded 0 = 0 := by
  have hzero : roundEven (0 / 10 ^ place 0) = 0 := by
    rw [zero_div]
    exact roundEven_intCast 0
  rw [rounded, hzero, Int.cast_zero, zero_mul]

theorem rounded_neg (q : ℚ) : rounded (-q) = -rounded q := by
  have hplace : place (-q) = place q := by rw [place, abs_neg, place]
  rw [rounded, hplace, neg_div, roundEven_neg, Int.cast_neg, neg_mul, rounded]

theorem rounded_nonneg {q : ℚ} (h : 0 ≤ q) : 0 ≤ rounded q := by
  refine mul_nonneg ?_ (place_pos q).le
  have : 0 ≤ roundEven (q / 10 ^ place q) := le_roundEven (by
    rw [Int.cast_zero]
    exact div_nonneg h (place_pos q).le)
  exact_mod_cast this

theorem abs_rounded (q : ℚ) : |rounded q| = rounded |q| := by
  rcases le_total 0 q with h | h
  · rw [abs_of_nonneg h, abs_of_nonneg (rounded_nonneg h)]
  · have hneg : rounded q = -rounded |q| := by
      rw [abs_of_nonpos h, rounded_neg, neg_neg]
    rw [hneg, abs_neg, abs_of_nonneg (rounded_nonneg (abs_nonneg q))]

/-- The zeros are there. -/
theorem pow_zerosToDrop_dvd (q : ℚ) (ideal : ℤ) (coefficient : ℕ) :
    10 ^ zerosToDrop q ideal coefficient ∣ coefficient := by
  have hspec : 10 ^ trailingZeros coefficient ∣ coefficient :=
    Nat.findGreatest_spec (P := (10 ^ · ∣ coefficient)) (Nat.zero_le _) (by simp)
  unfold zerosToDrop
  split_ifs with hexact hcarry
  · exact (pow_dvd_pow 10 (min_le_left _ _)).trans hspec
  · rw [hcarry]
    exact pow_dvd_pow 10 (by decide)
  · simp

theorem roundEven_nonpos {q : ℚ} (h : q ≤ 0) : roundEven q ≤ 0 :=
  roundEven_le (by rw [Int.cast_zero]; exact h)

theorem roundEven_nonneg {q : ℚ} (h : 0 ≤ q) : 0 ≤ roundEven q :=
  le_roundEven (by rw [Int.cast_zero]; exact h)

/-- **The value of a result** is the exact value, rounded. -/
theorem value?_ofRat {zeroSign : Bool} {ideal : ℤ} {q : ℚ} {x : PyDecimal}
    (h : ofRat zeroSign ideal q = .ok x) : x.value? = some (rounded q) := by
  unfold ofRat at h
  split_ifs at h with hzero hover
  · obtain rfl := Except.ok.inj h
    simp [value?, hzero]
  · obtain rfl := Except.ok.inj h
    generalize hn : roundEven (q / 10 ^ place q) = n
    generalize hz : zerosToDrop q ideal n.natAbs = z
    obtain ⟨c, hc⟩ : 10 ^ z ∣ n.natAbs := hz ▸ pow_zerosToDrop_dvd q ideal n.natAbs
    have hdiv : n.natAbs / 10 ^ z = c := by
      rw [hc]
      exact Nat.mul_div_cancel_left c (by positivity)
    have hcast : (n.natAbs : ℚ) = 10 ^ z * c := by exact_mod_cast hc
    have hvalue : (c : ℚ) * 10 ^ (place q + z) = n.natAbs * 10 ^ place q := by
      rw [zpow_add₀ (by norm_num), zpow_natCast, hcast]
      ring
    rw [rounded, hn]
    simp only [value?, hdiv, hvalue]
    by_cases hneg : q < 0
    · have hn0 : n ≤ 0 :=
        hn ▸ roundEven_nonpos (div_nonpos_of_nonpos_of_nonneg hneg.le (place_pos q).le)
      have habs : (n.natAbs : ℚ) = -n := by
        rw [← Int.cast_natCast, Int.ofNat_natAbs_of_nonpos hn0, Int.cast_neg]
      simp [hneg, habs]
    · have hn0 : 0 ≤ n := hn ▸ roundEven_nonneg (div_nonneg (not_lt.1 hneg) (place_pos q).le)
      have habs : (n.natAbs : ℚ) = n := by
        rw [← Int.cast_natCast, Int.natAbs_of_nonneg hn0]
      simp [hneg, habs]

/-- **A result does not overflow** if it is below `10 ^ (emax + 1)` when it is rounded. -/
theorem exists_ofRat_iff {zeroSign : Bool} {ideal : ℤ} {q : ℚ} :
    (∃ x, ofRat zeroSign ideal q = .ok x) ↔ rounded |q| < 10 ^ (emax + 1) := by
  rw [← abs_rounded]
  unfold ofRat
  by_cases hzero : q = 0
  · have hpos : (0 : ℚ) < 10 ^ (emax + 1) := zpow_pos (by norm_num) _
    simp [hzero, hpos]
  · rw [if_neg hzero]
    have hlog : emax < Int.log 10 |rounded q| ↔ (10 : ℚ) ^ (emax + 1) ≤ |rounded q| := by
      rcases (abs_nonneg (rounded q)).eq_or_lt with h | h
      · rw [← h, Int.log_zero_right]
        have hpos : (0 : ℚ) < 10 ^ (emax + 1) := zpow_pos (by norm_num) _
        exact iff_of_false (by decide) (not_le.2 hpos)
      · have := Int.zpow_le_iff_le_log (b := 10) (x := emax + 1) (by norm_num) h
        rw [Nat.cast_ofNat] at this
        rw [this]
        omega
    by_cases hover : emax < Int.log 10 |rounded q|
    · rw [if_pos hover]
      exact iff_of_false (by simp) (not_lt.2 (hlog.1 hover))
    · rw [if_neg hover]
      exact iff_of_true ⟨_, rfl⟩ (not_le.1 (mt hlog.2 hover))

/-- The sign of a result that is not negative. -/
theorem ofRat_nonneg {ideal : ℤ} {q : ℚ} {x : PyDecimal} (hq : 0 ≤ q)
    (h : ofRat false ideal q = .ok x) :
    ∃ coefficient exponent, x = .finite false coefficient exponent := by
  have hsign : decide (q < 0) = false := decide_eq_false (not_lt.2 hq)
  unfold ofRat at h
  split_ifs at h
  · exact ⟨_, _, (Except.ok.inj h).symm⟩
  · rw [hsign] at h
    exact ⟨_, _, (Except.ok.inj h).symm⟩

/-! ## Bounds on the rounding -/

theorem roundEven_le_add_half (q : ℚ) : (roundEven q : ℚ) ≤ q + 1 / 2 := by
  have hfloor := Int.floor_le q
  unfold roundEven
  dsimp only
  split_ifs with h
  · linarith
  · push Not at h
    push_cast
    linarith [h.1]

/-- Half below an even integer is rounded to it. -/
theorem le_roundEven_of_even {q : ℚ} {n : ℤ} (hn : 2 ∣ n) (h : n - 1 / 2 ≤ q) :
    n ≤ roundEven q := by
  have hfloor : n - 1 ≤ ⌊q⌋ := Int.le_floor.2 (by push_cast; linarith)
  unfold roundEven
  dsimp only
  split_ifs with hcond
  · by_contra hlt
    have heq : ⌊q⌋ = n - 1 := by omega
    rw [heq] at hcond
    push_cast at hcond
    rcases hcond with hcond | ⟨-, hdvd⟩
    · linarith
    · omega
  · omega

/-- Rounding does not cross a bound on the grid. -/
theorem rounded_le {q : ℚ} {m : ℤ} (h : q ≤ m * 10 ^ place q) : rounded q ≤ m * 10 ^ place q := by
  have hdiv : q / 10 ^ place q ≤ m := by
    rw [div_le_iff₀ (place_pos q)]
    exact h
  have hround : (roundEven (q / 10 ^ place q) : ℚ) ≤ m := by exact_mod_cast roundEven_le hdiv
  exact mul_le_mul_of_nonneg_right hround (place_pos q).le

theorem zpow_eq_mul {k l : ℤ} (h : l ≤ k) :
    (10 : ℚ) ^ k = ((10 ^ (k - l).toNat : ℤ) : ℚ) * 10 ^ l := by
  have hsplit : k = (k - l).toNat + l := by omega
  conv_lhs => rw [hsplit, zpow_add₀ (by norm_num), zpow_natCast]
  push_cast
  rfl

/-- Where the last digit of a number up to a power of ten is. -/
theorem place_le {q : ℚ} {k : ℤ} (hq : 0 < q) (h : q ≤ 10 ^ k) :
    place q ≤ max (k - (precision - 1)) etiny := by
  have hlog : Int.log 10 q ≤ k := by
    have := Int.log_mono_right (b := 10) hq h
    rwa [← Nat.cast_ofNat (R := ℚ) (n := 10), Int.log_zpow (by norm_num)] at this
  rw [place, abs_of_pos hq]
  exact max_le_max_right _ (by omega)

/-- **Rounding does not cross a power of ten.** -/
theorem rounded_le_zpow {q : ℚ} {k : ℤ} (hq : 0 ≤ q) (h : q ≤ 10 ^ k) (hk : etiny ≤ k) :
    rounded q ≤ 10 ^ k := by
  rcases hq.eq_or_lt with rfl | hpos
  · rw [rounded_zero]
    exact (zpow_pos (by norm_num) _).le
  · have hplace : place q ≤ k := (place_le hpos h).trans (max_le (by unfold precision; omega) hk)
    have hgrid := zpow_eq_mul hplace
    rw [hgrid] at h ⊢
    exact rounded_le h

theorem zpow_log_le {q : ℚ} (hq : 0 < q) : (10 : ℚ) ^ Int.log 10 q ≤ q := by
  exact_mod_cast Int.zpow_log_le_self (b := 10) (by norm_num) hq

/-- Rounding does not cross a power of ten from above either. -/
theorem zpow_le_rounded {q : ℚ} {k : ℤ} (h : 10 ^ k ≤ q) (hk : etiny ≤ k) : 10 ^ k ≤ rounded q := by
  have hpos : 0 < q := (zpow_pos (by norm_num) k).trans_le h
  have hlog : k ≤ Int.log 10 q := by
    rw [← Int.zpow_le_iff_le_log (by norm_num) hpos]
    exact_mod_cast h
  have hplace : place q ≤ Int.log 10 q := by
    rw [place, abs_of_pos hpos]
    unfold precision
    omega
  refine (zpow_le_zpow_right₀ (by norm_num) hlog).trans ?_
  have hle := zpow_log_le hpos
  rw [zpow_eq_mul hplace] at hle ⊢
  have hdiv : (((10 ^ (Int.log 10 q - place q).toNat : ℤ)) : ℚ) ≤ q / 10 ^ place q := by
    rw [le_div_iff₀ (place_pos q)]
    exact hle
  exact mul_le_mul_of_nonneg_right (by exact_mod_cast le_roundEven hdiv) (place_pos q).le

/-- Rounding at most doubles a number, but for the subnormal ones. -/
theorem rounded_le_add {q : ℚ} (hq : 0 ≤ q) : rounded q ≤ 2 * q + 10 ^ etiny := by
  have htiny : (0 : ℚ) < 10 ^ etiny := zpow_pos (by norm_num) _
  rcases hq.eq_or_lt with rfl | hpos
  · rw [rounded_zero]
    linarith
  · have hunit : (10 : ℚ) ^ place q ≤ q + 10 ^ etiny := by
      unfold place
      rw [abs_of_pos hpos]
      rcases max_choice (Int.log 10 q - (precision - 1)) etiny with hmax | hmax
      · rw [hmax]
        have hle : Int.log 10 q - (precision - 1) ≤ Int.log 10 q := by
          unfold precision
          omega
        have := (zpow_le_zpow_right₀ (by norm_num : (1 : ℚ) ≤ 10) hle).trans (zpow_log_le hpos)
        linarith
      · rw [hmax]
        linarith
    have hround := mul_le_mul_of_nonneg_right (roundEven_le_add_half (q / 10 ^ place q))
      (place_pos q).le
    rw [add_mul, div_mul_cancel₀ _ (place_pos q).ne'] at hround
    calc rounded q ≤ q + 1 / 2 * 10 ^ place q := hround
      _ ≤ q + 1 / 2 * (q + 10 ^ etiny) := by linarith
      _ ≤ 2 * q + 10 ^ etiny := by linarith

/-- A number on its own grid is left alone. -/
theorem rounded_eq_self {q : ℚ} {m : ℤ} (h : q = m * 10 ^ place q) : rounded q = q := by
  have hdiv : q / 10 ^ place q = m := by
    rw [div_eq_iff (place_pos q).ne']
    exact h
  rw [rounded, hdiv, roundEven_intCast]
  exact h.symm

/-- A number with no digit after its last place is left alone. -/
theorem rounded_eq_self_of_le {q : ℚ} {m f : ℤ} (h : q = m * 10 ^ f) (hf : place q ≤ f) :
    rounded q = q := by
  refine rounded_eq_self (m := m * 10 ^ (f - place q).toNat) ?_
  rw [Int.cast_mul, mul_assoc, ← zpow_eq_mul hf]
  exact h

/-- A number has at most 28 digits in front of its last place. -/
theorem abs_le_pow_precision (q : ℚ) : |roundEven (q / 10 ^ place q)| ≤ 10 ^ precision := by
  have hlt : |q| < 10 ^ (place q + precision) := by
    have hlog := Int.lt_zpow_succ_log_self (b := 10) (by norm_num) |q|
    have hle : Int.log 10 |q| + 1 ≤ place q + precision := by
      unfold place precision
      omega
    have := zpow_le_zpow_right₀ (by norm_num : (1 : ℚ) ≤ 10) hle
    rw [Nat.cast_ofNat] at hlog
    linarith
  rw [zpow_add₀ (by norm_num), zpow_natCast, abs_lt] at hlt
  have hpos := place_pos q
  rw [abs_le]
  constructor
  · refine le_roundEven ?_
    rw [le_div_iff₀ hpos]
    push_cast
    linarith [hlt.1]
  · refine roundEven_le ?_
    rw [div_le_iff₀ hpos]
    push_cast
    linarith [hlt.2]

/-- **What is rounded** is not rounded again. -/
theorem rounded_rounded (q : ℚ) : rounded (rounded q) = rounded q := by
  generalize hn : roundEven (q / 10 ^ place q) = n
  have hx : rounded q = n * 10 ^ place q := by rw [rounded, hn]
  have hsize : |n| ≤ 10 ^ precision := hn ▸ abs_le_pow_precision q
  have htiny : etiny ≤ place q := le_max_right _ _
  rcases eq_or_ne n 0 with rfl | hne
  · rw [hx, Int.cast_zero, zero_mul, rounded_zero]
  have hpos : 0 < |rounded q| := by
    rw [hx]
    exact abs_pos.2 (mul_ne_zero (Int.cast_ne_zero.2 hne) (place_pos q).ne')
  have habs : |rounded q| = |n| * 10 ^ place q := by
    rw [hx, abs_mul, abs_of_pos (place_pos q), Int.cast_abs]
  have hle : |rounded q| ≤ 10 ^ (place q + precision) := by
    have hsize' : ((|n| : ℤ) : ℚ) ≤ 10 ^ precision := by exact_mod_cast hsize
    rw [habs, zpow_add₀ (by norm_num), zpow_natCast, mul_comm]
    exact mul_le_mul_of_nonneg_left hsize' (place_pos q).le
  have hlog : Int.log 10 |rounded q| ≤ place q + precision := by
    have := Int.log_mono_right (b := 10) hpos hle
    rwa [← Nat.cast_ofNat (R := ℚ) (n := 10), Int.log_zpow (by norm_num)] at this
  rcases le_or_gt (place (rounded q)) (place q) with hplace | hplace
  · exact rounded_eq_self_of_le hx hplace
  · -- a carry: the coefficient is `10 ^ precision`, which is on the next grid
    have hlog' : Int.log 10 |rounded q| = place q + precision ∧
        place (rounded q) = place q + 1 := by
      unfold place precision at *
      omega
    have hge : (10 : ℚ) ^ (place q + precision) ≤ |rounded q| := hlog'.1 ▸ zpow_log_le hpos
    have hcarry : |n| = 10 ^ precision := by
      have heq := le_antisymm hle hge
      rw [habs, zpow_add₀ (by norm_num), zpow_natCast, mul_comm] at heq
      exact_mod_cast mul_left_cancel₀ (place_pos q).ne' heq
    have hgrid : (10 : ℚ) ^ precision * 10 ^ place q =
        10 ^ (precision - 1) * 10 ^ (place q + 1) := by
      rw [zpow_add₀ (by norm_num)]
      unfold precision
      norm_num
      ring
    rcases (abs_eq (by positivity)).1 hcarry with rfl | rfl
    · refine rounded_eq_self (m := 10 ^ (precision - 1)) ?_
      rw [hlog'.2, hx]
      push_cast
      exact hgrid
    · refine rounded_eq_self (m := -10 ^ (precision - 1)) ?_
      rw [hlog'.2, hx]
      push_cast
      rw [neg_mul, neg_mul, hgrid]

/-! ## Operations -/

/-- The number that a finite value stands for. -/
def number (negative : Bool) (coefficient : ℕ) (exponent : ℤ) : ℚ :=
  if negative then -(coefficient * 10 ^ exponent) else coefficient * 10 ^ exponent

theorem number_false_nonneg (m : ℕ) (e : ℤ) : 0 ≤ number false m e := by
  rw [number, if_neg Bool.false_ne_true]
  exact mul_nonneg (Nat.cast_nonneg _) (zpow_nonneg (by norm_num) _)

/-- `x - y`. -/
def sub : PyDecimal → PyDecimal → Except DecimalException PyDecimal
  | .nan true, _ => .error .invalidOperation
  | _, .nan true => .error .invalidOperation
  | .nan false, _ => .ok (.nan false)
  | _, .nan false => .ok (.nan false)
  | .infinity s, .infinity t => if s = t then .error .invalidOperation else .ok (.infinity s)
  | .infinity s, .finite _ _ _ => .ok (.infinity s)
  | .finite _ _ _, .infinity t => .ok (.infinity (!t))
  | .finite s m e, .finite t n f => ofRat (s && !t) (min e f) (number s m e - number t n f)

/-- The value with the other sign. -/
def negate : PyDecimal → PyDecimal
  | .finite s m e => .finite (!s) m e
  | .infinity s => .infinity (!s)
  | .nan signalling => .nan signalling

/-- `x + y`. -/
def add (x y : PyDecimal) : Except DecimalException PyDecimal := sub x y.negate

/-- `x * y`. -/
def mul : PyDecimal → PyDecimal → Except DecimalException PyDecimal
  | .nan true, _ => .error .invalidOperation
  | _, .nan true => .error .invalidOperation
  | .nan false, _ => .ok (.nan false)
  | _, .nan false => .ok (.nan false)
  | .infinity s, .infinity t => .ok (.infinity (s ^^ t))
  | .infinity s, .finite t n _ =>
    if n = 0 then .error .invalidOperation else .ok (.infinity (s ^^ t))
  | .finite s m _, .infinity t =>
    if m = 0 then .error .invalidOperation else .ok (.infinity (s ^^ t))
  | .finite s m e, .finite t n f => ofRat (s ^^ t) (e + f) (number s m e * number t n f)

/-- `x / y`. -/
def div : PyDecimal → PyDecimal → Except DecimalException PyDecimal
  | .nan true, _ => .error .invalidOperation
  | _, .nan true => .error .invalidOperation
  | .nan false, _ => .ok (.nan false)
  | _, .nan false => .ok (.nan false)
  | .infinity _, .infinity _ => .error .invalidOperation
  | .infinity s, .finite t _ _ => .ok (.infinity (s ^^ t))
  | .finite s _ _, .infinity t => .ok (.finite (s ^^ t) 0 etiny)
  | .finite s m e, .finite t n f =>
    if n = 0 then .error (if m = 0 then .invalidOperation else .divisionByZero)
    else ofRat (s ^^ t) (e - f) (number s m e / number t n f)

/-- `abs(x)`, which rounds. -/
def abs : PyDecimal → Except DecimalException PyDecimal
  | .nan signalling => if signalling then .error .invalidOperation else .ok (.nan false)
  | .infinity _ => .ok (.infinity false)
  | .finite s m e => ofRat false e |number s m e|

/-- A coefficient and an exponent that `quantize` may result in. -/
def Scales (exponent : ℤ) (coefficient : ℕ) : Prop :=
  etiny ≤ exponent ∧ exponent ≤ emax ∧ coefficient < 10 ^ precision ∧
    exponent + (digitsOf coefficient).length - 1 ≤ emax

instance (exponent : ℤ) (coefficient : ℕ) : Decidable (Scales exponent coefficient) :=
  inferInstanceAs (Decidable (_ ∧ _))

/-- `x.quantize(y)` for a `y` with this exponent. -/
def quantizeTo (exponent : ℤ) : PyDecimal → Except DecimalException PyDecimal
  | .nan signalling => if signalling then .error .invalidOperation else .ok (.nan false)
  | .infinity _ => .error .invalidOperation
  | .finite s m e =>
    let coefficient := (roundEven (number s m e / 10 ^ exponent)).natAbs
    if Scales exponent coefficient then .ok (.finite s coefficient exponent)
    else .error .invalidOperation

/-- `x.quantize(y)` for a `y` with so many decimals. -/
def quantize (places : ℕ) : PyDecimal → Except DecimalException PyDecimal := quantizeTo (-places)

/-- `x.quantize(y)`. -/
def quantizeLike : PyDecimal → PyDecimal → Except DecimalException PyDecimal
  | x, .finite _ _ exponent => quantizeTo exponent x
  | .nan true, _ => .error .invalidOperation
  | _, .nan true => .error .invalidOperation
  | .nan false, _ => .ok (.nan false)
  | _, .nan false => .ok (.nan false)
  | .infinity s, .infinity _ => .ok (.infinity s)
  | .finite _ _ _, .infinity _ => .error .invalidOperation

/-- Where a value lies: the infinities are outside of the numbers, a NaN is nowhere. -/
def rank? : PyDecimal → Option (ℤ × ℚ)
  | .nan _ => none
  | .infinity s => some (if s then -1 else 1, 0)
  | .finite s m e => some (0, number s m e)

/-- `x == y`. -/
def eq : PyDecimal → PyDecimal → Except DecimalException Bool
  | .nan true, _ => .error .invalidOperation
  | _, .nan true => .error .invalidOperation
  | .nan false, _ => .ok false
  | _, .nan false => .ok false
  | x, y => .ok (x.rank? = y.rank?)

/-- `x > y`. -/
def gt (x y : PyDecimal) : Except DecimalException Bool :=
  match x.rank?, y.rank? with
  | some a, some b => .ok (b.1 < a.1 ∨ (b.1 = a.1 ∧ b.2 < a.2))
  | _, _ => .error .invalidOperation

/-- `x >= y`. -/
def ge (x y : PyDecimal) : Except DecimalException Bool :=
  match x.rank?, y.rank? with
  | some a, some b => .ok (b.1 < a.1 ∨ (b.1 = a.1 ∧ b.2 ≤ a.2))
  | _, _ => .error .invalidOperation

/-- `x <= y`. -/
def le (x y : PyDecimal) : Except DecimalException Bool := ge y x

/-! ## Text -/

/-- A coefficient with so many decimals. -/
def withPlaces (coefficient places : ℕ) : PyStr :=
  if places = 0 then PyStr.ofNat coefficient
  else PyStr.ofNat (coefficient / 10 ^ places) ++
    char '.' :: (fixedDigits 10 places coefficient).map digit

/-- A coefficient in scientific notation. -/
def scientific (coefficient : ℕ) (adjusted : ℤ) : PyStr :=
  let digits := PyStr.ofNat coefficient
  digits.take 1 ++ (if digits.length = 1 then [] else char '.' :: digits.drop 1) ++
    char 'E' :: char (if adjusted < 0 then '-' else '+') :: PyStr.ofNat adjusted.natAbs

/-- `str(x)`. -/
def str : PyDecimal → PyStr
  | .nan signalling => ofString (if signalling then "sNaN" else "NaN")
  | .infinity s => ofString (if s then "-Infinity" else "Infinity")
  | .finite s m e =>
    let adjusted := e + (digitsOf m).length - 1
    let text := if e ≤ 0 ∧ -6 ≤ adjusted then withPlaces m e.natAbs else scientific m adjusted
    if s then char '-' :: text else text

/-- `format(x, ".2f")`. -/
def fixed : PyDecimal → PyStr
  | .finite s m e => strCents s (roundEven (m * 10 ^ (e + 2))).toNat
  | x => x.str

/-! ## The operations on numbers -/

/-- A result with this exact value does not overflow. -/
def Fits (q : ℚ) : Prop := rounded |q| < 10 ^ (emax + 1)

/-- What is far below the greatest number does not overflow. -/
theorem fits_of_le {q : ℚ} {k : ℤ} (h : |q| ≤ 10 ^ k) (hk : etiny ≤ k) (htop : k ≤ emax) : Fits q :=
  (rounded_le_zpow (abs_nonneg q) h hk).trans_lt
    (zpow_lt_zpow_right₀ (by norm_num) (by omega))

theorem fits_rounded {q : ℚ} (h : Fits q) : Fits (rounded q) := by
  unfold Fits at h ⊢
  rwa [abs_rounded, rounded_rounded]

section Numbers

variable {x y z : PyDecimal} {a b : ℚ}

/-- A value that is a number is finite. -/
theorem value?_eq_some_iff : x.value? = some a ↔ ∃ s m e, x = .finite s m e ∧ number s m e = a := by
  cases x with
  | finite s m e => simp [value?, number]
  | infinity s => simp [value?]
  | nan signalling => simp [value?]

/-- **A difference is the exact difference, rounded.** -/
theorem sub_eq_ofRat (hx : x.value? = some a) (hy : y.value? = some b) :
    ∃ zeroSign ideal, sub x y = ofRat zeroSign ideal (a - b) := by
  obtain ⟨s, m, e, rfl, rfl⟩ := value?_eq_some_iff.1 hx
  obtain ⟨t, n, f, rfl, rfl⟩ := value?_eq_some_iff.1 hy
  exact ⟨_, _, rfl⟩

theorem value?_negate (hx : x.value? = some a) : x.negate.value? = some (-a) := by
  obtain ⟨s, m, e, rfl, rfl⟩ := value?_eq_some_iff.1 hx
  cases s <;> simp [negate, value?, number]

theorem add_eq_ofRat (hx : x.value? = some a) (hy : y.value? = some b) :
    ∃ zeroSign ideal, add x y = ofRat zeroSign ideal (a + b) := by
  have := sub_eq_ofRat hx (value?_negate hy)
  rwa [sub_neg_eq_add] at this

/-- A product is the exact product, rounded. -/
theorem mul_eq_ofRat (hx : x.value? = some a) (hy : y.value? = some b) :
    ∃ zeroSign ideal, mul x y = ofRat zeroSign ideal (a * b) := by
  obtain ⟨s, m, e, rfl, rfl⟩ := value?_eq_some_iff.1 hx
  obtain ⟨t, n, f, rfl, rfl⟩ := value?_eq_some_iff.1 hy
  exact ⟨_, _, rfl⟩

/-- A quotient is the exact quotient, rounded, but for a divisor of 0. -/
theorem div_eq_ofRat (hx : x.value? = some a) (hy : y.value? = some b) (hb : b ≠ 0) :
    ∃ zeroSign ideal, div x y = ofRat zeroSign ideal (a / b) := by
  obtain ⟨s, m, e, rfl, rfl⟩ := value?_eq_some_iff.1 hx
  obtain ⟨t, n, f, rfl, rfl⟩ := value?_eq_some_iff.1 hy
  have hn : n ≠ 0 := by
    rintro rfl
    exact hb (by simp [number])
  refine ⟨s ^^ t, e - f, ?_⟩
  rw [div, if_neg hn]

theorem abs_eq_ofRat (hx : x.value? = some a) : ∃ ideal, abs x = ofRat false ideal |a| := by
  obtain ⟨s, m, e, rfl, rfl⟩ := value?_eq_some_iff.1 hx
  exact ⟨_, rfl⟩

/-- What an operation returns, given the exact value. -/
theorem exists_of_ofRat {r : Except DecimalException PyDecimal} {q : ℚ}
    (h : ∃ zeroSign ideal, r = ofRat zeroSign ideal q) (hq : Fits q) :
    ∃ z, r = .ok z ∧ z.value? = some (rounded q) := by
  obtain ⟨zeroSign, ideal, rfl⟩ := h
  obtain ⟨z, hz⟩ := exists_ofRat_iff.2 hq
  exact ⟨z, hz, value?_ofRat hz⟩

/-- The other way round. -/
theorem of_eq_ofRat {r : Except DecimalException PyDecimal} {q : ℚ}
    (h : ∃ zeroSign ideal, r = ofRat zeroSign ideal q) (hr : r = .ok z) :
    Fits q ∧ z.value? = some (rounded q) := by
  obtain ⟨zeroSign, ideal, rfl⟩ := h
  exact ⟨exists_ofRat_iff.1 ⟨z, hr⟩, value?_ofRat hr⟩

/-- **A value is brought to an exponent** if the coefficient allows. -/
theorem quantizeTo_eq_ok_iff {exponent : ℤ} (hx : x.value? = some a) :
    (∃ y, quantizeTo exponent x = .ok y) ↔
      Scales exponent (roundEven (a / 10 ^ exponent)).natAbs := by
  obtain ⟨s, m, e, rfl, rfl⟩ := value?_eq_some_iff.1 hx
  simp only [quantizeTo]
  split_ifs with h
  · simp [h]
  · simp [h]

theorem value?_of_quantizeTo {exponent : ℤ} (hx : x.value? = some a)
    (h : quantizeTo exponent x = .ok y) :
    y.value? = some ((roundEven (a / 10 ^ exponent) : ℚ) * 10 ^ exponent) := by
  obtain ⟨s, m, e, rfl, rfl⟩ := value?_eq_some_iff.1 hx
  have hpos : (0 : ℚ) < 10 ^ exponent := zpow_pos (by norm_num) _
  have hnonneg : (0 : ℚ) ≤ m * 10 ^ e / 10 ^ exponent :=
    div_nonneg (mul_nonneg (Nat.cast_nonneg _) (zpow_nonneg (by norm_num) _)) hpos.le
  have hround := roundEven_nonneg hnonneg
  simp only [quantizeTo] at h
  split at h
  · obtain rfl := Except.ok.inj h
    have habs : ((roundEven (m * 10 ^ e / 10 ^ exponent)).natAbs : ℚ) =
        roundEven (m * 10 ^ e / 10 ^ exponent) := by
      rw [← Int.cast_natCast, Int.natAbs_of_nonneg hround]
    cases s with
    | false => simp [value?, number, habs]
    | true => simp [value?, number, neg_div, roundEven_neg, habs]
  · cases h

/-- With few decimals, `quantize` only counts digits. -/
theorem scales_neg_iff {places coefficient : ℕ} (h : places ≤ precision) :
    Scales (-places) coefficient ↔ coefficient < 10 ^ precision := by
  refine ⟨fun hscales => hscales.2.2.1, fun hlt => ⟨?_, ?_, hlt, ?_⟩⟩
  · unfold etiny precision at *
    omega
  · unfold emax
    omega
  · have hlen := length_digitsOf_le (k := precision - 1) hlt
    unfold emax precision at *
    omega

theorem natAbs_roundEven (q : ℚ) : ((roundEven q).natAbs : ℤ) = roundEven |q| := by
  rcases le_total 0 q with h | h
  · rw [abs_of_nonneg h, Int.natAbs_of_nonneg (roundEven_nonneg h)]
  · rw [abs_of_nonpos h, roundEven_neg, Int.ofNat_natAbs_of_nonpos (roundEven_nonpos h)]

theorem div_zpow_neg (a : ℚ) (places : ℕ) : a / 10 ^ (-places : ℤ) = a * 10 ^ places := by
  rw [zpow_neg, zpow_natCast, div_inv_eq_mul]

/-- **A value is quantized** if the result has at most 28 digits. -/
theorem quantize_of_value? {places : ℕ} (hx : x.value? = some a) (h : places ≤ precision) :
    (∃ y, quantize places x = .ok y) ↔ roundEven (|a| * 10 ^ places) < 10 ^ precision := by
  have hcoefficient :
      ((roundEven (a * 10 ^ places)).natAbs : ℤ) = roundEven (|a| * 10 ^ places) := by
    rw [natAbs_roundEven, abs_mul, abs_of_pos (by positivity : (0 : ℚ) < 10 ^ places)]
  rw [quantize, quantizeTo_eq_ok_iff hx, scales_neg_iff h, div_zpow_neg, ← hcoefficient]
  norm_cast

/-- The value that is quantized. -/
theorem value?_of_quantize {places : ℕ} (hx : x.value? = some a) (h : quantize places x = .ok y) :
    y.value? = some ((roundEven (a * 10 ^ places) : ℚ) / 10 ^ places) := by
  rw [value?_of_quantizeTo hx h, div_zpow_neg, zpow_neg, zpow_natCast, ← div_eq_mul_inv]

/-- What is quantized keeps its sign. -/
theorem exists_of_quantize {places : ℕ} {s : Bool} {m : ℕ} {e : ℤ}
    (h : quantize places (.finite s m e) = .ok y) : ∃ c, y = .finite s c (-places) := by
  simp only [quantize, quantizeTo] at h
  split at h
  · exact ⟨_, (Except.ok.inj h).symm⟩
  · cases h

theorem rank?_of_value? (hx : x.value? = some a) : x.rank? = some (0, a) := by
  obtain ⟨s, m, e, rfl, rfl⟩ := value?_eq_some_iff.1 hx
  rfl

theorem eq_of_value? (hx : x.value? = some a) (hy : y.value? = some b) :
    eq x y = .ok (a = b) := by
  obtain ⟨s, m, e, rfl, rfl⟩ := value?_eq_some_iff.1 hx
  obtain ⟨t, n, f, rfl, rfl⟩ := value?_eq_some_iff.1 hy
  simp [eq, rank?]

theorem gt_of_value? (hx : x.value? = some a) (hy : y.value? = some b) :
    gt x y = .ok (b < a) := by
  rw [gt, rank?_of_value? hx, rank?_of_value? hy]
  simp

theorem ge_of_value? (hx : x.value? = some a) (hy : y.value? = some b) :
    ge x y = .ok (b ≤ a) := by
  rw [ge, rank?_of_value? hx, rank?_of_value? hy]
  simp

theorem le_of_value? (hx : x.value? = some a) (hy : y.value? = some b) :
    le x y = .ok (a ≤ b) :=
  ge_of_value? hy hx

end Numbers

/-! ## Amounts of money -/

/-- **An amount of cents** is printed in digits with two decimals. -/
theorem str_cents (negative : Bool) (magnitude : ℕ) :
    str (.finite negative magnitude (-2)) = strCents negative magnitude := by
  have hlen : 1 ≤ (digitsOf magnitude).length := List.length_pos_iff.2 (digitsOf_ne_nil magnitude)
  have hplain : (-2 : ℤ) ≤ 0 ∧ -6 ≤ (-2 : ℤ) + (digitsOf magnitude).length - 1 := by omega
  simp only [str, if_pos hplain]
  rfl

theorem strCents_eq_numeral (m : ℕ) :
    strCents false m = numeral (digitsOf (m / 100)) (fixedDigits 10 2 m) := by
  have hne : fixedDigits 10 2 m ≠ [] := by simp [fixedDigits]
  rw [numeral, if_neg hne]
  rfl

/-- What is printed says the amount. -/
theorem numeralValue_cents (m : ℕ) :
    numeralValue (digitsOf (m / 100)) (fixedDigits 10 2 m) * 100 = m := by
  have hvalue : digitsValue 10 (digitsOf (m / 100) ++ fixedDigits 10 2 m) = m := by
    have hsplit : digitsValue 10 (digitsOf (m / 100) ++ fixedDigits 10 2 m) =
        m % 10 + 10 * (m / 10 % 10 + 10 * digitsValue 10 (digitsOf (m / 100))) := by
      simp [digitsValue, fixedDigits]
    rw [hsplit, digitsValue_digitsOf]
    omega
  rw [numeralValue, hvalue, length_fixedDigits]
  norm_num

/-- The amount that is quantized to cents. -/
theorem quantize_two_eq_ok {m : ℕ} {e : ℤ} {x : PyDecimal}
    (h : quantize 2 (.finite false m e) = .ok x) :
    ∃ cents : ℕ, x = .finite false cents (-2) ∧ cents < 10 ^ precision ∧
      (cents : ℤ) = roundEven (number false m e * 100) := by
  have hvalue : value? (.finite false m e) = some (number false m e) := rfl
  obtain ⟨c, rfl⟩ := exists_of_quantize h
  have hlt := (quantize_of_value? hvalue (by decide)).1 ⟨_, h⟩
  have hcents := Option.some.inj (value?_of_quantize hvalue h)
  rw [abs_of_nonneg (number_false_nonneg m e)] at hlt
  have hhundred : number false m e * 100 = number false m e * 10 ^ 2 := by norm_num
  have heq : (c : ℤ) = roundEven (number false m e * 10 ^ 2) := by
    have hcast : (c : ℚ) = roundEven (number false m e * 10 ^ 2) := by
      have hscaled : (c : ℚ) / 10 ^ 2 = roundEven (number false m e * 10 ^ 2) / 10 ^ 2 := by
        rw [← hcents]
        norm_num [div_eq_mul_inv]
      exact (div_left_inj' (by positivity)).1 hscaled
    exact_mod_cast hcast
  refine ⟨c, rfl, ?_, by rw [hhundred, heq]⟩
  rw [← heq] at hlt
  exact_mod_cast hlt

end PyDecimal

end Foundations
