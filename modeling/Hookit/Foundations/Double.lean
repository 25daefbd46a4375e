import Mathlib.Data.Int.Log
import Mathlib.Algebra.Order.Floor.Ring
import Mathlib.Data.Rat.Floor
import Mathlib.Tactic.Linarith
import Mathlib.Tactic.NormNum
import Mathlib.Tactic.Positivity

/-!
# Double-precision arithmetic

A Python `float` is an IEEE 754 double: the result of an operation is the exact result rounded
to the nearest double, ties to the even significand. Finite values are exact rationals.

* `roundEven` rounds to an integer; `nearest` rounds to a multiple of the unit in the last place,
  `2 ^ lastPlace q`; `rounded` adds the overflow.
* `abs_nearest_le`, `le_abs_nearest`: rounding does not cross a bound that is on the grid.
* `PyFloat` has the infinities and the NaN as well; `ofInt?` is `float(n)` for an integer, which
  raises `OverflowError`, and `sub` and `absGt` are subtraction and a comparison.
-/

namespace Foundations

/-- Round to the nearest integer, ties to the even one. -/
def roundEven (q : ℚ) : ℤ :=
  let r := q - ⌊q⌋
  if r < 1 / 2 ∨ (r = 1 / 2 ∧ 2 ∣ ⌊q⌋) then ⌊q⌋ else ⌊q⌋ + 1

@[simp] theorem roundEven_intCast (n : ℤ) : roundEven n = n := by
  rw [roundEven, Int.floor_intCast, sub_self, if_pos (Or.inl (by norm_num))]

theorem roundEven_le {q : ℚ} {n : ℤ} (h : q ≤ n) : roundEven q ≤ n := by
  have hfloor : ⌊q⌋ ≤ n := Int.floor_le_iff.2 (by linarith)
  rcases hfloor.eq_or_lt with heq | hlt
  · have hq : q = n := le_antisymm h (heq ▸ Int.floor_le q)
    rw [hq, roundEven_intCast]
  · unfold roundEven
    dsimp only
    split_ifs <;> omega

theorem le_roundEven {q : ℚ} {n : ℤ} (h : (n : ℚ) ≤ q) : n ≤ roundEven q := by
  have hfloor : n ≤ ⌊q⌋ := Int.le_floor.2 h
  unfold roundEven
  dsimp only
  split_ifs <;> omega

/-- Rounding is the same on both sides of 0. -/
theorem roundEven_neg (q : ℚ) : roundEven (-q) = -roundEven q := by
  rcases (Int.floor_le q).eq_or_lt with hint | hlt
  · rw [← hint, ← Int.cast_neg, roundEven_intCast, roundEven_intCast]
  · have hfloor : ⌊-q⌋ = -⌊q⌋ - 1 := by
      rw [Int.floor_eq_iff]
      push_cast
      exact ⟨by linarith [Int.lt_floor_add_one q], by linarith⟩
    have hrest : -q - ⌊-q⌋ = 1 - (q - ⌊q⌋) := by
      rw [hfloor]
      push_cast
      ring
    unfold roundEven
    dsimp only
    rw [hrest, hfloor]
    rcases lt_trichotomy (q - ⌊q⌋) (1 / 2) with h | h | h
    · rw [if_neg (by rintro (h' | ⟨h', -⟩) <;> linarith), if_pos (.inl h)]
      omega
    · rw [h]
      norm_num
      split_ifs <;> omega
    · rw [if_pos (.inl (by linarith)), if_neg (by rintro (h' | ⟨h', -⟩) <;> linarith)]
      omega

namespace PyFloat

/-! ## Rounding -/

/-- The exponent of the unit in the last place of a double near `q`. -/
def lastPlace (q : ℚ) : ℤ := max (Int.log 2 |q| - 52) (-1074)

/-- The nearest double if exponents were unbounded above. -/
def nearest (q : ℚ) : ℚ := roundEven (q / 2 ^ lastPlace q) * 2 ^ lastPlace q

/-- The double nearest to `q`, unless it overflows. -/
def rounded (q : ℚ) : Option ℚ := if |nearest q| < 2 ^ 1024 then some (nearest q) else none

theorem lastPlace_pos (q : ℚ) : (0 : ℚ) < 2 ^ lastPlace q :=
  zpow_pos (by norm_num) _

/-- **Rounding does not cross a bound on the grid.** -/
theorem abs_nearest_le {q : ℚ} {m : ℤ} (h : |q| ≤ m * 2 ^ lastPlace q) :
    |nearest q| ≤ m * 2 ^ lastPlace q := by
  have hpos := lastPlace_pos q
  rw [abs_le] at h ⊢
  have hlower : ((-m : ℤ) : ℚ) ≤ q / 2 ^ lastPlace q := by
    rw [le_div_iff₀ hpos]
    push_cast
    linarith
  have hupper : q / 2 ^ lastPlace q ≤ m := by
    rw [div_le_iff₀ hpos]
    exact h.2
  have hm : ((-m : ℤ) : ℚ) ≤ roundEven (q / 2 ^ lastPlace q) := by
    exact_mod_cast le_roundEven hlower
  have hm' : (roundEven (q / 2 ^ lastPlace q) : ℚ) ≤ m := by
    exact_mod_cast roundEven_le hupper
  refine ⟨?_, mul_le_mul_of_nonneg_right hm' hpos.le⟩
  have := mul_le_mul_of_nonneg_right hm hpos.le
  unfold nearest
  push_cast at this
  linarith

/-- Rounding does not cross a bound on the grid from above either. -/
theorem le_abs_nearest {q : ℚ} {m : ℤ} (h : m * 2 ^ lastPlace q ≤ |q|) :
    m * 2 ^ lastPlace q ≤ |nearest q| := by
  have hpos := lastPlace_pos q
  rcases le_abs.1 h with h | h
  · have hq : (m : ℚ) ≤ q / 2 ^ lastPlace q := by
      rw [le_div_iff₀ hpos]
      exact h
    have hm : (m : ℚ) ≤ roundEven (q / 2 ^ lastPlace q) := by exact_mod_cast le_roundEven hq
    exact (mul_le_mul_of_nonneg_right hm hpos.le).trans (le_abs_self _)
  · have hq : q / 2 ^ lastPlace q ≤ ((-m : ℤ) : ℚ) := by
      rw [div_le_iff₀ hpos]
      push_cast
      linarith
    have hm : (roundEven (q / 2 ^ lastPlace q) : ℚ) ≤ ((-m : ℤ) : ℚ) := by
      exact_mod_cast roundEven_le hq
    have hle := mul_le_mul_of_nonneg_right hm hpos.le
    push_cast at hle
    refine le_trans ?_ (neg_le_abs _)
    unfold nearest
    linarith

/-- Rounding does not cross a power of two. -/
theorem zpow_log_le_abs_nearest {q : ℚ} (hq : 0 < |q|) (hlog : -1022 ≤ Int.log 2 |q|) :
    2 ^ Int.log 2 |q| ≤ |nearest q| := by
  have hplace : lastPlace q = Int.log 2 |q| - 52 := max_eq_left (by omega)
  have hgrid : ((2 ^ 52 : ℤ) : ℚ) * 2 ^ lastPlace q = 2 ^ Int.log 2 |q| := by
    rw [hplace, zpow_sub₀ (by norm_num)]
    norm_num
    ring
  rw [← hgrid]
  refine le_abs_nearest ?_
  rw [hgrid]
  exact_mod_cast Int.zpow_log_le_self (b := 2) (by norm_num) hq

/-- A number from a power of two on is rounded to one from there on. -/
theorem two_pow_le_abs_nearest {q : ℚ} {k : ℕ} (h : 2 ^ k ≤ |q|) : 2 ^ k ≤ |nearest q| := by
  have hpos : 0 < |q| := lt_of_lt_of_le (by positivity) h
  have hlog : (k : ℤ) ≤ Int.log 2 |q| := by
    by_contra hlt
    rw [not_le, ← Int.lt_zpow_iff_log_lt (by norm_num) hpos] at hlt
    exact absurd h (not_le.2 (by exact_mod_cast hlt))
  have htop : (2 : ℚ) ^ k ≤ 2 ^ Int.log 2 |q| := by
    rw [← zpow_natCast]
    exact zpow_le_zpow_right₀ (by norm_num) hlog
  exact htop.trans (zpow_log_le_abs_nearest hpos (by omega))

/-- **What rounds to a double is in the range of the doubles.** -/
theorem abs_lt_of_rounded {q x : ℚ} (h : rounded q = some x) : |q| < 2 ^ 1024 := by
  by_contra hq
  have hnearest := two_pow_le_abs_nearest (not_lt.1 hq)
  rw [rounded, if_neg (not_lt.2 hnearest)] at h
  cases h

/-- A number on its own grid is left alone. -/
theorem nearest_eq_self {q : ℚ} {m : ℤ} (h : q = m * 2 ^ lastPlace q) : nearest q = q := by
  have hdiv : q / 2 ^ lastPlace q = m := by
    rw [div_eq_iff (lastPlace_pos q).ne']
    exact h
  rw [nearest, hdiv, roundEven_intCast]
  exact h.symm

/-- The grid around a number below `2 ^ 53` has all the integers. -/
theorem lastPlace_nonpos {q : ℚ} (h : |q| < 2 ^ 53) : lastPlace q ≤ 0 := by
  rcases eq_or_ne q 0 with rfl | hq
  · rw [lastPlace, abs_zero, Int.log_zero_right]
    decide
  · have hlog : Int.log 2 |q| < 53 := by
      rw [← Int.lt_zpow_iff_log_lt (by norm_num) (abs_pos.2 hq)]
      exact_mod_cast h
    unfold lastPlace
    omega

theorem exists_intCast_eq {q : ℚ} (n : ℤ) (h : lastPlace q ≤ 0) :
    ∃ m : ℤ, (n : ℚ) = m * 2 ^ lastPlace q := by
  obtain ⟨k, hk⟩ := Int.exists_eq_neg_ofNat h
  refine ⟨n * 2 ^ k, ?_⟩
  rw [hk]
  push_cast
  rw [mul_assoc, zpow_neg, zpow_natCast, mul_inv_cancel₀ (by positivity), mul_one]

/-- An integer bound below `2 ^ 53` survives rounding. -/
theorem abs_nearest_le_intCast {q : ℚ} {n : ℤ} (h : |q| ≤ n) (hn : n < 2 ^ 53) :
    |nearest q| ≤ n := by
  have hq : |q| < 2 ^ 53 := lt_of_le_of_lt h (by exact_mod_cast hn)
  obtain ⟨m, hm⟩ := exists_intCast_eq n (lastPlace_nonpos hq)
  rw [hm] at h ⊢
  exact abs_nearest_le h

/-- **The integers below `2 ^ 53` are doubles.** -/
theorem rounded_intCast {n : ℤ} (h : |n| < 2 ^ 53) : rounded n = some (n : ℚ) := by
  have habs : |(n : ℚ)| < 2 ^ 53 := by exact_mod_cast h
  obtain ⟨m, hm⟩ := exists_intCast_eq (q := n) n (lastPlace_nonpos habs)
  have hself : nearest n = n := nearest_eq_self hm
  rw [rounded, hself, if_pos]
  exact habs.trans (pow_lt_pow_right₀ (by norm_num) (by norm_num))

end PyFloat

/-! ## Values -/

/-- A Python `float`; the doubles are some of the rationals. -/
inductive PyFloat
  | finite (q : ℚ)
  | infinite (negative : Bool)
  | nan
  deriving DecidableEq

namespace PyFloat

/-- A result that is rounded, to an infinity on overflow. -/
def ofRat (q : ℚ) : PyFloat :=
  match rounded q with
  | some x => .finite x
  | none => .infinite (q < 0)

/-- `float(n)`, `none` where it raises `OverflowError`. -/
def ofInt? (n : ℤ) : Option PyFloat := (rounded n).map .finite

/-- `x - y`. -/
def sub : PyFloat → PyFloat → PyFloat
  | .finite x, .finite y => ofRat (x - y)
  | .finite _, .infinite negative => .infinite (!negative)
  | .infinite negative, .finite _ => .infinite negative
  | .infinite a, .infinite b => if a = b then .nan else .infinite a
  | .nan, _ => .nan
  | _, .nan => .nan

/-- `abs(x) > n`. -/
def absGt (x : PyFloat) (n : ℤ) : Bool :=
  match x with
  | .finite q => n < |q|
  | .infinite _ => true
  | .nan => false

theorem ofRat_eq_finite {q x : ℚ} (h : rounded q = some x) : ofRat q = .finite x := by
  unfold ofRat
  rw [h]

/-- **A difference within an integer bound is computed within the bound.** -/
theorem absGt_sub_finite {x y : ℚ} {n : ℤ} (h : |x - y| ≤ n) (hn : n < 2 ^ 53) :
    absGt (sub (.finite x) (.finite y)) n = false := by
  have hle := abs_nearest_le_intCast h hn
  have hround : rounded (x - y) = some (nearest (x - y)) := by
    rw [rounded, if_pos]
    have hlt : (n : ℚ) < 2 ^ 53 := by exact_mod_cast hn
    exact hle.trans_lt (hlt.trans (pow_lt_pow_right₀ (by norm_num) (by norm_num)))
  have hsub : sub (.finite x) (.finite y) = .finite (nearest (x - y)) := ofRat_eq_finite hround
  rw [hsub]
  exact decide_eq_false (not_lt.2 hle)

/-- On the grid of the doubles from 256 to 512 a difference is compared exactly. -/
theorem absGt_sub_finite_iff {x y : ℚ} {m n : ℤ} (h : x - y = m * 2 ^ (-44 : ℤ)) (hn : n < 512) :
    absGt (sub (.finite x) (.finite y)) n = false ↔ |x - y| ≤ n := by
  refine ⟨fun hcomputed => ?_, fun hle => absGt_sub_finite hle (by omega)⟩
  by_contra hgt
  rw [not_le] at hgt
  have hnearest : (n : ℚ) < |nearest (x - y)| := by
    rcases lt_or_ge |x - y| 512 with hlt | hge
    · have hlog : Int.log 2 |x - y| ≤ 8 := by
        rcases eq_or_ne (x - y) 0 with hzero | hne
        · rw [hzero, abs_zero, Int.log_zero_right]
          norm_num
        · have : Int.log 2 |x - y| < 9 := by
            rw [← Int.lt_zpow_iff_log_lt (by norm_num) (abs_pos.2 hne)]
            exact hlt.trans_eq (by norm_num)
          omega
      obtain ⟨k, hk⟩ : ∃ k : ℕ, lastPlace (x - y) = -44 - k := by
        refine ⟨(-44 - lastPlace (x - y)).toNat, ?_⟩
        have : lastPlace (x - y) ≤ -44 := max_le (by omega) (by omega)
        omega
      have hgrid : x - y = ((m * 2 ^ k : ℤ) : ℚ) * 2 ^ lastPlace (x - y) := by
        rw [hk, zpow_sub₀ (by norm_num), zpow_natCast]
        push_cast
        rw [h]
        field_simp
      rwa [nearest_eq_self hgrid]
    · have hn' : (n : ℚ) < 512 := by exact_mod_cast hn
      have := two_pow_le_abs_nearest (q := x - y) (k := 9) (by norm_num at hge ⊢; exact hge)
      norm_num at this
      linarith
  have hsub : absGt (sub (.finite x) (.finite y)) n = true := by
    change absGt (ofRat (x - y)) n = true
    unfold ofRat rounded
    split_ifs
    · exact decide_eq_true hnearest
    · rfl
  rw [hsub] at hcomputed
  cases hcomputed

end PyFloat

end Foundations
